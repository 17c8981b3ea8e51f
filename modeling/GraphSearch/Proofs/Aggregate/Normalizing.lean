import GraphSearch.Aggregate.Reader
import GraphSearch.Proofs.Criteria.Records
/-!
# Aggregations read from normal values

The rewriting of logical groups goes through a whole request, and an aggregation has names of its
own: the columns, which may be called anything.  A column under the name of a group operator is
taken for a group, and if its entry is an object it becomes an array, which is no entry any more.
Everywhere else an aggregation is read from the normal value as it was (`ofJson_normalize`).

`avoidsGroups` says where: it goes through an aggregation as the reader does, so inner
aggregations that are passed over may have columns of any name.
-/

namespace GraphSearch.Aggregation

open Criteria Results

/-! ## 1.  One entry -/

/-- An entry with the values it keeps normalized. -/
def Entry.normal (entry : Entry) : Entry :=
  { entry with orderBy := entry.orderBy.map normalize, aggregate := entry.aggregate.map normalize }

theorem Entry.writesNormal : Json.WritesNormal Entry.write Entry.normal := by
  intro field value entry result h
  unfold Entry.write at h
  split at h
  case h_10 =>
    cases h
    unfold Entry.write
    split
    all_goals first | contradiction | rfl
  all_goals obtain ⟨read, hread, ⟨⟩⟩ := bind_eq_ok.mp h
  case h_1 | h_2 =>
    rw [Json.readsPlain_asString hread]
    exact bind_eq_ok.mpr ⟨read, hread, rfl⟩
  case h_3 =>
    rw [Json.readsPlain_asOptional Json.readsPlain_asString hread]
    exact bind_eq_ok.mpr ⟨read, hread, rfl⟩
  case h_4 =>
    rw [Json.readsPlain_asOptional Json.readsPlain_asBool hread]
    exact bind_eq_ok.mpr ⟨read, hread, rfl⟩
  case h_5 | h_6 | h_7 =>
    rw [Json.readsPlain_asOptional (Json.readsPlain_asCount _) hread]
    exact bind_eq_ok.mpr ⟨read, hread, rfl⟩
  case h_8 | h_9 =>
    exact bind_eq_ok.mpr ⟨read.map normalize, Json.asOptional_asAny_normalize hread, rfl⟩

theorem Entry.ofJson_normalize {value : Json} {entry : Entry} (h : ofJson value = .ok entry) :
    ofJson (normalize value) = .ok entry.normal := by
  cases value with
  | object fields => exact Json.writeFields_normalizeFields writesNormal h
  | array items =>
    obtain ⟨written, hwritten, h⟩ := bind_eq_ok.mp h
    have hnames : ∀ name ∈ fieldNames, isGroupKey name = false := by decide
    refine bind_eq_ok.mpr
      ⟨written.normal, Json.writeItems_normalizeItems writesNormal hnames hwritten, ?_⟩
    rw [normalizeItems_eq_map, List.length_map]
    split at h
    case isTrue => cases h
    case isFalse hlength =>
      cases h
      rw [if_neg hlength]
      rfl
  | _ => cases h

theorem readHead_normalize {column : String} {value : Json} {head : Head}
    (h : readHead column value = .ok head) : readHead column (normalize value) = .ok head := by
  obtain ⟨entry, hentry, h⟩ := bind_eq_ok.mp h
  refine bind_eq_ok.mpr
    ⟨entry.normal, mapError_eq_ok.mpr (Entry.ofJson_normalize (mapError_eq_ok.mp hentry)), ?_⟩
  obtain ⟨function, source, field, uniq, precision, limit, skip, orderBy, aggregate⟩ := entry
  cases function with
  | none => cases h
  | some function =>
  cases source with
  | none => cases h
  | some source =>
  by_cases hcollect : function = "collect"
  · simp only [Entry.normal, if_pos hcollect] at h ⊢
    cases orderBy
    case' some given =>
      obtain ⟨_, horder, h⟩ := bind_eq_ok.mp h
      obtain ⟨order, hgiven, rfl⟩ := map_eq_ok.mp horder
      refine bind_eq_ok.mpr
        ⟨some order, map_eq_ok.mpr ⟨order, SortOrder.ofJson_normalize hgiven, rfl⟩, ?_⟩
    -- with its order read, an entry is looked at for the kind of its inner aggregation only
    all_goals
      cases aggregate with
      | none => exact h
      | some inner =>
        cases inner with
        | object fields => exact h
        | _ => cases h
  · simp only [Entry.normal, if_neg hcollect] at h ⊢
    cases haccumulator : Accumulator.ofName? function with
    | none =>
      rw [haccumulator] at h
      cases h
    | some accumulator =>
      rw [haccumulator] at h
      simp only at h ⊢
      split at h
      case isTrue => cases h
      case isFalse hfield => exact (if_neg hfield).trans h

/-! ## 2.  Columns under the names of group operators -/

/-- The entry of a column asks for an inner aggregation. -/
def rollsUp (column : String) (value : Json) : Bool :=
  match readHead column value with
  | .ok (.rollUp _) => true
  | _ => false

mutual

/-- No column of an aggregation, as far as columns are read, is an object under the name of a
group operator. -/
def avoidsGroups : Json → Bool
  | .object fields => columnsAvoidGroups fields
  | .array _ | .null | .bool _ | .number _ | .string _ => true

def columnsAvoidGroups : List (String × Json) → Bool
  | [] => true
  | (column, value) :: fields => columnAvoidsGroups column value && columnsAvoidGroups fields

def columnAvoidsGroups (column : String) : Json → Bool
  | .object fields =>
    !isGroupKey column && (!rollsUp column (.object fields) || fieldsAvoidGroups fields)
  | .array items => !rollsUp column (.array items) || itemsAvoidGroups innerPlace items
  | .null | .bool _ | .number _ | .string _ => true

/-- The inner aggregation among the fields of an entry avoids group operators. -/
def fieldsAvoidGroups : List (String × Json) → Bool
  | [] => true
  | (key, value) :: fields =>
    if key = innerKey then avoidsGroups value else fieldsAvoidGroups fields

/-- The inner aggregation at a place among the items of an entry avoids group operators. -/
def itemsAvoidGroups : Nat → List Json → Bool
  | _, [] => true
  | 0, value :: _ => avoidsGroups value
  | place + 1, _ :: items => itemsAvoidGroups place items

end

/-! ## 3.  The recursion -/

section

variable {column : String} {value : Json} {head : Head} {aggregate : Aggregate}

theorem rollsUp_of_readHead {collection : Collection}
    (h : readHead column value = .ok (.rollUp collection)) : rollsUp column value = true := by
  rw [rollsUp, h]

/-- What a head comes to depends on the inner aggregation only where it asks for one. -/
theorem Head.complete_of_inner {inner inner' : Unit → Except Rejection Aggregation}
    (hhead : readHead column value = .ok head)
    (hinner : rollsUp column value = true →
      ∀ columns, inner () = .ok columns → inner' () = .ok columns)
    (h : head.complete inner = .ok aggregate) : head.complete inner' = .ok aggregate := by
  cases head with
  | accumulate accumulation => exact h
  | collect collection => exact h
  | rollUp collection =>
    obtain ⟨columns, hcolumns, rfl⟩ := map_eq_ok.mp h
    exact map_eq_ok.mpr ⟨columns, hinner (rollsUp_of_readHead hhead) columns hcolumns, rfl⟩

end

mutual

theorem readInner_normalize (value : Json) (columns : Aggregation)
    (havoids : avoidsGroups value = true) (h : readInner value = .ok columns) :
    readInner (normalize value) = .ok columns := by
  cases value with
  | object fields => exact readColumns_normalize fields columns havoids h
  | _ => exact h

theorem readColumns_normalize (fields : List (String × Json)) (columns : Aggregation)
    (havoids : columnsAvoidGroups fields = true) (h : readColumns fields = .ok columns) :
    readColumns (normalizeFields fields) = .ok columns := by
  cases fields with
  | nil => exact h
  | cons field fields =>
    obtain ⟨column, value⟩ := field
    rw [columnsAvoidGroups, Bool.and_eq_true] at havoids
    obtain ⟨hcolumn, hfields⟩ := havoids
    rw [readColumns] at h
    obtain ⟨aggregate, haggregate, h⟩ := bind_eq_ok.mp h
    obtain ⟨others, hothers, h⟩ := bind_eq_ok.mp h
    rw [normalizeFields, readColumns]
    exact bind_eq_ok.mpr
      ⟨aggregate, readColumn_normalize column value aggregate hcolumn haggregate,
        bind_eq_ok.mpr ⟨others, readColumns_normalize fields others hfields hothers, h⟩⟩

theorem readColumn_normalize (column : String) (value : Json) (aggregate : Aggregate)
    (havoids : columnAvoidsGroups column value = true)
    (h : readColumn column value = .ok aggregate) :
    readColumn column (normalizeUnder (isGroupKey column) value) = .ok aggregate := by
  cases value with
  | object fields =>
    rw [columnAvoidsGroups, Bool.and_eq_true, Bool.not_eq_true'] at havoids
    obtain ⟨hname, havoids⟩ := havoids
    rw [readColumn] at h
    obtain ⟨head, hhead, h⟩ := bind_eq_ok.mp h
    rw [hname, normalizeUnder, if_neg Bool.false_ne_true, readColumn]
    refine bind_eq_ok.mpr ⟨head, readHead_normalize hhead, ?_⟩
    refine Head.complete_of_inner hhead (fun hrolls inner hinner => ?_) h
    rw [hrolls, Bool.not_true, Bool.false_or] at havoids
    exact innerOfFields_normalize fields inner havoids hinner
  | array items =>
    rw [columnAvoidsGroups] at havoids
    rw [readColumn] at h
    obtain ⟨head, hhead, h⟩ := bind_eq_ok.mp h
    rw [normalizeUnder, readColumn]
    refine bind_eq_ok.mpr ⟨head, readHead_normalize hhead, ?_⟩
    refine Head.complete_of_inner hhead (fun hrolls inner hinner => ?_) h
    rw [hrolls, Bool.not_true, Bool.false_or] at havoids
    exact innerOfItems_normalize items innerPlace inner havoids hinner
  | _ => exact h

theorem innerOfFields_normalize (fields : List (String × Json)) (columns : Aggregation)
    (havoids : fieldsAvoidGroups fields = true) (h : innerOfFields fields = .ok columns) :
    innerOfFields (normalizeFields fields) = .ok columns := by
  cases fields with
  | nil => exact h
  | cons field fields =>
    obtain ⟨key, value⟩ := field
    rw [fieldsAvoidGroups] at havoids
    rw [innerOfFields] at h
    rw [normalizeFields, innerOfFields]
    by_cases hkey : key = innerKey
    · rw [if_pos hkey] at havoids h ⊢
      subst hkey
      exact readInner_normalize value columns havoids h
    · rw [if_neg hkey] at havoids h ⊢
      exact innerOfFields_normalize fields columns havoids h

theorem innerOfItems_normalize (items : List Json) (place : Nat) (columns : Aggregation)
    (havoids : itemsAvoidGroups place items = true) (h : innerOfItems place items = .ok columns) :
    innerOfItems place (normalizeItems items) = .ok columns := by
  cases items with
  | nil => exact h
  | cons item items =>
    cases place with
    | zero => exact readInner_normalize item columns havoids h
    | succ place => exact innerOfItems_normalize items place columns havoids h

end

/-- An aggregation none of whose columns is an object under the name of a group operator is read
from its normal value as it was. -/
theorem ofJson_normalize {value : Json} {columns : Aggregation}
    (havoids : avoidsGroups value = true) (h : ofJson value = .ok columns) :
    ofJson (normalize value) = .ok columns := by
  cases value with
  | object fields => exact readColumns_normalize fields columns havoids h
  | _ => cases h

end GraphSearch.Aggregation
