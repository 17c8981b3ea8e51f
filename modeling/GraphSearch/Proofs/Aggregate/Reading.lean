import GraphSearch.Proofs.Aggregate.PostOrder
import GraphSearch.Proofs.Aggregate.Validity
import GraphSearch.Proofs.Json.Proper
/-!
# The shape of what is read as an aggregation

Stages are built from columns without looking at their shape again: that an accumulated column
other than a count has a property, that a column of collected values has no inner columns, that
an order is not empty.  All of this is settled when the columns are read, at every level
(`ofJson_levels`).

An entry gives a field under its name, or in an array at its place, and `null` gives nothing
(`given?`).  Reading writes the fields into a record one after the other, so where no key is there
twice, the record shows of each field what was given for it (`Entry.shown_of_ofJson`).  The inner
aggregation is not read from this record but where it stands in the entry; that is the same value
(`innerOf_of_given?`).

* `readHead_eq_ok`: what the record of an entry comes to;
* `isReadFrom_of_readColumn`: a column against its entry;
* `forall₂_isReadFrom`: one level against its object;
* `ofJson_levels`: every level against the object it is read from (`specAt?`).
-/

namespace GraphSearch

/-! ## 1.  Columns and orders -/

/-- The name of the function of a column. -/
def Aggregate.function : Aggregate → String
  | .accumulate accumulation => accumulation.function.name
  | .collect _ | .rollUp _ _ => "collect"

/-- The property a column reads, if it does not read the records themselves. -/
def Aggregate.field? : Aggregate → Option String
  | .accumulate accumulation => accumulation.field
  | .collect collection => collection.field
  | .rollUp collection _ => collection.field

/-- The column leaves out values that it has already. -/
def Aggregate.distinct : Aggregate → Bool
  | .accumulate accumulation => accumulation.distinct
  | .collect collection => collection.distinct
  | .rollUp collection _ => collection.distinct

theorem Accumulator.eq_name_of_ofName? {function : String} {accumulator : Accumulator}
    (h : ofName? function = some accumulator) : function = accumulator.name := by
  unfold ofName? at h
  split at h
  all_goals
    cases h
    try rfl

/-- An order is a direction, or it has a first property. -/
def SortOrder.IsGiven (order : SortOrder) : Prop :=
  (∃ direction, order = .identity direction) ∨ ∃ first others, order = .properties (first :: others)

theorem SortOrder.isGiven_of_ofJson {key : String} {value : Json} {order : SortOrder}
    (h : ofJson key value = .ok order) : order.IsGiven := by
  unfold ofJson at h
  split at h
  case h_1 =>
    split at h
    case h_1 direction _ =>
      cases h
      exact .inl ⟨direction, rfl⟩
    case h_2 => cases h
  case h_2 =>
    split at h
    case h_1 keys hkeys =>
      cases h
      simp only [List.mapM_cons, Option.bind_eq_bind, Option.bind_eq_some_iff] at hkeys
      obtain ⟨first, -, others, -, hkeys⟩ := hkeys
      exact .inr ⟨first, others, congrArg _ (Option.some.inj hkeys).symm⟩
    case h_2 => cases h
  case h_3 => cases h

/-! ## 2.  Records and what is written into them -/

namespace Json

/-- A value, unless it is `null`. -/
def present? : Json → Option Json
  | .null => none
  | value => some value

theorem present?_eq_some_iff {value shown : Json} :
    present? value = some shown ↔ value ≠ .null ∧ value = shown := by
  cases value <;> simp [present?]

/-- A field that `null` leaves absent holds what was present. -/
theorem map_of_asOptional {α : Type} {read : Json → Except ShapeFault α} {written : α → Json}
    (hread : ∀ value a, read value = .ok a → value = written a) {value : Json}
    {result : Option α} (h : asOptional read value = .ok result) :
    result.map written = present? value := by
  cases value with
  | null =>
    cases h
    rfl
  | _ =>
    obtain ⟨a, ha, rfl⟩ := Results.map_eq_ok.mp h
    exact congrArg some (hread _ a ha).symm

theorem eq_of_asString {value : Json} {text : String} (h : value.asString = .ok text) :
    value = .string text := by
  cases value with
  | string s =>
    cases h
    rfl
  | _ => cases h

theorem eq_of_asBool {value : Json} {b : Bool} (h : value.asBool = .ok b) : value = .bool b := by
  cases value with
  | bool b =>
    cases h
    rfl
  | _ => cases h

theorem eq_of_asCount {bits : Nat} {value : Json} {count : Nat}
    (h : value.asCount bits = .ok count) : value = .number (.int count) := by
  cases value with
  | number n =>
    cases n with
    | int i =>
      rw [asCount] at h
      split at h
      case isTrue hrange =>
        cases h
        rw [Int.toNat_of_nonneg hrange.1]
      case isFalse => cases h
    | float x => cases h
  | _ => cases h

/-- What a record shows of one field after its fields were written: the last write of the field,
which where no key is written twice is the only one. -/
theorem shown_of_writeFields {ρ : Type} {write : String → Json → ρ → Except ShapeFault ρ}
    {name : String} {shown : ρ → Option Json} {worth : Json → Option Json}
    (hwrite : ∀ field value record result, write field value record = .ok result →
      shown result = if field = name then worth value else shown record)
    {fields : List (String × Json)} (hkeys : (Table.keys fields).Nodup) {record result : ρ}
    (h : writeFields write fields record = .ok result) :
    shown result = ((Table.find? name fields).map worth).getD (shown record) := by
  induction fields generalizing record with
  | nil =>
    cases h
    rfl
  | cons field fields ih =>
    obtain ⟨key, value⟩ := field
    rw [writeFields, List.foldlM_cons, Results.bind_eq_ok] at h
    obtain ⟨next, hnext, h⟩ := h
    obtain ⟨hkey, hkeys⟩ := List.nodup_cons.mp hkeys
    rw [ih hkeys h, hwrite _ _ _ _ hnext, Table.find?]
    by_cases heq : key = name
    · have hlast : Table.find? name fields = none := Table.find?_eq_none_iff.mpr (heq ▸ hkey)
      rw [if_pos heq, if_pos heq, hlast]
      rfl
    · rw [if_neg heq, if_neg heq]

end Json

/-- Among names that stand for places, an item is found under the name of its place. -/
theorem Table.find?_zip {α : Type} {names : List String} (hnames : names.Nodup) {place : Nat}
    {name : String} (hplace : names[place]? = some name) (items : List α) :
    Table.find? name (names.zip items) = items[place]? := by
  induction names generalizing place items with
  | nil => cases hplace
  | cons other names ih =>
    obtain ⟨hother, hnames⟩ := List.nodup_cons.mp hnames
    cases items with
    | nil => rfl
    | cons item items =>
      rw [List.zip_cons_cons, Table.find?]
      cases place with
      | zero =>
        obtain rfl := Option.some.inj hplace
        rw [if_pos rfl]
        rfl
      | succ place =>
        have hne : other ≠ name := fun h => hother (h ▸ List.mem_of_getElem? hplace)
        rw [if_neg hne, ih hnames hplace]
        rfl

namespace Aggregation

open Aggregate (Place levelAt?)

/-! ## 3.  What an entry gives -/

/-- The fields an entry gives, an array under the names of its places. -/
def Entry.fields : Json → List (String × Json)
  | .object fields => fields
  | .array items => fieldNames.zip items
  | .null | .bool _ | .number _ | .string _ => []

/-- What an entry gives for a field, where `null` is nothing. -/
def given? (name : String) (value : Json) : Option Json :=
  (Table.find? name (Entry.fields value)).bind Json.present?

/-- What the record of an entry shows of a field. -/
def Entry.shown (name : String) (entry : Entry) : Option Json :=
  match name with
  | "fn" => entry.function.map .string
  | "alias" => entry.source.map .string
  | "field" => entry.field.map .string
  | "uniq" => entry.uniq.map .bool
  | "precision" => entry.precision.map fun (n : Nat) => .number (.int n)
  | "limit" => entry.limit.map fun (n : Nat) => .number (.int n)
  | "skip" => entry.skip.map fun (n : Nat) => .number (.int n)
  | "orderBy" => entry.orderBy
  | "aggregate" => entry.aggregate
  | _ => none

theorem Entry.nodup_fieldNames : fieldNames.Nodup := by
  decide

variable {value : Json} {entry : Entry}

theorem Entry.shown_write_self {name : String} {result : Entry} (hname : name ∈ fieldNames)
    (h : write name value entry = .ok result) : shown name result = Json.present? value := by
  unfold write at h
  split at h
  case h_10 => simp_all [fieldNames, innerKey]
  all_goals obtain ⟨read, hread, ⟨⟩⟩ := Results.bind_eq_ok.mp h
  case h_1 | h_2 =>
    rw [Json.eq_of_asString hread]
    rfl
  case h_3 => exact Json.map_of_asOptional (fun _ _ => Json.eq_of_asString) hread
  case h_4 => exact Json.map_of_asOptional (fun _ _ => Json.eq_of_asBool) hread
  case h_5 | h_6 | h_7 => exact Json.map_of_asOptional (fun _ _ => Json.eq_of_asCount) hread
  case h_8 | h_9 =>
    rw [← Json.map_of_asOptional (fun _ _ hany => Except.ok.inj hany) hread, Option.map_id']
    rfl

theorem Entry.shown_write_of_ne {name field : String} {result : Entry} (hne : field ≠ name)
    (h : write field value entry = .ok result) : shown name result = shown name entry := by
  unfold write at h
  split at h
  case h_10 =>
    cases h
    rfl
  all_goals
    obtain ⟨read, -, ⟨⟩⟩ := Results.bind_eq_ok.mp h
    unfold shown
    split
    all_goals first | contradiction | rfl

/-- What is written is shown under its own field, and nothing else changes. -/
theorem Entry.shown_of_write {name : String} (hname : name ∈ fieldNames) {field : String}
    {value : Json} {entry result : Entry} (h : write field value entry = .ok result) :
    shown name result = if field = name then Json.present? value else shown name entry := by
  split
  case isTrue heq => exact shown_write_self hname (heq ▸ h)
  case isFalse hne => exact shown_write_of_ne hne h

/-- Both forms of an entry are read by writing its fields, and none of them twice. -/
theorem Entry.writeFields_of_ofJson (hproper : value.isProper = true)
    (h : ofJson value = .ok entry) :
    (Table.keys (fields value)).Nodup ∧ Json.writeFields write (fields value) {} = .ok entry := by
  cases value with
  | object members => exact ⟨(Json.areProperFields_iff.mp hproper).1, h⟩
  | array items =>
    obtain ⟨written, hwritten, h⟩ := Results.bind_eq_ok.mp h
    obtain ⟨record, hrecord, hwritten⟩ := Results.bind_eq_ok.mp hwritten
    split at h
    case isTrue => cases h
    case isFalse hlength =>
    split at hwritten
    case isTrue => cases hwritten
    case isFalse =>
      cases h
      cases hwritten
      have hkeys : Table.keys (fields (.array items)) = fieldNames :=
        List.map_fst_zip (Nat.le_of_not_lt hlength)
      exact ⟨hkeys ▸ nodup_fieldNames, hrecord⟩
  | _ => cases h

/-- An entry that is read shows of every field what was given for it. -/
theorem Entry.shown_of_ofJson {name : String} (hname : name ∈ fieldNames)
    (hproper : value.isProper = true) (h : ofJson value = .ok entry) :
    shown name entry = given? name value := by
  obtain ⟨hkeys, hwritten⟩ := writeFields_of_ofJson hproper h
  have hnone : shown name {} = none := by
    unfold shown
    split
    all_goals rfl
  have hwrite : ∀ field value (record result : Entry), write field value record = .ok result →
      shown name result = if field = name then Json.present? value else shown name record :=
    fun _ _ _ _ => shown_of_write hname
  rw [Json.shown_of_writeFields hwrite hkeys hwritten, hnone, given?]
  cases Table.find? name (fields value) with
  | none => rfl
  | some found => rfl

/-! ## 4.  Where the inner aggregation stands -/

/-- Reads the inner aggregation of an entry where it stands. -/
def innerOf : Json → Except Rejection Aggregation
  | .object fields => innerOfFields fields
  | .array items => innerOfItems innerPlace items
  | .null | .bool _ | .number _ | .string _ => .ok []

theorem readColumn_eq (column : String) (value : Json) :
    readColumn column value =
      (readHead column value).bind fun head => head.complete fun _ => innerOf value := by
  cases value <;> rw [readColumn] <;> rfl

theorem innerOfFields_eq (fields : List (String × Json)) :
    innerOfFields fields =
      ((Table.find? innerKey fields).map readInner).getD (.ok []) := by
  induction fields with
  | nil =>
    rw [innerOfFields]
    rfl
  | cons field fields ih =>
    obtain ⟨key, value⟩ := field
    rw [innerOfFields, Table.find?]
    by_cases hkey : key = innerKey
    · rw [if_pos hkey, if_pos hkey]
      rfl
    · rw [if_neg hkey, if_neg hkey, ih]

theorem innerOfItems_eq (place : Nat) (items : List Json) :
    innerOfItems place items = (items[place]?.map readInner).getD (.ok []) := by
  induction items generalizing place with
  | nil =>
    rw [innerOfItems]
    rfl
  | cons item items ih =>
    cases place with
    | zero =>
      rw [innerOfItems]
      rfl
    | succ place =>
      rw [innerOfItems, ih]
      rfl

/-- The inner aggregation is read from what the entry gives under its key. -/
theorem innerOf_of_given? {inner : Json} (h : given? innerKey value = some inner) :
    innerOf value = readInner inner := by
  obtain ⟨found, hfound, hinner⟩ := Option.bind_eq_some_iff.mp h
  obtain ⟨-, rfl⟩ := Json.present?_eq_some_iff.mp hinner
  cases value with
  | object fields =>
    have hfields : Table.find? innerKey fields = some found := hfound
    rw [innerOf, innerOfFields_eq, hfields]
    rfl
  | array items =>
    have hitem : items[innerPlace]? = some found :=
      (Table.find?_zip Entry.nodup_fieldNames rfl items).symm.trans hfound
    rw [innerOf, innerOfItems_eq, hitem]
    rfl
  | _ => cases hfound

theorem isProper_of_given? {name : String} {inner : Json} (hproper : value.isProper = true)
    (h : given? name value = some inner) : inner.isProper = true := by
  obtain ⟨found, hfound, hinner⟩ := Option.bind_eq_some_iff.mp h
  obtain ⟨-, rfl⟩ := Json.present?_eq_some_iff.mp hinner
  have hmem : (name, found) ∈ Entry.fields value := Table.mem_of_find? hfound
  cases value with
  | object fields => exact (Json.areProperFields_iff.mp hproper).2 _ hmem
  | array items => exact Json.areProper_iff.mp hproper _ (List.of_mem_zip hmem).2
  | _ => cases hfound

/-! ## 5.  One column -/

/-- The collection of the column is what the record of its entry says. -/
structure Entry.Collects (entry : Entry) (column : String) (collection : Collection) : Prop where
  function : entry.function = some "collect"
  source : entry.source = some collection.source
  field : collection.field = entry.field
  distinct : collection.distinct = entry.uniq.getD true
  order : entry.orderBy.map (SortOrder.ofJson column) = collection.order.map .ok

theorem Entry.Collects.order_isGiven {column : String} {collection : Collection}
    (h : entry.Collects column collection) : ∀ order ∈ collection.order, order.IsGiven := by
  intro order hmem
  have horder := h.order
  rw [Option.mem_def.mp hmem] at horder
  obtain ⟨given, -, hread⟩ := Option.map_eq_some_iff.mp horder
  exact SortOrder.isGiven_of_ofJson hread

/-- What the record of the entry of a column comes to. -/
inductive Entry.ComesTo (entry : Entry) (column : String) : Head → Prop
  | accumulate (accumulation : Accumulation)
    (function : entry.function = some accumulation.function.name)
    (source : entry.source = some accumulation.source)
    (field : accumulation.field = entry.field)
    (distinct : accumulation.distinct = entry.uniq.getD false)
    (needed : accumulation.function ≠ .count → accumulation.field.isSome) :
    ComesTo entry column (.accumulate accumulation)
  | collect (collection : Collection) (collects : entry.Collects column collection)
    (plain : collection.field = none → entry.aggregate = none) :
    ComesTo entry column (.collect collection)
  | rollUp (collection : Collection) (collects : entry.Collects column collection)
    (records : collection.field = none) (fields : List (String × Json))
    (given : entry.aggregate = some (.object fields)) :
    ComesTo entry column (.rollUp collection)

theorem readHead_eq_ok {column : String} {value : Json} {head : Head}
    (h : readHead column value = .ok head) :
    ∃ entry, Entry.ofJson value = .ok entry ∧ entry.ComesTo column head := by
  obtain ⟨entry, hentry, h⟩ := Results.bind_eq_ok.mp h
  refine ⟨entry, Results.mapError_eq_ok.mp hentry, ?_⟩
  cases hfunction : entry.function with
  | none =>
    rw [hfunction] at h
    cases h
  | some function =>
  cases hsource : entry.source with
  | none =>
    rw [hfunction, hsource] at h
    cases h
  | some source =>
  simp only [hfunction, hsource] at h
  by_cases hcollect : function = "collect"
  · obtain rfl := hcollect
    rw [if_pos rfl] at h
    cases hgiven : entry.orderBy
    all_goals
      simp only [hgiven] at h
      obtain ⟨order, horder, h⟩ := Results.bind_eq_ok.mp h
    case' none =>
      have hread : entry.orderBy.map (SortOrder.ofJson column) = order.map .ok := by
        cases horder
        rw [hgiven]
        rfl
    case' some given =>
      have hread : entry.orderBy.map (SortOrder.ofJson column) = order.map .ok := by
        obtain ⟨_, hread, rfl⟩ := Results.map_eq_ok.mp horder
        rw [hgiven]
        exact congrArg some hread
    -- with its order read, an entry is looked at for its inner aggregation only
    all_goals
      cases haggregate : entry.aggregate with
      | none =>
        rw [haggregate] at h
        cases h
        exact .collect _ ⟨hfunction, hsource, rfl, rfl, hread⟩ fun _ => haggregate
      | some inner =>
        cases inner with
        | object fields =>
          simp only [haggregate] at h
          split at h
          case isTrue hfield =>
            cases h
            refine .collect _ ⟨hfunction, hsource, rfl, rfl, hread⟩ fun hnone => ?_
            rw [show entry.field = none from hnone] at hfield
            cases hfield
          case isFalse hfield =>
            cases h
            exact .rollUp _ ⟨hfunction, hsource, rfl, rfl, hread⟩
              (Option.not_isSome_iff_eq_none.mp hfield) fields haggregate
        | _ =>
          rw [haggregate] at h
          cases h
  · rw [if_neg hcollect] at h
    cases haccumulator : Accumulator.ofName? function with
    | none =>
      rw [haccumulator] at h
      cases h
    | some accumulator =>
      obtain rfl := Accumulator.eq_name_of_ofName? haccumulator
      simp only [haccumulator] at h
      split at h
      case isTrue => cases h
      case isFalse hfield =>
        cases h
        refine .accumulate _ hfunction hsource rfl rfl fun hcount => ?_
        exact Option.isSome_iff_ne_none.mpr fun hnone => hfield ⟨hcount, hnone⟩

section

variable {column : String} {head : Head} {inner : Unit → Except Rejection Aggregation}
  {aggregate : Aggregate}

/-- The inner aggregation adds inner columns to a column and nothing else. -/
theorem Entry.ComesTo.of_complete (hhead : entry.ComesTo column head)
    (h : head.complete inner = .ok aggregate) :
    entry.function = some aggregate.function ∧ entry.source = some aggregate.source ∧
      entry.field = aggregate.field? ∧
      aggregate.distinct = entry.uniq.getD aggregate.collection?.isSome ∧
      (∀ accumulation, aggregate = .accumulate accumulation →
        accumulation.function ≠ .count → accumulation.field.isSome) ∧
      ∀ collection ∈ aggregate.collection?, entry.Collects column collection := by
  cases hhead with
  | accumulate accumulation function source field distinct needed =>
    cases h
    refine ⟨function, source, field.symm, distinct, ?_, ?_⟩
    · rintro _ ⟨⟩
      exact needed
    · rintro _ ⟨⟩
  | collect collection collects plain =>
    cases h
    refine ⟨collects.function, collects.source, collects.field.symm, collects.distinct, ?_, ?_⟩
    · rintro _ ⟨⟩
    · rintro _ ⟨⟩
      exact collects
  | rollUp collection collects records fields given =>
    obtain ⟨columns, -, rfl⟩ := Results.map_eq_ok.mp h
    refine ⟨collects.function, collects.source, collects.field.symm, collects.distinct, ?_, ?_⟩
    · rintro _ ⟨⟩
    · rintro _ ⟨⟩
      exact collects

/-- Inner columns are there for collected records beside an inner aggregation, and come from what
is read there. -/
theorem Entry.ComesTo.inner_of_complete (hhead : entry.ComesTo column head)
    (h : head.complete inner = .ok aggregate) :
    (∀ collection ∈ aggregate.collection?,
      aggregate.inner?.isSome ↔ collection.field = none ∧ entry.aggregate.isSome) ∧
      ∀ columns ∈ aggregate.inner?, inner () = .ok columns ∧
        ∃ fields, entry.aggregate = some (.object fields) := by
  cases hhead with
  | accumulate _ _ _ _ _ _ =>
    cases h
    refine ⟨?_, ?_⟩
    all_goals rintro _ ⟨⟩
  | collect collection collects plain =>
    cases h
    refine ⟨?_, ?_⟩
    · rintro _ ⟨⟩
      constructor
      · rintro ⟨⟩
      · rintro ⟨hrecords, hgiven⟩
        rw [plain hrecords] at hgiven
        cases hgiven
    · rintro _ ⟨⟩
  | rollUp collection collects records fields given =>
    obtain ⟨columns, hread, rfl⟩ := Results.map_eq_ok.mp h
    refine ⟨?_, ?_⟩
    · rintro _ ⟨⟩
      exact iff_of_true rfl ⟨records, given ▸ rfl⟩
    · rintro _ ⟨⟩
      exact ⟨hread, fields, given⟩

end

/-- A column against the entry it is read from, under its name. -/
structure IsReadFrom (column : String) (value : Json) (aggregate : Aggregate) : Prop where
  function : given? "fn" value = some (.string aggregate.function)
  source : given? "alias" value = some (.string aggregate.source)
  field : given? "field" value = aggregate.field?.map Json.string
  /-- Only a count goes without a property. -/
  needed : ∀ accumulation, aggregate = .accumulate accumulation →
    accumulation.function ≠ .count → accumulation.field.isSome
  /-- Collected records have inner columns when an inner aggregation is given, and collected
  values never have. -/
  inner_iff : ∀ collection ∈ aggregate.collection?,
    aggregate.inner?.isSome ↔ collection.field = none ∧ (given? innerKey value).isSome
  /-- Inner columns are read from the inner aggregation that is given. -/
  inner_eq : ∀ inner ∈ aggregate.inner?,
    ∃ given ∈ given? innerKey value, ofJson given = .ok inner
  /-- Lists are collected in the order that is given, -/
  order_eq : ∀ collection ∈ aggregate.collection?,
    (given? "orderBy" value).map (SortOrder.ofJson column) = collection.order.map .ok
  /-- and that is by a direction, or by one property at least. -/
  order_isGiven : ∀ collection ∈ aggregate.collection?, ∀ order ∈ collection.order, order.IsGiven
  /-- Whether values are kept apart is as given, and else true exactly of what collects. -/
  distinct : .bool aggregate.distinct =
    (given? "uniq" value).getD (.bool aggregate.collection?.isSome)

/-- **A column against its entry.** -/
theorem isReadFrom_of_readColumn {column : String} {aggregate : Aggregate}
    (hproper : value.isProper = true) (h : readColumn column value = .ok aggregate) :
    IsReadFrom column value aggregate := by
  rw [readColumn_eq] at h
  obtain ⟨head, hhead, h⟩ := Results.bind_eq_ok.mp h
  obtain ⟨entry, hentry, hhead⟩ := readHead_eq_ok hhead
  have hgiven : ∀ name ∈ Entry.fieldNames, given? name value = Entry.shown name entry :=
    fun name hname => (Entry.shown_of_ofJson hname hproper hentry).symm
  have hfunction : given? "fn" value = entry.function.map Json.string := hgiven _ (by decide)
  have hsource : given? "alias" value = entry.source.map Json.string := hgiven _ (by decide)
  have hfield : given? "field" value = entry.field.map Json.string := hgiven _ (by decide)
  have huniq : given? "uniq" value = entry.uniq.map Json.bool := hgiven _ (by decide)
  have horder : given? "orderBy" value = entry.orderBy := hgiven _ (by decide)
  have hinner : given? innerKey value = entry.aggregate := hgiven _ (by decide)
  obtain ⟨function, source, field, distinct, needed, collects⟩ := hhead.of_complete h
  obtain ⟨inner_iff, hcolumns⟩ := hhead.inner_of_complete h
  constructor
  case function =>
    rw [hfunction, function]
    rfl
  case source =>
    rw [hsource, source]
    rfl
  case field => rw [hfield, field]
  case needed => exact needed
  case inner_iff => rwa [hinner]
  case inner_eq =>
    intro columns hmem
    obtain ⟨hread, fields, hfields⟩ := hcolumns columns hmem
    rw [innerOf_of_given? (hinner.trans hfields), readInner] at hread
    exact ⟨_, hinner.trans hfields, hread⟩
  case order_eq =>
    intro collection hmem
    rw [horder]
    exact (collects collection hmem).order
  case order_isGiven => exact fun collection hmem => (collects collection hmem).order_isGiven
  case distinct =>
    rw [huniq, distinct]
    exact (Option.getD_map Json.bool _ entry.uniq).symm

/-! ## 6.  One level -/

/-- A level has one column to each entry, under its key, in order. -/
theorem forall₂_of_readColumns {fields : List (String × Json)} {columns : Aggregation}
    (h : readColumns fields = .ok columns) :
    List.Forall₂ (fun field column => readColumn field.1 field.2 = .ok column.2) fields columns := by
  induction fields generalizing columns with
  | nil =>
    rw [readColumns] at h
    cases h
    exact .nil
  | cons field fields ih =>
    obtain ⟨column, value⟩ := field
    simp only [readColumns, Results.bind_eq_ok, Results.pure_eq_ok] at h
    obtain ⟨aggregate, haggregate, others, hothers, rfl⟩ := h
    exact .cons haggregate (ih hothers)

theorem forall₂_isReadFrom {fields : List (String × Json)} {columns : Aggregation}
    (hproper : (Json.object fields).isProper = true) (h : ofJson (.object fields) = .ok columns) :
    List.Forall₂ (fun field column => IsReadFrom field.1 field.2 column.2) fields columns := by
  have hfields : List.Forall₂ (fun field column => field.2.isProper = true ∧
      readColumn field.1 field.2 = .ok column.2) fields columns :=
    (List.forall₂_and_left _ _).mpr
      ⟨(Json.areProperFields_iff.mp hproper).2, forall₂_of_readColumns h⟩
  exact hfields.imp fun field column hfield => isReadFrom_of_readColumn hfield.1 hfield.2

/-! ## 7.  Every level -/

/-- What the level at a place is read from. -/
def specAt? : Place → Json → Option Json
  | [], spec => some spec
  | number :: place, .object fields =>
    (fields[number]?.bind fun field => given? innerKey field.2).bind (specAt? place)
  | _ :: _, .array _ | _ :: _, .null | _ :: _, .bool _ | _ :: _, .number _ | _ :: _, .string _ =>
    none

/-- The column under a number and its entry. -/
theorem exists_entry_of_column {fields : List (String × Json)} {columns : Aggregation}
    (h : List.Forall₂ (fun field column => IsReadFrom field.1 field.2 column.2) fields columns)
    {number : Nat} {column : String × Aggregate} (hcolumn : columns[number]? = some column) :
    ∃ field, fields[number]? = some field ∧ IsReadFrom field.1 field.2 column.2 := by
  induction h generalizing number with
  | nil => cases hcolumn
  | cons hfirst _ ih =>
    cases number with
    | zero =>
      obtain rfl := Option.some.inj hcolumn
      exact ⟨_, rfl, hfirst⟩
    | succ number => exact ih hcolumn

/-- **Every level against what it is read from.**  In a value that text can denote, where no object
has a key twice, the level at a place is what is read from the object at that place: it has one
column to each key, in order, and each column is well formed and agrees with its entry. -/
theorem ofJson_levels {spec : Json} {columns : Aggregation} (hproper : spec.isProper = true)
    (h : ofJson spec = .ok columns) (place : Place) {level : Aggregation}
    (hlevel : levelAt? place columns = some level) :
    ∃ fields, specAt? place spec = some (.object fields) ∧ ofJson (.object fields) = .ok level ∧
      Table.keys level = Table.keys fields ∧
      List.Forall₂ (fun field column => IsReadFrom field.1 field.2 column.2) fields level := by
  induction place generalizing spec columns with
  | nil =>
    obtain rfl := Option.some.inj hlevel
    cases spec with
    | object fields => exact ⟨fields, rfl, h, readColumns_names h, forall₂_isReadFrom hproper h⟩
    | _ => cases h
  | cons number place ih =>
    obtain ⟨inner, hinner, hlevel⟩ := Option.bind_eq_some_iff.mp hlevel
    obtain ⟨column, hcolumn, hinner⟩ := Option.bind_eq_some_iff.mp hinner
    cases spec with
    | object fields =>
      obtain ⟨field, hfield, hread⟩ :=
        exists_entry_of_column (forall₂_isReadFrom hproper h) hcolumn
      obtain ⟨given, hgiven, hread⟩ := hread.inner_eq inner hinner
      have hentry : field.2.isProper = true :=
        (Json.areProperFields_iff.mp hproper).2 field (List.mem_of_getElem? hfield)
      rw [specAt?, hfield, Option.bind_some, hgiven, Option.bind_some]
      exact ih (isProper_of_given? hentry hgiven) hread hlevel
    | _ => cases h

/-- Two levels; the outer entry is an array.  The columns of the inner one are a sum, values that
are collected in an order beside an aggregation that is passed over, and records. -/
theorem ofJson_levels_depths :
    let inner : List (String × Json) :=
      [("total", .array [.string "sum", .string "$b", .string "cost", .null, .null, .null, .null,
        .null, .object []]),
      ("names", .object [("aggregate", .object []), ("fn", .string "collect"),
        ("alias", .string "$b"), ("field", .string "name"),
        ("orderBy", .object [("name", .string "asc")])]),
      ("plain", .object [("fn", .string "collect"), ("alias", .string "$b"),
        ("uniq", .bool false), ("aggregate", .null)])]
    let spec : Json := .object [("records", .array [.string "collect", .string "$a", .null, .null,
      .null, .null, .null, .string "desc", .object inner])]
    let level : Aggregation :=
      [("total", .accumulate ⟨.sum, "$b", some "cost", false, none⟩),
      ("names", .collect ⟨"$b", some "name", true, none, none,
        some (.properties [("name", .ascending)])⟩),
      ("plain", .collect ⟨"$b", none, false, none, none, none⟩)]
    let columns : Aggregation :=
      [("records", .rollUp ⟨"$a", none, true, none, none, some (.identity .descending)⟩ level)]
    spec.isProper = true ∧ ofJson spec = .ok columns ∧ levelAt? [0] columns = some level ∧
      ∃ fields, specAt? [0] spec = some (.object fields) ∧ ofJson (.object fields) = .ok level ∧
        Table.keys level = Table.keys fields ∧
        List.Forall₂ (fun field column => IsReadFrom field.1 field.2 column.2) fields level := by
  intro inner spec level columns
  have hproper : spec.isProper = true := rfl
  have h : ofJson spec = .ok columns := rfl
  have hlevel : levelAt? [0] columns = some level := rfl
  exact ⟨hproper, h, hlevel, ofJson_levels hproper h [0] hlevel⟩

end Aggregation
end GraphSearch
