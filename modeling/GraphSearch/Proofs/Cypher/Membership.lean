import GraphSearch.Proofs.Criteria.Grammar
import GraphSearch.Cypher.Predicate
/-!
# Membership and equality

A property can be asked to equal a scalar, or to have an element among several scalars.  Either way
the scalars become texts: `ComparesWith` is the text that equality with an item is written with,
and `ListsTexts` are the texts that `$in` and `$nin` list for their items.

These texts are the same but for one scalar.  What stands in the store for an absent value is what
equality compares with; a list has the word `null` in its place.  So membership and equality agree
on a list of scalars just when it has no `null` in it (`membershipMatchesEquality_iff_notMem`), and
`membership_items` says item by item what is listed.

A list is one text, and a text with commas inside of literals may be cut into items in more than one
way.  So that a `null` makes a difference is shown of the texts as a whole, which part at the first
`null` (`intercalate_ne_of_mem_null`).
-/

namespace GraphSearch.Cypher

open Criteria

variable {options : Options} {node key : String} {items : List Json} {scalars : List Scalar}

/-! ## 1.  What is written -/

/-- `text` is the operand that equality of the property with `item` compares with. -/
def ComparesWith (options : Options) (node key : String) (item : Json) (text : String) : Prop :=
  propertyPredicates options node key item =
    .ok [(Property.mk node key).any ("value = " ++ text)]

/-- The list that is written for `$in` and `$nin` with these items has these texts as its items. -/
structure ListsTexts (options : Options) (node key : String) (items : List Json)
    (texts : List String) : Prop where
  oneOf : propertyPredicates options node key (.object [("$in", .array items)]) =
    .ok [(Property.mk node key).any ("value IN " ++ listOf texts)]
  noneOf : propertyPredicates options node key (.object [("$nin", .array items)]) =
    .ok ["none(value IN " ++ (Property.mk node key).text ++ " WHERE value IN " ++ listOf texts
      ++ ")"]

/-- Membership compares with the same operands as equality, item by item. -/
def MembershipMatchesEquality (options : Options) (node key : String) (items : List Json) : Prop :=
  ∃ texts, ListsTexts options node key items texts ∧
    List.Forall₂ (ComparesWith options node key) items texts

/-- Equality writes its operand. -/
theorem comparesWith_iff {scalar : Scalar} {text : String} :
    ComparesWith options node key scalar.toJson text ↔
      text = operandText options (.scalar scalar) := by
  have hwritten : propertyPredicates options node key scalar.toJson =
      .ok [(Property.mk node key).any ("value = " ++ operandText options (.scalar scalar))] := by
    cases scalar <;> rfl
  rw [ComparesWith, hwritten]
  constructor
  · intro heq
    have htest := Property.any_injective (List.head_eq_of_cons_eq (Except.ok.inj heq))
    simpa using htest.symm
  · rintro rfl
    rfl

/-- An object with one operator asks for one condition. -/
theorem propertyPredicates_singleton {condition : Condition} {field : String × Json}
    (h : condition.WrittenAs field) (hfield : NamesNoComponent [field]) :
    propertyPredicates options node key (.object [field]) =
      .ok (conditionPredicates options ⟨node, key⟩ condition).eraseDups := by
  have hread : readExpression key (.object [field]) = .ok (.all [condition]) :=
    readExpression_eq_ok_iff.mpr (.all hfield (.cons h .nil))
  rw [propertyPredicates, hread, Except.map, expressionPredicates, List.flatMap_singleton]

/-- `$in` and `$nin` write the literals of their items. -/
theorem listsTexts_iff {texts : List String} :
    ListsTexts options node key (scalars.map Scalar.toJson) texts ↔
      listOf texts = scalarList scalars := by
  have hin : propertyPredicates options node key
      (.object [("$in", .array (scalars.map Scalar.toJson))]) =
        .ok [(Property.mk node key).any ("value IN " ++ scalarList scalars)] :=
    propertyPredicates_singleton (.oneOf scalars) (namesNoComponent_iff.mpr Bool.false_ne_true)
  have hnin : propertyPredicates options node key
      (.object [("$nin", .array (scalars.map Scalar.toJson))]) =
        .ok ["none(value IN " ++ (Property.mk node key).text ++ " WHERE value IN " ++
          scalarList scalars ++ ")"] :=
    propertyPredicates_singleton (.noneOf scalars) (namesNoComponent_iff.mpr Bool.false_ne_true)
  constructor
  · intro hlists
    have htest := Property.any_injective (List.head_eq_of_cons_eq (Except.ok.inj
      (hin.symm.trans hlists.oneOf)))
    simpa using htest.symm
  · intro heq
    rw [← heq] at hin hnin
    exact ⟨hin, hnin⟩

/-! ## 2.  Where the texts differ -/

theorem scalarLiteral_eq_operandText (options : Options) {scalar : Scalar} (h : scalar ≠ .null) :
    scalarLiteral scalar = operandText options (.scalar scalar) := by
  cases scalar with
  | null => exact absurd rfl h
  | bool | number | string => rfl

/-- The word for an absent value is no string literal. -/
theorem null_append_ne (raw rest rest' : String) :
    scalarLiteral .null ++ rest ≠ string raw ++ rest' := by
  intro heq
  have hhead := congrArg (fun text => text.toList.head?) heq
  simp [scalarLiteral, Scalar.toJson, literal, Json.compact, string, Json.quote] at hhead

theorem intercalate_cons (separator first : String) (others : List String) :
    separator.intercalate (first :: others) = first ++ separator.intercalate ("" :: others) := by
  rw [← String.intercalate_cons_append, String.append_empty]

/-- Two lists made of the same items are the same text when each item is the same in both, provided
that two texts of an item differ at once if they differ: the lists part at the first such item. -/
theorem intercalate_map_eq_iff {α : Type} {write write' : α → String} {items : List α}
    (h : ∀ a ∈ items, write a = write' a ∨ ∀ rest rest', write a ++ rest ≠ write' a ++ rest') :
    ",".intercalate (items.map write) = ",".intercalate (items.map write') ↔
      ∀ a ∈ items, write a = write' a := by
  refine ⟨fun heq => ?_, fun hsame => by rw [List.map_congr_left hsame]⟩
  induction items with
  | nil => exact List.forall_mem_nil _
  | cons a items ih =>
    obtain ⟨hfirst, hothers⟩ := List.forall_mem_cons.mp h
    rw [List.map_cons, List.map_cons, intercalate_cons _ (write a),
      intercalate_cons _ (write' a)] at heq
    have hsame : write a = write' a := hfirst.resolve_right fun hapart => hapart _ _ heq
    refine List.forall_mem_cons.mpr ⟨hsame, ?_⟩
    rw [hsame] at heq
    cases items with
    | nil => exact List.forall_mem_nil _
    | cons b items =>
      have hne : ∀ w : α → String, (b :: items).map w ≠ [] := fun w => List.cons_ne_nil _ _
      have htails := (String.append_right_inj _).mp heq
      rw [String.intercalate_cons_of_ne_nil (hne write),
        String.intercalate_cons_of_ne_nil (hne write')] at htails
      exact ih hothers ((String.append_right_inj _).mp htails)

/-- The lists differ at the first item that is absent. -/
theorem intercalate_ne_of_mem_null (h : .null ∈ scalars) :
    ",".intercalate (scalars.map scalarLiteral) ≠
      ",".intercalate (scalars.map fun scalar => operandText options (.scalar scalar)) := by
  intro heq
  have hsame := (intercalate_map_eq_iff fun scalar _ => ?_).mp heq .null h
  · exact null_append_ne _ "" "" (congrArg (· ++ "") hsame)
  · by_cases hscalar : scalar = .null
    · subst hscalar
      exact .inr (null_append_ne _)
    · exact .inl (scalarLiteral_eq_operandText options hscalar)

theorem listOf_eq_iff {texts others : List String} :
    listOf texts = listOf others ↔ ",".intercalate texts = ",".intercalate others := by
  simp [listOf]

theorem null_mem_map_toJson : Json.null ∈ scalars.map Scalar.toJson ↔ .null ∈ scalars := by
  rw [List.mem_map]
  constructor
  · rintro ⟨scalar, hscalar, hjson⟩
    obtain rfl : scalar = .null := by cases scalar <;> first | rfl | cases hjson
    exact hscalar
  · intro h
    exact ⟨.null, h, rfl⟩

/-! ## 3.  Item by item -/

theorem membershipMatchesEquality_iff_notMem (h : ∀ item ∈ items, IsScalar item) :
    MembershipMatchesEquality options node key items ↔ .null ∉ items := by
  obtain ⟨scalars, rfl⟩ := exists_scalars_iff.mpr h
  rw [null_mem_map_toJson]
  constructor
  · rintro ⟨texts, hlists, hequal⟩ hmem
    have htexts : texts = scalars.map fun scalar => operandText options (.scalar scalar) := by
      rw [List.forall₂_map_left_iff] at hequal
      rw [← List.forall₂_eq_eq_eq, List.forall₂_map_right_iff]
      exact hequal.flip.imp fun _ _ => comparesWith_iff.mp
    rw [listsTexts_iff, htexts, scalarList, listOf_eq_iff] at hlists
    exact intercalate_ne_of_mem_null hmem hlists.symm
  · intro hmem
    refine ⟨_, listsTexts_iff.mpr rfl, ?_⟩
    rw [List.forall₂_map_left_iff, List.forall₂_map_right_iff, List.forall₂_same]
    intro scalar hscalar
    have hne : scalar ≠ .null := fun heq => hmem (heq ▸ hscalar)
    exact comparesWith_iff.mpr (scalarLiteral_eq_operandText options hne)

/-- **Only the absent value is compared in two ways.**  The texts that `$in` and `$nin` list are the
operands of equality, item by item, except that a `null` is listed as the word and compared with
as what stands for it in the store. -/
theorem membership_items (options : Options) (node key : String) {items : List Json}
    (h : ∀ item ∈ items, IsScalar item) :
    (MembershipMatchesEquality options node key items ↔ .null ∉ items) ∧
      ∃ texts, ListsTexts options node key items texts ∧
        List.Forall₂ (fun item text =>
          (item ≠ .null → ComparesWith options node key item text) ∧
            (item = .null → text = "null" ∧
              ComparesWith options node key item (string options.nullSentinel))) items texts := by
  refine ⟨membershipMatchesEquality_iff_notMem h, ?_⟩
  obtain ⟨scalars, rfl⟩ := exists_scalars_iff.mpr h
  refine ⟨_, listsTexts_iff.mpr rfl, ?_⟩
  rw [List.forall₂_map_left_iff, List.forall₂_map_right_iff, List.forall₂_same]
  intro scalar _
  constructor
  · intro hne
    have hscalar : scalar ≠ .null := by
      rintro rfl
      exact hne rfl
    exact comparesWith_iff.mpr (scalarLiteral_eq_operandText options hscalar)
  · intro hnull
    cases scalar with
    | null => exact ⟨rfl, comparesWith_iff.mpr rfl⟩
    | bool | number | string => cases hnull

theorem membership_items_scalars :
    MembershipMatchesEquality {} "record0" "status"
        [.string "active", .number (.int 21), .bool true, .string "2024-03-01T10:00Z"] ∧
    propertyPredicates {} "record0" "status" (.object [("$in", .array
      [.string "active", .number (.int 21), .bool true, .string "2024-03-01T10:00Z"])]) =
        .ok ["any(value IN record0.status WHERE value IN " ++
          "[\"active\",21,true,datetime(\"2024-03-01T10:00Z\")])"] := by
  refine ⟨(membership_items {} "record0" "status" ?_).1.mpr (by decide), rfl⟩
  simp [IsScalar]

/-- The word is no operand of equality, so a list with a `null` asks for something else. -/
theorem membership_lists_null :
    ¬ MembershipMatchesEquality {} "record0" "status" [.string "active", .null] ∧
    propertyPredicates {} "record0" "status"
        (.object [("$in", .array [.string "active", .null])]) =
      .ok ["any(value IN record0.status WHERE value IN [\"active\",null])"] ∧
    propertyPredicates {} "record0" "status" .null =
      .ok ["any(value IN record0.status WHERE value = \"__NULL__\")"] := by
  refine ⟨fun hmatches => ?_, rfl, rfl⟩
  have hscalars : ∀ item ∈ [Json.string "active", .null], IsScalar item := by simp [IsScalar]
  exact (membershipMatchesEquality_iff_notMem hscalars).mp hmatches (.tail _ (.head _))

end GraphSearch.Cypher
