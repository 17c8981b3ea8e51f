import Mathlib.Data.List.Nodup
import Mathlib.Data.List.Perm.Basic
import GraphSearch.Proofs.Criteria.Grammar
import GraphSearch.Cypher.Predicate
/-!
# Date-times in any order

A date-time is an object, and its keys may be written in any order.

## 1.  Parts in order

What is read is arranged: the more significant parts come first, each component once
(`DateParts.IsArranged`).  A collection of parts has one such arrangement only
(`DateParts.IsArranged.eq_of_perm`), and where no key is written twice, arranging loses none
(`arrange_perm`).  The keys of an object that was parsed are distinct (`Json.isProper`).

## 2.  Dates in another order

`SameDates` relates two values of a property that differ in the order of their date-times only: the
value itself may be one, or operands of its comparators.  What is written as the one value is
written as the other (`Expression.WrittenAs.of_sameDates`), so it does not matter which of them is
read.  The relation allows for a date-time whose own entries have dates below them in another order;
there is none, since amounts are numbers (`eq_of_sameBelow_written`).
-/

namespace GraphSearch.Criteria

open Results

/-! ## 1.  Parts in order -/

/-- How many components are more significant. -/
def Component.rank : Component → Nat
  | .year => 0
  | .month => 1
  | .day => 2
  | .hour => 3
  | .minute => 4
  | .second => 5
  | .millisecond => 6
  | .microsecond => 7
  | .nanosecond => 8

theorem Component.all_pairwise : Component.all.Pairwise fun c d => c.rank < d.rank := by decide

theorem Component.mem_all (component : Component) : component ∈ Component.all := by
  cases component <;> decide

theorem Component.key_injective {component other : Component}
    (h : component.key = other.key) : component = other :=
  Option.some.inj ((ofKey?_eq_some_iff.mpr rfl).symm.trans (ofKey?_eq_some_iff.mpr h))

/-- From the most significant part on, no component twice. -/
def DateParts.IsArranged (parts : DateParts) : Prop :=
  parts.Pairwise fun part next => part.1.rank < next.1.rank

variable {parts others : DateParts}

theorem isArranged_arrange (parts : DateParts) : DateParts.IsArranged (arrange parts) := by
  refine List.Pairwise.filterMap _ (fun component next hlt part hpart other hother => ?_)
    Component.all_pairwise
  obtain ⟨amount, -, rfl⟩ := Option.map_eq_some_iff.mp hpart
  obtain ⟨amount', -, rfl⟩ := Option.map_eq_some_iff.mp hother
  exact hlt

theorem DateParts.IsArranged.nodup (h : parts.IsArranged) : parts.Nodup :=
  h.imp fun hlt => ne_of_apply_ne (fun part => part.1.rank) (Nat.ne_of_lt hlt)

/-- Parts have one arrangement only. -/
theorem DateParts.IsArranged.eq_of_perm (h : parts.IsArranged) (hothers : others.IsArranged)
    (hperm : parts.Perm others) : parts = others :=
  hperm.eq_of_pairwise (fun _ _ _ _ hlt hgt => absurd hgt (Nat.lt_asymm hlt)) h hothers

theorem mem_arrange {part : Component × Int} :
    part ∈ arrange parts ↔ Table.find? part.1 parts = some part.2 := by
  obtain ⟨component, amount⟩ := part
  simp only [arrange, List.mem_filterMap, Option.map_eq_some_iff, Prod.mk.injEq]
  constructor
  · rintro ⟨_, -, _, hfound, rfl, rfl⟩
    exact hfound
  · intro hfound
    exact ⟨component, component.mem_all, amount, hfound, rfl, rfl⟩

/-- Where no component is given twice, arranging loses no part. -/
theorem arrange_perm (h : (Table.keys parts).Nodup) : (arrange parts).Perm parts := by
  rw [List.perm_ext_iff_of_nodup (isArranged_arrange parts).nodup (List.Nodup.of_map Prod.fst h)]
  intro part
  rw [mem_arrange]
  exact ⟨Table.mem_of_find?, Table.find?_of_mem h⟩

/-- The year stands first. -/
theorem head?_arrange (h : ∃ part ∈ parts, part.1 = .year) :
    (arrange parts).head?.map Prod.fst = some .year := by
  obtain ⟨⟨_, amount⟩, hmem, rfl⟩ := h
  cases hfound : Table.find? Component.year parts with
  | none => exact absurd (List.mem_map_of_mem hmem) (Table.find?_eq_none_iff.mp hfound)
  | some found => rw [arrange, Component.all, List.filterMap_cons, hfound]; rfl

theorem writtenPart_injective : Function.Injective writtenPart := by
  rintro ⟨component, amount⟩ ⟨other, amount'⟩ h
  obtain ⟨hkey, hamount⟩ := Prod.mk.inj h
  obtain rfl : component = other := Component.key_injective hkey
  obtain rfl : amount = amount' := Number.int.inj (Json.number.inj hamount)
  rfl

theorem keys_nodup_of_written (h : (Table.keys (parts.map writtenPart)).Nodup) :
    (Table.keys parts).Nodup := by
  refine List.Nodup.of_map Component.key ?_
  simpa [Table.keys, writtenPart, Function.comp_def] using h

/-! ## 2.  Dates in another order -/

/-- The same entries in another order, of an object that is read as a date-time. -/
structure SameDate (fields others : List (String × Json)) : Prop where
  mentions : mentionsComponent fields = true
  keys : (Table.keys fields).Nodup
  perm : fields.Perm others

/-- The same entry, unless it is a comparator whose operand is a date-time: that may be written
in another order. -/
inductive SameBelow : String × Json → String × Json → Prop
  | same (field : String × Json) : SameBelow field field
  | operand (comparator : Comparator) {fields others : List (String × Json)}
      (h : SameDate fields others) :
      SameBelow (comparator.key, .object fields) (comparator.key, .object others)

/-- The same value of a property but for the order in which its date-times are written: the value
itself, or operands of its comparators. -/
inductive SameDates : Json → Json → Prop
  | same (value : Json) : SameDates value value
  | whole {fields others : List (String × Json)} (h : SameDate fields others) :
      SameDates (.object fields) (.object others)
  | operands {fields others : List (String × Json)} (h : List.Forall₂ SameBelow fields others) :
      SameDates (.object fields) (.object others)

section

variable {fields others : List (String × Json)} {value other : Json}

theorem SameDate.symm (h : SameDate fields others) : SameDate others fields := by
  refine ⟨?_, (h.perm.map Prod.fst).nodup_iff.mp h.keys, h.perm.symm⟩
  obtain ⟨field, hfield, hcomponent⟩ := mentionsComponent_iff.mp h.mentions
  exact mentionsComponent_iff.mpr ⟨field, h.perm.mem_iff.mp hfield, hcomponent⟩

theorem SameBelow.symm {field other : String × Json} (h : SameBelow field other) :
    SameBelow other field := by
  cases h with
  | same => exact .same field
  | operand comparator h => exact .operand comparator h.symm

theorem SameDates.symm (h : SameDates value other) : SameDates other value := by
  cases h with
  | same => exact .same value
  | whole h => exact .whole h.symm
  | operands h => exact .operands (h.flip.imp fun _ _ => SameBelow.symm)

/-- A date-time in another order is read to the same parts, since they are arranged. -/
theorem Operand.WrittenAs.of_sameDate {operand : Operand}
    (h : operand.WrittenAs (.object fields)) (hsame : SameDate fields others) :
    operand.WrittenAs (.object others) := by
  generalize hwritten : Json.object fields = written at h
  cases h with
  | scalar scalar => cases scalar <;> cases hwritten
  | @date parts hyear =>
    obtain rfl := Json.object.inj hwritten
    obtain ⟨parts', rfl⟩ : ∃ parts' : DateParts, others = parts'.map writtenPart := by
      refine exists_eq_map_iff.mpr fun field hfield => ?_
      obtain ⟨part, -, rfl⟩ := List.mem_map.mp (hsame.perm.mem_iff.mpr hfield)
      exact ⟨part, rfl⟩
    have hparts : parts.Perm parts' :=
      (List.map_perm_map_iff writtenPart_injective).mp hsame.perm
    have hnodup := keys_nodup_of_written hsame.keys
    have hnodup' : (Table.keys parts').Nodup := (hparts.map Prod.fst).nodup_iff.mp hnodup
    have harranged : arrange parts = arrange parts' :=
      (isArranged_arrange parts).eq_of_perm (isArranged_arrange parts')
        ((arrange_perm hnodup).trans (hparts.trans (arrange_perm hnodup').symm))
    obtain ⟨part, hpart, hcomponent⟩ := hyear
    rw [harranged]
    exact .date ⟨part, hparts.mem_iff.mp hpart, hcomponent⟩

/-- What is written under a comparator is a comparison. -/
theorem Condition.WrittenAs.of_comparator {condition : Condition} {comparator : Comparator}
    (h : condition.WrittenAs (comparator.key, value)) :
    ∃ operand : Operand, condition = .compare comparator operand ∧ operand.WrittenAs value := by
  have hread := Comparator.ofKey?_eq_some_iff.mpr (Eq.refl comparator.key)
  generalize hfield : (comparator.key, value) = field at h
  cases h with
  | compare other hoperand =>
    obtain ⟨hkey, rfl⟩ := Prod.mk.inj hfield
    rw [hkey, Comparator.ofKey?_eq_some_iff.mpr rfl] at hread
    obtain rfl := Option.some.inj hread
    exact ⟨_, rfl, hoperand⟩
  | text test needle =>
    rw [(Prod.mk.inj hfield).1, test.comparator_ofKey?_key] at hread
    cases hread
  | oneOf | noneOf | present | hasType | similar =>
    rw [(Prod.mk.inj hfield).1] at hread
    cases hread

theorem Condition.WrittenAs.of_sameBelow {condition : Condition} {field other : String × Json}
    (h : condition.WrittenAs field) (hsame : SameBelow field other) :
    condition.WrittenAs other := by
  cases hsame with
  | same => exact h
  | operand comparator hdate =>
    obtain ⟨operand, rfl, hoperand⟩ := h.of_comparator
    exact .compare comparator (hoperand.of_sameDate hdate)

theorem Condition.forall₂_of_sameBelow {conditions : List Condition}
    (hbelow : List.Forall₂ SameBelow fields others)
    (h : List.Forall₂ (fun field condition => condition.WrittenAs field) fields conditions) :
    List.Forall₂ (fun field condition => condition.WrittenAs field) others conditions := by
  induction hbelow generalizing conditions with
  | nil => exact h
  | cons hsame _ ih =>
    cases h with
    | cons hfirst hothers => exact .cons (hfirst.of_sameBelow hsame) (ih hothers)

/-- Entries below which something is in another order have the same keys. -/
theorem keys_of_sameBelow (h : List.Forall₂ SameBelow fields others) :
    Table.keys fields = Table.keys others := by
  induction h with
  | nil => rfl
  | cons hsame _ ih => cases hsame <;> simpa [Table.keys] using ih

/-- Amounts are numbers, so no date-time stands below the entries of another. -/
theorem eq_of_sameBelow_written (h : List.Forall₂ SameBelow (parts.map writtenPart) others) :
    parts.map writtenPart = others := by
  induction parts generalizing others with
  | nil =>
    cases h
    rfl
  | cons part parts ih =>
    rw [List.map_cons] at h ⊢
    generalize hfield : writtenPart part = field at h
    cases h with
    | cons hsame hothers =>
      rw [ih hothers]
      cases hsame with
      | same => rfl
      | operand => cases (Prod.mk.inj hfield).2

theorem Expression.WrittenAs.of_sameDates {expression : Expression}
    (h : expression.WrittenAs value) (hsame : SameDates value other) :
    expression.WrittenAs other := by
  cases hsame with
  | same => exact h
  | whole hdate =>
    generalize hwritten : Json.object _ = written at h
    cases h with
    | equals hoperand => exact .equals (.of_sameDate (hwritten ▸ hoperand) hdate)
    | all hkeys _ =>
      obtain rfl := Json.object.inj hwritten
      exact absurd hdate.mentions (namesNoComponent_iff.mp hkeys)
  | @operands fields others hbelow =>
    generalize hwritten : Json.object fields = written at h
    cases h with
    | equals hoperand =>
      cases hoperand with
      | scalar scalar => cases scalar <;> cases hwritten
      | date hyear =>
        obtain rfl := Json.object.inj hwritten
        rw [← eq_of_sameBelow_written hbelow]
        exact .equals (.date hyear)
    | all hkeys hconditions =>
      obtain rfl := Json.object.inj hwritten
      refine .all (fun other hother => ?_) (Condition.forall₂_of_sameBelow hbelow hconditions)
      have hkey : other.1 ∈ Table.keys fields := by
        rw [keys_of_sameBelow hbelow]
        exact List.mem_map_of_mem hother
      obtain ⟨field, hfield, heq⟩ := List.mem_map.mp hkey
      exact heq ▸ hkeys field hfield

/-- Of two values that differ in the order of their date-times only, both are read to an
expression or none is. -/
theorem readExpression_sameDates {key : String} {expression : Expression}
    (h : SameDates value other) :
    readExpression key value = .ok expression ↔ readExpression key other = .ok expression := by
  rw [readExpression_eq_ok_iff, readExpression_eq_ok_iff]
  exact ⟨fun hwritten => hwritten.of_sameDates h, fun hwritten => hwritten.of_sameDates h.symm⟩

end

end GraphSearch.Criteria

namespace GraphSearch.Cypher

open Criteria Results

/-- **Date-times do not depend on the order of their keys.**  The parts that an object is read to
are its own entries, from the year on and each less significant than the one before; and two values
that differ in the order of their date-times only become the same predicates, if either of them is
accepted. -/
theorem dates_arranged_and_sameDates :
    (∀ (key : String) (fields : List (String × Json)) (parts : DateParts),
      (Table.keys fields).Nodup → readDate key fields = .ok parts →
        parts.IsArranged ∧ parts.head?.map Prod.fst = some .year ∧
          (parts.map writtenPart).Perm fields) ∧
      ∀ (options : Options) (node key : String) (value other : Json), SameDates value other →
        ∀ predicates, propertyPredicates options node key value = .ok predicates ↔
          propertyPredicates options node key other = .ok predicates := by
  constructor
  · intro key fields result hkeys h
    obtain ⟨parts, rfl, hyear, rfl⟩ := readDate_eq_ok_iff.mp h
    exact ⟨isArranged_arrange parts, head?_arrange hyear,
      (arrange_perm (keys_nodup_of_written hkeys)).map writtenPart⟩
  · intro options node key value other h predicates
    have hread : ∀ value, propertyPredicates options node key value = .ok predicates ↔
        ∃ expression, readExpression key value = .ok expression ∧
          expressionPredicates options ⟨node, key⟩ expression = predicates :=
      fun _ => map_eq_ok
    rw [hread, hread]
    exact exists_congr fun expression => and_congr_left' (readExpression_sameDates h)

/-- A month, and then the year it is in. -/
def monthFirst : List (String × Json) :=
  [("$month", .number (.int 6)), ("$year", .number (.int 1990))]

/-- The parts that are read of it. -/
def june1990 : DateParts := [(.year, 1990), (.month, 6)]

theorem dates_arranged_and_sameDates_monthFirst :
    (june1990.IsArranged ∧ june1990.head?.map Prod.fst = some .year ∧
      (june1990.map writtenPart).Perm monthFirst) ∧
    propertyPredicates {} "record" "born" (.object [("$gte", .object monthFirst)]) =
        .ok ["apoc.convert.fromJsonMap(record.__proptypes).born = \"datetime\"",
          "any(value IN record.born WHERE value >= datetime(\x7byear: 1990, month: 6\x7d))"] := by
  obtain ⟨harranged, hsame⟩ := dates_arranged_and_sameDates
  have hdate : SameDate (june1990.map writtenPart) monthFirst := ⟨rfl, by decide, .swap _ _ _⟩
  refine ⟨harranged "born" _ _ (by decide) rfl, ?_⟩
  exact (hsame {} "record" "born" _ _ (.operands (.cons (.operand .gte hdate) .nil)) _).mp rfl

end GraphSearch.Cypher
