import GraphSearch.Proofs.Matching.Precedence
/-!
# Where tests stand in a formula

The truth of a formula follows from that of its tests, and which way it follows depends on the
groups a test stands in.  In conjunctions and disjunctions a test that becomes true can only help;
in a negation it can only hurt, and in an exclusive group it may do either.

* `Formula.tests`: the tests of a formula, its existentials included;
* `Formula.chained`: those of them inside exclusive groups, and inside negations if that is asked;
* `Formula.holds_congr`, `Formula.holds_mono`: the truth of a formula depends on its tests, and
  tests that stand in conjunctions and disjunctions alone can only help it;
* `Stands`, `Sheltered`: a formula stands in another inside conjunctions and disjunctions only,
  and all tests of a kind stand inside of it;
* `Sheltered.holds_mono`: then whatever these tests do, they hurt the other formula only if they
  hurt the one that shelters them.
-/

namespace GraphSearch.Matching

namespace Formula

/-! ## 1.  Tests -/

/-- The alias whose records a test is about; an existential is about those its pattern starts
from. -/
def node? : Formula → Option String
  | .atom (.predicate node _) => some node
  | .atom (.present node) => some node
  | .existential (.hop parent _ _ _) _ => some parent
  | _ => none

mutual

/-- The tests of a formula, what is inside an existential being part of one. -/
def tests : Formula → List Formula
  | .atom test => [.atom test]
  | .group _ first others => tests first ++ testsAll others
  | .negation _ first others => tests first ++ testsAll others
  | .existential pattern terms => [.existential pattern terms]

/-- The tests of each formula of a list. -/
def testsAll : List Formula → List Formula
  | [] => []
  | formula :: formulas => tests formula ++ testsAll formulas

end

@[simp] theorem testsAll_eq_flatMap (formulas : List Formula) :
    testsAll formulas = formulas.flatMap tests := by
  induction formulas with
  | nil => rfl
  | cons formula formulas ih => rw [testsAll, List.flatMap_cons, ih]

theorem mem_tests_group {connective : Connective} {first : Formula} {others : List Formula}
    {test : Formula} : test ∈ (group connective first others).tests ↔
      ∃ member ∈ first :: others, test ∈ member.tests := by
  rw [tests, testsAll_eq_flatMap, ← List.flatMap_cons, List.mem_flatMap]

theorem mem_tests_negation {connective : Connective} {first : Formula} {others : List Formula}
    {test : Formula} : test ∈ (negation connective first others).tests ↔
      ∃ member ∈ first :: others, test ∈ member.tests := by
  rw [tests, testsAll_eq_flatMap, ← List.flatMap_cons, List.mem_flatMap]

mutual

/-- The tests inside the exclusive groups of a formula, and inside its negations too if
`negations` is set. -/
def chained (negations : Bool) : Formula → List Formula
  | .atom _ => []
  | .group connective first others =>
    if connective = .xor then tests first ++ testsAll others
    else chained negations first ++ chainedAll negations others
  | .negation connective first others =>
    if connective = .xor ∨ negations = true then tests first ++ testsAll others
    else chained negations first ++ chainedAll negations others
  | .existential _ _ => []

/-- The same tests of each formula of a list. -/
def chainedAll (negations : Bool) : List Formula → List Formula
  | [] => []
  | formula :: formulas => chained negations formula ++ chainedAll negations formulas

end

@[simp] theorem chainedAll_eq_flatMap (negations : Bool) (formulas : List Formula) :
    chainedAll negations formulas = formulas.flatMap (chained negations) := by
  induction formulas with
  | nil => rfl
  | cons formula formulas ih => rw [chainedAll, List.flatMap_cons, ih]

theorem mem_chained_group {negations : Bool} {connective : Connective} {first : Formula}
    {others : List Formula} {test : Formula} (h : connective ≠ .xor) :
    test ∈ (group connective first others).chained negations ↔
      ∃ member ∈ first :: others, test ∈ member.chained negations := by
  rw [chained, if_neg h, chainedAll_eq_flatMap, ← List.flatMap_cons, List.mem_flatMap]

theorem chained_xor (negations : Bool) (first : Formula) (others : List Formula) :
    (group .xor first others).chained negations = (group .xor first others).tests := by
  rw [chained, if_pos rfl, tests]

theorem chained_negation (connective : Connective) (first : Formula) (others : List Formula) :
    (negation connective first others).chained true =
      (negation connective first others).tests := by
  rw [chained, if_pos (Or.inr rfl), tests]

/-! ## 2.  Truth and tests -/

section

variable {v v' : String → Bool}

theorem holds_group (connective : Connective) (first : Formula) (others : List Formula) :
    (group connective first others).holds v =
      connective.truth ((first :: others).map (holds v)) := by
  rw [holds, holdsAll_eq_map, List.map_cons]

theorem holds_negation (connective : Connective) (first : Formula) (others : List Formula) :
    (negation connective first others).holds v =
      !connective.truth ((first :: others).map (holds v)) := by
  rw [holds, holdsAll_eq_map, List.map_cons]

/-- Conjunctions and disjunctions are helped by what helps their members. -/
theorem truth_mono {connective : Connective} (h : connective ≠ .xor) {members : List Formula}
    (hmembers : ∀ member ∈ members, member.holds v = true → member.holds v' = true)
    (htruth : connective.truth (members.map (holds v)) = true) :
    connective.truth (members.map (holds v')) = true := by
  cases connective with
  | and =>
    simp only [Connective.truth, List.all_map, List.all_eq_true] at htruth ⊢
    exact fun member hmember => hmembers member hmember (htruth member hmember)
  | or =>
    simp only [Connective.truth, List.any_map, List.any_eq_true] at htruth ⊢
    obtain ⟨member, hmember, hholds⟩ := htruth
    exact ⟨member, hmember, hmembers member hmember hholds⟩
  | xor => exact absurd rfl h

/-- Induction on formulas, with the members of a group taken together; existentials are not
looked into. -/
@[elab_as_elim]
theorem induction_members {motive : Formula → Prop} (atom : ∀ test, motive (.atom test))
    (group : ∀ connective first others, (∀ member ∈ first :: others, motive member) →
      motive (.group connective first others))
    (negation : ∀ connective first others, (∀ member ∈ first :: others, motive member) →
      motive (.negation connective first others))
    (existential : ∀ pattern terms, motive (.existential pattern terms)) (formula : Formula) :
    motive formula := by
  cases formula with
  | atom test => exact atom test
  | group connective first others =>
    exact group connective first others fun member hmember =>
      induction_members atom group negation existential member
  | negation connective first others =>
    exact negation connective first others fun member hmember =>
      induction_members atom group negation existential member
  | existential pattern terms => exact existential pattern terms
termination_by sizeOf formula
decreasing_by
  all_goals
    have hlt := List.sizeOf_lt_of_mem hmember
    simp only [List.cons.sizeOf_spec] at hlt
    simp only [Formula.group.sizeOf_spec, Formula.negation.sizeOf_spec]
    omega

/-- The truth of a formula depends on its tests. -/
theorem holds_congr {formula : Formula}
    (h : ∀ test ∈ formula.tests, v test.text = v' test.text) :
    formula.holds v = formula.holds v' := by
  induction formula using induction_members with
  | atom test => exact h _ List.mem_cons_self
  | group connective first others ih =>
    rw [holds_group, holds_group, List.map_congr_left fun member hmember => ?_]
    exact ih member hmember fun test htest => h test (mem_tests_group.mpr ⟨member, hmember, htest⟩)
  | negation connective first others ih =>
    rw [holds_negation, holds_negation, List.map_congr_left fun member hmember => ?_]
    exact ih member hmember fun test htest =>
      h test (mem_tests_negation.mpr ⟨member, hmember, htest⟩)
  | existential pattern terms => exact h _ List.mem_cons_self

/-- Where tests change that stand in conjunctions and disjunctions alone, and only become true,
the formula can only become true. -/
theorem holds_mono {formula : Formula}
    (h : ∀ test ∈ formula.tests, v test.text = true → v' test.text = true)
    (hchained : ∀ test ∈ formula.chained true, v test.text = v' test.text)
    (hholds : formula.holds v = true) : formula.holds v' = true := by
  induction formula using induction_members with
  | atom test => exact h _ List.mem_cons_self hholds
  | group connective first others ih =>
    by_cases hxor : connective = .xor
    · subst hxor
      rw [chained_xor] at hchained
      rw [← holds_congr hchained]
      exact hholds
    · rw [holds_group] at hholds ⊢
      refine truth_mono hxor (fun member hmember => ih member hmember ?_ ?_) hholds
      · exact fun test htest => h test (mem_tests_group.mpr ⟨member, hmember, htest⟩)
      · exact fun test htest =>
          hchained test ((mem_chained_group hxor).mpr ⟨member, hmember, htest⟩)
  | negation connective first others _ =>
    rw [chained_negation] at hchained
    rw [← holds_congr hchained]
    exact hholds
  | existential pattern terms => exact h _ List.mem_cons_self hholds

end

theorem chained_subset_tests {negations : Bool} {formula : Formula} :
    formula.chained negations ⊆ formula.tests := by
  induction formula using induction_members with
  | atom test => exact List.nil_subset _
  | group connective first others ih =>
    by_cases hxor : connective = .xor
    · subst hxor
      rw [chained_xor]
      exact List.Subset.refl _
    · intro test htest
      obtain ⟨member, hmember, htest⟩ := (mem_chained_group hxor).mp htest
      exact mem_tests_group.mpr ⟨member, hmember, ih member hmember htest⟩
  | negation connective first others ih =>
    intro test htest
    rw [chained] at htest
    split at htest
    · rw [tests]
      exact htest
    · rw [chainedAll_eq_flatMap, ← List.flatMap_cons, List.mem_flatMap] at htest
      obtain ⟨member, hmember, htest⟩ := htest
      exact mem_tests_negation.mpr ⟨member, hmember, ih member hmember htest⟩
  | existential pattern terms => exact List.nil_subset _

end Formula

/-! ## 3.  Formulas inside others -/

/-- The formula stands in another inside conjunctions and disjunctions only. -/
inductive Stands (formula : Formula) : Formula → Prop
  | whole : Stands formula formula
  | member {connective first others member} : connective ≠ .xor → member ∈ first :: others →
    Stands formula member → Stands formula (.group connective first others)

/-- The tests of a kind that another formula has stand inside of `formula`, which stands there
inside conjunctions and disjunctions only. -/
inductive Sheltered (formula : Formula) (kind : Formula → Prop) : Formula → Prop
  | whole : Sheltered formula kind formula
  | apart {other} : (∀ test ∈ other.tests, ¬ kind test) → Sheltered formula kind other
  | members {connective first others} : connective ≠ .xor →
    (∀ member ∈ first :: others, Sheltered formula kind member) →
    Sheltered formula kind (.group connective first others)

theorem Stands.tests_subset {formula other : Formula} (h : Stands formula other) :
    formula.tests ⊆ other.tests := by
  induction h with
  | whole => exact List.Subset.refl _
  | member _ hmember _ ih =>
    exact fun test htest => Formula.mem_tests_group.mpr ⟨_, hmember, ih htest⟩

theorem Sheltered.imp {formula other : Formula} {kind kind' : Formula → Prop}
    (h : Sheltered formula kind other) (himp : ∀ test, kind' test → kind test) :
    Sheltered formula kind' other := by
  induction h with
  | whole => exact .whole
  | apart hapart => exact .apart fun test htest hkind => hapart test htest (himp test hkind)
  | members hxor _ ih => exact .members hxor ih

/-- Where only tests of a kind change, a formula that shelters them decides whether they hurt. -/
theorem Sheltered.holds_mono {formula other : Formula} {kind : Formula → Prop}
    {v v' : String → Bool} (h : Sheltered formula kind other)
    (hsame : ∀ test ∈ other.tests, ¬ kind test → v test.text = v' test.text)
    (hformula : formula.holds v = true → formula.holds v' = true)
    (hholds : other.holds v = true) : other.holds v' = true := by
  induction h with
  | whole => exact hformula hholds
  | apart hapart =>
    rw [← Formula.holds_congr fun test htest => hsame test htest (hapart test htest)]
    exact hholds
  | members hxor _ ih =>
    rw [Formula.holds_group] at hholds ⊢
    refine Formula.truth_mono hxor (fun member hmember => ih member hmember ?_) hholds
    exact fun test htest => hsame test (Formula.mem_tests_group.mpr ⟨member, hmember, htest⟩)

end GraphSearch.Matching
