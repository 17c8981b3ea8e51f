import GraphSearch.Proofs.Matching.Congruence
import GraphSearch.Proofs.Matching.Meaning
/-!
# More alternatives

A group keeps only those of its members that yield a term.  Among alternatives that is felt: a
filter without tests is satisfied by every record, but as an alternative it is left out, and a
group of such filters asks for nothing while one further alternative makes it ask for that one.
As soon as any alternative yields a term, further ones only make the group easier to satisfy.

* `memberTerms_append_eq_ok`: members are compiled one after another;
* `demand`: what is asked of a record by the term of a group, or by its absence;
* `demand_groupTerm_append`: members that are added to a disjunction that has some;
* `groupTerms_further_alternative`: the same for groups of filters.
-/

namespace GraphSearch.Matching

open Criteria

/-! ## 1.  Members one after another -/

/-- The terms of members are those of the first of them and, compiled in the context these leave,
those of the others. -/
theorem memberTerms_append_eq_ok {following : Following} {id : AliasId} {op : GroupOp}
    {items more : List Json} {context after : Context} {terms : List Formula} :
    memberTerms following id op (items ++ more) context = .ok terms after ↔
      ∃ first middle second, memberTerms following id op items context = .ok first middle ∧
        memberTerms following id op more middle = .ok second after ∧
        first ++ second = terms := by
  induction items generalizing context after terms with
  | nil =>
    simp only [List.nil_append, memberTerms, Descent.pure_eq_ok]
    constructor
    · intro h
      exact ⟨[], context, terms, ⟨rfl, rfl⟩, h, rfl⟩
    · rintro ⟨_, _, _, ⟨rfl, rfl⟩, h, rfl⟩
      exact h
  | cons item items ih =>
    simp only [List.cons_append, memberTerms, Descent.bind_eq_ok, Descent.pure_eq_ok, ih]
    constructor
    · rintro ⟨term, _, hitem, _, _, ⟨first, middle, second, hfirst, hsecond, rfl⟩, rfl, rfl⟩
      exact ⟨_, middle, second, ⟨term, _, hitem, first, _, hfirst, rfl, rfl⟩, hsecond,
        List.append_assoc _ _ _⟩
    · rintro ⟨_, _, second, ⟨term, _, hitem, first, middle, hfirst, rfl, rfl⟩, hsecond, rfl⟩
      exact ⟨term, _, hitem, _, _, ⟨first, middle, second, hfirst, hsecond, rfl⟩,
        (List.append_assoc _ _ _).symm, rfl⟩

/-- Alternatives are members outside of any further negation. -/
theorem groupTerms_or_eq_ok {id : AliasId} {items : List Json} {context after : Context}
    {term : Option Formula} :
    groupTerms id .or (.array items) context = .ok term after ↔
      ∃ members, memberTerms follow id .or items context = .ok members after ∧
        groupTerm .or members = term := by
  rw [groupTerms_eq]
  simp only [Descent.bind_eq_ok, Descent.pure_eq_ok, groupMembers, Descent.amongMembers,
    GroupOp.negates, Bool.false_eq_true, if_false]
  constructor
  · rintro ⟨members, _, hmembers, hterm, rfl⟩
    exact ⟨members, hmembers, hterm⟩
  · rintro ⟨members, hmembers, hterm⟩
    exact ⟨members, after, hmembers, hterm, rfl⟩

/-! ## 2.  What is asked of a record -/

/-- What a caller gets to conjoin for a group, read as text: no term asks for nothing. -/
def demand (v : String → Bool) : Option Formula → Option Bool
  | none => some true
  | some term => value? v term.tokens

theorem groupTerm_eq_none_iff {op : GroupOp} {members : List Formula} :
    groupTerm op members = none ↔ members = [] := by
  constructor
  · intro h
    cases members with
    | nil => rfl
    | cons first others =>
      cases op <;> cases others <;> cases h
  · rintro rfl
    cases op <;> rfl

/-- A disjunction asks that one of its members holds, if it has any. -/
theorem demand_groupTerm_or (v : String → Bool) {members : List Formula} (h : members ≠ []) :
    demand v (groupTerm .or members) = some (members.any (Formula.holds v)) := by
  have hverdict : (groupTerm .or members).toList.map (Formula.holds v) = _ :=
    map_holds_groupTerm .or members
  cases hterm : groupTerm .or members with
  | none => exact absurd (groupTerm_eq_none_iff.mp hterm) h
  | some term =>
    obtain ⟨first, others, rfl⟩ := List.exists_cons_of_ne_nil h
    rw [hterm] at hverdict
    have hholds : term.holds v = ((first :: others).map (Formula.holds v)).any id := by
      simpa [verdict, groupTruth] using hverdict
    rw [demand, Formula.value?_tokens, hholds, List.any_map]
    rfl

/-- A disjunction that has a member, or that gets none, asks for no more when members are
added. -/
theorem demand_groupTerm_append (v : String → Bool) {members others : List Formula}
    (h : members = [] → others = [])
    (hdemand : demand v (groupTerm .or members) = some true) :
    demand v (groupTerm .or (members ++ others)) = some true := by
  by_cases hmembers : members = []
  · rw [hmembers, h hmembers]
    rfl
  · rw [demand_groupTerm_or v hmembers, Option.some.injEq] at hdemand
    rw [demand_groupTerm_or v (List.append_ne_nil_of_left_ne_nil hmembers others),
      List.any_append, hdemand, Bool.true_or]

/-! ## 3.  Further alternatives -/

/-- **A further alternative makes a disjunction no stricter** once any alternative before it
yields a term, or if it yields none itself: where the alternatives and a further one compile, the
alternatives compile in the same context, and whatever the values of the tests are, what they ask
for together is no less than what all of them ask for.  Where none of the alternatives yields a
term they ask for nothing, and they are left out of the larger group, which comes to what the
further alternative comes to as the only one. -/
theorem groupTerms_further_alternative {id : AliasId}
    {alternatives : List (List (String × Json))} {further : List (String × Json)}
    {context after : Context} {wide : Option Formula}
    (h : groupTerms id .or (.array ((alternatives ++ [further]).map Json.object)) context
      = .ok wide after) :
    ∃ narrow middle,
      groupTerms id .or (.array (alternatives.map Json.object)) context = .ok narrow middle ∧
      ((narrow = none → wide = none) →
        ∀ v, demand v narrow = some true → demand v wide = some true) ∧
      (narrow = none →
        groupTerms id .or (.array [.object further]) middle = .ok wide after) := by
  rw [List.map_append, groupTerms_or_eq_ok] at h
  obtain ⟨members, hmembers, rfl⟩ := h
  obtain ⟨first, middle, second, hfirst, hsecond, rfl⟩ := memberTerms_append_eq_ok.mp hmembers
  refine ⟨groupTerm .or first, middle, groupTerms_or_eq_ok.mpr ⟨first, hfirst, rfl⟩,
    fun habsent v => demand_groupTerm_append v fun hnone => ?_, fun hnone => ?_⟩
  · have hwide := groupTerm_eq_none_iff.mp (habsent (groupTerm_eq_none_iff.mpr hnone))
    exact (List.append_eq_nil_iff.mp hwide).2
  · rw [groupTerm_eq_none_iff.mp hnone, List.nil_append]
    exact groupTerms_or_eq_ok.mpr ⟨second, hsecond, rfl⟩

/-- An alternative without tests, and one that follows a relation. -/
def looseAlternatives : List (List (String × Json)) :=
  [[], [("A", .object [("x", .bool true)])]]

/-- A further alternative, in which a relation is negated. -/
def negatedAlternative : List (String × Json) := [("$not", .array [.object [("B", .object [])]])]

/-- With the relation among the alternatives, the negated one only makes the group weaker. -/
theorem groupTerms_further_alternative_negated :
    ∃ wide after narrow middle,
      groupTerms Context.root .or (.array ((looseAlternatives ++ [negatedAlternative]).map
        Json.object)) (Context.start {}) = .ok wide after ∧
      groupTerms Context.root .or (.array (looseAlternatives.map Json.object))
        (Context.start {}) = .ok narrow middle ∧
      narrow.isSome ∧ ∀ v, demand v narrow = some true → demand v wide = some true := by
  obtain ⟨wide, after, hwide⟩ := Descent.accepts_iff.mp (show Descent.accepts
    (groupTerms Context.root .or (.array ((looseAlternatives ++ [negatedAlternative]).map
      Json.object))) (Context.start {}) = true by decide +kernel)
  obtain ⟨narrow, middle, hnarrow, hmono, -⟩ := groupTerms_further_alternative hwide
  have hsome : (match groupTerms Context.root .or (Json.array (looseAlternatives.map Json.object))
      (Context.start {}) with
    | .ok term _ => term.isSome
    | .error _ _ => false) = true := by decide +kernel
  rw [hnarrow] at hsome
  refine ⟨wide, after, narrow, middle, hwide, hnarrow, hsome, hmono fun hnone => ?_⟩
  rw [hnone] at hsome
  cases hsome

/-- An alternative without tests is no longer satisfied by every record when another one is
added. -/
theorem groupTerms_further_alternative_stricter :
    ¬ ∀ (id : AliasId) (alternatives : List (List (String × Json)))
      (further : List (String × Json)) (context after middle : Context)
      (wide narrow : Option Formula), alternatives ≠ [] →
      groupTerms id .or (.array ((alternatives ++ [further]).map Json.object)) context
        = .ok wide after →
      groupTerms id .or (.array (alternatives.map Json.object)) context = .ok narrow middle →
      ∀ v, demand v narrow = some true → demand v wide = some true := by
  intro h
  obtain ⟨wide, after, hwide⟩ := Descent.accepts_iff.mp (show Descent.accepts
    (groupTerms Context.root .or (Json.array [.object [], .object [("name", .string "x")]]))
    (Context.start {}) = true by decide +kernel)
  have hfalse : (match groupTerms Context.root .or
      (Json.array [.object [], .object [("name", .string "x")]]) (Context.start {}) with
    | .ok term _ => demand (fun _ => false) term
    | .error _ _ => none) = some false := by decide +kernel
  have htrue := h Context.root [[]] [("name", .string "x")] (Context.start {}) after
    (Context.start {}) wide none (List.cons_ne_nil _ _) hwide rfl (fun _ => false) rfl
  rw [hwide] at hfalse
  exact absurd (htrue.symm.trans hfalse) (by decide)

end GraphSearch.Matching
