import GraphSearch.Proofs.Cypher.Similarity
import GraphSearch.Proofs.FirstOccurrences
import GraphSearch.Proofs.Matching.Walk
/-!
# What the entries of an object contribute

An object is compiled entry by entry, and its terms are what the entries yield, one after another
(`Contributions`, `fieldTerms_eq_ok_iff`).  A directive yields nothing, and a group yields nothing
when none of its members does.  Every other entry is a filter, and a filter that yields nothing is
lost: the records are no longer asked for what it says.

What a value is read to decides how many predicates it becomes.  A comparison has one or two, a
similarity one to each bound, of which there is one at least; so no entry of a value is without
predicates, and a value has none only if it has no entries (`expressionPredicates_eq_nil_iff`).
Property keys have no such values, since an object without entries is criteria for related
records.  The identity key has: its value is not looked at before it is read.  So there is one
filter that is lost, `emptyIdentity`, and it is the only one (`entryTerms_eq_nil_iff`).
-/

/-! ## 1.  Predicates -/

namespace GraphSearch.Cypher

open Criteria Results

variable {options : Options} {property : Property} {node key : String} {value : Json}
  {predicates : List String}

theorem conditionPredicates_ne_nil {condition : Condition} {field : String × Json}
    (h : condition.WrittenAs field) : conditionPredicates options property condition ≠ [] := by
  cases h with
  | compare comparator hoperand => cases hoperand <;> exact List.cons_ne_nil _ _
  | present expected => cases expected <;> exact List.cons_ne_nil _ _
  | similar hsimilarity => exact similarityPredicates_ne_nil hsimilarity
  | oneOf | noneOf | text | hasType => exact List.cons_ne_nil _ _

/-- An expression has no predicates only if it is the empty object that is asked for. -/
theorem expressionPredicates_eq_nil_iff {expression : Expression}
    (h : expression.WrittenAs value) :
    expressionPredicates options property expression = [] ↔ value = .object [] := by
  cases h with
  | equals hoperand =>
    cases hoperand with
    | scalar scalar => cases scalar <;> simp [expressionPredicates, Scalar.toJson]
    | @date parts hyear =>
      have hparts : parts ≠ [] := by
        rintro rfl
        obtain ⟨part, hpart, -⟩ := hyear
        cases hpart
      simp [expressionPredicates, eraseDups_eq_nil_iff, hparts]
  | @all conditions fields hkeys hconditions =>
    rw [expressionPredicates, eraseDups_eq_nil_iff, Json.object.injEq]
    cases hconditions with
    | nil => simp
    | cons hfirst hothers => simp [conditionPredicates_ne_nil hfirst]

theorem propertyPredicates_ne_nil
    (h : propertyPredicates options node key value = .ok predicates)
    (hvalue : comparesProperty value = true) : predicates ≠ [] := by
  obtain ⟨expression, hexpression, rfl⟩ := map_eq_ok.mp h
  rw [Ne, expressionPredicates_eq_nil_iff (readExpression_eq_ok_iff.mp hexpression)]
  rintro rfl
  cases hvalue

/-- An identity is not asked for anything only by the empty object. -/
theorem identityPredicates_eq_nil_iff
    (h : identityPredicates options node value = .ok predicates) :
    predicates = [] ↔ value = .object [] := by
  obtain ⟨expression, hexpression, h⟩ := bind_eq_ok.mp h
  have hwritten := readExpression_eq_ok_iff.mp hexpression
  cases hwritten with
  | equals hoperand =>
    cases hoperand with
    | scalar scalar =>
      cases scalar <;> cases h <;> simp [Scalar.toJson]
    | date hyear => cases h
  | all hkeys hconditions =>
    rw [Json.object.injEq]
    cases hconditions with
    | nil =>
      cases h
      simp
    | cons hfirst hothers =>
      rw [mapM_eq_ok] at h
      cases h
      simp

end GraphSearch.Cypher

namespace GraphSearch.Matching

open Criteria Cypher Results

/-! ## 2.  Entries -/

/-- The entry asks something of the records: it is neither a group nor a directive. -/
def IsFilter (entry : String × Json) : Prop :=
  match kindOf entry.1 entry.2 with
  | .identity | .property | .related => True
  | .group _ | .declaration | .relation => False

/-- An identity that is asked for nothing. -/
def emptyIdentity : String × Json := (idKey, .object [])

section

variable {following : Following} {id : AliasId} {key : String} {value : Json}
  {context after : Context} {terms : List Formula}

theorem comparesProperty_of_kindOf (h : kindOf key value = .property) :
    comparesProperty value = true := by
  simp only [kindOf] at h
  repeat' split at h
  all_goals first | assumption | cases h

/-- The empty identity is the only filter without predicates. -/
theorem leafPredicates_eq_nil_iff {options : Options} {node : String} {predicates : List String}
    (hfilter : IsFilter (key, value))
    (h : leafPredicates options node key value = .ok predicates) :
    predicates = [] ↔ (key, value) = emptyIdentity := by
  rw [emptyIdentity, Prod.mk.injEq]
  rw [leafPredicates] at h
  rw [IsFilter] at hfilter
  cases hkind : kindOf key value with
  | identity =>
    rw [hkind] at h
    rw [identityPredicates_eq_nil_iff h, key_of_kindOf_identity hkind]
    simp
  | property =>
    rw [hkind] at h
    have hvalue := comparesProperty_of_kindOf hkind
    have hne := propertyPredicates_ne_nil h hvalue
    constructor
    · intro hnil
      exact absurd hnil hne
    · rintro ⟨-, rfl⟩
      cases hvalue
  | group op | related =>
    rw [hkind] at h
    cases h
  | declaration | relation =>
    rw [hkind] at hfilter
    exact hfilter.elim

/-- The empty identity is the only filter that yields no term. -/
theorem entryTerms_eq_nil_iff (hfilter : IsFilter (key, value))
    (h : entryTerms following id key value context = .ok terms after) :
    terms = [] ↔ (key, value) = emptyIdentity := by
  cases walk_entry value h with
  | leaf hleaf =>
    obtain ⟨rfl, predicates, hpredicates, rfl⟩ := leafTerms_eq_ok.mp hleaf
    rw [predicateTerms, List.map_eq_nil_iff, leafPredicates_eq_nil_iff hfilter hpredicates]
  | groupObject hkind _ | groupArray hkind _ =>
    rw [IsFilter, hkind] at hfilter
    exact hfilter.elim
  | related hkind _ _ =>
    constructor
    · intro hnil
      cases hnil
    · intro hempty
      cases hempty
      cases hkind

end

/-! ## 3.  Objects -/

/-- `Contributions following id before entries contributions after`: the entries are compiled one
after another from the context `before` to the context `after`, and each contributes the terms
that it yields in the context it comes to. -/
inductive Contributions (following : Following) (id : AliasId) :
    Context → List (String × Json) → List (List Formula) → Context → Prop
  | nil {context : Context} : Contributions following id context [] [] context
  | cons {context middle after : Context} {key : String} {value : Json} {terms : List Formula}
      {entries : List (String × Json)} {contributions : List (List Formula)} :
      entryTerms following id key value context = .ok terms middle →
      Contributions following id middle entries contributions after →
      Contributions following id context ((key, value) :: entries) (terms :: contributions) after

section

variable {following : Following} {id : AliasId} {context middle after : Context}
  {entries others : List (String × Json)} {contributions : List (List Formula)}
  {terms : List Formula} {fields : List (String × Json)}

theorem contributions_append_iff :
    Contributions following id context (entries ++ others) contributions after ↔
      ∃ first middle second, Contributions following id context entries first middle ∧
        Contributions following id middle others second after ∧
        contributions = first ++ second := by
  induction entries generalizing context contributions with
  | nil =>
    constructor
    · intro h
      exact ⟨[], context, contributions, .nil, h, rfl⟩
    · rintro ⟨_, _, second, ⟨⟩, h, rfl⟩
      exact h
  | cons entry entries ih =>
    constructor
    · rintro (_ | ⟨hentry, h⟩)
      obtain ⟨first, middle, second, hfirst, hsecond, rfl⟩ := ih.mp h
      exact ⟨_, middle, second, .cons hentry hfirst, hsecond, rfl⟩
    · rintro ⟨_, middle, second, _ | ⟨hentry, hfirst⟩, hsecond, rfl⟩
      exact .cons hentry (ih.mpr ⟨_, middle, second, hfirst, hsecond, rfl⟩)

/-- A pass yields what the entries it goes over contribute. -/
theorem passTerms_eq_ok_iff {related : Bool} :
    passTerms following id related fields context = .ok terms after ↔
      ∃ contributions, Contributions following id context
          (fields.filter fun entry => isRelated entry = related) contributions after ∧
        terms = contributions.flatten := by
  induction fields generalizing context terms after with
  | nil =>
    rw [passTerms, Descent.pure_eq_ok]
    constructor
    · rintro ⟨rfl, rfl⟩
      exact ⟨[], .nil, rfl⟩
    · rintro ⟨_, ⟨⟩, rfl⟩
      exact ⟨rfl, rfl⟩
  | cons entry fields ih =>
    obtain ⟨key, value⟩ := entry
    rw [passTerms]
    by_cases hrelated : isRelated (key, value) = related
    · rw [if_pos hrelated, List.filter_cons_of_pos (by simpa using hrelated)]
      simp only [Descent.bind_eq_ok, Descent.pure_eq_ok, ih]
      constructor
      · rintro ⟨own, middle, hown, _, _, ⟨contributions, hothers, rfl⟩, rfl, rfl⟩
        exact ⟨own :: contributions, .cons hown hothers, rfl⟩
      · rintro ⟨_, _ | ⟨hown, hothers⟩, rfl⟩
        exact ⟨_, _, hown, _, _, ⟨_, hothers, rfl⟩, rfl, rfl⟩
    · rw [if_neg hrelated, List.filter_cons_of_neg (by simpa using hrelated)]
      exact ih

/-- An object yields what its entries contribute, those about related records last. -/
theorem fieldTerms_eq_ok_iff :
    fieldTerms following id fields context = .ok terms after ↔
      ∃ contributions, Contributions following id context
          (ownEntries fields ++ relatedEntries fields) contributions after ∧
        terms = contributions.flatten := by
  simp only [fieldTerms, bothPasses_eq_ok, passTerms_eq_ok_iff, filter_isRelated_false,
    filter_isRelated_true, contributions_append_iff]
  constructor
  · rintro ⟨_, middle, _, ⟨first, hfirst, rfl⟩, ⟨second, hsecond, rfl⟩, rfl⟩
    exact ⟨_, ⟨first, middle, second, hfirst, hsecond, rfl⟩, List.flatten_append.symm⟩
  · rintro ⟨_, ⟨first, middle, second, hfirst, hsecond, rfl⟩, rfl⟩
    exact ⟨_, middle, _, ⟨first, hfirst, rfl⟩, ⟨second, hsecond, rfl⟩, List.flatten_append⟩

/-- Of the filters, just the empty identities contribute nothing. -/
theorem Contributions.forall₂
    (h : Contributions following id context entries contributions after) :
    List.Forall₂ (fun entry contribution =>
      IsFilter entry → (contribution = [] ↔ entry = emptyIdentity)) entries contributions := by
  induction h with
  | nil => exact .nil
  | cons hentry _ ih => exact .cons (fun hfilter => entryTerms_eq_nil_iff hfilter hentry) ih

end

/-- No filter is lost but the empty identity.  Where an object is compiled, its terms are what
its entries contribute in their order, with every entry among them; and each property, each
criteria for related records and each identity contributes a term at least, unless it is the
identity that is asked for nothing, which contributes none. -/
theorem objectTerms_contributions {id : AliasId} {fields : List (String × Json)}
    {context after : Context} {terms : List Formula}
    (h : objectTerms id fields context = .ok terms after) :
    (ownEntries fields ++ relatedEntries fields).Perm fields ∧
      ∃ contributions, Contributions follow id context
          (ownEntries fields ++ relatedEntries fields) contributions after ∧
        terms = contributions.flatten ∧
        List.Forall₂ (fun entry contribution =>
            IsFilter entry → (contribution = [] ↔ entry = emptyIdentity))
          (ownEntries fields ++ relatedEntries fields) contributions := by
  obtain ⟨contributions, hcontributions, hterms⟩ := fieldTerms_eq_ok_iff.mp h
  exact ⟨own_append_related_perm fields, contributions, hcontributions, hterms,
    hcontributions.forall₂⟩

/-- An object with an alias, a name, a relation, an empty identity and an empty group. -/
def fivefold : List (String × Json) :=
  [("A", .object []), emptyIdentity, ("$alias", .string "$r"), ("name", .string "x"),
    ("$or", .array [])]

/-- Of the five, the name and the relation contribute something. -/
theorem objectTerms_contributions_fivefold :
    ∃ terms after, objectTerms Context.root fivefold (Context.start {}) = .ok terms after ∧
      (ownEntries fivefold ++ relatedEntries fivefold).Perm fivefold ∧
      ∃ contributions, Contributions follow Context.root (Context.start {})
          (ownEntries fivefold ++ relatedEntries fivefold) contributions after ∧
        terms = contributions.flatten ∧
        List.Forall₂ (fun entry contribution =>
            IsFilter entry → (contribution = [] ↔ entry = emptyIdentity))
          (ownEntries fivefold ++ relatedEntries fivefold) contributions := by
  obtain ⟨terms, after, h⟩ := Descent.accepts_iff.mp
    (show Descent.accepts (objectTerms Context.root fivefold) (Context.start {}) = true by
      decide +kernel)
  exact ⟨terms, after, h, objectTerms_contributions h⟩

theorem objectTerms_emptyIdentity :
    objectTerms Context.root [emptyIdentity] (Context.start {}) = .ok [] (Context.start {}) := by
  rfl

/-- The empty identity is lost: it is a filter that contributes nothing to the object that it
alone makes up. -/
theorem objectTerms_loses_emptyIdentity :
    ¬ ∀ (id : AliasId) (fields : List (String × Json)) (context after : Context)
        (terms : List Formula), objectTerms id fields context = .ok terms after →
      ∃ contributions, Contributions follow id context
          (ownEntries fields ++ relatedEntries fields) contributions after ∧
        terms = contributions.flatten ∧
        List.Forall₂ (fun entry contribution => IsFilter entry → contribution ≠ [])
          (ownEntries fields ++ relatedEntries fields) contributions := by
  intro h
  obtain ⟨contributions, -, hterms, hkept⟩ := h Context.root [emptyIdentity] (Context.start {})
    (Context.start {}) [] objectTerms_emptyIdentity
  have hentries : ownEntries [emptyIdentity] ++ relatedEntries [emptyIdentity] =
      [emptyIdentity] := by decide +kernel
  rw [hentries] at hkept
  cases hkept with
  | cons hfirst _ =>
    have hfilter : IsFilter emptyIdentity := trivial
    exact hfirst hfilter (List.flatten_eq_nil_iff.mp hterms.symm _ List.mem_cons_self)

end GraphSearch.Matching
