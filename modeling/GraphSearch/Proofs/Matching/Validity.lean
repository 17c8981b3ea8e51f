import GraphSearch.Proofs.Matching.Congruence
import GraphSearch.Proofs.Matching.Endings
/-!
# Whether a filter is valid

A filter is rejected for what it says and not for where it stands.  Two compilations of the same
criteria may take different ways at every relation, an existential in one and an optional match
in the other, and write different names; but they look at the same operands in the same order,
and are rejected at the same one.

* `Results.EndsAlike`, `Descent.EndsAlike`: both computations have a result, or both are rejected
  for the same reason;
* `leafPredicates_endsAlike`: what an entry without criteria inside is rejected for does not
  depend on the options or on the alias;
* `isCongruence_endsAlike`: the recursion adds nothing to that;
* `rejectionOf`, `rejection?_objectTerms`: an object is rejected for its first entry that is, its
  own entries before those about related records;
* `objectTerms_rejection_eq`: a filter is rejected for the same reason against every alias, in every
  context, in a group and below a relation.
-/

namespace GraphSearch

open Criteria

/-! ## 1.  Leaves -/

namespace Results

variable {α β γ δ : Type}

/-- Both results are there, or both are rejections for the same reason. -/
def EndsAlike (result : Except Rejection α) (other : Except Rejection β) : Prop :=
  (result.map fun _ => ()) = other.map fun _ => ()

theorem EndsAlike.ok (a : α) (b : β) : EndsAlike (.ok a) (.ok b) := rfl

theorem EndsAlike.error (rejection : Rejection) :
    EndsAlike (.error rejection : Except Rejection α) (.error rejection : Except Rejection β) :=
  rfl

theorem EndsAlike.cases {result : Except Rejection α} {other : Except Rejection β}
    (h : EndsAlike result other) : (∃ a b, result = .ok a ∧ other = .ok b) ∨
      ∃ rejection, result = .error rejection ∧ other = .error rejection := by
  cases result with
  | ok a =>
    cases other with
    | ok b => exact .inl ⟨a, b, rfl, rfl⟩
    | error rejection => cases h
  | error rejection =>
    cases other with
    | ok b => cases h
    | error rejection' =>
      obtain rfl : rejection = rejection' := Except.error.inj h
      exact .inr ⟨rejection, rfl, rfl⟩

theorem EndsAlike.bind {result : Except Rejection α} {other : Except Rejection β}
    {next : α → Except Rejection γ} {next' : β → Except Rejection δ}
    (h : EndsAlike result other) (hnext : ∀ a b, EndsAlike (next a) (next' b)) :
    EndsAlike (result >>= next) (other >>= next') := by
  obtain ⟨a, b, rfl, rfl⟩ | ⟨rejection, rfl, rfl⟩ := h.cases
  · exact hnext a b
  · exact .error rejection

theorem EndsAlike.mapM {f : α → Except Rejection β} {f' : α → Except Rejection γ}
    (h : ∀ a, EndsAlike (f a) (f' a)) (items : List α) :
    EndsAlike (items.mapM f) (items.mapM f') := by
  induction items with
  | nil => exact .ok [] []
  | cons a items ih =>
    rw [List.mapM_cons, List.mapM_cons]
    exact (h a).bind fun b c => ih.bind fun others others' => .ok (b :: others) (c :: others')

end Results

namespace Cypher

open Results

theorem identityCondition_endsAlike (id id' : String) (whole : Json) (condition : Condition) :
    EndsAlike (identityCondition id whole condition) (identityCondition id' whole condition) := by
  cases condition with
  | compare comparator operand =>
    cases operand with
    | scalar value =>
      simp only [identityCondition]
      split
      · exact .error _
      · exact .ok _ _
    | date parts => exact .error _
  | oneOf items | noneOf items => exact .ok _ _
  | text _ _ | present _ | hasType _ | similar _ => exact .error _

theorem identityPredicates_endsAlike (options options' : Options) (node node' : String)
    (value : Json) : EndsAlike (identityPredicates options node value)
      (identityPredicates options' node' value) := by
  simp only [identityPredicates]
  cases readExpression idKey value with
  | error rejection => exact .error rejection
  | ok expression =>
    cases expression with
    | equals operand =>
      cases operand with
      | scalar value => cases value <;> exact .ok _ _
      | date parts => exact .error _
    | all conditions =>
      exact .mapM (identityCondition_endsAlike _ _ value) conditions

theorem propertyPredicates_endsAlike (options options' : Options) (node node' key : String)
    (value : Json) : EndsAlike (propertyPredicates options node key value)
      (propertyPredicates options' node' key value) := by
  simp only [propertyPredicates]
  cases readExpression key value with
  | error rejection => exact .error rejection
  | ok expression => exact .ok _ _

end Cypher

namespace Matching

/-- What an entry without criteria inside is rejected for is a matter of its key and value. -/
theorem leafPredicates_endsAlike (options options' : Options) (node node' key : String)
    (value : Json) : Results.EndsAlike (leafPredicates options node key value)
      (leafPredicates options' node' key value) := by
  simp only [leafPredicates]
  cases kindOf key value with
  | identity => exact Cypher.identityPredicates_endsAlike options options' node node' value
  | property => exact Cypher.propertyPredicates_endsAlike options options' node node' key value
  | declaration | relation => exact .ok _ _
  | group op => exact .error _
  | related => exact .error _

/-! ## 2.  Steps -/

/-- Wherever the two steps run, both succeed, or both are rejected for the same reason. -/
def Descent.EndsAlike {α : Type} (step other : Descent α) : Prop :=
  ∀ context context', Descent.rejection? step context = Descent.rejection? other context'

theorem Descent.EndsAlike.bind {α β : Type} {step other : Descent α}
    {next next' : α → Descent β} (h : Descent.EndsAlike step other)
    (hnext : ∀ a b, Descent.EndsAlike (next a) (next' b)) :
    Descent.EndsAlike (step >>= next) (other >>= next') := by
  intro context context'
  have hsame := h context context'
  simp only [Descent.rejection?] at hsame
  rw [Descent.rejection?_bind, Descent.rejection?_bind]
  cases hstep : step context with
  | ok a middle =>
    cases hother : other context' with
    | ok b middle' => exact hnext a b middle middle'
    | error rejection middle' => simp [hstep, hother] at hsame
  | error rejection middle =>
    cases hother : other context' with
    | ok b middle' => simp [hstep, hother] at hsame
    | error rejection' middle' => simpa [hstep, hother] using hsame

theorem leafTerms_endsAlike (id id' : AliasId) (key : String) (value : Json) :
    Descent.EndsAlike (leafTerms id key value) (leafTerms id' key value) := by
  intro context context'
  rw [rejection?_leafTerms, rejection?_leafTerms]
  obtain ⟨a, b, h, h'⟩ | ⟨rejection, h, h'⟩ := (leafPredicates_endsAlike context.options
    context'.options (context.nameOf id) (context'.nameOf id') key value).cases
  · rw [h, h']
  · rw [h, h']

/-- Whichever way a relation is followed, it is for its fields to say whether that succeeds. -/
theorem follow_endsAlike {label : String} {fields : List (String × Json)}
    {parent parent' : AliasId} {body body' : AliasId → Descent (List Formula)}
    (h : ∀ child child', Descent.EndsAlike (body child) (body' child')) :
    Descent.EndsAlike (follow label fields parent body) (follow label fields parent' body') := by
  intro context context'
  rw [rejection?_follow, rejection?_follow]
  -- existential or optional match, on either side
  split <;> split <;> exact h _ _ _ _

theorem isCongruence_endsAlike : IsCongruence Descent.EndsAlike where
  value _ _ _ _ := rfl
  refusal _ _ _ := rfl
  sequence h hnext := h.bind hnext
  group op step other h context context' := by
    rw [Descent.rejection?_amongMembers, Descent.rejection?_amongMembers]
    exact h _ _
  leaf := leafTerms_endsAlike
  relation := follow_endsAlike

/-! ## 3.  The first entry that is rejected -/

/-- What an entry of a criteria object is rejected for, if it is. -/
def rejectionOf (entry : String × Json) : Option Rejection :=
  Descent.rejection? (entryTerms follow Context.root entry.1 entry.2) (Context.start {})

section

variable {id : AliasId} {context : Context}

theorem rejection?_entryTerms (entry : String × Json) :
    Descent.rejection? (entryTerms follow id entry.1 entry.2) context = rejectionOf entry :=
  isCongruence_endsAlike.of_entry id Context.root entry.1 entry.2 context (Context.start {})

/-- A sequence of entries is rejected for the first of them that is. -/
theorem rejection?_passTerms (related : Bool) (fields : List (String × Json)) :
    Descent.rejection? (passTerms follow id related fields) context =
      (fields.filter fun entry => isRelated entry = related).findSome? rejectionOf := by
  induction fields generalizing context with
  | nil =>
    rw [passTerms]
    rfl
  | cons entry fields ih =>
    rw [passTerms]
    by_cases h : isRelated entry = related
    · rw [if_pos h, List.filter_cons_of_pos (by simpa using h), List.findSome?_cons,
        Descent.rejection?_bind_or fun terms middle => ?_, rejection?_entryTerms]
      · cases rejectionOf entry <;> rfl
      · rw [Descent.rejection?_bind_pure]
        exact ih
    · rw [if_neg h, List.filter_cons_of_neg (by simpa using h)]
      exact ih

theorem rejection?_entryMembers (fields : List (String × Json)) :
    Descent.rejection? (entryMembers follow id fields) context =
      fields.findSome? rejectionOf := by
  induction fields generalizing context with
  | nil =>
    rw [entryMembers]
    rfl
  | cons entry fields ih =>
    rw [entryMembers, List.findSome?_cons, Descent.rejection?_bind_or fun terms middle => ?_,
      rejection?_entryTerms]
    · cases rejectionOf entry <;> rfl
    · rw [Descent.rejection?_bind_pure]
      exact ih

/-- An object is rejected for its first entry that is, and its own entries come first. -/
theorem rejection?_objectTerms (fields : List (String × Json)) :
    Descent.rejection? (objectTerms id fields) context =
      (ownEntries fields ++ relatedEntries fields).findSome? rejectionOf := by
  rw [objectTerms, fieldTerms, bothPasses, List.findSome?_append, ← filter_isRelated_false,
    ← filter_isRelated_true,
    Descent.rejection?_bind_or fun terms middle => ?_, rejection?_passTerms]
  rw [Descent.rejection?_bind_pure, rejection?_passTerms]

/-- An object with one entry is rejected for that entry. -/
theorem rejection?_objectTerms_singleton (entry : String × Json) :
    Descent.rejection? (objectTerms id [entry]) context = rejectionOf entry := by
  rw [rejection?_objectTerms]
  by_cases h : isRelated entry = true <;> simp [ownEntries, relatedEntries, h]

/-! ## 4.  Groups and relations -/

theorem kindOf_groupKey (op : GroupOp) (value : Json) : kindOf op.key value = .group op := by
  rw [kindOf, GroupOp.ofKey?_key]

/-- In an array, a filter is a member that is rejected as it would be alone. -/
theorem rejectionOf_groupArray (op : GroupOp) (fields : List (String × Json)) :
    rejectionOf (op.key, .array [.object fields]) =
      Descent.rejection? (objectTerms id fields) context := by
  rw [rejectionOf, entryTerms]
  simp only [kindOf_groupKey]
  rw [Descent.rejection?_bind_pure, Descent.rejection?_amongMembers, memberTerms,
    Descent.rejection?_bind_or fun term middle => ?_, Option.or_none, memberTerm,
    Descent.rejection?_bind_pure]
  · exact isCongruence_endsAlike.of_object Context.root id fields _ context
  · rw [Descent.rejection?_bind_pure, memberTerms, Descent.rejection?_pure]

/-- Written as an object, a group is rejected for its first entry that is. -/
theorem rejectionOf_groupObject (op : GroupOp) (fields : List (String × Json)) :
    rejectionOf (op.key, .object fields) = fields.findSome? rejectionOf := by
  rw [rejectionOf, entryTerms]
  simp only [kindOf_groupKey]
  rw [Descent.rejection?_bind_pure, Descent.rejection?_amongMembers, rejection?_entryMembers]

/-- Below a relation, a filter is rejected as it would be alone, whichever way the relation is
followed. -/
theorem rejection?_relatedTerm (parent : AliasId) (label : String)
    (fields : List (String × Json)) (context' : Context) :
    Descent.rejection? (relatedTerm parent label (.object fields)) context =
      Descent.rejection? (objectTerms id fields) context' := by
  rw [relatedTerm, rejection?_follow]
  split <;> exact isCongruence_endsAlike.of_object _ id fields _ context'

theorem rejectionOf_related {label : String} {fields : List (String × Json)}
    (h : isRelated (label, .object fields) = true) :
    rejectionOf (label, .object fields) = Descent.rejection? (objectTerms id fields) context := by
  have hkind : kindOf label (.object fields) = .related := of_decide_eq_true h
  rw [rejectionOf, entryTerms]
  simp only [hkind]
  rw [Descent.rejection?_bind_pure]
  exact rejection?_relatedTerm Context.root label fields context

end

/-- Whether a filter is valid depends on the filter alone.  Against every alias and in every
context it is rejected for the same reason, or accepted; as a member of a group that is written
as an array and below a relation it is rejected for that reason too; and as a group that is
written as an object, whose entries are looked at in another order, it is accepted or rejected
as it is alone. -/
theorem objectTerms_rejection_eq (fields : List (String × Json)) (id id' : AliasId)
    (context context' : Context) :
    Descent.rejection? (objectTerms id fields) context =
        Descent.rejection? (objectTerms id' fields) context' ∧
      (∀ op : GroupOp,
        Descent.rejection? (objectTerms id [(op.key, .array [.object fields])]) context =
            Descent.rejection? (objectTerms id' fields) context' ∧
          (Descent.rejection? (objectTerms id [(op.key, .object fields)]) context = none ↔
            Descent.rejection? (objectTerms id' fields) context' = none)) ∧
      ∀ label : String,
        Descent.rejection? (relatedTerm id label (.object fields)) context =
            Descent.rejection? (objectTerms id' fields) context' ∧
          (isRelated (label, .object fields) = true →
            Descent.rejection? (objectTerms id [(label, .object fields)]) context =
              Descent.rejection? (objectTerms id' fields) context') := by
  refine ⟨isCongruence_endsAlike.of_object id id' fields context context', fun op => ⟨?_, ?_⟩,
    fun label => ⟨?_, fun h => ?_⟩⟩
  · rw [rejection?_objectTerms_singleton]
    exact rejectionOf_groupArray op fields
  · -- one goes through the own entries first, the other through all of them as they come
    rw [rejection?_objectTerms_singleton, rejectionOf_groupObject, rejection?_objectTerms,
      List.findSome?_eq_none_iff, List.findSome?_eq_none_iff]
    simp only [(own_append_related_perm fields).mem_iff]
  · exact rejection?_relatedTerm id label fields context'
  · rw [rejection?_objectTerms_singleton]
    exact rejectionOf_related h

/-- Criteria with two faults, the one below a relation written first. -/
def twoFaults : List (String × Json) :=
  [("B", .object [("$and", .bool true)]), ("name", .object [("$exists", .null)])]

/-- The record's own fault is the one that is reported, also below a relation and against an
alias that is not there; a negated group that is written as an object reports the other one. -/
theorem objectTerms_rejection_eq_twoFaults :
    isRelated ("A", .object twoFaults) = true ∧
      Descent.rejection? (objectTerms Context.root [("A", .object twoFaults)]) (Context.start {})
        = Descent.rejection? (objectTerms 7 twoFaults) { Context.start {} with negations := 1 } ∧
      Descent.rejection? (objectTerms 7 twoFaults) { Context.start {} with negations := 1 }
        = some (.invalidExists "name" .null) ∧
      Descent.rejection? (objectTerms Context.root [("$not", .object twoFaults)])
        (Context.start {}) = some (.invalidOperand "$and" "$and" (.bool true)) := by
  have hrelated : isRelated ("A", .object twoFaults) = true := by decide +kernel
  refine ⟨hrelated, ?_, by decide +kernel, by decide +kernel⟩
  exact ((objectTerms_rejection_eq twoFaults Context.root 7 (Context.start {})
    { Context.start {} with negations := 1 }).2.2 "A").2 hrelated

end Matching
end GraphSearch
