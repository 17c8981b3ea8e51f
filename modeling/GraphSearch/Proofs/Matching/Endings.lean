import GraphSearch.Proofs.Matching.Steps
/-!
# Steps, however they end

A step of the compilation leaves a context whether it succeeds or is rejected, and it is rejected
for one reason.  The lemmas here say both for the ways in which steps are put together, so that
facts about runs that fail are proved without opening the monad:

* `Descent.contextAfter`: the context a step leaves;
* `Descent.rejection?`: why a step is rejected, if it is;
* `rejection?_bind`, `rejection?_bind_eq_some`: the first reason in a sequence is the one given;
* `contextAfter_amongMembers`, `rejection?_amongMembers`: a group is closed however its members
  end, and adds no reason of its own;
* `contextAfter_follow_of_inNegation`, `rejection?_follow`: following a relation ends as the
  compilation of its fields does, whichever way it is followed.
-/

namespace GraphSearch.Matching

open Criteria

namespace Descent

variable {α β : Type} {context : Context}

/-! ## 1.  The context a step leaves -/

/-- The context a step leaves, whether it succeeds or is rejected. -/
def contextAfter (step : Descent α) (context : Context) : Context :=
  match step context with
  | .ok _ after => after
  | .error _ after => after

@[simp] theorem contextAfter_pure (a : α) : contextAfter (pure a) context = context := rfl

@[simp] theorem contextAfter_throw (rejection : Rejection) :
    contextAfter (throw rejection : Descent α) context = context := rfl

theorem contextAfter_eq_of_ok {step : Descent α} {a : α} {after : Context}
    (h : step context = .ok a after) : contextAfter step context = after := by
  rw [contextAfter, h]

/-- A sequence leaves what its first step leaves, if that is rejected, and goes on from there
otherwise. -/
theorem contextAfter_bind (step : Descent α) (next : α → Descent β) (context : Context) :
    contextAfter (step >>= next) context = contextAfter step context ∨
      ∃ a, contextAfter (step >>= next) context =
        contextAfter (next a) (contextAfter step context) := by
  simp only [contextAfter, bind, EStateM.bind]
  cases step context with
  | ok a middle => exact Or.inr ⟨a, rfl⟩
  | error rejection middle => exact Or.inl rfl

/-- What becomes of the value of a step does not matter to the context. -/
theorem contextAfter_bind_pure (step : Descent α) (f : α → β) (context : Context) :
    contextAfter (step >>= fun a => pure (f a)) context = contextAfter step context := by
  rcases contextAfter_bind step (fun a => pure (f a)) context with h | ⟨_, h⟩ <;> exact h

/-- A group is closed again, however its members end. -/
theorem contextAfter_amongMembers (op : GroupOp) (step : Descent α) (context : Context) :
    contextAfter (amongMembers op step) context =
      (contextAfter step (context.opened op)).closed op := by
  by_cases h : op.negates = true
  · have hopened : { context with negations := context.negations + 1 } = context.opened op :=
      (if_pos h).symm
    rw [amongMembers, if_pos h]
    simp only [contextAfter, insideNegation, hopened]
    cases step (context.opened op) <;> exact (if_pos h).symm
  · rw [amongMembers, Context.opened, Context.closed, if_neg h, if_neg h, if_neg h]

/-! ## 2.  The reason a step is rejected for -/

/-- Why a step is rejected, if it is. -/
def rejection? (step : Descent α) (context : Context) : Option Rejection :=
  match step context with
  | .ok _ _ => none
  | .error rejection _ => some rejection

@[simp] theorem rejection?_pure (a : α) : rejection? (pure a) context = none := rfl

@[simp] theorem rejection?_throw (rejection : Rejection) :
    rejection? (throw rejection : Descent α) context = some rejection := rfl

/-- A step that is not rejected yields a value. -/
theorem exists_eq_ok_of_rejection? {step : Descent α} (h : rejection? step context = none) :
    ∃ a, step context = .ok a (contextAfter step context) := by
  simp only [rejection?, contextAfter] at h ⊢
  cases hstep : step context with
  | ok a after => exact ⟨a, rfl⟩
  | error rejection after =>
    rw [hstep] at h
    cases h

/-- The first reason in a sequence is the one that is given. -/
theorem rejection?_bind (step : Descent α) (next : α → Descent β) (context : Context) :
    rejection? (step >>= next) context =
      match step context with
      | .ok a middle => rejection? (next a) middle
      | .error rejection _ => some rejection := by
  simp only [rejection?, bind, EStateM.bind]
  cases step context <;> rfl

/-- A sequence is rejected by its first step, or by what it goes on with. -/
theorem rejection?_bind_eq_some {step : Descent α} {next : α → Descent β} {rejection : Rejection}
    (h : rejection? (step >>= next) context = some rejection) :
    rejection? step context = some rejection ∨
      ∃ a middle, rejection? (next a) middle = some rejection := by
  rw [rejection?_bind] at h
  simp only [rejection?] at h ⊢
  cases hstep : step context with
  | ok a middle =>
    rw [hstep] at h
    exact .inr ⟨a, middle, h⟩
  | error rejection' middle =>
    rw [hstep] at h
    exact .inl h

/-- When the continuation ends the same way whatever it is given, the sequence is rejected for
what its first step is, and otherwise for what the continuation is. -/
theorem rejection?_bind_or {step : Descent α} {next : α → Descent β} {rest : Option Rejection}
    (h : ∀ a middle, rejection? (next a) middle = rest) :
    rejection? (step >>= next) context = (rejection? step context).or rest := by
  rw [rejection?_bind]
  simp only [rejection?] at h ⊢
  cases step context with
  | ok a middle => exact h a middle
  | error rejection middle => rfl

/-- What becomes of the value of a step does not matter to its ending. -/
theorem rejection?_bind_pure (step : Descent α) (f : α → β) (context : Context) :
    rejection? (step >>= fun a => pure (f a)) context = rejection? step context :=
  (rejection?_bind_or fun a _ => rejection?_pure (f a)).trans Option.or_none

@[simp] theorem rejection?_amongMembers (op : GroupOp) (step : Descent α) (context : Context) :
    rejection? (amongMembers op step) context = rejection? step (context.opened op) := by
  by_cases h : op.negates = true
  · rw [amongMembers, Context.opened, if_pos h, if_pos h]
    simp only [rejection?, insideNegation]
    cases step { context with negations := context.negations + 1 } <;> rfl
  · rw [amongMembers, Context.opened, if_neg h, if_neg h]

end Descent

/-! ## 3.  Leaves and relations -/

section

variable {label : String} {fields : List (String × Json)} {parent : AliasId}
  {body : AliasId → Descent (List Formula)} {context : Context}

/-- An entry without criteria inside looks at the context and leaves it alone. -/
theorem leafTerms_apply (id : AliasId) (key : String) (value : Json) (context : Context) :
    leafTerms id key value context =
      match leafPredicates context.options (context.nameOf id) key value with
      | .ok predicates => .ok (predicateTerms (context.nameOf id) predicates) context
      | .error rejection => .error rejection context := by
  show (Descent.lift (leafPredicates context.options (context.nameOf id) key value) >>=
    fun predicates => pure (predicateTerms (context.nameOf id) predicates) : Descent _) context = _
  cases leafPredicates context.options (context.nameOf id) key value <;> rfl

@[simp] theorem contextAfter_leafTerms (id : AliasId) (key : String) (value : Json) :
    Descent.contextAfter (leafTerms id key value) context = context := by
  rw [Descent.contextAfter, leafTerms_apply]
  cases leafPredicates context.options (context.nameOf id) key value <;> rfl

theorem rejection?_leafTerms (id : AliasId) (key : String) (value : Json) :
    Descent.rejection? (leafTerms id key value) context =
      match leafPredicates context.options (context.nameOf id) key value with
      | .ok _ => none
      | .error rejection => some rejection := by
  rw [Descent.rejection?, leafTerms_apply]
  cases leafPredicates context.options (context.nameOf id) key value <;> rfl

theorem followScoped_apply : followScoped label fields parent body context =
    match body context.aliases.length context.addScoped.2 with
    | .ok terms after => .ok (.existential (.hop (context.addScoped.2.nameOf parent)
        (relationOf fields) (context.addScoped.2.nameOf context.aliases.length) label) terms) after
    | .error rejection after => .error rejection after := by
  show EStateM.bind (body context.aliases.length) _ context.addScoped.2 = _
  rw [EStateM.bind]
  cases body context.aliases.length context.addScoped.2 <;> rfl

theorem followMatched_apply : followMatched label fields parent body context =
    match body context.aliases.length (context.entered label fields parent) with
    | .ok terms inside =>
      let left := leaveMatched context.aliases.length
        (context.entered label fields parent).matchedCount terms inside
      .ok left.1 left.2
    | .error rejection inside => .error rejection inside := by
  show EStateM.bind (body context.aliases.length) _ (context.entered label fields parent) = _
  rw [EStateM.bind]
  cases body context.aliases.length (context.entered label fields parent) <;> rfl

theorem follow_apply : follow label fields parent body context =
    if context.inNegation then followScoped label fields parent body context
    else followMatched label fields parent body context := by
  show (if context.inNegation then followScoped label fields parent body
    else followMatched label fields parent body : Descent Formula) context = _
  split <;> rfl

/-- Inside a negation, a relation leaves what the compilation of its fields leaves. -/
theorem contextAfter_follow_of_inNegation (h : context.inNegation = true) :
    Descent.contextAfter (follow label fields parent body) context =
      Descent.contextAfter (body context.aliases.length) context.addScoped.2 := by
  rw [Descent.contextAfter, Descent.contextAfter, follow_apply, if_pos h, followScoped_apply]
  cases body context.aliases.length context.addScoped.2 <;> rfl

/-- A relation is rejected when the compilation of its fields is, and for the same reason. -/
theorem rejection?_follow : Descent.rejection? (follow label fields parent body) context =
    if context.inNegation then
      Descent.rejection? (body context.aliases.length) context.addScoped.2
    else
      Descent.rejection? (body context.aliases.length) (context.entered label fields parent) := by
  rw [Descent.rejection?, follow_apply]
  by_cases h : context.inNegation = true
  · rw [if_pos h, if_pos h, followScoped_apply, Descent.rejection?]
    cases body context.aliases.length context.addScoped.2 <;> rfl
  · rw [if_neg h, if_neg h, followMatched_apply, Descent.rejection?]
    cases body context.aliases.length (context.entered label fields parent) <;> rfl

/-- A relation is rejected for what its fields are. -/
theorem exists_of_rejection?_follow {rejection : Rejection}
    (h : Descent.rejection? (follow label fields parent body) context = some rejection) :
    ∃ child inside, Descent.rejection? (body child) inside = some rejection := by
  rw [rejection?_follow] at h
  split at h
  · exact ⟨_, _, h⟩
  · exact ⟨_, _, h⟩

end
end GraphSearch.Matching
