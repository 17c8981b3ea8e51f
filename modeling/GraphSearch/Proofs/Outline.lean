import GraphSearch.Proofs.Matching.Steps
/-!
# Rejections up to the value they show

A rejection shows the value it arose at, and that value is the only part of it that depends on
how a request was spelled.  What is left is its outline: which rejection it is, and the key it
arose at.  Two computations are alike when they give the same result, or are rejected with the
same outline.

* `Results.Alike`, `Descent.Alike`: computations that are alike, without and with a context;
* `Results.Alike.bind`, `Results.Alike.mapM`: a computation is alike when its parts are;
* `Descent.Alike.bind`, `Descent.Alike.amongMembers`: so is a step, also inside a group;
* `Descent.Alike.cases`: what it comes to that two steps are alike.
-/

namespace GraphSearch

/-! ## 1.  Outlines -/

/-- Which rejection a rejection is. -/
inductive Rejection.Kind where
  | unknownOperator
  | unknownComponent
  | missingYear
  | arrayForScalar
  | invalidExists
  | invalidType
  | invalidOperand
  | invalidAggregate
  | unknownAlias
  | invalidRequest
  deriving DecidableEq, Repr

/-- The kind of a rejection. -/
def Rejection.kind : Rejection → Kind
  | .unknownOperator .. => .unknownOperator
  | .unknownComponent .. => .unknownComponent
  | .missingYear .. => .missingYear
  | .arrayForScalar .. => .arrayForScalar
  | .invalidExists .. => .invalidExists
  | .invalidType .. => .invalidType
  | .invalidOperand .. => .invalidOperand
  | .invalidAggregate .. => .invalidAggregate
  | .unknownAlias .. => .unknownAlias
  | .invalidRequest .. => .invalidRequest

/-- The kind of a rejection and the key it arose at. -/
def Rejection.outline (rejection : Rejection) : Rejection.Kind × String :=
  (rejection.kind, rejection.key)

/-! ## 2.  Results -/

namespace Results

variable {α β : Type}

/-- Two results are the same, or two rejections with one outline. -/
def Alike (result other : Except Rejection α) : Prop :=
  result.mapError Rejection.outline = other.mapError Rejection.outline

theorem Alike.refl (result : Except Rejection α) : Alike result result := rfl

theorem Alike.error {rejection other : Rejection} (h : rejection.outline = other.outline) :
    Alike (.error rejection : Except Rejection α) (.error other) :=
  congrArg Except.error h

/-- Either both results are there and the same, or both are rejections. -/
theorem Alike.cases {result other : Except Rejection α} (h : Alike result other) :
    (∃ a, result = .ok a ∧ other = .ok a) ∨
      ∃ rejection rejection', result = .error rejection ∧ other = .error rejection' ∧
        rejection.outline = rejection'.outline := by
  cases result with
  | ok a =>
    cases other with
    | ok b =>
      obtain rfl : a = b := Except.ok.inj h
      exact .inl ⟨a, rfl, rfl⟩
    | error rejection => cases h
  | error rejection =>
    cases other with
    | ok b => cases h
    | error rejection' => exact .inr ⟨rejection, rejection', rfl, rfl, Except.error.inj h⟩

theorem Alike.bind {result other : Except Rejection α} {next next' : α → Except Rejection β}
    (h : Alike result other) (hnext : ∀ a, Alike (next a) (next' a)) :
    Alike (result >>= next) (other >>= next') := by
  obtain ⟨a, rfl, rfl⟩ | ⟨rejection, rejection', rfl, rfl, houtline⟩ := h.cases
  · exact hnext a
  · exact Alike.error houtline

theorem Alike.map {result other : Except Rejection α} (h : Alike result other) (f : α → β) :
    Alike (result.map f) (other.map f) := by
  obtain ⟨a, rfl, rfl⟩ | ⟨rejection, rejection', rfl, rfl, houtline⟩ := h.cases
  · exact Alike.refl _
  · exact Alike.error houtline

/-- Two lists of results are alike when each item has results that are alike. -/
theorem Alike.mapM {f f' : α → Except Rejection β} (h : ∀ a, Alike (f a) (f' a))
    (items : List α) : Alike (items.mapM f) (items.mapM f') := by
  induction items with
  | nil => exact Alike.refl _
  | cons a items ih =>
    rw [List.mapM_cons, List.mapM_cons]
    exact (h a).bind fun b => ih.bind fun others => Alike.refl _

end Results

/-! ## 3.  Steps -/

namespace Matching.Descent

variable {α β : Type}

/-- How a step ends, with a rejection replaced by its outline. -/
def outlined : EStateM.Result Rejection Context α →
    EStateM.Result (Rejection.Kind × String) Context α
  | .ok a after => .ok a after
  | .error rejection after => .error rejection.outline after

/-- From every context, two steps leave the same value and context, or two rejections with one
outline and the same context. -/
def Alike (step other : Descent α) : Prop :=
  ∀ context, outlined (step context) = outlined (other context)

theorem Alike.refl (step : Descent α) : Alike step step := fun _ => rfl

/-- Either both steps succeed and leave the same, or both are rejected. -/
theorem Alike.cases {step other : Descent α} (h : Alike step other) (context : Context) :
    (∃ a after, step context = .ok a after ∧ other context = .ok a after) ∨
      ∃ rejection rejection' after, step context = .error rejection after ∧
        other context = .error rejection' after ∧ rejection.outline = rejection'.outline := by
  have hcontext := h context
  cases hstep : step context with
  | ok a after =>
    rw [hstep] at hcontext
    cases hother : other context with
    | ok b after' =>
      rw [hother] at hcontext
      cases hcontext
      exact .inl ⟨a, after, rfl, rfl⟩
    | error rejection after' =>
      rw [hother] at hcontext
      cases hcontext
  | error rejection after =>
    rw [hstep] at hcontext
    cases hother : other context with
    | ok b after' =>
      rw [hother] at hcontext
      cases hcontext
    | error rejection' after' =>
      rw [hother] at hcontext
      obtain ⟨houtline, rfl⟩ := EStateM.Result.error.inj hcontext
      exact .inr ⟨rejection, rejection', after, rfl, rfl, houtline⟩

theorem Alike.bind {step other : Descent α} {next next' : α → Descent β}
    (h : Alike step other) (hnext : ∀ a, Alike (next a) (next' a)) :
    Alike (step >>= next) (other >>= next') := by
  intro context
  simp only [Bind.bind, EStateM.bind]
  obtain ⟨a, after, hstep, hother⟩ | ⟨rejection, rejection', after, hstep, hother, houtline⟩ :=
    h.cases context
  · rw [hstep, hother]
    exact hnext a after
  · rw [hstep, hother]
    exact congrArg (EStateM.Result.error · after) houtline

theorem Alike.throw {rejection other : Rejection} (h : rejection.outline = other.outline) :
    Alike (MonadExcept.throw rejection : Descent α) (MonadExcept.throw other) :=
  fun context => congrArg (EStateM.Result.error · context) h

theorem Alike.lift {result other : Except Rejection α} (h : Results.Alike result other) :
    Alike (lift result) (lift other) := by
  obtain ⟨a, rfl, rfl⟩ | ⟨rejection, rejection', rfl, rfl, houtline⟩ := h.cases
  · exact Alike.refl _
  · exact Alike.throw houtline

/-- Steps that are alike are alike among the members of a group: what is opened before and
closed after them is the same. -/
theorem Alike.amongMembers {step other : Descent α} (op : GroupOp) (h : Alike step other) :
    Alike (amongMembers op step) (amongMembers op other) := by
  rw [Descent.amongMembers, Descent.amongMembers]
  split
  case isTrue hnegates =>
    intro context
    rw [insideNegation, insideNegation]
    obtain ⟨a, after, hstep, hother⟩ | ⟨rejection, rejection', after, hstep, hother, houtline⟩ :=
      h.cases { context with negations := context.negations + 1 }
    · rw [hstep, hother]
    · rw [hstep, hother]
      exact congrArg (EStateM.Result.error · _) houtline
  case isFalse hnegates => exact h

end Matching.Descent
end GraphSearch
