import GraphSearch.Proofs.Matching.Arena
import GraphSearch.Proofs.Matching.Congruence
import GraphSearch.Proofs.Matching.Endings
/-!
# Nothing is matched inside a negation

What is asked of related records inside a negation has to fail of all of them, and an optional
match would ask it of one at a time.  So inside a negation there are existentials only: whatever
the criteria are, and also when they are rejected half way, a compilation there adds scoped
aliases and changes nothing else (`Context.AddsScoped`).

This is a property of single steps that the recursion respects (`isCongruence_matchesNothing`);
the one step that looks at the mode is following a relation.
-/

namespace GraphSearch.Matching

open Criteria

/-! ## 1.  Adding scoped aliases -/

namespace Context

/-- Scoped aliases were added, and all else is as it was: the matched aliases and their number,
what declared names stand for, every pattern and attached term, and the deferred terms. -/
structure AddsScoped (before after : Context) : Prop where
  aliases : ∃ added, after.aliases = before.aliases ++ added ∧ ∀ a ∈ added, a.isScoped = true
  matchedCount : after.matchedCount = before.matchedCount
  matchedNames : after.matchedNames = before.matchedNames
  bindings : after.bindings = before.bindings
  patterns : after.patterns = before.patterns
  attached : after.attached = before.attached
  deferred : after.deferred = before.deferred
  negations : after.negations = before.negations
  options : after.options = before.options

theorem AddsScoped.refl (context : Context) : context.AddsScoped context :=
  ⟨⟨[], (List.append_nil _).symm, by simp⟩, rfl, rfl, rfl, rfl, rfl, rfl, rfl, rfl⟩

theorem AddsScoped.trans {before middle after : Context} (h : before.AddsScoped middle)
    (h' : middle.AddsScoped after) : before.AddsScoped after where
  aliases := by
    obtain ⟨added, heq, hscoped⟩ := h.aliases
    obtain ⟨added', heq', hscoped'⟩ := h'.aliases
    refine ⟨added ++ added', by rw [heq', heq, List.append_assoc], fun a ha => ?_⟩
    rcases List.mem_append.mp ha with ha | ha
    · exact hscoped a ha
    · exact hscoped' a ha
  matchedCount := h'.matchedCount.trans h.matchedCount
  matchedNames := h'.matchedNames.trans h.matchedNames
  bindings := h'.bindings.trans h.bindings
  patterns := h'.patterns.trans h.patterns
  attached := h'.attached.trans h.attached
  deferred := h'.deferred.trans h.deferred
  negations := h'.negations.trans h.negations
  options := h'.options.trans h.options

/-- The matched aliases do not depend on the scoped ones. -/
theorem addsScoped_addScoped (context : Context) : context.AddsScoped context.addScoped.2 := by
  refine ⟨⟨_, aliases_addScoped, by simp⟩, rfl, ?_, rfl, rfl, rfl, rfl, rfl, rfl⟩
  simp [Context.matchedNames]

/-- What is added among the members of a group, seen from outside the group. -/
theorem AddsScoped.of_group {op : GroupOp} {context inside : Context}
    (h : (context.opened op).AddsScoped inside) : context.AddsScoped (inside.closed op) := by
  have hneg := negations_closed h.negations
  obtain ⟨haliases, hcount, hnames, hbindings, hpatterns, hattached, hdeferred, -, hoptions⟩ := h
  rw [opened_eq] at haliases hcount hnames hbindings hpatterns hattached hdeferred hoptions
  rw [closed_eq] at hneg ⊢
  exact ⟨haliases, hcount, hnames, hbindings, hpatterns, hattached, hdeferred, hneg, hoptions⟩

theorem AddsScoped.inNegation {before after : Context} (h : before.AddsScoped after)
    (hneg : before.inNegation = true) : after.inNegation = true := by
  rw [Context.inNegation, h.negations]
  exact hneg

end Context

/-! ## 2.  Steps inside a negation -/

/-- Inside a negation, the step adds scoped aliases and changes nothing else, however it ends. -/
def Descent.MatchesNothing {α : Type} (step : Descent α) : Prop :=
  ∀ context : Context, context.inNegation = true →
    context.AddsScoped (Descent.contextAfter step context)

theorem isCongruence_matchesNothing :
    IsCongruence fun step _ => Descent.MatchesNothing step where
  value _ _ context _ := .refl context
  refusal _ context _ := .refl context
  sequence {_ _ step _ next _} h hnext context hneg := by
    have hstep := h context hneg
    rcases Descent.contextAfter_bind step next context with heq | ⟨a, heq⟩
    · rw [heq]
      exact hstep
    · rw [heq]
      -- the continuation runs inside the same negation
      exact hstep.trans (hnext a a _ (hstep.inNegation hneg))
  group op step _ h context hneg := by
    rw [Descent.contextAfter_amongMembers]
    exact (h _ (by rw [Context.inNegation_opened, hneg, Bool.true_or])).of_group
  leaf id _ key value context _ := by
    rw [contextAfter_leafTerms]
    exact .refl context
  relation h context hneg := by
    rw [contextAfter_follow_of_inNegation hneg]
    exact context.addsScoped_addScoped.trans (h _ 0 _ hneg)

/-! ## 3.  Negated groups and what is below them -/

/-- Nothing inside a negation is matched.  In a context inside a negation, compiling an object, a
group or related records adds scoped aliases and changes nothing else, and in every context so
does compiling a negated group: whatever the criteria are, and also when they are rejected. -/
theorem addsScoped_of_negation :
    (∀ context : Context, context.inNegation = true → ∀ id : AliasId,
      (∀ fields, context.AddsScoped (Descent.contextAfter (objectTerms id fields) context)) ∧
      (∀ op value, context.AddsScoped (Descent.contextAfter (groupTerms id op value) context)) ∧
      ∀ label value,
        context.AddsScoped (Descent.contextAfter (relatedTerm id label value) context)) ∧
    ∀ op : GroupOp, op = .not ∨ op = .nor → ∀ (context : Context) (id : AliasId) (value : Json),
      context.AddsScoped (Descent.contextAfter (groupTerms id op value) context) := by
  have hinv := isCongruence_matchesNothing
  refine ⟨fun context hneg id => ⟨fun fields => ?_, fun op value => ?_, fun label value => ?_⟩,
    fun op hop context id value => ?_⟩
  · exact hinv.of_object id id fields context hneg
  · exact hinv.of_group id id op value context hneg
  · exact hinv.of_related id id label value context hneg
  · have hnegates : op.negates = true := by
      rcases hop with rfl | rfl <;> rfl
    have hinside := hinv.of_groupMembers id id op value (context.opened op)
      (by rw [Context.inNegation_opened, hnegates, Bool.or_true])
    rw [groupTerms_eq, Descent.contextAfter_bind_pure, Descent.contextAfter_amongMembers]
    exact hinside.of_group

/-- Criteria that are rejected below two relations. -/
def rejectedBelow : List (String × Json) :=
  [("A", .object [("name", .string "a"), ("B", .object [("$and", .bool true)])])]

/-- Two relations were followed when the criteria are rejected, and nothing was matched. -/
theorem addsScoped_of_negation_rejectedBelow :
    let negated : Context := { Context.start {} with negations := 1 }
    let left := Descent.contextAfter (objectTerms Context.root rejectedBelow) negated
    negated.inNegation = true ∧ negated.AddsScoped left ∧ left.aliases.length = 3 ∧
      Descent.rejection? (objectTerms Context.root rejectedBelow) negated
        = some (.invalidOperand "$and" "$and" (.bool true)) ∧
      (Context.start {}).AddsScoped (Descent.contextAfter
        (groupTerms Context.root .nor (.array [.object rejectedBelow])) (Context.start {})) := by
  intro negated left
  have hneg : negated.inNegation = true := rfl
  refine ⟨hneg, (addsScoped_of_negation.1 negated hneg Context.root).1 rejectedBelow,
    by decide +kernel, by decide +kernel, ?_⟩
  exact addsScoped_of_negation.2 .nor (Or.inr rfl) (Context.start {}) Context.root
    (.array [.object rejectedBelow])

end GraphSearch.Matching
