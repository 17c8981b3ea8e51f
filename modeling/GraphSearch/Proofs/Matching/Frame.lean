import GraphSearch.Proofs.Matching.Binding
import GraphSearch.Proofs.Matching.Congruence
import GraphSearch.Proofs.Matching.Endings
/-!
# What a compilation leaves alone

Criteria may be rejected at any depth, with negations open, aliases just added and terms not yet
kept.  However a compilation ends, it leaves the context in order: negations are closed again,
what was deferred before is what is deferred after, the aliases that were there are as they were,
and only names that the criteria declare have come to stand for something else.

* `Context.Spares`: all of that, as a relation between the contexts before and after;
* `Context.DefersWithin`: terms are deferred only for aliases that are there, which is what a
  compilation needs to find its own deferred terms, and nothing else, under a new alias;
* `isCongruenceOn_spares`: the recursion keeps both, however its steps end;
* `compiling_spares`: so do the entry points, and nothing is deferred any more once the terms of
  the root record are taken.
-/

namespace GraphSearch.Matching

open Criteria

namespace Context

/-! ## 1.  Contexts that are spared -/

/-- Terms are deferred only for aliases that are there. -/
def DefersWithin (context : Context) : Prop :=
  ∀ {id}, context.aliases.length ≤ id → Table.find? id context.deferred = none

/-- Aliases were added, and what was known before is unchanged, but for what the names given
stand for. -/
structure Spares (names : List String) (before after : Context) : Prop
    extends before.Extends after where
  bindings : ∀ name ∉ names, Table.find? name after.bindings = Table.find? name before.bindings

variable {names : List String} {before middle after : Context}

theorem Spares.refl (names : List String) (context : Context) : context.Spares names context :=
  ⟨.refl context, fun _ _ => rfl⟩

theorem Spares.trans (h : before.Spares names middle) (h' : middle.Spares names after) :
    before.Spares names after :=
  ⟨h.toExtends.trans h'.toExtends,
    fun name hname => (h'.bindings name hname).trans (h.bindings name hname)⟩

theorem Extends.defersWithin (h : before.Extends after) (hbefore : before.DefersWithin) :
    after.DefersWithin := by
  intro id hid
  rw [h.deferred]
  exact hbefore (Nat.le_trans h.length_le hid)

theorem DefersWithin.opened (h : before.DefersWithin) (op : GroupOp) :
    (before.opened op).DefersWithin := by
  rw [opened_eq]
  exact h

theorem spares_addScoped (names : List String) (context : Context) :
    context.Spares names context.addScoped.2 :=
  ⟨context.extends_addScoped, fun _ _ => rfl⟩

/-- Opening a matched alias binds the name it is declared by. -/
theorem entered_bindings (context : Context) (label : String) (fields : List (String × Json))
    (parent : AliasId) : (context.entered label fields parent).bindings =
      match aliasOf fields with
      | some declared =>
        Table.insert declared (context.options.rootAlias ++ toString context.matchedCount)
          context.bindings
      | none => context.bindings := by
  simp only [entered, openMatched]
  cases aliasOf fields with
  | none => rfl
  | some declared => simp [Context.setPattern, Context.bind, Context.addMatched, Context.nameOf]

theorem spares_entered (context : Context) (label : String) {fields : List (String × Json)}
    (parent : AliasId) (hnames : ∀ declared, aliasOf fields = some declared → declared ∈ names) :
    context.Spares names (context.entered label fields parent) := by
  refine ⟨context.extends_entered label fields parent, fun name hname => ?_⟩
  rw [entered_bindings]
  cases halias : aliasOf fields with
  | none => rfl
  | some declared =>
    have hne : name ≠ declared := fun heq => hname (heq ▸ hnames declared halias)
    exact Table.find?_insert_of_ne hne _ _

/-- What happens among the members of a group, seen from outside the group. -/
theorem Spares.of_group {op : GroupOp} {context inside : Context}
    (h : (context.opened op).Spares names inside) : context.Spares names (inside.closed op) := by
  refine ⟨h.toExtends.of_group, fun name hname => ?_⟩
  have hbindings := h.bindings name hname
  rw [opened_eq] at hbindings
  rw [closed_eq]
  exact hbindings

/-- Leaving a matched alias, seen from before it was opened. -/
theorem Spares.left {id : AliasId} {count : Nat} {terms : List Formula}
    (h : before.Spares names after) (hid : before.aliases.length ≤ id) :
    before.Spares names (after.left id count terms) := by
  refine ⟨h.toExtends.left hid, fun name hname => ?_⟩
  rw [left_bindings]
  exact h.bindings name hname

end Context

/-! ## 2.  Steps that spare their context -/

variable {names : List String}

/-- However the step ends, it spares a context in which terms are deferred only for aliases that
are there. -/
def Descent.Spares (names : List String) {α : Type} (step : Descent α) : Prop :=
  ∀ context : Context, context.DefersWithin →
    context.Spares names (Descent.contextAfter step context)

/-- A matched relation that is rejected leaves its alias behind; otherwise its terms are taken
out of the queue again as soon as they are deferred. -/
theorem spares_follow_of_matched {label : String} {fields : List (String × Json)}
    {parent : AliasId} {body : AliasId → Descent (List Formula)} {context : Context}
    (hneg : context.inNegation = false) (hdefers : context.DefersWithin)
    (hnames : ∀ declared, aliasOf fields = some declared → declared ∈ names)
    (hbody : Descent.Spares names (body context.aliases.length)) :
    context.Spares names
      (Descent.contextAfter (follow label fields parent body) context) := by
  have hentered := context.spares_entered label parent hnames
  have hinside := hbody _ (hentered.defersWithin hdefers)
  have hall := hentered.trans hinside
  rw [Descent.contextAfter] at hinside hall
  rw [Descent.contextAfter, follow_apply, if_neg (by rw [hneg]; exact Bool.false_ne_true),
    followMatched_apply]
  cases hrun : body context.aliases.length (context.entered label fields parent) with
  | error rejection inside =>
    rw [hrun] at hall
    exact hall
  | ok terms inside =>
    rw [hrun] at hall
    have hnothing : Table.find? context.aliases.length inside.deferred = none := by
      rw [hall.deferred]
      exact hdefers (Nat.le_refl _)
    simp only [leaveMatched_eq hnothing]
    exact hall.left (Nat.le_refl _)

theorem isCongruenceOn_spares (names : List String) :
    IsCongruenceOn (fun leaf => ∀ name ∈ declaredNames [leaf], name ∈ names)
      fun step _ => Descent.Spares names step where
  value _ _ context _ := .refl names context
  refusal _ context _ := .refl names context
  sequence {_ _ step _ next _} h hnext context hdefers := by
    have hstep := h context hdefers
    rcases Descent.contextAfter_bind step next context with heq | ⟨a, heq⟩
    · rw [heq]
      exact hstep
    · rw [heq]
      exact hstep.trans (hnext a a _ (hstep.defersWithin hdefers))
  group op step _ h context hdefers := by
    rw [Descent.contextAfter_amongMembers]
    exact (h _ (hdefers.opened op)).of_group
  leaf id _ key value _ context _ := by
    rw [contextAfter_leafTerms]
    exact .refl names context
  relation {_ fields _ _ _ _} hleaves h context hdefers := by
    cases hneg : context.inNegation with
    | true =>
      rw [contextAfter_follow_of_inNegation hneg]
      have hadded := context.spares_addScoped names
      exact hadded.trans (h _ 0 _ (hadded.defersWithin hdefers))
    | false =>
      refine spares_follow_of_matched hneg hdefers (fun declared halias => ?_) (h _ 0)
      -- the declaration is one of the leaves of the fields
      obtain ⟨leaf, hleaf, hname⟩ :=
        List.mem_filterMap.mp (mem_declaredNames_of_aliasOf halias)
      exact hleaves leaf hleaf declared (List.mem_filterMap.mpr ⟨leaf, by simp, hname⟩)

theorem declaredNames_singleton_subset {leaves : List (String × Json)} {leaf : String × Json}
    (h : leaf ∈ leaves) : ∀ name ∈ declaredNames [leaf], name ∈ declaredNames leaves := by
  intro name hname
  obtain ⟨found, hfound, hdeclares⟩ := List.mem_filterMap.mp hname
  obtain rfl := List.mem_singleton.mp hfound
  exact List.mem_filterMap.mpr ⟨found, h, hdeclares⟩

/-! ## 3.  Whole runs -/

/-- Nothing is deferred any more once the terms of the root record are taken. -/
theorem hasDeferred_takeRootTerms {options : Options} {criteria : Json} {after : Context}
    (h : rootTerms criteria (Context.start options) = .ok () after) :
    (Selection.takeRootTerms after).2.hasDeferred = false := by
  rw [Selection.takeRootTerms_snd, Context.hasDeferred]
  cases criteria with
  | null =>
    obtain ⟨-, rfl⟩ := Descent.pure_eq_ok.mp h
    rfl
  | object fields =>
    obtain ⟨terms, inside, hwalk, rfl⟩ := rootTerms_object_eq_ok.mp h
    have hinside := hwalk.deferred_eq_nil
    have herase : Table.erase Context.root (keepTerms Context.root 1 terms inside).deferred =
        [] := by
      simp only [keepTerms, Context.defer, Context.attach]
      split
      · rw [hinside]
        exact Table.erase_insert (List.not_mem_nil) _
      · split <;> rw [hinside] <;> rfl
    rw [herase]
    rfl
  | bool _ | number _ | string _ | array _ => exact absurd h Descent.throw_ne_ok

/-- **A compilation leaves everything else alone.**  Where terms are deferred only for aliases
that are there, compiling an object, a group or related records spares the context, whatever the
criteria are, whatever alias they are compiled against, and also when they are rejected: the
negations that are open and the deferred terms are the same as before, every alias keeps its name
and kind, its pattern and its attached terms, and only names that `$alias` directives of the
criteria declare may stand for something else.  So when the criteria of a root record are
compiled and its terms are taken, no terms are left over. -/
theorem compiling_spares :
    (∀ context : Context, context.DefersWithin → ∀ id : AliasId,
      (∀ fields, context.Spares (declaredNames (fieldLeaves fields))
        (Descent.contextAfter (objectTerms id fields) context)) ∧
      (∀ op value, context.Spares (declaredNames (itemLeaves value))
        (Descent.contextAfter (groupTerms id op value) context)) ∧
      ∀ label value, context.Spares (declaredNames (itemLeaves value))
        (Descent.contextAfter (relatedTerm id label value) context)) ∧
    ∀ (options : Options) (criteria : Json) (after : Context),
      rootTerms criteria (Context.start options) = .ok () after →
      (Selection.takeRootTerms after).2.hasDeferred = false := by
  refine ⟨fun context hdefers id => ⟨fun fields => ?_, fun op value => ?_, fun label value => ?_⟩,
    fun options criteria after h => hasDeferred_takeRootTerms h⟩
  · exact (isCongruenceOn_spares _).of_object id id fields
      (fun _ hleaf => declaredNames_singleton_subset hleaf) context hdefers
  · exact (isCongruenceOn_spares _).of_group id id op value
      (fun _ hleaf => declaredNames_singleton_subset hleaf) context hdefers
  · exact (isCongruenceOn_spares _).of_related id id label value
      (fun _ hleaf => declaredNames_singleton_subset hleaf) context hdefers

/-- Two relations, each declaring a name, and a rejection below them, inside a negated group. -/
def declaredAndRejected : List (String × Json) :=
  [("A", .object [("$alias", .string "$a"), ("B", .object [("$alias", .string "$b"),
    ("$nor", .array [.object [("C", .object [("$and", .bool true)])]])])])]

/-- The rejection comes with a negation open, terms waiting for the root, and two names bound. -/
theorem compiling_spares_rejected :
    let context := (Context.start {}).defer Context.root [.atom (.present "record")]
    let left := Descent.contextAfter (objectTerms Context.root declaredAndRejected) context
    context.DefersWithin ∧
      Descent.rejection? (objectTerms Context.root declaredAndRejected) context
        = some (.invalidOperand "$and" "$and" (.bool true)) ∧
      left.aliases.length = 4 ∧ Table.find? "$b" left.bindings = some "record2" ∧
      context.Spares ["$a", "$b"] left ∧
      ∃ after, rootTerms (.object [("A", .object [("B", .object [])])]) (Context.start {})
          = .ok () after ∧
        after.hasDeferred = true ∧ (Selection.takeRootTerms after).2.hasDeferred = false := by
  intro context left
  have hdefers : context.DefersWithin := by
    intro id hid
    have hpos : Context.root ≠ id := Nat.ne_of_lt (Nat.lt_of_lt_of_le Nat.zero_lt_one hid)
    show (if Context.root = id then some _ else none) = none
    rw [if_neg hpos]
  obtain ⟨⟨⟩, hafter⟩ := Descent.exists_eq_ok_of_rejection? (show Descent.rejection?
    (rootTerms (.object [("A", .object [("B", .object [])])])) (Context.start {}) = none by
      decide +kernel)
  refine ⟨hdefers, by decide +kernel, by decide +kernel, by decide +kernel, ?_, _, hafter,
    by decide +kernel, ?_⟩
  · exact (compiling_spares.1 context hdefers Context.root).1 declaredAndRejected
  · exact compiling_spares.2 {} (.object [("A", .object [("B", .object [])])]) _ hafter

end GraphSearch.Matching
