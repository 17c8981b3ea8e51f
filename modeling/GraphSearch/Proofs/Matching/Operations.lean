import GraphSearch.Proofs.Matching.Binding
import GraphSearch.Proofs.Matching.Congruence
import GraphSearch.Proofs.Matching.Endings
/-!
# Names, whatever is done with a context

A context outlives each single compilation: aliases can be added by hand, names bound, terms
attached, and criteria compiled against any alias, where a rejected compilation leaves behind the
aliases it had added.  In whatever order that is done, aliases are only ever added at the end of
the list, either kind goes on being numbered where it stopped, and so no name is given twice.

* `Operation`, `Operation.applyAll`: what can be done with a context;
* `Context.Grows`: aliases were added and numbered;
* `isCongruence_growsBinding`: the recursion adds and numbers aliases, and binds names to matched
  aliases alone, however its steps end;
* `applyAll_numbers_aliases`: so does every sequence of operations.
-/

namespace GraphSearch.Matching

open Criteria

/-! ## 1.  Operations -/

/-- What can be done with a context. -/
inductive Operation where
  | addMatched
  | addScoped
  | bind (declared : String) (id : AliasId)
  | setPattern (id : AliasId) (pattern : Pattern)
  | attach (id : AliasId) (terms : List Formula)
  | defer (id : AliasId) (terms : List Formula)
  | takeDeferred (id : AliasId)
  | compileRoot (criteria : Json)
  | compileObject (id : AliasId) (fields : List (String × Json))
  | compileGroup (id : AliasId) (op : GroupOp) (value : Json)
  | compileRelated (parent : AliasId) (label : String) (value : Json)

namespace Operation

/-- The context an operation leaves, also when it is a compilation that is rejected. -/
def apply : Operation → Context → Context
  | addMatched, context => context.addMatched.2
  | addScoped, context => context.addScoped.2
  | bind declared id, context => context.bind declared id
  | setPattern id pattern, context => context.setPattern id pattern
  | attach id terms, context => context.attach id terms
  | defer id terms, context => context.defer id terms
  | takeDeferred id, context => (context.takeDeferred id).2
  | compileRoot criteria, context => Descent.contextAfter (rootTerms criteria) context
  | compileObject id fields, context => Descent.contextAfter (objectTerms id fields) context
  | compileGroup id op value, context => Descent.contextAfter (groupTerms id op value) context
  | compileRelated parent label value, context =>
    Descent.contextAfter (relatedTerm parent label value) context

/-- The context after one operation and another. -/
def applyAll : List Operation → Context → Context
  | [], context => context
  | operation :: operations, context => applyAll operations (operation.apply context)

/-- The operation does not bind a name by hand to anything but a matched alias. -/
def BindsMatched : Operation → Context → Prop
  | bind _ id, context => context.IsMatched id
  | _, _ => True

/-- None of the operations binds a name by hand to anything but an alias that is matched then. -/
def AllBindMatched : List Operation → Context → Prop
  | [], _ => True
  | operation :: operations, context =>
    operation.BindsMatched context ∧ AllBindMatched operations (operation.apply context)

end Operation

/-! ## 2.  Contexts that grow -/

namespace Context

variable {before middle after : Context}

/-- Aliases were added, and numbered where those before were. -/
structure Grows (before after : Context) : Prop where
  options : after.options = before.options
  aliases : before.aliases <+: after.aliases
  numbered : before.IsNumbered → after.IsNumbered

theorem Grows.refl (context : Context) : context.Grows context :=
  ⟨rfl, List.prefix_rfl, id⟩

theorem Grows.trans (h : before.Grows middle) (h' : middle.Grows after) : before.Grows after :=
  ⟨h'.options.trans h.options, h.aliases.trans h'.aliases, h'.numbered ∘ h.numbered⟩

theorem Grows.of_eq (haliases : after.aliases = before.aliases)
    (hoptions : after.options = before.options) : before.Grows after :=
  ⟨hoptions, haliases ▸ List.prefix_rfl, fun h => h.congr haliases hoptions⟩

theorem grows_addMatched (context : Context) : context.Grows context.addMatched.2 :=
  ⟨rfl, List.prefix_append _ _, IsNumbered.addMatched⟩

theorem grows_addScoped (context : Context) : context.Grows context.addScoped.2 :=
  ⟨rfl, List.prefix_append _ _, IsNumbered.addScoped⟩

theorem grows_entered (context : Context) (label : String) (fields : List (String × Json))
    (parent : AliasId) : context.Grows (context.entered label fields parent) :=
  context.grows_addMatched.trans (.of_eq entered_aliases entered_options)

/-- Aliases were added and numbered, and names that stood for matched aliases still do. -/
structure GrowsBinding (before after : Context) : Prop extends before.Grows after where
  binds : before.BindsMatched → after.BindsMatched

theorem GrowsBinding.refl (context : Context) : context.GrowsBinding context := ⟨.refl context, id⟩

theorem GrowsBinding.trans (h : before.GrowsBinding middle) (h' : middle.GrowsBinding after) :
    before.GrowsBinding after :=
  ⟨h.toGrows.trans h'.toGrows, h'.binds ∘ h.binds⟩

/-- Where no name is bound, names go on standing for what they stood for. -/
theorem Grows.binding (h : before.Grows after) (hbindings : after.bindings = before.bindings) :
    before.GrowsBinding after := by
  refine ⟨h, fun hbinds binding hmem => ?_⟩
  obtain ⟨more, hmore⟩ := h.aliases
  rw [hbindings] at hmem
  rw [matchedNames, ← hmore, List.filter_append, List.map_append]
  exact List.mem_append_left _ (hbinds binding hmem)

theorem growsBinding_opened (context : Context) (op : GroupOp) :
    context.GrowsBinding (context.opened op) := by
  rw [opened_eq]
  exact Grows.binding (.of_eq rfl rfl) rfl

theorem growsBinding_closed (context : Context) (op : GroupOp) :
    context.GrowsBinding (context.closed op) := by
  rw [closed_eq]
  exact Grows.binding (.of_eq rfl rfl) rfl

theorem growsBinding_entered (context : Context) (label : String)
    (fields : List (String × Json)) (parent : AliasId) :
    context.GrowsBinding (context.entered label fields parent) :=
  ⟨context.grows_entered label fields parent, fun h => h.entered label fields parent⟩

end Context

/-- Keeping the terms of an alias and taking what is deferred adds no alias and binds no name. -/
theorem growsBinding_leaveMatched (id : AliasId) (count : Nat) (terms : List Formula)
    (context : Context) : context.GrowsBinding (leaveMatched id count terms context).2 := by
  have hkept : (leaveMatched id count terms context).2 = { keepTerms id count terms context with
      deferred := Table.erase id (keepTerms id count terms context).deferred } := rfl
  rw [hkept, keepTerms_eq]
  exact Context.Grows.binding (.of_eq rfl rfl) rfl

/-! ## 3.  Compilations -/

/-- However the step ends, its context has grown. -/
def Descent.GrowsBinding {α : Type} (step : Descent α) : Prop :=
  ∀ context : Context, context.GrowsBinding (Descent.contextAfter step context)

theorem growsBinding_sequence {α β : Type} {step : Descent α} {next : α → Descent β}
    (h : Descent.GrowsBinding step) (hnext : ∀ a, Descent.GrowsBinding (next a)) :
    Descent.GrowsBinding (step >>= next) := by
  intro context
  rcases Descent.contextAfter_bind step next context with heq | ⟨a, heq⟩
  · rw [heq]
    exact h context
  · rw [heq]
    exact (h context).trans (hnext a _)

/-- A relation leaves an alias behind, matched or scoped, also when it is rejected. -/
theorem growsBinding_follow {label : String} {fields : List (String × Json)} {parent : AliasId}
    {body : AliasId → Descent (List Formula)} (h : ∀ child, Descent.GrowsBinding (body child)) :
    Descent.GrowsBinding (follow label fields parent body) := by
  intro context
  cases hneg : context.inNegation with
  | true =>
    rw [contextAfter_follow_of_inNegation hneg]
    exact (context.grows_addScoped.binding rfl).trans (h _ _)
  | false =>
    have hinside := (context.growsBinding_entered label fields parent).trans
      (h context.aliases.length _)
    rw [Descent.contextAfter] at hinside
    rw [Descent.contextAfter, follow_apply, if_neg (by rw [hneg]; exact Bool.false_ne_true),
      followMatched_apply]
    cases hrun : body context.aliases.length (context.entered label fields parent) with
    | error rejection inside =>
      rw [hrun] at hinside
      exact hinside
    | ok terms inside =>
      rw [hrun] at hinside
      exact hinside.trans (growsBinding_leaveMatched _ _ _ inside)

theorem isCongruence_growsBinding :
    IsCongruence fun step _ => Descent.GrowsBinding step where
  value _ _ context := .refl context
  refusal _ context := .refl context
  sequence h hnext := growsBinding_sequence h fun a => hnext a a
  group op step _ h context := by
    rw [Descent.contextAfter_amongMembers]
    exact (context.growsBinding_opened op).trans ((h _).trans (Context.growsBinding_closed _ op))
  leaf id _ key value context := by
    rw [contextAfter_leafTerms]
    exact .refl context
  relation h := growsBinding_follow fun child => h child child

/-- The criteria of the root may bind a name to it, and its terms are kept in the end. -/
theorem growsBinding_rootTerms (criteria : Json) {context : Context} (h : context.IsNumbered) :
    context.GrowsBinding (Descent.contextAfter (rootTerms criteria) context) := by
  have hkeep : ∀ terms, Descent.GrowsBinding
      (modify (keepTerms Context.root 1 terms) : Descent PUnit) := by
    intro terms inside
    show inside.GrowsBinding (keepTerms Context.root 1 terms inside)
    rw [keepTerms_eq]
    exact Context.Grows.binding (.of_eq rfl rfl) rfl
  cases criteria with
  | null => exact .refl context
  | bool _ | number _ | string _ | array _ => exact .refl context
  | object fields =>
    have hwhole : Descent.GrowsBinding (objectTerms Context.root fields >>= fun terms =>
        (modify (keepTerms Context.root 1 terms) : Descent PUnit)) :=
      growsBinding_sequence (isCongruence_growsBinding.of_object _ Context.root fields) hkeep
    cases halias : aliasOf fields with
    | none =>
      simp only [rootTerms, halias]
      exact hwhole context
    | some declared =>
      simp only [rootTerms, halias]
      have hbound : context.GrowsBinding (context.bind declared Context.root) :=
        ⟨.of_eq rfl rfl, fun hbinds => hbinds.bind declared ⟨_, h.root⟩⟩
      exact hbound.trans (hwhole _)

/-! ## 4.  Sequences of operations -/

namespace Operation

variable {context : Context}

/-- Every operation adds and numbers aliases, if it adds any, and leaves declared names with
matched aliases unless it binds one by hand to something else. -/
theorem apply_growsBinding (operation : Operation) (hnum : context.IsNumbered) :
    context.Grows (operation.apply context) ∧
      (operation.BindsMatched context → context.GrowsBinding (operation.apply context)) := by
  have hall : ∀ {after : Context}, context.GrowsBinding after →
      context.Grows after ∧ (operation.BindsMatched context → context.GrowsBinding after) :=
    fun h => ⟨h.toGrows, fun _ => h⟩
  cases operation with
  | addMatched => exact hall (context.grows_addMatched.binding rfl)
  | addScoped => exact hall (context.grows_addScoped.binding rfl)
  | bind declared id =>
    have hgrows : context.Grows (context.bind declared id) := .of_eq rfl rfl
    exact ⟨hgrows, fun hid => ⟨hgrows, fun hbinds => hbinds.bind declared hid⟩⟩
  | setPattern _ _ | attach _ _ | defer _ _ | takeDeferred _ =>
    exact hall (Context.Grows.binding (.of_eq rfl rfl) rfl)
  | compileRoot criteria => exact hall (growsBinding_rootTerms criteria hnum)
  | compileObject id fields =>
    exact hall (isCongruence_growsBinding.of_object id id fields context)
  | compileGroup id op value =>
    exact hall (isCongruence_growsBinding.of_group id id op value context)
  | compileRelated parent label value =>
    exact hall (isCongruence_growsBinding.of_related parent parent label value context)

theorem applyAll_grows (operations : List Operation) (hnum : context.IsNumbered) :
    context.Grows (applyAll operations context) := by
  induction operations generalizing context with
  | nil => exact .refl context
  | cons operation operations ih =>
    have hstep := (operation.apply_growsBinding hnum).1
    exact hstep.trans (ih (hstep.numbered hnum))

theorem applyAll_bindsMatched {operations : List Operation} (hnum : context.IsNumbered)
    (hbinds : context.BindsMatched) (h : AllBindMatched operations context) :
    (applyAll operations context).BindsMatched := by
  induction operations generalizing context with
  | nil => exact hbinds
  | cons operation operations ih =>
    obtain ⟨hfirst, hrest⟩ := h
    have hstep := (operation.apply_growsBinding hnum).2 hfirst
    exact ih (hstep.numbered hnum) (hstep.binds hbinds) hrest

/-- An alias that was added keeps its place and its name. -/
theorem applyAll_added {added : Context} {a : Alias} (more : List Operation)
    (hadded : added.IsNumbered) (haliases : added.aliases = context.aliases ++ [a]) :
    (applyAll more added).aliases[context.aliases.length]? = some a := by
  obtain ⟨others, hothers⟩ := (applyAll_grows more hadded).aliases
  rw [← hothers, haliases, List.append_assoc, List.singleton_append,
    List.getElem?_append_right (Nat.le_refl _), Nat.sub_self]
  rfl

end Operation

/-- The names of the matched aliases are those of the numbers up to their count. -/
theorem Context.IsNumbered.matchedNames_eq_cons {context : Context} (h : context.IsNumbered) :
    context.matchedNames = context.options.rootAlias ::
      (List.range (context.matchedCount - 1)).map fun i =>
        context.options.rootAlias ++ toString (i + 1) := by
  obtain ⟨n, hn⟩ := Nat.exists_eq_add_of_lt h.matchedCount_pos
  rw [h.namesMatched, hn, Nat.zero_add, Nat.add_sub_cancel, List.range_succ_eq_map, List.map_cons,
    List.map_map]
  rfl

/-- **Names are given in order, whatever is done.**  After any sequence of operations on the
context of a root alias, compilations that are rejected among them, the matched aliases are the
root and then `root1`, `root2` and so on without a gap, as many as are counted, and the scoped
ones are `root_1`, `root_2` and so on; no name is given twice; an alias that is added next takes
the next place and the next name of its kind, and keeps both whatever is done after that; and if
names are never bound by hand to anything but matched aliases, they stand for matched aliases. -/
theorem applyAll_numbers_aliases (options : Options) (operations : List Operation) :
    let root := options.rootAlias
    let context := Operation.applyAll operations (Context.start options)
    context.matchedNames =
        root :: (List.range (context.matchedCount - 1)).map (fun i => root ++ toString (i + 1)) ∧
      (context.aliases.filter fun a => a.isScoped).map Alias.name =
        (List.range context.scopedCount).map (fun k => root ++ "_" ++ toString (k + 1)) ∧
      (context.aliases.map Alias.name).Nodup ∧
      context.matchedCount = context.matchedNames.length ∧
      (∀ more : List Operation,
        context.aliases <+: (Operation.applyAll more context).aliases ∧
        context.addMatched.1 = context.aliases.length ∧
        (Operation.applyAll more context.addMatched.2).aliases[context.aliases.length]? =
          some ⟨root ++ toString context.matchedCount, false⟩ ∧
        context.addScoped.1 = context.aliases.length ∧
        (Operation.applyAll more context.addScoped.2).aliases[context.aliases.length]? =
          some ⟨root ++ "_" ++ toString (context.scopedCount + 1), true⟩) ∧
      (Operation.AllBindMatched operations (Context.start options) →
        ∀ binding ∈ context.bindings,
          ∃ id : AliasId, context.aliases[id]? = some ⟨binding.2, false⟩) := by
  intro root context
  have hstart := Context.isNumbered_start options
  have hgrows := Operation.applyAll_grows operations hstart
  have hnum : context.IsNumbered := hgrows.numbered hstart
  have hroot : context.options.rootAlias = root := congrArg Options.rootAlias hgrows.options
  refine ⟨?_, ?_, hnum.names_nodup, ?_, fun more => ⟨?_, rfl, ?_, rfl, ?_⟩, fun hbind => ?_⟩
  · rw [hnum.matchedNames_eq_cons, hroot]
  · rw [hnum.namesScoped, hroot]
    rfl
  · exact context.length_matchedNames.symm
  · exact (Operation.applyAll_grows more hnum).aliases
  · rw [← hroot]
    exact Operation.applyAll_added more hnum.addMatched Context.aliases_addMatched
  · rw [← hroot]
    exact Operation.applyAll_added more hnum.addScoped Context.aliases_addScoped
  · intro binding hmem
    have hbinds := Operation.applyAll_bindsMatched hstart (Context.bindsMatched_start options) hbind
    obtain ⟨⟨name, isScoped⟩, hfound, rfl⟩ := List.mem_map.mp (hbinds binding hmem)
    obtain ⟨hmem', hmatched⟩ := List.mem_filter.mp hfound
    obtain rfl : isScoped = false := by simpa using hmatched
    exact List.getElem?_of_mem hmem'

/-- Aliases added by hand, a filter that is rejected below a negated group, and another filter. -/
def handAndFilter : List Operation :=
  [.addScoped, .addMatched, .bind "$hand" 2, .defer 7 [],
    .compileObject 2 [("A", .object [("$alias", .string "$a"),
      ("$not", .array [.object [("B", .object []), ("C", .object [("$and", .null)])]])])],
    .takeDeferred 7, .compileRoot (.object [("D", .object [("$alias", .string "$d")])])]

/-- The rejected filter leaves one matched alias and two scoped ones behind. -/
theorem applyAll_numbers_handAndFilter :
    let context := Operation.applyAll handAndFilter (Context.start {})
    context.aliases.map Alias.name =
        ["record", "record_1", "record1", "record2", "record_2", "record_3", "record3"] ∧
      Descent.rejection? (objectTerms 2 [("A", .object [("$alias", .string "$a"),
          ("$not", .array [.object [("B", .object []), ("C", .object [("$and", .null)])]])])])
        (Operation.applyAll (handAndFilter.take 4) (Context.start {})) =
          some (.invalidOperand "$and" "$and" .null) ∧
      Operation.AllBindMatched handAndFilter (Context.start {}) ∧
      context.bindings.length = 4 ∧
      ∀ binding ∈ context.bindings,
        ∃ id : AliasId, context.aliases[id]? = some ⟨binding.2, false⟩ := by
  intro context
  have hbind : Operation.AllBindMatched handAndFilter (Context.start {}) :=
    ⟨trivial, trivial, ⟨_, rfl⟩, trivial, trivial, trivial, trivial, trivial⟩
  refine ⟨by decide +kernel, by decide +kernel, hbind, by decide +kernel, ?_⟩
  exact (applyAll_numbers_aliases {} handAndFilter).2.2.2.2.2 hbind

end GraphSearch.Matching
