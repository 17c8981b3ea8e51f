import GraphSearch.Proofs.Matching.Frame
import GraphSearch.Proofs.Matching.Operations
/-!
# Deferred terms, whatever is done in between

Terms are deferred for an alias when they have to wait until others are matched, and taken when the
alias is written down.  What is deferred comes after what waits already, and a take leaves nothing
behind, so every term that is deferred is taken once or still waits, and terms are taken in the
order in which they were deferred.

* `Context.deferred?`: the terms that wait for an alias, and what deferring and taking change;
* `Operation.allDeferred`, `Operation.allTaken`: what a sequence of operations defers for an alias
  and what its takes return;
* `Operation.AllSpareDeferred`: nothing else in the sequence changes what is deferred;
* `Operation.apply_conserves`, `Operation.isSome_deferred?_apply`: one operation, seen at one alias;
* `applyAll_takes_deferredOnce`: every sequence of operations, seen at every alias.
-/

namespace GraphSearch.Matching

/-! ## 1.  The terms that wait for an alias -/

namespace Context

/-- The terms that wait for an alias, if any were deferred since the last take. -/
def deferred? (context : Context) (id : AliasId) : Option (List Formula) :=
  Table.find? id context.deferred

theorem takeDeferred_fst (context : Context) (id : AliasId) :
    (context.takeDeferred id).1 = context.deferred? id := rfl

theorem deferred?_congr {context after : Context} (h : after.deferred = context.deferred)
    (id : AliasId) : after.deferred? id = context.deferred? id := by
  rw [deferred?, deferred?, h]

theorem deferred?_defer (context : Context) (id other : AliasId) (terms : List Formula) :
    (context.defer other terms).deferred? id =
      if other = id then some ((context.deferred? id).getD [] ++ terms)
      else context.deferred? id := by
  split
  next hid =>
    subst hid
    exact Table.find?_insert_self other _ context.deferred
  next hid => exact Table.find?_insert_of_ne (Ne.symm hid) _ context.deferred

theorem deferred?_takeDeferred (context : Context) (id other : AliasId) :
    (context.takeDeferred other).2.deferred? id =
      if other = id then none else context.deferred? id := by
  split
  next hid =>
    subst hid
    exact Table.find?_erase_self other context.deferred
  next hid => exact Table.find?_erase_of_ne (Ne.symm hid) context.deferred

/-- Terms are deferred where they wait for some alias. -/
theorem hasDeferred_iff {context : Context} :
    context.hasDeferred = true ↔ ∃ id, (context.deferred? id).isSome := by
  unfold hasDeferred deferred?
  cases context.deferred with
  | nil => simp
  | cons entry rest =>
    have hfound : (Table.find? entry.1 (entry :: rest)).isSome := by simp [Table.find?]
    exact iff_of_true rfl ⟨entry.1, hfound⟩

/-- Terms are deferred only for aliases that are there if those they are deferred for are. -/
theorem defersWithin_of_keys {context : Context}
    (h : ∀ id ∈ Table.keys context.deferred, id < context.aliases.length) :
    context.DefersWithin := by
  intro id hid
  rw [Table.find?_eq_none_iff]
  exact fun hkey => absurd (h id hkey) (Nat.not_lt.mpr hid)

end Context

/-! ## 2.  What is deferred and what is taken -/

namespace Operation

/-- The operation is to defer or to take, for any alias whatever, or it changes nothing of what is
deferred.  Compilations are of the latter kind where terms wait only for aliases that are there,
except that of a root record, which may defer the terms of the root. -/
def SparesDeferred : Operation → Context → Prop
  | compileRoot _, _ => False
  | compileObject _ _, context => context.DefersWithin
  | compileGroup _ _ _, context => context.DefersWithin
  | compileRelated _ _ _, context => context.DefersWithin
  | _, _ => True

/-- Each of the operations is to defer or to take, or changes nothing of what is deferred. -/
def AllSpareDeferred : List Operation → Context → Prop
  | [], _ => True
  | operation :: operations, context =>
    operation.SparesDeferred context ∧ AllSpareDeferred operations (operation.apply context)

/-- What an operation defers for an alias. -/
def deferredFor (id : AliasId) : Operation → List Formula
  | defer other terms => if other = id then terms else []
  | _ => []

/-- Everything the operations defer for an alias, in order. -/
def allDeferred (id : AliasId) (operations : List Operation) : List Formula :=
  operations.flatMap (deferredFor id)

/-- What an operation takes of an alias, if it finds anything. -/
def takenFor (id : AliasId) : Operation → Context → Option (List Formula)
  | takeDeferred other, context => if other = id then (context.takeDeferred id).1 else none
  | _, _ => none

/-- What the takes of an alias return among the operations, those that find nothing left out. -/
def allTaken (id : AliasId) : List Operation → Context → List (List Formula)
  | [], _ => []
  | operation :: operations, context =>
    (operation.takenFor id context).toList ++ allTaken id operations (operation.apply context)

/-- Terms are deferred for the alias among the operations, and not taken after that. -/
def DefersLast (id : AliasId) (operations : List Operation) : Prop :=
  ∃ earlier terms later, operations = earlier ++ defer id terms :: later ∧
    takeDeferred id ∉ later

theorem defersLast_cons {id : AliasId} {operation : Operation} {operations : List Operation} :
    DefersLast id (operation :: operations) ↔ DefersLast id operations ∨
      (∃ terms, operation = defer id terms) ∧ takeDeferred id ∉ operations := by
  constructor
  · rintro ⟨earlier, terms, later, heq, hlater⟩
    rcases List.cons_eq_append_iff.mp heq with ⟨rfl, hdefer⟩ | ⟨rest, rfl, hrest⟩
    · obtain ⟨rfl, rfl⟩ := List.cons.inj hdefer
      exact Or.inr ⟨⟨terms, rfl⟩, hlater⟩
    · exact Or.inl ⟨rest, terms, later, hrest, hlater⟩
  · rintro (⟨earlier, terms, later, rfl, hlater⟩ | ⟨⟨terms, rfl⟩, hlater⟩)
    · exact ⟨operation :: earlier, terms, later, rfl, hlater⟩
    · exact ⟨[], terms, operations, rfl, hlater⟩

/-! ## 3.  One operation -/

variable {operation : Operation} {context : Context}

/-- What else is done leaves what is deferred as it is. -/
theorem deferred_apply (h : operation.SparesDeferred context)
    (hdefer : ∀ id terms, operation ≠ defer id terms) (htake : ∀ id, operation ≠ takeDeferred id) :
    (operation.apply context).deferred = context.deferred := by
  cases operation with
  | addMatched | addScoped => rfl
  | bind _ _ | setPattern _ _ | attach _ _ => rfl
  | defer id terms => exact absurd rfl (hdefer id terms)
  | takeDeferred id => exact absurd rfl (htake id)
  | compileRoot _ => exact h.elim
  | compileObject id fields =>
    exact ((isCongruenceOn_spares _).of_object id id fields
      (fun _ hleaf => declaredNames_singleton_subset hleaf) context h).deferred
  | compileGroup id op value =>
    exact ((isCongruenceOn_spares _).of_group id id op value
      (fun _ hleaf => declaredNames_singleton_subset hleaf) context h).deferred
  | compileRelated parent label value =>
    exact ((isCongruenceOn_spares _).of_related parent parent label value
      (fun _ hleaf => declaredNames_singleton_subset hleaf) context h).deferred

/-- What waits for an alias and what is deferred for it is taken or goes on waiting. -/
theorem apply_conserves (h : operation.SparesDeferred context) (id : AliasId) :
    (context.deferred? id).getD [] ++ operation.deferredFor id =
      (operation.takenFor id context).getD [] ++
        ((operation.apply context).deferred? id).getD [] := by
  have hother := deferred_apply h
  cases operation with
  | defer other terms =>
    by_cases hid : other = id <;>
      simp [apply, deferredFor, takenFor, context.deferred?_defer, hid]
  | takeDeferred other =>
    by_cases hid : other = id <;>
      simp [apply, deferredFor, takenFor, context.takeDeferred_fst,
        context.deferred?_takeDeferred, hid]
  | _ =>
    have hsame := Context.deferred?_congr (hother (by simp) (by simp)) id
    simp [deferredFor, takenFor, hsame]

/-- Terms wait for an alias if they were just deferred for it, or waited before and were not
taken. -/
theorem isSome_deferred?_apply (h : operation.SparesDeferred context) (id : AliasId) :
    ((operation.apply context).deferred? id).isSome ↔ (∃ terms, operation = defer id terms) ∨
      operation ≠ takeDeferred id ∧ (context.deferred? id).isSome := by
  have hother := deferred_apply h
  cases operation with
  | defer other terms =>
    by_cases hid : other = id <;> simp [apply, context.deferred?_defer, hid]
  | takeDeferred other =>
    by_cases hid : other = id <;> simp [apply, context.deferred?_takeDeferred, hid]
  | _ =>
    have hsame := Context.deferred?_congr (hother (by simp) (by simp)) id
    simp [hsame]

/-! ## 4.  Sequences of operations -/

variable {operations : List Operation}

theorem applyAll_conserves (h : AllSpareDeferred operations context) (id : AliasId) :
    (context.deferred? id).getD [] ++ allDeferred id operations =
      (allTaken id operations context).flatten ++
        ((applyAll operations context).deferred? id).getD [] := by
  induction operations generalizing context with
  | nil => simp [allDeferred, allTaken, applyAll]
  | cons operation operations ih =>
    obtain ⟨hfirst, hrest⟩ := h
    have htaken : (operation.takenFor id context).toList.flatten =
        (operation.takenFor id context).getD [] := by
      cases operation.takenFor id context <;> simp
    calc (context.deferred? id).getD [] ++ allDeferred id (operation :: operations)
      _ = ((context.deferred? id).getD [] ++ operation.deferredFor id) ++
            allDeferred id operations := by
          rw [allDeferred, List.flatMap_cons, List.append_assoc]
          rfl
      _ = (operation.takenFor id context).getD [] ++
            (((operation.apply context).deferred? id).getD [] ++ allDeferred id operations) := by
          rw [apply_conserves hfirst id, List.append_assoc]
      _ = (operation.takenFor id context).getD [] ++
            ((allTaken id operations (operation.apply context)).flatten ++
              ((applyAll operations (operation.apply context)).deferred? id).getD []) := by
          rw [ih hrest]
      _ = (allTaken id (operation :: operations) context).flatten ++
            ((applyAll (operation :: operations) context).deferred? id).getD [] := by
          rw [allTaken, List.flatten_append, htaken, List.append_assoc, applyAll]

/-- Terms wait for an alias in the end if they were deferred after the last take, or waited before
and were never taken. -/
theorem isSome_deferred?_applyAll (h : AllSpareDeferred operations context) (id : AliasId) :
    ((applyAll operations context).deferred? id).isSome ↔ DefersLast id operations ∨
      takeDeferred id ∉ operations ∧ (context.deferred? id).isSome := by
  induction operations generalizing context with
  | nil => simp [applyAll, DefersLast]
  | cons operation operations ih =>
    obtain ⟨hfirst, hrest⟩ := h
    rw [applyAll, ih hrest, isSome_deferred?_apply hfirst, defersLast_cons, List.mem_cons]
    have hne : operation ≠ takeDeferred id ↔ ¬takeDeferred id = operation := ne_comm
    -- what the first operation defers goes on waiting unless a later one takes it
    tauto

end Operation

/-- **Deferred terms are taken once and never lost.**  Let terms be deferred and taken in any
order and for any aliases, there or not, in any context; whatever else is done in between is to
change nothing of what is deferred.  Then for every alias, the terms that waited for it before and
those deferred for it, in order, are those that its takes return, in order, and after them those
that wait for it still; a take right after a take of the same alias finds nothing; and terms are
still deferred in the end if and only if there is an alias for which terms were deferred after its
last take, or waited before and were never taken. -/
theorem applyAll_takes_deferredOnce {context : Context} {operations : List Operation}
    (h : Operation.AllSpareDeferred operations context) :
    let after := Operation.applyAll operations context
    (∀ id, (context.deferred? id).getD [] ++ Operation.allDeferred id operations =
        (Operation.allTaken id operations context).flatten ++ (after.deferred? id).getD []) ∧
      (∀ id, ((after.takeDeferred id).2.takeDeferred id).1 = none) ∧
      (after.hasDeferred = true ↔ ∃ id, Operation.DefersLast id operations ∨
        .takeDeferred id ∉ operations ∧ (context.deferred? id).isSome) := by
  intro after
  refine ⟨Operation.applyAll_conserves h, fun id => ?_, ?_⟩
  · rw [Context.takeDeferred_fst, Context.deferred?_takeDeferred, if_pos rfl]
  · rw [Context.hasDeferred_iff]
    exact exists_congr fun id => Operation.isSome_deferred?_applyAll h id

/-- A test that is already written. -/
def verbatimTerm (text : String) : Formula := .atom (.verbatim text)

/-- Terms are deferred for three aliases, one of which is never there, and taken in turns.  The
compilation in between adds three aliases, and defers and takes terms for two of them. -/
def inTurns : List Operation :=
  [.addMatched, .defer 1 [verbatimTerm "b"], .defer 0 [verbatimTerm "c"],
    .compileObject 1 [("A", .object [("x", .bool true), ("B", .object [("C", .object [])])])],
    .takeDeferred 0, .defer 9 [verbatimTerm "d", verbatimTerm "e"], .takeDeferred 9,
    .takeDeferred 9, .defer 1 [], .defer 9 [verbatimTerm "f"], .takeDeferred 9]

/-- Terms wait for the root before; in the end they wait for the first alias alone. -/
theorem applyAll_takes_deferredOnce_inTurns :
    let before := (Context.start {}).defer Context.root [verbatimTerm "a"]
    let after := Operation.applyAll inTurns before
    Operation.AllSpareDeferred inTurns before ∧
      after.aliases.length = 5 ∧
      [0, 1, 9].map (fun id => (Operation.allTaken id inTurns before).map (List.map Formula.text)) =
        [[["a", "c"]], [], [["d", "e"], ["f"]]] ∧
      [0, 1, 9].map (fun id => (after.deferred? id).map (List.map Formula.text)) =
        [none, some ["b"], none] ∧
      (∀ id, (before.deferred? id).getD [] ++ Operation.allDeferred id inTurns =
        (Operation.allTaken id inTurns before).flatten ++ (after.deferred? id).getD []) ∧
      ((after.takeDeferred 1).2.takeDeferred 1).1 = none ∧
      after.hasDeferred = true := by
  intro before after
  have hspare : Operation.AllSpareDeferred inTurns before :=
    ⟨trivial, trivial, trivial, Context.defersWithin_of_keys (by decide), trivial, trivial, trivial,
      trivial, trivial, trivial, trivial, trivial⟩
  have hlast : Operation.DefersLast 1 inTurns :=
    ⟨inTurns.take 8, [], inTurns.drop 9, rfl, by simp [inTurns]⟩
  obtain ⟨hconserves, hnothing, hdeferred⟩ := applyAll_takes_deferredOnce hspare
  exact ⟨hspare, by decide +kernel, by decide +kernel, by decide +kernel, hconserves, hnothing 1,
    hdeferred.mpr ⟨1, Or.inl hlast⟩⟩

end GraphSearch.Matching
