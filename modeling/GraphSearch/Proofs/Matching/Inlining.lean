import GraphSearch.Proofs.Matching.Arena
/-!
# Deferral only moves terms

The compilation puts the terms of a matched relation in one of two places: at its optional
match, or into the term of the relation itself, when that has to wait for further matches.
Measured against it is a compilation that knows one place only: `followInline` writes the terms
of every relation into the relation's own term and stores nothing.

`Formula.inline` undoes the difference.  It replaces the test that an alias was matched by the
conjunction of that test with what is stored for the alias.  The main result is

    root terms, inlined  =  root terms of the compilation that stores nothing

as lists, so that no term is lost, doubled or moved past another
(`rootTerms_inline_eq`).

The proof is one induction over walks.  What is stored for an alias is read off the context at
the end of the whole run, and a walk leaves alone what was stored before it (`Walk.extends`), so
the induction may speak of any table of stored terms that agrees with the context after a walk
on the aliases the walk added (`StoredIn`).  Terms that are stored mention no matched alias,
because they are only stored when nothing was matched below (`Walk.inline_eq_self`); that is
why they need no inlining of their own.
-/

namespace GraphSearch.Matching

open Criteria

/-! ## 1.  The compilation that stores nothing -/

/-- The test that an alias was matched, by itself or in one conjunction with the terms after it. -/
def matchedWith (child : String) (terms : List Formula) : Formula :=
  if terms.isEmpty then .atom (.present child) else .group .and (.atom (.present child)) terms

theorem presence_eq_matchedWith (child : String) (terms : List Formula) :
    presence child terms = matchedWith child terms := by
  cases terms <;> rfl

/-- Follows a relation outside of negations by writing what its fields ask for into its own
term. -/
def followInline : Following := fun label fields parent body => do
  if (← get).inNegation then followScoped label fields parent body
  else
    let id ← modifyGet (openMatched label fields parent)
    let terms ← body id
    return matchedWith ((← get).nameOf id) terms

/-- The terms of the root record, compiled without storing any. -/
def inlineRootTerms (criteria : Json) : Descent (List Formula) :=
  match criteria with
  | .null => return []
  | .object fields => do
    if let some declared := aliasOf fields then
      modify fun context => context.bind declared Context.root
    fieldTerms followInline Context.root fields
  | other => throw (.invalidOperand "where" "where" other)

/-! ## 2.  Inlining -/

/-- A test, and after the test that an alias was matched what is stored for the alias. -/
def Atom.inline (stored : String → List Formula) : Atom → Formula
  | .present child => matchedWith child (stored child)
  | .predicate node text => .atom (.predicate node text)
  | .verbatim text => .atom (.verbatim text)

namespace Formula

mutual

/-- The formula with what is stored for an alias after every test that it was matched. -/
def inline (stored : String → List Formula) : Formula → Formula
  | .atom test => test.inline stored
  | .group connective first others =>
    .group connective (inline stored first) (inlineAll stored others)
  | .negation connective first others =>
    .negation connective (inline stored first) (inlineAll stored others)
  | .existential pattern terms => .existential pattern (inlineAll stored terms)

/-- Inlines a list of formulas. -/
def inlineAll (stored : String → List Formula) : List Formula → List Formula
  | [] => []
  | formula :: formulas => inline stored formula :: inlineAll stored formulas

end

@[simp] theorem inlineAll_eq_map (stored : String → List Formula) (formulas : List Formula) :
    inlineAll stored formulas = formulas.map (inline stored) := by
  induction formulas with
  | nil => rfl
  | cons formula formulas ih => simp [inlineAll, ih]

end Formula

/-- What is stored for the alias called `node`. -/
def Context.storedFor (context : Context) (node : String) : List Formula :=
  (context.attached? ((context.aliases.map Alias.name).idxOf node)).getD []

section

variable {stored : String → List Formula}

theorem inline_predicateTerms (node : String) (predicates : List String) :
    (predicateTerms node predicates).map (Formula.inline stored) =
      predicateTerms node predicates := by
  simp [predicateTerms, Formula.inline, Atom.inline]

theorem inline_groupTerm (op : GroupOp) (members : List Formula) :
    (groupTerm op members).toList.map (Formula.inline stored) =
      (groupTerm op (members.map (Formula.inline stored))).toList := by
  cases members with
  | nil => cases op <;> rfl
  | cons first others =>
    cases others with
    | nil => cases op <;> simp [groupTerm, GroupOp.negates, Formula.inline]
    | cons second others => cases op <;> simp [groupTerm, GroupOp.negates, Formula.inline]

theorem inline_conjoin (terms : List Formula) :
    (conjoin terms).toList.map (Formula.inline stored) =
      (conjoin (terms.map (Formula.inline stored))).toList := by
  cases terms with
  | nil => rfl
  | cons first others =>
    cases others with
    | nil => rfl
    | cons second others => simp [conjoin, Formula.inline]

/-- Terms that a relation's own term carries stay where they are. -/
theorem inline_presence {child : String} (h : stored child = []) (terms : List Formula) :
    (presence child terms).inline stored =
      matchedWith child (terms.map (Formula.inline stored)) := by
  rw [presence_eq_matchedWith]
  cases terms with
  | nil => simp [matchedWith, Formula.inline, Atom.inline, h]
  | cons first others => simp [matchedWith, Formula.inline, Atom.inline, h]

end

/-! ## 3.  Stored terms mention no match -/

theorem isWalkInvariant_inline_eq_self :
    IsWalkInvariant follow fun _ context terms after =>
      context.IsFresh → after.matchedCount = context.matchedCount →
        ∀ stored, terms.map (Formula.inline stored) = terms where
  nil _ _ _ := rfl
  append hwalk hwalk' h h' hfresh hcount stored := by
    obtain ⟨hmiddle, hext⟩ := hwalk.extends hfresh
    have hle := hext.matchedCount_le
    have hle' := (hwalk'.extends hmiddle).2.matchedCount_le
    rw [List.map_append, h hfresh (by omega), h' hmiddle (by omega)]
  leaf predicates _ _ _ := inline_predicateTerms _ predicates
  group {_ context _ _ inside} op _ h hfresh hcount stored := by
    have hcount' : inside.matchedCount = (context.opened op).matchedCount := by
      rw [Context.opened_eq]
      rw [Context.closed_eq] at hcount
      exact hcount
    rw [inline_groupTerm, h (hfresh.opened op) hcount']
  conjoin _ h hfresh hcount stored := by
    rw [inline_conjoin, h hfresh hcount]
  related {_ context _ _ _ _} h hbody hfresh hcount stored := by
    rcases follow_cases hfresh h with ⟨-, terms, hwalk, rfl⟩ |
      ⟨-, terms, inside, -, -, hext, -, rfl⟩
    · have hterms := hbody hwalk hfresh.addScoped
        (hcount.trans Context.matchedCount_addScoped.symm) stored
      simp [Formula.inline, hterms]
    · -- a relation that is matched adds an alias
      have hle := hext.matchedCount_le
      rw [Context.entered_matchedCount] at hle
      rw [Context.left_matchedCount] at hcount
      omega

/-- Where no alias was matched there is nothing to inline. -/
theorem Walk.inline_eq_self {part : Part} {id : AliasId} {context after : Context}
    {terms : List Formula} (h : Walk follow id context part terms after)
    (hfresh : context.IsFresh) (hcount : after.matchedCount = context.matchedCount)
    (stored : String → List Formula) : terms.map (Formula.inline stored) = terms :=
  h.invariant isWalkInvariant_inline_eq_self hfresh hcount stored

/-! ## 4.  The two compilations side by side -/

theorem followInline_eq_ok {label : String} {fields : List (String × Json)} {parent : AliasId}
    {body : AliasId → Descent (List Formula)} {context after : Context} {term : Formula} :
    followInline label fields parent body context = .ok term after ↔
      if context.inNegation then followScoped label fields parent body context = .ok term after
      else ∃ terms,
        body context.aliases.length (context.entered label fields parent) = .ok terms after ∧
          term = matchedWith (after.nameOf context.aliases.length) terms := by
  simp only [followInline, Descent.bind_eq_ok, Descent.get_eq_ok]
  constructor
  · rintro ⟨_, _, ⟨rfl, rfl⟩, h⟩
    split at h
    case isTrue hneg => rwa [if_pos hneg]
    case isFalse hneg =>
      rw [if_neg hneg]
      simp only [Descent.bind_eq_ok, Descent.modifyGet_eq_ok, Descent.get_eq_ok,
        Descent.pure_eq_ok, openMatched_eq] at h
      obtain ⟨_, _, ⟨⟩, terms, _, hbody, _, _, ⟨rfl, rfl⟩, rfl, rfl⟩ := h
      exact ⟨terms, hbody, rfl⟩
  · intro h
    refine ⟨context, context, ⟨rfl, rfl⟩, ?_⟩
    split at h
    case isTrue hneg => rwa [if_pos hneg]
    case isFalse hneg =>
      obtain ⟨terms, hbody, rfl⟩ := h
      rw [if_neg hneg]
      simp only [Descent.bind_eq_ok, Descent.modifyGet_eq_ok, Descent.get_eq_ok,
        Descent.pure_eq_ok, openMatched_eq]
      exact ⟨_, _, rfl, terms, _, hbody, _, _, ⟨rfl, rfl⟩, rfl, rfl⟩

/-- The context with other terms stored in it. -/
def Context.withStores (context : Context) (attached deferred : List (AliasId × List Formula)) :
    Context :=
  { context with attached, deferred }

theorem Context.entered_withStores (context : Context)
    (attached deferred : List (AliasId × List Formula)) (label : String)
    (fields : List (String × Json)) (parent : AliasId) :
    (context.withStores attached deferred).entered label fields parent =
      (context.entered label fields parent).withStores attached deferred := by
  simp only [Context.entered, openMatched]
  cases aliasOf fields <;> rfl

theorem Context.withStores_left (context : Context)
    (attached deferred : List (AliasId × List Formula)) (id : AliasId) (before : Nat)
    (terms : List Formula) : (context.left id before terms).withStores attached deferred =
      context.withStores attached deferred := by
  simp only [Context.left]
  split <;> rfl

theorem Context.withStores_keepTerms (context : Context)
    (attached deferred : List (AliasId × List Formula)) (id : AliasId) (before : Nat)
    (terms : List Formula) : (keepTerms id before terms context).withStores attached deferred =
      context.withStores attached deferred := by
  simp only [keepTerms]
  split
  · rfl
  · split <;> rfl

theorem Context.withStores_opened (context : Context)
    (attached deferred : List (AliasId × List Formula)) (op : GroupOp) :
    (context.withStores attached deferred).opened op =
      (context.opened op).withStores attached deferred := by
  cases op <;> rfl

theorem Context.withStores_closed (context : Context)
    (attached deferred : List (AliasId × List Formula)) (op : GroupOp) :
    (context.closed op).withStores attached deferred =
      (context.withStores attached deferred).closed op := by
  cases op <;> rfl

/-- `stored` is what `after` has attached to the aliases added since `before`. -/
def StoredIn (stored : String → List Formula) (before after : Context) : Prop :=
  ∀ id, before.aliases.length ≤ id → id < after.aliases.length →
    stored (after.nameOf id) = (after.attached? id).getD []

section

variable {stored : String → List Formula} {before middle after : Context}

theorem StoredIn.of_extends (h : StoredIn stored before after) (hext : middle.Extends after) :
    StoredIn stored before middle := by
  intro id hbefore hid
  rw [← hext.nameOf hid, ← hext.attached hid]
  exact h id hbefore (Nat.lt_of_lt_of_le hid hext.length_le)

theorem StoredIn.since (h : StoredIn stored before after) (hext : before.Extends middle) :
    StoredIn stored middle after :=
  fun id hbefore hid => h id (Nat.le_trans hext.length_le hbefore) hid

end

theorem StoredIn.of_group {stored : String → List Formula} {op : GroupOp}
    {context inside : Context} (h : StoredIn stored context (inside.closed op)) :
    StoredIn stored (context.opened op) inside := by
  rw [Context.closed_eq] at h
  rw [Context.opened_eq]
  exact h

/-- What is stored for an alias whose relation was just compiled. -/
theorem stored_nameOf_of_left {stored : String → List Formula} {context inside : Context}
    {label : String} {fields : List (String × Json)} {parent : AliasId} {terms : List Formula}
    (hfresh : context.IsFresh) (hext : (context.entered label fields parent).Extends inside)
    (hstored : StoredIn stored context (inside.left context.aliases.length
      (context.entered label fields parent).matchedCount terms)) :
    stored ((context.entered label fields parent).nameOf context.aliases.length) =
      if (context.entered label fields parent).matchedCount < inside.matchedCount then []
      else terms := by
  have hlen := hext.length_le
  have hnew : context.aliases.length < (context.entered label fields parent).aliases.length := by
    simp
  have hnone : inside.attached? context.aliases.length = none := by
    rw [hext.attached hnew, Context.attached?, Context.entered_attached]
    exact hfresh.attached (Nat.le_refl _)
  have hlast := hstored _ (Nat.le_refl _) (by rw [Context.left_aliases]; omega)
  rw [Context.left_attached?_self hnone, Context.left_nameOf, hext.nameOf hnew] at hlast
  rw [hlast]
  by_cases hcount : (context.entered label fields parent).matchedCount < inside.matchedCount
  · simp [hcount]
  · cases terms <;> simp [hcount]

/-- What is stored for the aliases below a relation is stored once the relation is done. -/
theorem StoredIn.of_left {stored : String → List Formula} {context inside : Context}
    {label : String} {fields : List (String × Json)} {parent : AliasId} {before : Nat}
    {terms : List Formula}
    (h : StoredIn stored context (inside.left context.aliases.length before terms)) :
    StoredIn stored (context.entered label fields parent) inside := by
  intro id hbefore hid
  rw [Context.entered_aliases, List.length_append, List.length_singleton] at hbefore
  have hid' : id < (inside.left context.aliases.length before terms).aliases.length := by
    rw [Context.left_aliases]
    exact hid
  have hstored := h id (by omega) hid'
  rw [Context.left_attached?_of_ne (Nat.ne_of_gt (by omega)), Context.left_nameOf] at hstored
  exact hstored

/-- A relation's term is inlined to the conjunction of its test with everything its fields
ask for, wherever that was kept. -/
theorem inline_presence_carriedTerms {stored : String → List Formula} {child : String}
    {before : Nat} {terms : List Formula} {inside : Context}
    (hstored : stored child = if before < inside.matchedCount then [] else terms)
    (hself : ¬ before < inside.matchedCount → terms.map (Formula.inline stored) = terms) :
    (presence child (carriedTerms before terms inside)).inline stored =
      matchedWith child (terms.map (Formula.inline stored)) := by
  by_cases hcount : before < inside.matchedCount
  · rw [if_pos hcount] at hstored
    rw [carriedTerms, if_pos hcount, inline_presence hstored]
  · rw [if_neg hcount] at hstored
    rw [carriedTerms, if_neg hcount, hself hcount]
    simp only [presence, Formula.inline, Atom.inline, hstored]

/-- The two ways to follow a relation, when the walks over its fields agree. -/
theorem followInline_of_follow {stored : String → List Formula} {context after : Context}
    {label : String} {fields : List (String × Json)} {parent : AliasId} {term : Formula}
    {attached deferred : List (AliasId × List Formula)} (hfresh : context.IsFresh)
    (hstored : StoredIn stored context after)
    (hbody : ∀ {child before terms inside},
      fieldTerms follow child fields before = .ok terms inside → before.IsFresh →
      StoredIn stored before inside →
      Walk followInline child (before.withStores attached deferred) (.object fields)
        (terms.map (Formula.inline stored)) (inside.withStores attached deferred))
    (h : follow label fields parent (fun child => fieldTerms follow child fields) context
      = .ok term after) :
    followInline label fields parent (fun child => fieldTerms followInline child fields)
        (context.withStores attached deferred) =
      .ok (term.inline stored) (after.withStores attached deferred) := by
  rw [followInline_eq_ok]
  rcases follow_cases hfresh h with ⟨hneg, terms, hwalk, rfl⟩ |
    ⟨hneg, terms, inside, hwalk, hinside, hext, rfl, rfl⟩
  · rw [if_pos (show (context.withStores attached deferred).inNegation = true from hneg),
      followScoped_eq_ok]
    have hsince := hstored.since context.extends_addScoped
    refine ⟨_, (hbody hwalk.terms_eq_ok hfresh.addScoped hsince).terms_eq_ok, ?_⟩
    rw [Formula.inline, Formula.inlineAll_eq_map]
    rfl
  · have hneg' : (context.withStores attached deferred).inNegation = false := hneg
    rw [hneg', if_neg Bool.false_ne_true]
    have hself : ¬ (context.entered label fields parent).matchedCount < inside.matchedCount →
        terms.map (Formula.inline stored) = terms := by
      intro hcount
      have hle := hext.matchedCount_le
      exact hwalk.inline_eq_self (hfresh.entered label fields parent) (by omega) stored
    refine ⟨terms.map (Formula.inline stored), ?_, ?_⟩
    · rw [Context.entered_withStores, Context.withStores_left]
      exact (hbody hwalk.terms_eq_ok (hfresh.entered label fields parent)
        hstored.of_left).terms_eq_ok
    · rw [inline_presence_carriedTerms (stored_nameOf_of_left hfresh hext hstored) hself]
      congr 1
      rw [← hext.nameOf (by simp)]
      exact (Context.nameOf_congr (by rw [Context.withStores_left]; rfl)).symm

theorem walk_inline {part : Part} {id : AliasId} {context after : Context}
    {terms : List Formula} (h : Walk follow id context part terms after)
    (hfresh : context.IsFresh) {stored : String → List Formula}
    (hstored : StoredIn stored context after)
    (attached deferred : List (AliasId × List Formula)) :
    Walk followInline id (context.withStores attached deferred) part
      (terms.map (Formula.inline stored)) (after.withStores attached deferred) := by
  induction h with
  | object hOwn hOthers ihOwn ihOthers =>
    obtain ⟨hmiddle, hext⟩ := hOwn.extends hfresh
    rw [List.map_append]
    exact .object (ihOwn hfresh (hstored.of_extends (hOthers.extends hmiddle).2))
      (ihOthers hmiddle (hstored.since hext))
  | passNil => exact .passNil
  | passTake hrelated hOwn hOthers ihOwn ihOthers =>
    obtain ⟨hmiddle, hext⟩ := hOwn.extends hfresh
    rw [List.map_append]
    exact .passTake hrelated (ihOwn hfresh (hstored.of_extends (hOthers.extends hmiddle).2))
      (ihOthers hmiddle (hstored.since hext))
  | passSkip hrelated _ ih => exact .passSkip hrelated (ih hfresh hstored)
  | leaf hleaf =>
    obtain ⟨rfl, predicates, hpredicates, rfl⟩ := leafTerms_eq_ok.mp hleaf
    rw [inline_predicateTerms]
    exact .leaf (leafTerms_eq_ok.mpr ⟨rfl, predicates, hpredicates, rfl⟩)
  | groupObject hkind _ ih =>
    rw [inline_groupTerm, Context.withStores_closed]
    refine .groupObject hkind ?_
    rw [Context.withStores_opened]
    exact ih (hfresh.opened _) hstored.of_group
  | groupArray hkind _ ih =>
    rw [inline_groupTerm, Context.withStores_closed]
    refine .groupArray hkind ?_
    rw [Context.withStores_opened]
    exact ih (hfresh.opened _) hstored.of_group
  | related hkind hterm hwalk ih =>
    exact .related hkind (followInline_of_follow hfresh hstored ih hterm)
      fun hok => .of_terms hok
  | membersNil => exact .membersNil
  | membersCons hItem hItems ihItem ihItems =>
    obtain ⟨hmiddle, hext⟩ := hItem.extends hfresh
    rw [List.map_append]
    exact .membersCons (ihItem hfresh (hstored.of_extends (hItems.extends hmiddle).2))
      (ihItems hmiddle (hstored.since hext))
  | memberObject _ ih =>
    rw [inline_conjoin]
    exact .memberObject (ih hfresh hstored)
  | memberArray _ ih =>
    rw [inline_groupTerm]
    exact .memberArray (ih hfresh hstored)
  | groupEntriesNil => exact .groupEntriesNil
  | groupEntriesCons hEntry hEntries ihEntry ihEntries =>
    obtain ⟨hmiddle, hext⟩ := hEntry.extends hfresh
    rw [List.map_append, inline_conjoin]
    exact .groupEntriesCons (ihEntry hfresh (hstored.of_extends (hEntries.extends hmiddle).2))
      (ihEntries hmiddle (hstored.since hext))

/-! ## 5.  The root record -/

theorem inlineRootTerms_object (options : Options) (fields : List (String × Json)) :
    inlineRootTerms (.object fields) (Context.start options) =
      fieldTerms followInline Context.root fields (Context.rooted options fields) := by
  simp only [inlineRootTerms, Context.rooted]
  cases aliasOf fields <;> rfl

/-- Once the root's terms are kept, every other alias has stored what it had before. -/
theorem storedIn_keepTerms {options : Options} {fields : List (String × Json)}
    {terms : List Formula} {inside : Context}
    (h : Walk follow Context.root (Context.rooted options fields) (.object fields) terms inside) :
    StoredIn (keepTerms Context.root 1 terms inside).storedFor
      (Context.rooted options fields) inside := by
  intro id hroot hid
  have hnum := h.isNumbered (Context.isFresh_rooted options fields)
    (Context.isNumbered_rooted options fields)
  have hne : id ≠ Context.root := by
    rintro rfl
    rw [Context.rooted_eq] at hroot
    exact absurd hroot (Nat.not_succ_le_zero 0)
  rw [Context.storedFor, keepTerms_aliases, hnum.idxOf_nameOf hid,
    keepTerms_attached?_of_ne hne]

/-- **Deferral only moves terms.**  The root's terms, with what is stored for an alias put back
after each test that the alias was matched, are the root's terms of the compilation that stores
nothing, in the same order; and that compilation adds the same aliases, under the same names,
with the same patterns. -/
theorem rootTerms_inline_eq {options : Options} {criteria : Json} {after : Context}
    (h : rootTerms criteria (Context.start options) = .ok () after) :
    inlineRootTerms criteria (Context.start options) =
      .ok ((Selection.takeRootTerms after).1.map (Formula.inline after.storedFor))
        (after.withStores [] []) := by
  cases criteria with
  | null =>
    obtain ⟨-, rfl⟩ := Descent.pure_eq_ok.mp h
    rfl
  | object fields =>
    obtain ⟨terms, inside, hwalk, rfl⟩ := rootTerms_object_eq_ok.mp h
    have hfresh := Context.isFresh_rooted options fields
    have hinline := walk_inline hwalk hfresh (storedIn_keepTerms hwalk) [] []
    have hrooted : (Context.rooted options fields).withStores [] [] =
        Context.rooted options fields := by
      rw [Context.rooted_eq]
      rfl
    rw [hrooted] at hinline
    rw [inlineRootTerms_object, takeRootTerms_keepTerms hwalk, Context.withStores_keepTerms]
    exact hinline.terms_eq_ok
  | bool _ | number _ | string _ | array _ => exact absurd h Descent.throw_ne_ok

/-- Both places are used by criteria with a relation under a relation inside a group: the
terms of `B` wait for those of `C`, and those of `A` and `C` are stored. -/
theorem rootTerms_inline_eq_straddling :
    let criteria := Json.object [("A", .object [("x", .bool true)]), ("$or", .array [.object
      [("B", .object [("C", .object [("z", .bool true)]), ("y", .null)])],
      .object [("$id", .string "k")]])]
    ∃ after, rootTerms criteria (Context.start {}) = .ok () after ∧
      inlineRootTerms criteria (Context.start {}) =
        .ok ((Selection.takeRootTerms after).1.map (Formula.inline after.storedFor))
          (after.withStores [] []) := by
  intro criteria
  obtain ⟨_, after, h⟩ := Descent.accepts_iff.mp
    (show Descent.accepts (rootTerms criteria) (Context.start {}) = true by decide +kernel)
  exact ⟨after, h, rootTerms_inline_eq h⟩

end GraphSearch.Matching
