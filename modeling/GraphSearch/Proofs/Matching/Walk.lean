import GraphSearch.Proofs.Matching.Leaves
import GraphSearch.Proofs.Matching.Steps
/-!
# Walks over criteria

The compilation is one recursion in five functions over the parts of criteria.  `Walk` is
that recursion as a relation: one constructor to each thing a step over a part can do, with
the contexts before and after it.  A fact about every compilation that succeeds is proved by
induction on `Walk`, so that the five functions and their monad are opened once, here.

* `Part`, `Part.terms`: a place in criteria, and the step that compiles it;
* `Walk`: the compilations that succeed, for any way of following relations;
* `walk_iff`: `Walk` holds exactly when the step succeeds with these terms and contexts;
* `IsWalkInvariant`, `Walk.invariant`: a fact about a run that depends on its two contexts and
  on what it yields, and not on the criteria, needs six closure conditions and no case analysis
  of criteria;
* `IsWalkInvariantOn`, `Walk.invariantOn`: the same for a fact that needs the leaves of the
  criteria to be of some kind.
-/

namespace GraphSearch.Matching

open Criteria

/-! ## 1.  Parts -/

/-- A part of criteria that the recursion comes by. -/
inductive Part where
  | object (fields : List (String × Json))
  | pass (related : Bool) (fields : List (String × Json))
  | entry (key : String) (value : Json)
  | members (op : GroupOp) (items : List Json)
  | member (op : GroupOp) (item : Json)
  | groupEntries (fields : List (String × Json))

/-- The leaves of a part; a pass goes over some of the entries of its object. -/
def Part.leaves : Part → List (String × Json)
  | .object fields => fieldLeaves fields
  | .pass _ fields => fieldLeaves fields
  | .entry key value => entryLeaves key value
  | .members _ items => itemsLeaves items
  | .member _ item => itemLeaves item
  | .groupEntries fields => fieldLeaves fields

/-- The step that compiles a part. -/
def Part.terms (following : Following) (id : AliasId) : Part → Descent (List Formula)
  | .object fields => fieldTerms following id fields
  | .pass related fields => passTerms following id related fields
  | .entry key value => entryTerms following id key value
  | .members op items => memberTerms following id op items
  | .member op item => Option.toList <$> memberTerm following id op item
  | .groupEntries fields => entryMembers following id fields

/-! ## 2.  Walks -/

/-- `Walk following id context part terms after`: compiling the part against the alias `id`
yields `terms` and takes the context from `context` to `after`. -/
inductive Walk (following : Following) :
    AliasId → Context → Part → List Formula → Context → Prop
  | object {id context own middle others after fields} :
    Walk following id context (.pass false fields) own middle →
    Walk following id middle (.pass true fields) others after →
    Walk following id context (.object fields) (own ++ others) after
  | passNil {id context related} : Walk following id context (.pass related []) [] context
  | passTake {id context related key value terms middle fields others after} :
    isRelated (key, value) = related →
    Walk following id context (.entry key value) terms middle →
    Walk following id middle (.pass related fields) others after →
    Walk following id context (.pass related ((key, value) :: fields)) (terms ++ others) after
  | passSkip {id context related key value fields others after} :
    isRelated (key, value) ≠ related →
    Walk following id context (.pass related fields) others after →
    Walk following id context (.pass related ((key, value) :: fields)) others after
  | leaf {id context key value terms after} :
    leafTerms id key value context = .ok terms after →
    Walk following id context (.entry key value) terms after
  | groupObject {id context key fields op members inside} :
    kindOf key (.object fields) = .group op →
    Walk following id (context.opened op) (.groupEntries fields) members inside →
    Walk following id context (.entry key (.object fields)) (groupTerm op members).toList
      (inside.closed op)
  | groupArray {id context key items op members inside} :
    kindOf key (.array items) = .group op →
    Walk following id (context.opened op) (.members op items) members inside →
    Walk following id context (.entry key (.array items)) (groupTerm op members).toList
      (inside.closed op)
  | related {id context key fields term after} :
    kindOf key (.object fields) = .related →
    following key fields id (fun child => fieldTerms following child fields) context
      = .ok term after →
    (∀ {child before terms inside}, fieldTerms following child fields before = .ok terms inside →
      Walk following child before (.object fields) terms inside) →
    Walk following id context (.entry key (.object fields)) [term] after
  | membersNil {id context op} : Walk following id context (.members op []) [] context
  | membersCons {id context op item terms middle items others after} :
    Walk following id context (.member op item) terms middle →
    Walk following id middle (.members op items) others after →
    Walk following id context (.members op (item :: items)) (terms ++ others) after
  | memberObject {id context op fields terms after} :
    Walk following id context (.object fields) terms after →
    Walk following id context (.member op (.object fields)) (conjoin terms).toList after
  | memberArray {id context op items terms after} :
    Walk following id context (.members .and items) terms after →
    Walk following id context (.member op (.array items)) (groupTerm .and terms).toList after
  | groupEntriesNil {id context} : Walk following id context (.groupEntries []) [] context
  | groupEntriesCons {id context key value terms middle fields others after} :
    Walk following id context (.entry key value) terms middle →
    Walk following id middle (.groupEntries fields) others after →
    Walk following id context (.groupEntries ((key, value) :: fields))
      ((conjoin terms).toList ++ others) after

/-! ## 3.  Steps that succeed are walks -/

section

variable {following : Following} {op : GroupOp} {key : String}

theorem bothPasses_eq_ok {pass : Bool → Descent (List Formula)} {context after : Context}
    {terms : List Formula} : bothPasses pass context = .ok terms after ↔
      ∃ own middle others, pass false context = .ok own middle ∧
        pass true middle = .ok others after ∧ terms = own ++ others := by
  simp only [bothPasses, Descent.bind_eq_ok, Descent.pure_eq_ok]
  constructor
  · rintro ⟨own, middle, hown, others, _, hothers, rfl, rfl⟩
    exact ⟨own, middle, others, hown, hothers, rfl⟩
  · rintro ⟨own, middle, others, hown, hothers, rfl⟩
    exact ⟨own, middle, hown, others, after, hothers, rfl, rfl⟩

mutual

theorem walk_entry (value : Json) {id : AliasId} {key : String} {context after : Context}
    {terms : List Formula} (h : entryTerms following id key value context = .ok terms after) :
    Walk following id context (.entry key value) terms after := by
  match value with
  | .object fields =>
    rw [entryTerms] at h
    match hkind : kindOf key (.object fields) with
    | .group op =>
      simp only [hkind, Descent.bind_eq_ok, Descent.amongMembers_eq_ok,
        Descent.pure_eq_ok] at h
      obtain ⟨members, _, ⟨inside, hmembers, rfl⟩, rfl, rfl⟩ := h
      exact .groupObject hkind (walk_entryMembers fields hmembers)
    | .related =>
      simp only [hkind, Descent.bind_eq_ok, Descent.pure_eq_ok] at h
      obtain ⟨term, _, hterm, rfl, rfl⟩ := h
      refine .related hkind hterm fun {_ _ _ _} hobject => ?_
      obtain ⟨own, middle, others, hown, hothers, rfl⟩ := bothPasses_eq_ok.mp hobject
      exact .object (walk_pass fields hown) (walk_pass fields hothers)
    | .identity | .declaration | .relation | .property =>
      simp only [hkind] at h
      exact .leaf h
  | .array items =>
    rw [entryTerms] at h
    match hkind : kindOf key (.array items) with
    | .group op =>
      simp only [hkind, Descent.bind_eq_ok, Descent.amongMembers_eq_ok,
        Descent.pure_eq_ok] at h
      obtain ⟨members, _, ⟨inside, hmembers, rfl⟩, rfl, rfl⟩ := h
      exact .groupArray hkind (walk_members items hmembers)
    | .identity | .declaration | .relation | .property | .related =>
      simp only [hkind] at h
      exact .leaf h
  | .null | .bool _ | .number _ | .string _ =>
    rw [entryTerms] at h
    exact .leaf h

theorem walk_pass (fields : List (String × Json)) {id : AliasId} {related : Bool}
    {context after : Context} {terms : List Formula}
    (h : passTerms following id related fields context = .ok terms after) :
    Walk following id context (.pass related fields) terms after := by
  match fields with
  | [] =>
    rw [passTerms, Descent.pure_eq_ok] at h
    obtain ⟨rfl, rfl⟩ := h
    exact .passNil
  | (key, value) :: fields =>
    rw [passTerms] at h
    split at h
    case isTrue hrelated =>
      simp only [Descent.bind_eq_ok, Descent.pure_eq_ok] at h
      obtain ⟨own, middle, hown, others, _, hothers, rfl, rfl⟩ := h
      exact .passTake hrelated (walk_entry value hown) (walk_pass fields hothers)
    case isFalse hrelated => exact .passSkip hrelated (walk_pass fields h)

theorem walk_members (items : List Json) {id : AliasId} {op : GroupOp}
    {context after : Context} {terms : List Formula}
    (h : memberTerms following id op items context = .ok terms after) :
    Walk following id context (.members op items) terms after := by
  match items with
  | [] =>
    rw [memberTerms, Descent.pure_eq_ok] at h
    obtain ⟨rfl, rfl⟩ := h
    exact .membersNil
  | item :: items =>
    rw [memberTerms] at h
    simp only [Descent.bind_eq_ok, Descent.pure_eq_ok] at h
    obtain ⟨term, middle, hterm, others, _, hothers, rfl, rfl⟩ := h
    exact .membersCons (walk_member item hterm) (walk_members items hothers)

theorem walk_member (item : Json) {id : AliasId} {op : GroupOp} {context after : Context}
    {term : Option Formula} (h : memberTerm following id op item context = .ok term after) :
    Walk following id context (.member op item) term.toList after := by
  match item with
  | .object fields =>
    rw [memberTerm] at h
    simp only [Descent.bind_eq_ok, Descent.pure_eq_ok, bothPasses_eq_ok] at h
    obtain ⟨_, _, ⟨own, middle, others, hown, hothers, rfl⟩, rfl, rfl⟩ := h
    exact .memberObject (.object (walk_pass fields hown) (walk_pass fields hothers))
  | .array items =>
    rw [memberTerm] at h
    simp only [Descent.bind_eq_ok, Descent.pure_eq_ok] at h
    obtain ⟨members, _, hmembers, rfl, rfl⟩ := h
    exact .memberArray (walk_members items hmembers)
  | .null | .bool _ | .number _ | .string _ =>
    rw [memberTerm] at h
    exact absurd h Descent.throw_ne_ok

theorem walk_entryMembers (fields : List (String × Json)) {id : AliasId}
    {context after : Context} {terms : List Formula}
    (h : entryMembers following id fields context = .ok terms after) :
    Walk following id context (.groupEntries fields) terms after := by
  match fields with
  | [] =>
    rw [entryMembers, Descent.pure_eq_ok] at h
    obtain ⟨rfl, rfl⟩ := h
    exact .groupEntriesNil
  | (key, value) :: fields =>
    rw [entryMembers] at h
    simp only [Descent.bind_eq_ok, Descent.pure_eq_ok] at h
    obtain ⟨own, middle, hown, others, _, hothers, rfl, rfl⟩ := h
    exact .groupEntriesCons (walk_entry value hown) (walk_entryMembers fields hothers)

end

theorem Walk.of_terms {part : Part} {id : AliasId} {context after : Context}
    {terms : List Formula} (h : part.terms following id context = .ok terms after) :
    Walk following id context part terms after := by
  cases part with
  | object fields =>
    simp only [Part.terms, fieldTerms, bothPasses_eq_ok] at h
    obtain ⟨own, middle, others, hown, hothers, rfl⟩ := h
    exact .object (walk_pass fields hown) (walk_pass fields hothers)
  | pass related fields => exact walk_pass fields h
  | entry key value => exact walk_entry value h
  | members op items => exact walk_members items h
  | member op item =>
    obtain ⟨term, hterm, rfl⟩ := Descent.map_eq_ok.mp h
    exact walk_member item hterm
  | groupEntries fields => exact walk_entryMembers fields h

/-- A leaf is compiled by `entryTerms` too: it is neither a group nor related records. -/
theorem entryTerms_of_leaf {id : AliasId} {value : Json} {context after : Context}
    {terms : List Formula} (h : leafTerms id key value context = .ok terms after) :
    entryTerms following id key value context = .ok terms after := by
  obtain ⟨-, predicates, hpredicates, -⟩ := leafTerms_eq_ok.mp h
  obtain ⟨hgroup, hrelated⟩ := kindOf_of_leafPredicates hpredicates
  cases value with
  | object fields =>
    rw [entryTerms]
    cases hkind : kindOf key (.object fields) with
    | group op => exact absurd hkind (hgroup op)
    | related => exact absurd hkind hrelated
    | identity | declaration | relation | property => exact h
  | array items =>
    rw [entryTerms]
    cases hkind : kindOf key (.array items) with
    | group op => exact absurd hkind (hgroup op)
    | identity | declaration | relation | property | related => exact h
  | null | bool _ | number _ | string _ =>
    rw [entryTerms]
    exact h

theorem Walk.terms_eq_ok {part : Part} {id : AliasId} {context after : Context}
    {terms : List Formula} (h : Walk following id context part terms after) :
    part.terms following id context = .ok terms after := by
  induction h with
  | object _ _ ihOwn ihOthers =>
    simp only [Part.terms, fieldTerms, bothPasses_eq_ok] at ihOwn ihOthers ⊢
    exact ⟨_, _, _, ihOwn, ihOthers, rfl⟩
  | passNil => exact Descent.pure_eq_ok.mpr ⟨rfl, rfl⟩
  | passTake hrelated _ _ ihOwn ihOthers =>
    simp only [Part.terms] at ihOwn ihOthers ⊢
    rw [passTerms, if_pos hrelated]
    simp only [Descent.bind_eq_ok, Descent.pure_eq_ok]
    exact ⟨_, _, ihOwn, _, _, ihOthers, rfl, rfl⟩
  | passSkip hrelated _ ih =>
    simp only [Part.terms] at ih ⊢
    rw [passTerms, if_neg hrelated]
    exact ih
  | leaf hleaf => exact entryTerms_of_leaf hleaf
  | groupObject hkind _ ih =>
    simp only [Part.terms] at ih ⊢
    rw [entryTerms]
    simp only [hkind, Descent.bind_eq_ok, Descent.amongMembers_eq_ok, Descent.pure_eq_ok]
    exact ⟨_, _, ⟨_, ih, rfl⟩, rfl, rfl⟩
  | groupArray hkind _ ih =>
    simp only [Part.terms] at ih ⊢
    rw [entryTerms]
    simp only [hkind, Descent.bind_eq_ok, Descent.amongMembers_eq_ok, Descent.pure_eq_ok]
    exact ⟨_, _, ⟨_, ih, rfl⟩, rfl, rfl⟩
  | related hkind hterm _ _ =>
    simp only [Part.terms]
    rw [entryTerms]
    simp only [hkind, Descent.bind_eq_ok, Descent.pure_eq_ok]
    exact ⟨_, _, hterm, rfl, rfl⟩
  | membersNil => exact Descent.pure_eq_ok.mpr ⟨rfl, rfl⟩
  | membersCons _ _ ihItem ihItems =>
    simp only [Part.terms] at ihItem ihItems ⊢
    obtain ⟨term, hterm, rfl⟩ := Descent.map_eq_ok.mp ihItem
    rw [memberTerms]
    simp only [Descent.bind_eq_ok, Descent.pure_eq_ok]
    exact ⟨_, _, hterm, _, _, ihItems, rfl, rfl⟩
  | memberObject _ ih =>
    refine Descent.map_eq_ok.mpr ⟨_, ?_, rfl⟩
    rw [memberTerm]
    simp only [Descent.bind_eq_ok, Descent.pure_eq_ok]
    exact ⟨_, _, ih, rfl, rfl⟩
  | memberArray _ ih =>
    refine Descent.map_eq_ok.mpr ⟨_, ?_, rfl⟩
    rw [memberTerm]
    simp only [Descent.bind_eq_ok, Descent.pure_eq_ok]
    exact ⟨_, _, ih, rfl, rfl⟩
  | groupEntriesNil => exact Descent.pure_eq_ok.mpr ⟨rfl, rfl⟩
  | groupEntriesCons _ _ ihEntry ihEntries =>
    simp only [Part.terms] at ihEntry ihEntries ⊢
    rw [entryMembers]
    simp only [Descent.bind_eq_ok, Descent.pure_eq_ok]
    exact ⟨_, _, ihEntry, _, _, ihEntries, rfl, rfl⟩

/-- The step over a part succeeds with these terms exactly along a walk. -/
theorem walk_iff {part : Part} {id : AliasId} {context after : Context}
    {terms : List Formula} :
    part.terms following id context = .ok terms after ↔
      Walk following id context part terms after :=
  ⟨Walk.of_terms, Walk.terms_eq_ok⟩

end

/-! ## 4.  Facts about contexts and terms -/

/-- A relation between the contexts of a run and its terms that holds of every run where all
leaves are admitted: it holds where nothing is yielded, of leaves, and of groups and sequences
whose parts have it, and it passes from the fields of a relation to the relation. -/
structure IsWalkInvariantOn (Admits : String × Json → Prop) (following : Following)
    (Holds : AliasId → Context → List Formula → Context → Prop) : Prop where
  nil : ∀ {id context}, Holds id context [] context
  append : ∀ {id context part terms middle part' others after},
    Walk following id context part terms middle → Walk following id middle part' others after →
    Holds id context terms middle → Holds id middle others after →
    Holds id context (terms ++ others) after
  leaf : ∀ {id context key value predicates}, Admits (key, value) →
    leafPredicates context.options (context.nameOf id) key value = .ok predicates →
    Holds id context (predicateTerms (context.nameOf id) predicates) context
  group : ∀ {id context part members inside} (op : GroupOp),
    Walk following id (context.opened op) part members inside →
    Holds id (context.opened op) members inside →
    Holds id context (groupTerm op members).toList (inside.closed op)
  conjoin : ∀ {id context part terms after}, Walk following id context part terms after →
    Holds id context terms after → Holds id context (conjoin terms).toList after
  related : ∀ {id context label fields term after},
    following label fields id (fun child => fieldTerms following child fields) context
      = .ok term after →
    (∀ {child before terms inside}, Walk following child before (.object fields) terms inside →
      Holds child before terms inside) →
    Holds id context [term] after

/-- An invariant holds of every walk whose leaves are admitted. -/
theorem Walk.invariantOn {Admits : String × Json → Prop} {following : Following}
    {Holds : AliasId → Context → List Formula → Context → Prop}
    (hinv : IsWalkInvariantOn Admits following Holds) {part : Part} {id : AliasId}
    {context after : Context} {terms : List Formula}
    (h : Walk following id context part terms after)
    (hleaves : ∀ leaf ∈ part.leaves, Admits leaf) : Holds id context terms after := by
  induction h with
  | object hOwn hOthers ihOwn ihOthers =>
    exact hinv.append hOwn hOthers (ihOwn hleaves) (ihOthers hleaves)
  | passNil => exact hinv.nil
  | passTake _ hOwn hOthers ihOwn ihOthers =>
    rw [Part.leaves, fieldLeaves, List.forall_mem_append] at hleaves
    exact hinv.append hOwn hOthers (ihOwn hleaves.1) (ihOthers hleaves.2)
  | passSkip _ _ ih =>
    rw [Part.leaves, fieldLeaves, List.forall_mem_append] at hleaves
    exact ih hleaves.2
  | leaf hleaf =>
    obtain ⟨rfl, predicates, hpredicates, rfl⟩ := leafTerms_eq_ok.mp hleaf
    rw [Part.leaves, entryLeaves_of_leafPredicates hpredicates] at hleaves
    exact hinv.leaf (hleaves _ (List.mem_singleton_self _)) hpredicates
  | groupObject hkind hMembers ih =>
    rw [Part.leaves, entryLeaves] at hleaves
    simp only [hkind] at hleaves
    exact hinv.group _ hMembers (ih hleaves)
  | groupArray hkind hMembers ih =>
    rw [Part.leaves, entryLeaves] at hleaves
    simp only [hkind] at hleaves
    exact hinv.group _ hMembers (ih hleaves)
  | related hkind hterm _ ih =>
    rw [Part.leaves, entryLeaves] at hleaves
    simp only [hkind] at hleaves
    exact hinv.related hterm fun hwalk => ih hwalk.terms_eq_ok hleaves
  | membersNil => exact hinv.nil
  | membersCons hItem hItems ihItem ihItems =>
    rw [Part.leaves, itemsLeaves, List.forall_mem_append] at hleaves
    exact hinv.append hItem hItems (ihItem hleaves.1) (ihItems hleaves.2)
  | memberObject hObject ih =>
    rw [Part.leaves, itemLeaves] at hleaves
    exact hinv.conjoin hObject (ih hleaves)
  | memberArray hItems ih =>
    rw [Part.leaves, itemLeaves] at hleaves
    exact hinv.group .and hItems (ih hleaves)
  | groupEntriesNil => exact hinv.nil
  | groupEntriesCons hEntry hEntries ihEntry ihEntries =>
    rw [Part.leaves, fieldLeaves, List.forall_mem_append] at hleaves
    -- the entry alone is a group too
    have hSingle := Walk.groupEntriesCons hEntry .groupEntriesNil
    rw [List.append_nil] at hSingle
    exact hinv.append hSingle hEntries (hinv.conjoin hEntry (ihEntry hleaves.1))
      (ihEntries hleaves.2)

/-- The same of every run, whatever the leaves are. -/
structure IsWalkInvariant (following : Following)
    (Holds : AliasId → Context → List Formula → Context → Prop) : Prop where
  nil : ∀ {id context}, Holds id context [] context
  append : ∀ {id context part terms middle part' others after},
    Walk following id context part terms middle → Walk following id middle part' others after →
    Holds id context terms middle → Holds id middle others after →
    Holds id context (terms ++ others) after
  leaf : ∀ {id context} (predicates : List String),
    Holds id context (predicateTerms (context.nameOf id) predicates) context
  group : ∀ {id context part members inside} (op : GroupOp),
    Walk following id (context.opened op) part members inside →
    Holds id (context.opened op) members inside →
    Holds id context (groupTerm op members).toList (inside.closed op)
  conjoin : ∀ {id context part terms after}, Walk following id context part terms after →
    Holds id context terms after → Holds id context (conjoin terms).toList after
  related : ∀ {id context label fields term after},
    following label fields id (fun child => fieldTerms following child fields) context
      = .ok term after →
    (∀ {child before terms inside}, Walk following child before (.object fields) terms inside →
      Holds child before terms inside) →
    Holds id context [term] after

/-- An invariant is one on all leaves. -/
theorem IsWalkInvariant.on {following : Following}
    {Holds : AliasId → Context → List Formula → Context → Prop}
    (hinv : IsWalkInvariant following Holds) :
    IsWalkInvariantOn (fun _ => True) following Holds where
  nil := hinv.nil
  append := hinv.append
  leaf _ _ := hinv.leaf _
  group := hinv.group
  conjoin := hinv.conjoin
  related := hinv.related

/-- An invariant holds of every walk. -/
theorem Walk.invariant {following : Following}
    {Holds : AliasId → Context → List Formula → Context → Prop}
    (hinv : IsWalkInvariant following Holds) {part : Part} {id : AliasId}
    {context after : Context} {terms : List Formula}
    (h : Walk following id context part terms after) : Holds id context terms after :=
  h.invariantOn hinv.on fun _ _ => trivial

end GraphSearch.Matching
