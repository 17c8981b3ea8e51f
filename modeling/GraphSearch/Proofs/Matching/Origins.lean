import GraphSearch.Proofs.Matching.Binding
/-!
# Where the predicates of a selection come from

Formulas are put together from the predicates of leaves, under groups, negations and existentials,
with tests that records were matched.  What formulas inherit from their parts, all terms of a
selection have if the predicates of the leaves of its criteria have it, whether they are terms of
the rows or are attached to an optional match (`IsHereditary.of_ofCriteria`).

That a predicate comes from a leaf is such a property: nothing is asked of a record but what some
leaf of the criteria asks, against the alias of that record (`ofCriteria_origins`).
-/

namespace GraphSearch.Matching

open Criteria

/-! ## 1.  What formulas inherit -/

/-- Formulas have the property when their parts have it, whatever their patterns are and whichever
records are tested to be there. -/
structure IsHereditary (P : Formula → Prop) : Prop where
  present : ∀ node, P (.atom (.present node))
  group : ∀ {connective first others}, (∀ t ∈ first :: others, P t) →
    P (.group connective first others)
  negation : ∀ {connective first others}, (∀ t ∈ first :: others, P t) →
    P (.negation connective first others)
  existential : ∀ {pattern terms}, (∀ t ∈ terms, P t) → P (.existential pattern terms)

/-- The predicates of a leaf, against whatever alias, have the property. -/
def LeafHas (options : Options) (P : Formula → Prop) (leaf : String × Json) : Prop :=
  ∀ node predicates, leafPredicates options node leaf.1 leaf.2 = .ok predicates →
    ∀ text ∈ predicates, P (.atom (.predicate node text))

section

variable {P : Formula → Prop} {terms : List Formula}

namespace IsHereditary

variable {options : Options}

theorem groupTerm (hP : IsHereditary P) (op : GroupOp) (hterms : ∀ t ∈ terms, P t) :
    ∀ t ∈ (Matching.groupTerm op terms).toList, P t := by
  rcases toList_groupTerm op terms with heq | ⟨first, others, rfl, heq⟩
  · rw [heq]
    exact hterms
  · rw [heq, List.forall_mem_singleton]
    split
    · exact hP.negation hterms
    · exact hP.group hterms

theorem presence (hP : IsHereditary P) (child : String) (hterms : ∀ t ∈ terms, P t) :
    P (Matching.presence child terms) := by
  cases terms with
  | nil => exact hP.present child
  | cons term terms => exact hP.group (List.forall_mem_cons.mpr ⟨hP.present child, hterms⟩)

/-- A walk keeps the property, in what it yields and in what it attaches. -/
theorem isWalkInvariantOn (hP : IsHereditary P) (options : Options) :
    IsWalkInvariantOn (LeafHas options P) follow fun _ context terms after =>
      context.IsFresh → context.options = options → context.AttachedHave P →
        after.AttachedHave P ∧ ∀ t ∈ terms, P t where
  nil _ _ h := ⟨h, List.forall_mem_nil _⟩
  append hwalk _ h h' hfresh hoptions hattached := by
    obtain ⟨hmiddle, hext⟩ := hwalk.extends hfresh
    obtain ⟨hattached', hterms⟩ := h hfresh hoptions hattached
    obtain ⟨hafter, hothers⟩ := h' hmiddle (hext.options.trans hoptions) hattached'
    exact ⟨hafter, List.forall_mem_append.mpr ⟨hterms, hothers⟩⟩
  leaf hleaf hpredicates _ hoptions hattached := by
    refine ⟨hattached, fun t ht => ?_⟩
    obtain ⟨text, htext, rfl⟩ := List.mem_map.mp ht
    rw [hoptions] at hpredicates
    exact hleaf _ _ hpredicates text htext
  group {_ context _ _ _} op _ h hfresh hoptions hattached := by
    have hopened : (context.opened op).options = options ∧ (context.opened op).AttachedHave P := by
      rw [Context.opened_eq]
      exact ⟨hoptions, hattached⟩
    obtain ⟨hinside, hmembers⟩ := h (hfresh.opened op) hopened.1 hopened.2
    rw [Context.closed_eq]
    exact ⟨hinside, hP.groupTerm op hmembers⟩
  conjoin _ h hfresh hoptions hattached := by
    obtain ⟨hafter, hterms⟩ := h hfresh hoptions hattached
    rw [conjoin_eq_groupTerm]
    exact ⟨hafter, hP.groupTerm .and hterms⟩
  related {id context label fields _ _} h hbody hfresh hoptions hattached := by
    rcases follow_cases hfresh h with ⟨-, terms, hwalk, rfl⟩ |
      ⟨-, terms, inside, hwalk, -, -, rfl, rfl⟩
    · obtain ⟨hafter, hterms⟩ := hbody hwalk hfresh.addScoped hoptions hattached
      exact ⟨hafter, List.forall_mem_singleton.mpr (hP.existential hterms)⟩
    · have hentered : (context.entered label fields id).AttachedHave P := by
        intro other stored hstored
        rw [Context.attached?, Context.entered_attached] at hstored
        exact hattached hstored
      obtain ⟨hinside, hterms⟩ := hbody hwalk (hfresh.entered label fields id)
        (Context.entered_options.trans hoptions) hentered
      refine ⟨hinside.left _ _ hterms, List.forall_mem_singleton.mpr ?_⟩
      exact hP.presence _ fun t ht => hterms t (mem_of_mem_carriedTerms ht)

theorem of_rootTerms (hP : IsHereditary P) {criteria : Json} {after : Context}
    (hleaves : ∀ leaf ∈ itemLeaves criteria, LeafHas options P leaf)
    (h : rootTerms criteria (Context.start options) = .ok () after) :
    (Selection.takeRootTerms after).2.AttachedHave P ∧
      ∀ t ∈ (Selection.takeRootTerms after).1, P t := by
  rw [Selection.takeRootTerms_snd]
  cases criteria with
  | null =>
    obtain ⟨-, rfl⟩ := Descent.pure_eq_ok.mp h
    refine ⟨fun hattached => ?_, List.forall_mem_nil _⟩
    cases hattached
  | object fields =>
    obtain ⟨terms, inside, hwalk, rfl⟩ := rootTerms_object_eq_ok.mp h
    rw [itemLeaves] at hleaves
    have hstart : (Context.rooted options fields).AttachedHave P := by
      intro id stored hstored
      rw [Context.rooted_eq] at hstored
      cases hstored
    obtain ⟨hinside, hterms⟩ := hwalk.invariantOn (hP.isWalkInvariantOn options) hleaves
      (Context.isFresh_rooted options fields) (Context.rooted_options options fields) hstart
    rw [takeRootTerms_keepTerms hwalk]
    exact ⟨hinside.keepTerms Context.root 1 hterms, hterms⟩
  | bool _ | number _ | string _ | array _ => exact absurd h Descent.throw_ne_ok

/-- Every term of a selection has the property, when the predicates of all leaves have it. -/
theorem of_ofCriteria (hP : IsHereditary P) {criteria : Json} {labels : List String}
    {order : Option SortOrder} {skip limit : Option Nat} {selection : Selection}
    (hleaves : ∀ leaf ∈ itemLeaves criteria, LeafHas options P leaf)
    (h : Selection.ofCriteria options criteria labels order skip limit = .ok selection) :
    (∀ t ∈ selection.terms, P t) ∧ ∀ hop ∈ selection.hops, ∀ t ∈ hop.terms, P t := by
  obtain ⟨after, hroot, hterms, -, hhops, -⟩ := ofCriteria_eq_ok h
  obtain ⟨hattached, htaken⟩ := hP.of_rootTerms hleaves hroot
  rw [hterms, hhops]
  refine ⟨htaken, fun hop hhop t ht => ?_⟩
  obtain ⟨id, -, hstored⟩ := exists_of_mem_hopsOf hhop
  obtain ⟨stored, hstored, hmem⟩ := hstored t ht
  exact hattached hstored t hmem

end IsHereditary

end

/-! ## 2.  The predicates of a formula -/

/-- The formula asks a predicate of the records of an alias, at any depth. -/
inductive Formula.Asks (node text : String) : Formula → Prop
  | atom : Asks node text (.atom (.predicate node text))
  | group {connective first others member} : member ∈ first :: others → Asks node text member →
    Asks node text (.group connective first others)
  | negation {connective first others member} : member ∈ first :: others →
    Asks node text member → Asks node text (.negation connective first others)
  | existential {pattern terms term} : term ∈ terms → Asks node text term →
    Asks node text (.existential pattern terms)

/-- The selection asks a predicate of the records of an alias: of all rows, or where the records are
matched. -/
def Selection.Asks (selection : Selection) (node text : String) : Prop :=
  (∃ t ∈ selection.terms, t.Asks node text) ∨
    ∃ hop ∈ selection.hops, ∃ t ∈ hop.terms, t.Asks node text

/-- The predicate is one of those that some leaf is read as. -/
def IsFromLeaf (options : Options) (leaves : List (String × Json)) (node text : String) : Prop :=
  ∃ leaf ∈ leaves, ∃ predicates,
    leafPredicates options node leaf.1 leaf.2 = .ok predicates ∧ text ∈ predicates

theorem isHereditary_isFromLeaf (options : Options) (leaves : List (String × Json)) :
    IsHereditary fun t => ∀ node text, t.Asks node text → IsFromLeaf options leaves node text where
  present _ := nofun
  group h := by
    rintro node text (_ | ⟨hmember, hasks⟩)
    exact h _ hmember node text hasks
  negation h := by
    rintro node text (_ | _ | ⟨hmember, hasks⟩)
    exact h _ hmember node text hasks
  existential h := by
    rintro node text (_ | _ | _ | ⟨hterm, hasks⟩)
    exact h _ hterm node text hasks

/-- Whatever a selection asks of records is what some leaf of its criteria asks. -/
theorem ofCriteria_origins {options : Options} {criteria : Json} {labels : List String}
    {order : Option SortOrder} {skip limit : Option Nat} {selection : Selection}
    (h : Selection.ofCriteria options criteria labels order skip limit = .ok selection)
    {node text : String} (hasks : selection.Asks node text) :
    IsFromLeaf options (itemLeaves criteria) node text := by
  have hleaves : ∀ leaf ∈ itemLeaves criteria, LeafHas options
      (fun t => ∀ node text, t.Asks node text → IsFromLeaf options (itemLeaves criteria) node text)
      leaf := by
    intro leaf hleaf node predicates hpredicates text htext
    rintro _ _ ⟨⟩
    exact ⟨leaf, hleaf, predicates, hpredicates, htext⟩
  obtain ⟨hterms, hhops⟩ := (isHereditary_isFromLeaf options _).of_ofCriteria hleaves h
  rcases hasks with ⟨t, ht, hasks⟩ | ⟨hop, hhop, t, ht, hasks⟩
  · exact hterms t ht node text hasks
  · exact hhops hop hhop t ht node text hasks

end GraphSearch.Matching
