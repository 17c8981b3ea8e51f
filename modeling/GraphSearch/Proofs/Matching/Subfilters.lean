import GraphSearch.Proofs.Matching.Arena
/-!
# The relations a filter follows

Which relations a filter follows, and in which order, can be read off its criteria: at each
object first those inside its groups, then its own, each before those of its nested criteria.
A relation is matched unless it lies inside a negated group, and so how many aliases of either
kind a compilation adds is known beforehand.

* `Subfilter`: a relation of the criteria, and whether it lies inside a negation;
* `Part.subfilters`: the relations of a part of criteria in the order in which they are followed;
* `Context.Follows`: an alias was added to each of them, a scoped one inside negations, and so
  the aliases of either kind can be counted beforehand;
* `IsFollowInvariant`, `Walk.followInvariant`: a fact about a run that depends on its two contexts
  and on the relations it follows, in order, needs five closure conditions;
* `isFollowInvariant_follows`, `rootTerms_follows`: what compiling a part, or the criteria of a root
  record, adds.
-/

namespace GraphSearch.Matching

open Criteria

/-! ## 1.  Relations of criteria -/

/-- A relation that is followed to the records with a label, which `fields` filter. -/
structure Subfilter where
  label : String
  fields : List (String × Json)
  /-- The relation lies inside a negated group. -/
  negated : Bool

mutual

/-- The relations of an entry; `negated` says whether the entry lies inside a negated group. -/
def entrySubfilters (negated : Bool) (key : String) : Json → List Subfilter
  | .object fields =>
    match kindOf key (.object fields) with
    | .group op => entriesSubfilters (negated || op.negates) fields
    | .related =>
      ⟨key, fields, negated⟩ ::
        (passSubfilters negated false fields ++ passSubfilters negated true fields)
    | _ => []
  | .array items =>
    match kindOf key (.array items) with
    | .group op => itemsSubfilters (negated || op.negates) items
    | _ => []
  | _ => []

/-- The relations of those entries that are about related records if `related` is set, and of
all others if it is not. -/
def passSubfilters (negated related : Bool) : List (String × Json) → List Subfilter
  | [] => []
  | (key, value) :: fields =>
    if isRelated (key, value) = related then
      entrySubfilters negated key value ++ passSubfilters negated related fields
    else passSubfilters negated related fields

/-- The relations of the members of a group that is written as an array. -/
def itemsSubfilters (negated : Bool) : List Json → List Subfilter
  | [] => []
  | item :: items => itemSubfilters negated item ++ itemsSubfilters negated items

/-- The relations of a member of a group. -/
def itemSubfilters (negated : Bool) : Json → List Subfilter
  | .object fields => passSubfilters negated false fields ++ passSubfilters negated true fields
  | .array items => itemsSubfilters negated items
  | _ => []

/-- The relations of a group that is written as an object. -/
def entriesSubfilters (negated : Bool) : List (String × Json) → List Subfilter
  | [] => []
  | (key, value) :: fields =>
    entrySubfilters negated key value ++ entriesSubfilters negated fields

end

/-- The relations of a part of criteria, in the order in which they are followed. -/
def Part.subfilters (negated : Bool) : Part → List Subfilter
  | .object fields => passSubfilters negated false fields ++ passSubfilters negated true fields
  | .pass related fields => passSubfilters negated related fields
  | .entry key value => entrySubfilters negated key value
  | .members _ items => itemsSubfilters negated items
  | .member _ item => itemSubfilters negated item
  | .groupEntries fields => entriesSubfilters negated fields

/-- The relations of the criteria of a root record. -/
def subfiltersOf (criteria : Json) : List Subfilter := itemSubfilters false criteria

/-! ## 2.  An alias to each relation -/

theorem entrySubfilters_leaf {id : AliasId} {negated : Bool} {key : String} {value : Json}
    {context after : Context} {terms : List Formula}
    (h : leafTerms id key value context = .ok terms after) :
    entrySubfilters negated key value = [] := by
  obtain ⟨-, predicates, hpredicates, -⟩ := leafTerms_eq_ok.mp h
  obtain ⟨hgroup, hrelated⟩ := kindOf_of_leafPredicates hpredicates
  cases value with
  | object fields =>
    rw [entrySubfilters]
    cases hkind : kindOf key (.object fields) with
    | group op => exact absurd hkind (hgroup op)
    | related => exact absurd hkind hrelated
    | identity | declaration | relation | property => rfl
  | array items =>
    rw [entrySubfilters]
    cases hkind : kindOf key (.array items) with
    | group op => exact absurd hkind (hgroup op)
    | identity | declaration | relation | property | related => rfl
  | null | bool _ | number _ | string _ => simp only [entrySubfilters]

namespace Context

theorem Extends.inNegation {before after : Context} (h : before.Extends after) :
    after.inNegation = before.inNegation := by
  rw [Context.inNegation, h.negations]
  rfl

/-- An alias was added to each of the relations, a scoped one to those inside a negation. -/
def Follows (before after : Context) (followed : List Subfilter) : Prop :=
  after.aliases.map Alias.isScoped =
    before.aliases.map Alias.isScoped ++ followed.map Subfilter.negated

theorem Follows.nil (context : Context) : context.Follows context [] :=
  (List.append_nil _).symm

theorem Follows.append {before middle after : Context} {first second : List Subfilter}
    (h : before.Follows middle first) (h' : middle.Follows after second) :
    before.Follows after (first ++ second) := by
  rw [Follows] at h h' ⊢
  rw [h', h, List.map_append, List.append_assoc]

/-- Only the aliases matter. -/
theorem Follows.congr {before before' after after' : Context} {followed : List Subfilter}
    (h : before.Follows after followed) (hbefore : before'.aliases = before.aliases)
    (hafter : after'.aliases = after.aliases) : before'.Follows after' followed := by
  rw [Follows, hafter, hbefore]
  exact h

theorem matchedCount_eq_countP (context : Context) :
    context.matchedCount = (context.aliases.map Alias.isScoped).countP Bool.not := by
  rw [context.matchedCount_eq, ← List.countP_eq_length_filter, List.countP_map]
  rfl

theorem scopedCount_eq_countP (context : Context) :
    context.scopedCount = (context.aliases.map Alias.isScoped).countP id := by
  rw [context.scopedCount_eq, ← List.countP_eq_length_filter, List.countP_map]
  rfl

theorem Follows.matchedCount {before after : Context} {followed : List Subfilter}
    (h : before.Follows after followed) : after.matchedCount =
      before.matchedCount + followed.countP fun subfilter => !subfilter.negated := by
  have hfollowed : (followed.map Subfilter.negated).countP Bool.not =
      followed.countP fun subfilter => !subfilter.negated := List.countP_map
  rw [matchedCount_eq_countP, matchedCount_eq_countP, h, List.countP_append, hfollowed]

theorem Follows.scopedCount {before after : Context} {followed : List Subfilter}
    (h : before.Follows after followed) : after.scopedCount =
      before.scopedCount + followed.countP Subfilter.negated := by
  have hfollowed : (followed.map Subfilter.negated).countP id =
      followed.countP Subfilter.negated := List.countP_map
  rw [scopedCount_eq_countP, scopedCount_eq_countP, h, List.countP_append, hfollowed]

theorem follows_group {op : GroupOp} {context inside : Context} {followed : List Subfilter}
    (h : (context.opened op).Follows inside followed) :
    context.Follows (inside.closed op) followed :=
  h.congr (context.opened_aliases op).symm (inside.closed_aliases op)

theorem follows_addScoped (context : Context) (label : String)
    (fields : List (String × Json)) :
    context.Follows context.addScoped.2 [⟨label, fields, true⟩] := by
  simp [Follows]

theorem follows_entered (context : Context) (label : String) (fields : List (String × Json))
    (parent : AliasId) :
    context.Follows (context.entered label fields parent) [⟨label, fields, false⟩] := by
  simp [Follows]

end Context

/-! ## 3.  Facts in the order of the relations -/

/-- A relation between the contexts of a run and the relations that it follows, in order, which
holds of every run: it holds where none is followed, of groups and of sequences whose parts have
it, and it passes from the fields of a relation to the relation, which is followed first. -/
structure IsFollowInvariant (Holds : Context → List Subfilter → Context → Prop) : Prop where
  nil : ∀ {context}, Holds context [] context
  append : ∀ {context first middle second after}, context.Extends middle →
    Holds context first middle → Holds middle second after → Holds context (first ++ second) after
  group : ∀ {context followed inside} (op : GroupOp), Holds (context.opened op) followed inside →
    Holds context followed (inside.closed op)
  addScoped : ∀ {context label fields followed after}, Holds context.addScoped.2 followed after →
    Holds context (⟨label, fields, true⟩ :: followed) after
  entered : ∀ {context label fields parent followed inside id before terms},
    Holds (context.entered label fields parent) followed inside →
    Holds context (⟨label, fields, false⟩ :: followed) (inside.left id before terms)

section

variable {Holds : Context → List Subfilter → Context → Prop} {part part' : Part} {id : AliasId}
  {context middle after : Context} {terms : List Formula}

/-- Of two walks, the second starts fresh and as deep in negations as the first. -/
theorem IsFollowInvariant.append_walk (hinv : IsFollowInvariant Holds) {first : List Subfilter}
    (hwalk : Walk follow id context part terms middle) (hfresh : context.IsFresh)
    (h : Holds context first middle)
    (h' : middle.IsFresh → Holds middle (part'.subfilters middle.inNegation) after) :
    Holds context (first ++ part'.subfilters context.inNegation) after := by
  obtain ⟨hmiddle, hext⟩ := hwalk.extends hfresh
  rw [← hext.inNegation]
  exact hinv.append hext h (h' hmiddle)

/-- An invariant holds of every walk and the relations of its part. -/
theorem Walk.followInvariant (hinv : IsFollowInvariant Holds)
    (h : Walk follow id context part terms after) (hfresh : context.IsFresh) :
    Holds context (part.subfilters context.inNegation) after := by
  induction h with
  | object hOwn _ ihOwn ihOthers =>
    exact hinv.append_walk hOwn hfresh (ihOwn hfresh) ihOthers
  | passNil =>
    rw [Part.subfilters, passSubfilters]
    exact hinv.nil
  | passTake hrelated hEntry _ ihEntry ihEntries =>
    rw [Part.subfilters, passSubfilters, if_pos hrelated]
    exact hinv.append_walk hEntry hfresh (ihEntry hfresh) ihEntries
  | passSkip hrelated _ ih =>
    rw [Part.subfilters, passSubfilters, if_neg hrelated]
    exact ih hfresh
  | leaf hleaf =>
    obtain ⟨rfl, -⟩ := leafTerms_eq_ok.mp hleaf
    rw [Part.subfilters, entrySubfilters_leaf hleaf]
    exact hinv.nil
  | @groupObject _ _ _ _ op _ _ hkind _ ih =>
    have hinside := ih (hfresh.opened op)
    rw [Context.inNegation_opened] at hinside
    rw [Part.subfilters, entrySubfilters]
    simp only [hkind]
    exact hinv.group op hinside
  | @groupArray _ _ _ _ op _ _ hkind _ ih =>
    have hinside := ih (hfresh.opened op)
    rw [Context.inNegation_opened] at hinside
    rw [Part.subfilters, entrySubfilters]
    simp only [hkind]
    exact hinv.group op hinside
  | @related _ context label fields _ _ hkind hterm _ ih =>
    rw [Part.subfilters, entrySubfilters]
    simp only [hkind]
    rcases follow_cases hfresh hterm with ⟨hneg, terms, hwalk, -⟩ |
      ⟨hneg, terms, inside, hwalk, -, -, -, rfl⟩
    · have hinside := ih hwalk.terms_eq_ok hfresh.addScoped
      rw [hneg]
      rw [context.extends_addScoped.inNegation, hneg] at hinside
      exact hinv.addScoped hinside
    · have hinside := ih hwalk.terms_eq_ok (hfresh.entered label fields _)
      rw [hneg]
      rw [(context.extends_entered label fields _).inNegation, hneg] at hinside
      exact hinv.entered hinside
  | membersNil =>
    rw [Part.subfilters, itemsSubfilters]
    exact hinv.nil
  | membersCons hItem _ ihItem ihItems =>
    rw [Part.subfilters, itemsSubfilters]
    exact hinv.append_walk hItem hfresh (ihItem hfresh) ihItems
  | memberObject _ ih =>
    rw [Part.subfilters, itemSubfilters]
    exact ih hfresh
  | memberArray _ ih =>
    rw [Part.subfilters, itemSubfilters]
    exact ih hfresh
  | groupEntriesNil =>
    rw [Part.subfilters, entriesSubfilters]
    exact hinv.nil
  | groupEntriesCons hEntry _ ihEntry ihEntries =>
    rw [Part.subfilters, entriesSubfilters]
    exact hinv.append_walk hEntry hfresh (ihEntry hfresh) ihEntries

/-- An invariant holds of the relations of the criteria of a root record. -/
theorem Walk.followInvariant_rooted (hinv : IsFollowInvariant Holds) {options : Options}
    {fields : List (String × Json)}
    (h : Walk follow Context.root (Context.rooted options fields) (.object fields) terms after) :
    Holds (Context.rooted options fields) (subfiltersOf (.object fields)) after := by
  have hobject := h.followInvariant hinv (Context.isFresh_rooted options fields)
  rw [Context.rooted_inNegation] at hobject
  rw [subfiltersOf, itemSubfilters]
  exact hobject

/-- A walk adds an alias to each relation of its part, a scoped one where it lies inside a negation
and a matched one elsewhere. -/
theorem isFollowInvariant_follows :
    IsFollowInvariant fun context followed after => context.Follows after followed where
  nil := .nil _
  append _ h h' := h.append h'
  group _ h := Context.follows_group h
  addScoped {context label fields _ _} h := (context.follows_addScoped label fields).append h
  entered {context label fields parent _ _ _ _ _} h :=
    ((context.follows_entered label fields parent).append h).congr rfl Context.left_aliases

end

/-- The criteria of a root record add an alias to each of their relations. -/
theorem rootTerms_follows {options : Options} {criteria : Json} {after : Context}
    (h : rootTerms criteria (Context.start options) = .ok () after) :
    (Context.start options).Follows after (subfiltersOf criteria) := by
  cases criteria with
  | null =>
    obtain ⟨-, rfl⟩ := Descent.pure_eq_ok.mp h
    simp only [subfiltersOf, itemSubfilters]
    exact .nil _
  | object fields =>
    obtain ⟨terms, inside, hwalk, rfl⟩ := rootTerms_object_eq_ok.mp h
    exact (hwalk.followInvariant_rooted isFollowInvariant_follows).congr
      (Context.rooted_aliases options fields).symm keepTerms_aliases
  | bool _ | number _ | string _ | array _ => exact absurd h Descent.throw_ne_ok

end GraphSearch.Matching
