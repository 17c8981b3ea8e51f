import Mathlib.Data.List.Forall2
import GraphSearch.Proofs.Matching.Links
/-!
# Selections bind what they use

A selection lists its matched aliases, the root first, and has an optional match to each of the
others.  Here the facts about walks are put together to facts about the selection that is read
off the context in the end:

* `matchedIds_pairwise`, `matchedNames_eq`, `lt_of_matchedIds_lt`: the aliases are listed in the
  order of their places;
* `IsSource`, `rootTerms_isSource`: what is known of the context behind a selection;
* `IsSource.forall₂_hops`: no alias is without a pattern, so optional matches and aliases
  correspond;
* `Selection.IsBound`, `ofCriteria_isBound`: every optional match starts from an alias before its
  own, its terms and those of the rows are anchored (`Anchored`), and declared names stand for
  aliases that are there.
-/

namespace GraphSearch.Matching

open Criteria

/-! ## 1.  Declared names -/

namespace Context

/-- Declared names stand for matched aliases. -/
def BindsMatched (context : Context) : Prop :=
  ∀ binding ∈ context.bindings, binding.2 ∈ context.matchedNames

theorem Extends.matchedNames_subset {before after : Context} (h : before.Extends after) :
    before.matchedNames ⊆ after.matchedNames := by
  obtain ⟨more, hmore⟩ := h.aliases
  intro name hname
  rw [matchedNames, ← hmore, List.filter_append, List.map_append]
  exact List.mem_append_left _ hname

theorem IsMatched.nameOf_mem {context : Context} {id : AliasId} (h : context.IsMatched id) :
    context.nameOf id ∈ context.matchedNames := by
  obtain ⟨name, hname⟩ := h
  rw [nameOf, hname]
  refine List.mem_map.mpr ⟨⟨name, false⟩, ?_, rfl⟩
  rw [List.mem_filter]
  exact ⟨List.mem_of_getElem? hname, rfl⟩

theorem BindsMatched.bind {context : Context} (h : context.BindsMatched) (declared : String)
    {id : AliasId} (hid : context.IsMatched id) : (context.bind declared id).BindsMatched := by
  rintro ⟨name, value⟩ hmem
  rcases Table.mem_insert hmem with rfl | hmem
  · exact hid.nameOf_mem
  · exact h _ hmem

theorem BindsMatched.entered {context : Context} (h : context.BindsMatched) (label : String)
    (fields : List (String × Json)) (parent : AliasId) :
    (context.entered label fields parent).BindsMatched := by
  have hext : context.Extends context.addMatched.2 :=
    ⟨rfl, rfl, List.prefix_append _ _, rfl, fun _ => rfl, fun _ => rfl⟩
  have hadded : context.addMatched.2.BindsMatched :=
    fun binding hmem => hext.matchedNames_subset (h binding hmem)
  have hmatched : context.addMatched.2.IsMatched context.aliases.length :=
    ⟨context.options.rootAlias ++ toString context.matchedCount, List.getElem?_concat_length⟩
  simp only [Context.entered, openMatched]
  cases aliasOf fields with
  | none => exact hadded
  | some declared => exact hadded.bind declared hmatched

end Context

theorem isWalkInvariant_bindsMatched :
    IsWalkInvariant follow fun _ context _ after =>
      context.IsFresh → context.BindsMatched → after.BindsMatched where
  nil _ h := h
  append hwalk _ h h' hfresh hbinds := h' (hwalk.extends hfresh).1 (h hfresh hbinds)
  leaf _ _ h := h
  group {_ context _ _ inside} op _ h hfresh hbinds := by
    have hopened : (context.opened op).BindsMatched := by
      rw [Context.opened_eq]
      exact hbinds
    have hinside : inside.BindsMatched := h (hfresh.opened op) hopened
    rw [Context.closed_eq]
    exact hinside
  conjoin _ h := h
  related {id context label fields _ _} h hbody hfresh hbinds := by
    rcases follow_cases hfresh h with ⟨-, terms, hwalk, -⟩ |
      ⟨-, terms, inside, hwalk, -, -, -, rfl⟩
    · refine hbody hwalk hfresh.addScoped fun binding hmem => ?_
      exact context.extends_addScoped.matchedNames_subset (hbinds binding hmem)
    · have hinside := hbody hwalk (hfresh.entered label fields id)
        (hbinds.entered label fields id)
      intro binding hmem
      rw [Context.left_bindings] at hmem
      rw [Context.matchedNames, Context.left_aliases]
      exact hinside binding hmem

/-! ## 2.  The places of the matched aliases -/

namespace Context

variable {context : Context}

theorem mem_matchedIds {id : AliasId} : id ∈ context.matchedIds ↔ context.IsMatched id := by
  simp only [matchedIds, List.mem_map, List.mem_filter, List.mem_zipIdx_iff_getElem?]
  constructor
  · rintro ⟨⟨⟨name, isScoped⟩, k⟩, ⟨hget, hmatched⟩, rfl⟩
    obtain rfl : isScoped = false := by simpa using hmatched
    exact ⟨name, hget⟩
  · rintro ⟨name, hget⟩
    exact ⟨(⟨name, false⟩, id), ⟨hget, rfl⟩, rfl⟩

theorem matchedIds_pairwise (context : Context) : context.matchedIds.Pairwise (· < ·) := by
  have hsub : context.matchedIds.Sublist (context.aliases.zipIdx.map Prod.snd) :=
    List.filter_sublist.map Prod.snd
  rw [List.zipIdx_map_snd] at hsub
  exact List.Pairwise.sublist hsub List.pairwise_lt_range'

/-- The aliases of a selection are the names of the matched aliases, in the order of their
places. -/
theorem matchedNames_eq (context : Context) :
    context.matchedNames = context.matchedIds.map context.nameOf := by
  have haliases : context.aliases = context.aliases.zipIdx.map Prod.fst := by
    rw [List.zipIdx_map_fst]
  rw [matchedNames, matchedIds, List.map_map]
  conv_lhs => rw [haliases, List.filter_map, List.map_map]
  refine List.map_congr_left fun entry hentry => ?_
  obtain ⟨hmem, -⟩ := List.mem_filter.mp hentry
  rw [List.mem_zipIdx_iff_getElem?] at hmem
  simp [nameOf, hmem]

/-- The root comes first. -/
theorem IsNumbered.matchedIds_eq (h : context.IsNumbered) :
    context.matchedIds = Context.root :: context.matchedIds.drop 1 := by
  have hroot : Context.root ∈ context.matchedIds := mem_matchedIds.mpr ⟨_, h.root⟩
  have hsorted := context.matchedIds_pairwise
  cases hids : context.matchedIds with
  | nil =>
    rw [hids] at hroot
    cases hroot
  | cons first others =>
    rw [hids] at hroot hsorted
    rcases List.mem_cons.mp hroot with rfl | hmem
    · rfl
    · exact absurd ((List.pairwise_cons.mp hsorted).1 _ hmem) (Nat.not_lt_zero first)

/-- Of two matched aliases, the one with the smaller place is listed first. -/
theorem lt_of_matchedIds_lt {i j : Nat} {id other : AliasId}
    (hi : context.matchedIds[i]? = some id) (hj : context.matchedIds[j]? = some other)
    (h : other < id) : j < i := by
  by_contra hlate
  have hsorted := List.pairwise_iff_getElem.mp context.matchedIds_pairwise
  obtain ⟨hi', hid⟩ := List.getElem?_eq_some_iff.mp hi
  obtain ⟨hj', hother⟩ := List.getElem?_eq_some_iff.mp hj
  rcases Nat.eq_or_lt_of_le (Nat.le_of_not_lt hlate) with heq | hlt
  · subst heq
    rw [hid] at hother
    exact absurd h (hother ▸ Nat.lt_irrefl id)
  · have hle := hsorted i j hi' hj' hlt
    rw [hid, hother] at hle
    exact absurd h (Nat.lt_asymm hle)

/-- What follows the root are the other matched aliases. -/
theorem IsNumbered.mem_drop_matchedIds (h : context.IsNumbered) {id : AliasId} :
    id ∈ context.matchedIds.drop 1 ↔ 0 < id ∧ context.IsMatched id := by
  have hsorted := context.matchedIds_pairwise
  rw [← mem_matchedIds]
  rw [h.matchedIds_eq] at hsorted ⊢
  constructor
  · intro hid
    exact ⟨(List.pairwise_cons.mp hsorted).1 id hid, List.mem_cons_of_mem _ hid⟩
  · rintro ⟨hpos, hid⟩
    rcases List.mem_cons.mp hid with rfl | hid
    · exact absurd hpos (Nat.lt_irrefl 0)
    · exact hid

end Context

/-! ## 3.  The context behind a selection -/

/-- What is known of the context in which the criteria of the root record were compiled, and of
the terms they came out as. -/
structure IsSource (options : Options) (source : Context) (terms : List Formula) : Prop where
  fresh : source.IsFresh
  numbered : source.IsNumbered
  root : source.options = options
  hangs : (Context.start options).Hangs Context.root source
  binds : source.BindsMatched
  anchored : ∀ {edge}, Settled edge (Context.start options) source →
    (∀ t ∈ terms, Anchored edge options.rootAlias t) ∧
      AttachedApart edge (Context.start options) source

theorem Context.bindsMatched_start (options : Options) :
    (Context.start options).BindsMatched := by
  intro binding hmem
  obtain rfl := List.mem_singleton.mp hmem
  exact List.mem_singleton_self _

theorem Context.bindsMatched_rooted (options : Options) (fields : List (String × Json)) :
    (Context.rooted options fields).BindsMatched := by
  rw [Context.rooted]
  cases aliasOf fields with
  | none => exact Context.bindsMatched_start options
  | some declared => exact (Context.bindsMatched_start options).bind declared ⟨_, rfl⟩

theorem isSource_start (options : Options) : IsSource options (Context.start options) [] where
  fresh := Context.isFresh_start options
  numbered := Context.isNumbered_start options
  root := rfl
  hangs := .refl _ (Context.isFresh_start options)
  binds := Context.bindsMatched_start options
  anchored _ := ⟨fun _ ht => absurd ht List.not_mem_nil,
    .of_attached_eq (Context.isFresh_start options) rfl⟩

theorem isSource_of_walk {options : Options} {fields : List (String × Json)}
    {terms : List Formula} {inside : Context}
    (h : Walk follow Context.root (Context.rooted options fields) (.object fields) terms inside) :
    IsSource options inside terms := by
  have hrooted := Context.rooted_eq options fields
  have haliases : (Context.start options).aliases = (Context.rooted options fields).aliases := by
    rw [hrooted]
  have hfresh := Context.isFresh_rooted options fields
  have hnum := Context.isNumbered_rooted options fields
  have hhosts : (Context.rooted options fields).Hosts Context.root :=
    ⟨hnum.length_pos, fun _ => ⟨_, hnum.root⟩⟩
  obtain ⟨hinside, hext⟩ := h.extends hfresh
  refine ⟨hinside, h.isNumbered hfresh hnum, ?_, (h.hangs hfresh hhosts).congr haliases rfl rfl,
    h.invariant isWalkInvariant_bindsMatched hfresh (Context.bindsMatched_rooted options fields),
    fun {edge} hsettled => ?_⟩
  · rw [hext.options, hrooted]
    rfl
  · obtain ⟨hterms, hattached⟩ :=
      h.isAnchored hfresh hnum hhosts (hsettled.congr haliases.symm rfl rfl)
    have hname : (Context.rooted options fields).nameOf Context.root = options.rootAlias := by
      rw [hrooted]
      rfl
    rw [hname] at hterms
    refine ⟨hterms, fun k stored hk => hattached k stored ?_⟩
    rw [← haliases]
    exact hk

theorem Selection.takeRootTerms_snd (context : Context) : (Selection.takeRootTerms context).2 =
    { context with deferred := Table.erase Context.root context.deferred } := by
  simp only [Selection.takeRootTerms, Context.takeDeferred]
  split <;> rfl

/-- Criteria that compile leave a context with a source: it has the source's aliases, patterns
and bindings, and attached terms of all aliases but the root. -/
theorem rootTerms_isSource {options : Options} {criteria : Json} {after : Context}
    (h : rootTerms criteria (Context.start options) = .ok () after) :
    ∃ source, IsSource options source (Selection.takeRootTerms after).1 ∧
      (Selection.takeRootTerms after).2.aliases = source.aliases ∧
      (Selection.takeRootTerms after).2.patterns = source.patterns ∧
      (Selection.takeRootTerms after).2.bindings = source.bindings ∧
      ∀ k ≠ Context.root, (Selection.takeRootTerms after).2.attached? k = source.attached? k := by
  rw [Selection.takeRootTerms_snd]
  cases criteria with
  | null =>
    obtain ⟨-, rfl⟩ := Descent.pure_eq_ok.mp h
    exact ⟨_, isSource_start options, rfl, rfl, rfl, fun _ _ => rfl⟩
  | object fields =>
    obtain ⟨terms, inside, hwalk, rfl⟩ := rootTerms_object_eq_ok.mp h
    refine ⟨inside, ?_, keepTerms_aliases, keepTerms_patterns, keepTerms_bindings,
      fun k hk => keepTerms_attached?_of_ne hk⟩
    rw [takeRootTerms_keepTerms hwalk]
    exact isSource_of_walk hwalk
  | bool _ | number _ | string _ | array _ => exact absurd h Descent.throw_ne_ok

/-! ## 4.  Optional matches -/

theorem forall₂_filterMap {α β : Type} {R : α → β → Prop} {f : α → Option β} {items : List α}
    (h : ∀ a ∈ items, ∃ b, f a = some b ∧ R a b) : List.Forall₂ R items (items.filterMap f) := by
  induction items with
  | nil => exact .nil
  | cons a items ih =>
    obtain ⟨b, hb, hrel⟩ := h a List.mem_cons_self
    rw [List.filterMap_cons_some hb]
    exact .cons hrel (ih fun a' ha' => h a' (List.mem_cons_of_mem a ha'))

theorem forall₂_getElem? {α β : Type} {R : α → β → Prop} {items : List α} {results : List β}
    (h : List.Forall₂ R items results) {i : Nat} {b : β} (hb : results[i]? = some b) :
    ∃ a, items[i]? = some a ∧ R a b := by
  induction h generalizing i with
  | nil => cases hb
  | @cons a b' _ _ hrel _ ih =>
    cases i with
    | zero =>
      obtain rfl : b' = b := by simpa using hb
      exact ⟨a, rfl, hrel⟩
    | succ i => exact ih hb

/-- An optional match to each matched alias but the root, in the same order. -/
theorem IsSource.forall₂_hops {options : Options} {source : Context} {terms : List Formula}
    (h : IsSource options source terms) :
    List.Forall₂ (fun id hop => ∃ parent relation label,
        parent < id ∧ source.IsMatched parent ∧
        source.pattern? id = some
          (.hop (source.nameOf parent) relation (source.nameOf id) label) ∧
        hop = OptionalMatch.mk
          (.hop (source.nameOf parent) relation (source.nameOf id) label)
          ((source.attached? id).getD []))
      (source.matchedIds.drop 1) (Selection.hopsOf source) := by
  refine forall₂_filterMap fun id hid => ?_
  obtain ⟨hpos, hmatched⟩ := h.numbered.mem_drop_matchedIds.mp hid
  obtain ⟨parent, -, hparent, hlt, relation, label, hpattern⟩ := h.hangs.parent id hpos hmatched
  refine ⟨_, ?_, parent, relation, label, hlt, hparent, hpattern, rfl⟩
  rw [hpattern]
  rfl

/-! ## 5.  Selections -/

namespace Selection

/-- An optional match leads from one alias to another. -/
def Edge (selection : Selection) (parent child : String) : Prop :=
  ∃ hop ∈ selection.hops, ∃ relation label, hop.pattern = .hop parent relation child label

/-- The optional match starts from the alias `parent` and introduces the alias `child`. -/
structure Introduces (selection : Selection) (hop : OptionalMatch) (parent child : String) :
    Prop where
  pattern : ∃ relation label, hop.pattern = .hop parent relation child label ∧ ∃ rest,
    hop.text = "OPTIONAL MATCH (" ++ parent ++ ")" ++ arrow relation ++ "(" ++ child ++ ":" ++ rest
  childless : hop.terms ≠ [] → ∀ c, ¬ selection.Edge child c
  anchored : ∀ t ∈ hop.terms, Anchored selection.Edge child t

/-- Every alias of the selection is bound before it is used. -/
structure IsBound (options : Options) (selection : Selection) : Prop where
  root : selection.aliases.head? = some options.rootAlias
  nodup : selection.aliases.Nodup
  hopsLength : selection.hops.length + 1 = selection.aliases.length
  hop : ∀ {i hop}, selection.hops[i]? = some hop → ∃ j parent child, j ≤ i ∧
    selection.aliases[j]? = some parent ∧ selection.aliases[i + 1]? = some child ∧
    selection.Introduces hop parent child
  terms : ∀ t ∈ selection.terms, Anchored selection.Edge options.rootAlias t
  bindings : ∀ binding ∈ selection.bindings, binding.2 ∈ selection.aliases
  unrelated : selection.hasRelated = false →
    ∀ binding ∈ selection.bindings, binding.2 = options.rootAlias

end Selection

/-- The text of an optional match starts with the alias it is matched from. -/
theorem OptionalMatch.text_hop (parent child label : String) (relation : Relation)
    (terms : List Formula) : ∃ rest,
      (OptionalMatch.mk (.hop parent relation child label) terms).text =
        "OPTIONAL MATCH (" ++ parent ++ ")" ++ arrow relation ++ "(" ++ child ++ ":" ++ rest := by
  have hopen : "OPTIONAL MATCH (" = "OPTIONAL MATCH " ++ "(" := by decide +kernel
  rw [hopen]
  cases terms with
  | nil =>
    refine ⟨Cypher.quoted label ++ ")", ?_⟩
    simp only [OptionalMatch.text, Pattern.text, String.append_assoc]
  | cons term terms =>
    refine ⟨Cypher.quoted label ++ ")" ++ " WHERE "
      ++ joinAnd ((term :: terms).map Formula.text), ?_⟩
    simp only [OptionalMatch.text, Pattern.text, String.append_assoc]

theorem ofCriteria_eq_ok {options : Options} {criteria : Json} {labels : List String}
    {order : Option SortOrder} {skip limit : Option Nat} {selection : Selection}
    (h : Selection.ofCriteria options criteria labels order skip limit = .ok selection) :
    ∃ after, rootTerms criteria (Context.start options) = .ok () after ∧
      selection.terms = (Selection.takeRootTerms after).1 ∧
      selection.aliases = (Selection.takeRootTerms after).2.matchedNames ∧
      selection.hops = Selection.hopsOf (Selection.takeRootTerms after).2 ∧
      selection.bindings = Selection.sortByKey (Selection.takeRootTerms after).2.bindings ∧
      selection.orderClause = SortOrder.clause options order := by
  simp only [Selection.ofCriteria, EStateM.run] at h
  cases hrun : rootTerms criteria (Context.start options) with
  | error rejection context =>
    rw [hrun] at h
    cases h
  | ok _ after =>
    rw [hrun] at h
    obtain rfl := Except.ok.inj h
    exact ⟨after, rfl, rfl, rfl, rfl, rfl, rfl⟩

theorem hopsOf_congr {context source : Context} (hnum : source.IsNumbered)
    (haliases : context.aliases = source.aliases) (hpatterns : context.patterns = source.patterns)
    (hattached : ∀ k ≠ Context.root, context.attached? k = source.attached? k) :
    Selection.hopsOf context = Selection.hopsOf source := by
  have hids : context.matchedIds = source.matchedIds := by
    rw [Context.matchedIds, Context.matchedIds, haliases]
  rw [Selection.hopsOf, Selection.hopsOf, hids]
  refine List.filterMap_congr fun id hid => ?_
  obtain ⟨hpos, -⟩ := hnum.mem_drop_matchedIds.mp hid
  rw [hattached id (Nat.ne_of_gt hpos), Context.pattern?, Context.pattern?, hpatterns]

theorem mem_insertByKey {pair other : String × String} {pairs : List (String × String)} :
    other ∈ Selection.insertByKey pair pairs ↔ other = pair ∨ other ∈ pairs := by
  induction pairs with
  | nil => rw [Selection.insertByKey, List.mem_singleton]; simp
  | cons head rest ih =>
    rw [Selection.insertByKey]
    split
    · rw [List.mem_cons, ih, List.mem_cons]
      exact or_left_comm
    · rw [List.mem_cons]

theorem mem_sortByKey {pairs : List (String × String)} {pair : String × String} :
    pair ∈ Selection.sortByKey pairs ↔ pair ∈ pairs := by
  induction pairs with
  | nil => exact Iff.rfl
  | cons head rest ih =>
    rw [List.mem_cons, ← ih]
    exact mem_insertByKey

namespace IsSource

variable {options : Options} {source : Context} {terms : List Formula}

theorem nameOf_root (h : IsSource options source terms) :
    source.nameOf Context.root = options.rootAlias := by
  rw [Context.nameOf, Context.root, h.numbered.root, h.root]

/-- The optional matches are the edges that the terms of a selection are anchored by. -/
theorem settled (h : IsSource options source terms) {selection : Selection}
    (hhops : selection.hops = Selection.hopsOf source) :
    Settled selection.Edge (Context.start options) source := by
  refine ⟨fun {parent k} hk hlink => ?_, fun {k c} hk hlt hedge => ?_⟩
  · have hmatched := h.hangs.matched k hk hlink.pattern?_ne_none
    obtain ⟨-, relation, label, hpattern⟩ := hlink
    refine ⟨⟨_, (source.attached? k).getD []⟩, ?_, relation, label, rfl⟩
    rw [hhops, Selection.hopsOf, List.mem_filterMap]
    refine ⟨k, h.numbered.mem_drop_matchedIds.mpr ⟨hk, hmatched⟩, ?_⟩
    rw [hpattern]
    rfl
  · obtain ⟨hop, hmem, relation, label, hhop⟩ := hedge
    rw [hhops] at hmem
    obtain ⟨i, hi⟩ := List.getElem?_of_mem hmem
    obtain ⟨j, -, parent, relation', label', hlt', hparent, hpattern, rfl⟩ :=
      forall₂_getElem? h.forall₂_hops hi
    obtain ⟨hname, -⟩ := Pattern.hop.inj hhop
    obtain rfl := h.numbered.nameOf_injective hparent.lt_length hlt hname
    exact ⟨j, hlt', relation', label', hpattern⟩

/-- The `i`-th optional match starts from an alias up to the `i`-th and introduces the one after
that. -/
theorem introduces (h : IsSource options source terms) {selection : Selection}
    (hhops : selection.hops = Selection.hopsOf source)
    (haliases : selection.aliases = source.matchedIds.map source.nameOf)
    {i : Nat} {hop : OptionalMatch} (hhop : selection.hops[i]? = some hop) :
    ∃ j parent child, j ≤ i ∧ selection.aliases[j]? = some parent ∧
      selection.aliases[i + 1]? = some child ∧ selection.Introduces hop parent child := by
  rw [hhops] at hhop
  obtain ⟨id, hid, parent, relation, label, hlt, hparent, -, rfl⟩ :=
    forall₂_getElem? h.forall₂_hops hhop
  obtain ⟨-, happart⟩ := h.anchored (h.settled hhops)
  obtain ⟨j, hj⟩ := List.getElem?_of_mem (Context.mem_matchedIds.mpr hparent)
  obtain ⟨hpos, -⟩ := h.numbered.mem_drop_matchedIds.mp (List.mem_of_getElem? hid)
  rw [List.getElem?_drop, Nat.add_comm] at hid
  have hle : j ≤ i := Nat.le_of_lt_succ (Context.lt_of_matchedIds_lt hid hj hlt)
  refine ⟨j, source.nameOf parent, source.nameOf id, hle, ?_, ?_, ?_⟩
  · rw [haliases, List.getElem?_map, hj]
    rfl
  · rw [haliases, List.getElem?_map, hid]
    rfl
  · have hstarts := OptionalMatch.text_hop (source.nameOf parent) (source.nameOf id) label relation
      ((source.attached? id).getD [])
    cases hattached : source.attached? id with
    | none =>
      rw [hattached] at hstarts
      exact ⟨⟨relation, label, rfl, hstarts⟩, fun hne => absurd rfl hne,
        fun t ht => absurd ht List.not_mem_nil⟩
    | some stored =>
      obtain ⟨-, hchildless, hanchored⟩ := happart id stored hpos hattached
      rw [hattached] at hstarts
      exact ⟨⟨relation, label, rfl, hstarts⟩, fun _ => hchildless, hanchored⟩

end IsSource

/-- Every alias of a selection is bound before it is used. -/
theorem ofCriteria_isBound {options : Options} {criteria : Json} {labels : List String}
    {order : Option SortOrder} {skip limit : Option Nat} {selection : Selection}
    (h : Selection.ofCriteria options criteria labels order skip limit = .ok selection) :
    selection.IsBound options := by
  obtain ⟨after, hroot, hterms, haliases, hhops, hbindings, -⟩ := ofCriteria_eq_ok h
  obtain ⟨source, hsource, hsameAliases, hsamePatterns, hsameBindings, hsameAttached⟩ :=
    rootTerms_isSource hroot
  rw [hopsOf_congr hsource.numbered hsameAliases hsamePatterns hsameAttached] at hhops
  rw [← hterms] at hsource
  rw [hsameBindings] at hbindings
  have hnames : selection.aliases = source.matchedNames := by
    rw [haliases, Context.matchedNames, Context.matchedNames, hsameAliases]
  have hids : selection.aliases = source.matchedIds.map source.nameOf := by
    rw [hnames, Context.matchedNames_eq]
  have hbound : ∀ binding ∈ selection.bindings, binding.2 ∈ selection.aliases := by
    intro binding hmem
    rw [hbindings, mem_sortByKey] at hmem
    rw [hnames]
    exact hsource.binds binding hmem
  have hhead : selection.aliases.head? = some options.rootAlias := by
    rw [hids, hsource.numbered.matchedIds_eq, List.map_cons, hsource.nameOf_root]
    rfl
  refine ⟨hhead, ?_, ?_, fun hhop => hsource.introduces hhops hids hhop,
    (hsource.anchored (hsource.settled hhops)).1, hbound, fun halone binding hmem => ?_⟩
  · rw [hnames]
    exact hsource.numbered.names_nodup.sublist (List.filter_sublist.map _)
  · rw [hhops, hids, ← hsource.forall₂_hops.length_eq, List.length_map,
      hsource.numbered.matchedIds_eq, List.length_cons, List.drop_one, List.tail_cons]
  · have hlen : ¬ 1 < selection.aliases.length := by simpa [Selection.hasRelated] using halone
    cases hlist : selection.aliases with
    | nil =>
      rw [hlist] at hhead
      cases hhead
    | cons first others =>
      rw [hlist] at hhead hlen
      obtain rfl : first = options.rootAlias := Option.some.inj hhead
      have hmem' := hbound binding hmem
      rw [hlist] at hmem'
      cases others with
      | nil => exact List.mem_singleton.mp hmem'
      | cons second others => exact absurd (by simp) hlen

end GraphSearch.Matching
