import GraphSearch.Proofs.Matching.Arena
/-!
# What aliases hang on

A matched alias is reached from another one by the relation it was opened for: it hangs on the
alias of the object around it.  The terms a filter comes out as respect this order.  A relation
is tested where its alias hangs, what an object asks for is asked of the object's own alias, and
the pattern of an existential starts from the alias of the object that contains it.

* `Context.Link`: an alias hangs on another, by the pattern of the former;
* `Context.Hangs`, `Walk.hangs`: every matched alias that a walk adds hangs on the alias the walk
  is at or on one it added before;
* `Anchored`: a formula speaks of the alias of the object it belongs to, and goes on to another
  alias only along an edge;
* `Walk.grows`: aliases are matched only below a term;
* `Walk.isAnchored`: the terms of a walk are anchored at its alias, and terms that were attached
  are anchored at theirs, on which nothing hangs.

Whether anything hangs on an alias is known only when everything is compiled, so `Walk.isAnchored`
speaks of edges that are fixed beforehand and agree with the patterns of the aliases that the
walk adds (`Settled`).
-/

namespace GraphSearch.Matching

open Criteria

/-! ## 1.  Links -/

namespace Context

/-- The alias is there, and is no scoped one. -/
def IsMatched (context : Context) (id : AliasId) : Prop :=
  ∃ name, context.aliases[id]? = some ⟨name, false⟩

/-- The alias `id` is matched by a pattern that starts from the records of `parent`. -/
def Link (context : Context) (parent id : AliasId) : Prop :=
  parent < id ∧ ∃ relation label,
    context.pattern? id = some (.hop (context.nameOf parent) relation (context.nameOf id) label)

/-- Relations may be followed from the alias: outside of negations, it has to be a matched one. -/
def Hosts (context : Context) (id : AliasId) : Prop :=
  id < context.aliases.length ∧ (context.inNegation = false → context.IsMatched id)

section

variable {before after : Context} {id parent : AliasId}

theorem IsMatched.lt_length (h : after.IsMatched id) : id < after.aliases.length := by
  obtain ⟨name, hname⟩ := h
  exact (List.getElem?_eq_some_iff.mp hname).1

theorem Extends.getElem?_aliases (h : before.Extends after) (hid : id < before.aliases.length) :
    after.aliases[id]? = before.aliases[id]? := by
  obtain ⟨more, hmore⟩ := h.aliases
  rw [← hmore, List.getElem?_append_left hid]

theorem Extends.isMatched_iff (h : before.Extends after) (hid : id < before.aliases.length) :
    after.IsMatched id ↔ before.IsMatched id := by
  rw [IsMatched, IsMatched, h.getElem?_aliases hid]

theorem Extends.isMatched (h : before.Extends after) (hid : before.IsMatched id) :
    after.IsMatched id :=
  (h.isMatched_iff hid.lt_length).mpr hid

theorem Extends.link_iff (h : before.Extends after) (hid : id < before.aliases.length) :
    after.Link parent id ↔ before.Link parent id := by
  refine and_congr_right fun hparent => ?_
  rw [h.pattern hid, h.nameOf hid, h.nameOf (Nat.lt_trans hparent hid)]

/-- Matched aliases and their patterns are all a link depends on. -/
theorem link_congr (haliases : after.aliases = before.aliases)
    (hpatterns : after.patterns = before.patterns) :
    after.Link parent id ↔ before.Link parent id := by
  have hname : ∀ i, after.nameOf i = before.nameOf i := fun i => nameOf_congr (by rw [haliases])
  rw [Link, Link, pattern?, pattern?, hpatterns, hname parent, hname id]

theorem isMatched_congr (haliases : after.aliases = before.aliases) :
    after.IsMatched id ↔ before.IsMatched id := by
  rw [IsMatched, IsMatched, haliases]

theorem Link.pattern?_ne_none (h : after.Link parent id) : after.pattern? id ≠ none := by
  obtain ⟨-, relation, label, hpattern⟩ := h
  rw [hpattern]
  exact Option.some_ne_none _

theorem Link.lt_length (h : after.Link parent id) (hfresh : after.IsFresh) :
    id < after.aliases.length := by
  by_contra hid
  exact h.pattern?_ne_none (hfresh.pattern (Nat.le_of_not_lt hid))

/-- An alias hangs on one alias only. -/
theorem Link.parent_eq {other : AliasId} (h : after.Link parent id) (h' : after.Link other id)
    (hfresh : after.IsFresh) (hnum : after.IsNumbered) : parent = other := by
  have hid := h.lt_length hfresh
  obtain ⟨hparent, _, _, hpattern⟩ := h
  obtain ⟨hother, _, _, hpattern'⟩ := h'
  rw [hpattern, Option.some.injEq, Pattern.hop.injEq] at hpattern'
  exact hnum.nameOf_injective (Nat.lt_trans hparent hid) (Nat.lt_trans hother hid) hpattern'.1

theorem Extends.hosts (h : before.Extends after) (hid : before.Hosts id) : after.Hosts id := by
  refine ⟨Nat.lt_of_lt_of_le hid.1 h.length_le, fun hneg => h.isMatched (hid.2 ?_)⟩
  rw [inNegation, ← h.negations]
  exact hneg

theorem Hosts.opened (h : after.Hosts id) (op : GroupOp) : (after.opened op).Hosts id := by
  cases op with
  | and | or | xor => exact h
  | not | nor =>
    have htrue : decide (0 < after.negations + 1) = true := decide_eq_true (Nat.succ_pos _)
    refine ⟨h.1, fun hneg => ?_⟩
    exact absurd (htrue.symm.trans hneg) (by decide)

/-- A matched alias more is a matched alias more to count. -/
theorem Extends.matchedCount_lt (h : before.Extends after) (hid : before.aliases.length ≤ id)
    (hmatched : after.IsMatched id) : before.matchedCount < after.matchedCount := by
  obtain ⟨more, hmore⟩ := h.aliases
  obtain ⟨name, hname⟩ := hmatched
  rw [← hmore, List.getElem?_append_right hid] at hname
  have hmem : (⟨name, false⟩ : Alias) ∈ more.filter fun a => !a.isScoped := by
    rw [List.mem_filter]
    exact ⟨List.mem_of_getElem? hname, rfl⟩
  have hpos := List.length_pos_of_mem hmem
  rw [before.matchedCount_eq, after.matchedCount_eq, ← hmore, List.filter_append,
    List.length_append]
  omega

end

/-! ## 2.  Aliases a walk adds -/

/-- Of the aliases added since `before`, the matched ones are those with a pattern, and hang on
`id` or on one that was added too. -/
structure Hangs (id : AliasId) (before after : Context) : Prop where
  parent : ∀ k, before.aliases.length ≤ k → after.IsMatched k →
    ∃ parent, (parent = id ∨ before.aliases.length ≤ parent) ∧ after.IsMatched parent ∧
      after.Link parent k
  matched : ∀ k, before.aliases.length ≤ k → after.pattern? k ≠ none → after.IsMatched k

theorem Hangs.refl (id : AliasId) {context : Context} (hfresh : context.IsFresh) :
    context.Hangs id context :=
  ⟨fun _ hk hmatched => absurd hmatched.lt_length (Nat.not_lt.mpr hk),
    fun _ hk hpattern => absurd (hfresh.pattern hk) hpattern⟩

/-- What is added later may hang on `id` too, or on an alias that was added. -/
theorem Hangs.trans {id later : AliasId} {before middle after : Context}
    (h : Hangs id before middle) (h' : Hangs later middle after)
    (hlater : later = id ∨ before.aliases.length ≤ later) (hext : before.Extends middle)
    (hext' : middle.Extends after) : Hangs id before after := by
  refine ⟨fun k hk hmatched => ?_, fun k hk hpattern => ?_⟩
  · by_cases hmiddle : k < middle.aliases.length
    · have hthere := (hext'.isMatched_iff hmiddle).mp hmatched
      obtain ⟨parent, hor, hparent, hlink⟩ := h.parent k hk hthere
      exact ⟨parent, hor, hext'.isMatched hparent, (hext'.link_iff hmiddle).mpr hlink⟩
    · obtain ⟨parent, hor, hparent, hlink⟩ := h'.parent k (Nat.le_of_not_lt hmiddle) hmatched
      refine ⟨parent, ?_, hparent, hlink⟩
      rcases hor with rfl | hle
      · exact hlater
      · exact Or.inr (Nat.le_trans hext.length_le hle)
  · by_cases hmiddle : k < middle.aliases.length
    · rw [hext'.pattern hmiddle] at hpattern
      exact hext'.isMatched (h.matched k hk hpattern)
    · exact h'.matched k (Nat.le_of_not_lt hmiddle) hpattern

/-- Only aliases and patterns matter. -/
theorem Hangs.congr {id : AliasId} {before before' after after' : Context}
    (h : Hangs id before after) (hbefore : before'.aliases = before.aliases)
    (haliases : after'.aliases = after.aliases) (hpatterns : after'.patterns = after.patterns) :
    Hangs id before' after' := by
  refine ⟨fun k hk hmatched => ?_, fun k hk hpattern => ?_⟩
  · rw [hbefore] at hk ⊢
    obtain ⟨parent, hor, hparent, hlink⟩ := h.parent k hk ((isMatched_congr haliases).mp hmatched)
    exact ⟨parent, hor, (isMatched_congr haliases).mpr hparent,
      (link_congr haliases hpatterns).mpr hlink⟩
  · rw [hbefore] at hk
    rw [pattern?, hpatterns] at hpattern
    exact (isMatched_congr haliases).mpr (h.matched k hk hpattern)

section

variable {context inside : Context} {id : AliasId}

/-- Opening a scoped alias adds no matched one. -/
theorem hangs_addScoped (hfresh : context.IsFresh) :
    context.Hangs id context.addScoped.2 := by
  have hscoped : ∀ k, context.aliases.length ≤ k → ¬ context.addScoped.2.IsMatched k := by
    rintro k hk ⟨name, hname⟩
    rw [aliases_addScoped, List.getElem?_append_right hk, List.getElem?_singleton] at hname
    split at hname <;> simp at hname
  exact ⟨fun k hk hmatched => absurd hmatched (hscoped k hk),
    fun k hk hpattern => absurd (hfresh.pattern hk) hpattern⟩

theorem isMatched_entered (context : Context) (label : String) (fields : List (String × Json))
    (parent : AliasId) :
    (context.entered label fields parent).IsMatched context.aliases.length := by
  refine ⟨context.options.rootAlias ++ toString context.matchedCount, ?_⟩
  rw [entered_aliases]
  exact List.getElem?_concat_length

/-- Inside a negation, the alias of a relation is a scoped one. -/
theorem hosts_addScoped (hneg : context.inNegation = true) :
    context.addScoped.2.Hosts context.aliases.length :=
  ⟨by simp, fun hneg' => absurd (hneg.symm.trans hneg') (by decide)⟩

theorem hosts_entered (context : Context) (label : String) (fields : List (String × Json))
    (parent : AliasId) :
    (context.entered label fields parent).Hosts context.aliases.length :=
  ⟨(context.isMatched_entered label fields parent).lt_length,
    fun _ => context.isMatched_entered label fields parent⟩

theorem link_entered (label : String) (fields : List (String × Json))
    (hid : id < context.aliases.length) :
    (context.entered label fields id).Link id context.aliases.length := by
  refine ⟨hid, relationOf fields, label, ?_⟩
  rw [pattern?, entered_patterns, Table.find?_insert_self]

/-- Opening a matched alias adds one that hangs on the alias it is opened from. -/
theorem hangs_entered (label : String) (fields : List (String × Json)) (hfresh : context.IsFresh)
    (hid : context.IsMatched id) : context.Hangs id (context.entered label fields id) := by
  have hlast : ∀ k, context.aliases.length ≤ k →
      k < (context.entered label fields id).aliases.length → k = context.aliases.length := by
    intro k hk hlt
    rw [entered_aliases, List.length_append, List.length_singleton] at hlt
    exact Nat.le_antisymm (Nat.le_of_lt_succ hlt) hk
  refine ⟨fun k hk hmatched => ?_, fun k hk hpattern => ?_⟩
  · obtain rfl := hlast k hk hmatched.lt_length
    exact ⟨id, Or.inl rfl, (context.extends_entered label fields id).isMatched hid,
      link_entered label fields hid.lt_length⟩
  · by_cases hlt : k < (context.entered label fields id).aliases.length
    · obtain rfl := hlast k hk hlt
      exact context.isMatched_entered label fields id
    · exact absurd ((hfresh.entered label fields id).pattern (Nat.le_of_not_lt hlt)) hpattern

end

end Context

theorem isWalkInvariant_hangs :
    IsWalkInvariant follow fun id context _ after =>
      context.IsFresh → context.Hosts id → context.Hangs id after where
  nil hfresh _ := .refl _ hfresh
  append hwalk hwalk' h h' hfresh hhosts := by
    obtain ⟨hmiddle, hext⟩ := hwalk.extends hfresh
    obtain ⟨-, hext'⟩ := hwalk'.extends hmiddle
    exact (h hfresh hhosts).trans (h' hmiddle (hext.hosts hhosts)) (Or.inl rfl) hext hext'
  leaf _ hfresh _ := .refl _ hfresh
  group {_ context _ _ inside} op _ h hfresh hhosts :=
    (h (hfresh.opened op) (hhosts.opened op)).congr (context.opened_aliases op).symm
      (inside.closed_aliases op) (inside.closed_patterns op)
  conjoin _ h := h
  related {id context label fields _ _} h hbody hfresh hhosts := by
    rcases follow_cases hfresh h with ⟨hneg, terms, hwalk, -⟩ |
      ⟨hneg, terms, inside, hwalk, -, hext, -, rfl⟩
    · have hinside := hbody hwalk hfresh.addScoped (Context.hosts_addScoped hneg)
      exact (context.hangs_addScoped hfresh).trans hinside (Or.inr (Nat.le_refl _))
        context.extends_addScoped (hwalk.extends hfresh.addScoped).2
    · have hinside := hbody hwalk (hfresh.entered label fields id)
        (context.hosts_entered label fields id)
      have hhang := (Context.hangs_entered label fields hfresh (hhosts.2 hneg)).trans hinside
        (Or.inr (Nat.le_refl _)) (context.extends_entered label fields id) hext
      exact hhang.congr rfl Context.left_aliases Context.left_patterns

/-- Every matched alias that a walk adds hangs on the alias the walk is at or on one that it
added before. -/
theorem Walk.hangs {part : Part} {id : AliasId} {context after : Context}
    {terms : List Formula} (h : Walk follow id context part terms after)
    (hfresh : context.IsFresh) (hhosts : context.Hosts id) : context.Hangs id after :=
  h.invariant isWalkInvariant_hangs hfresh hhosts

/-- A walk hangs nothing on the aliases that were there before, but for the one it is at. -/
theorem Walk.lt_of_link {part : Part} {id parent child : AliasId} {context after : Context}
    {terms : List Formula} (h : Walk follow id context part terms after)
    (hfresh : context.IsFresh) (hnum : after.IsNumbered) (hhosts : context.Hosts id)
    (hne : parent ≠ id) (hparent : parent < context.aliases.length)
    (hlink : after.Link parent child) : child < context.aliases.length := by
  by_contra hchild
  have hhangs := h.hangs hfresh hhosts
  have hmatched := hhangs.matched child (Nat.le_of_not_lt hchild) hlink.pattern?_ne_none
  obtain ⟨other, hother, -, hlink'⟩ := hhangs.parent child (Nat.le_of_not_lt hchild) hmatched
  obtain rfl := hlink'.parent_eq hlink (h.extends hfresh).1 hnum
  rcases hother with heq | hle
  · exact hne heq
  · exact Nat.not_lt.mpr hle hparent

/-! ## 3.  Aliases are matched below a term -/

theorem toList_groupTerm_ne_nil (op : GroupOp) {members : List Formula} (h : members ≠ []) :
    (groupTerm op members).toList ≠ [] := by
  cases members with
  | nil => exact absurd rfl h
  | cons first others =>
    cases others with
    | nil => cases op <;> simp [groupTerm, GroupOp.negates]
    | cons second others => cases op <;> simp [groupTerm, GroupOp.negates]

theorem toList_conjoin_ne_nil {terms : List Formula} (h : terms ≠ []) :
    (conjoin terms).toList ≠ [] := by
  cases terms with
  | nil => exact absurd rfl h
  | cons first others => cases others <;> simp [conjoin]

theorem isWalkInvariant_grows :
    IsWalkInvariant follow fun id context terms after =>
      context.IsFresh → context.Hosts id →
        (context.inNegation = true → after.matchedCount = context.matchedCount) ∧
        (context.matchedCount < after.matchedCount →
          terms ≠ [] ∧ ∃ k, context.aliases.length ≤ k ∧ after.Link id k) where
  nil _ _ := ⟨fun _ => rfl, fun h => absurd h (Nat.lt_irrefl _)⟩
  append {id context _ _ middle _ _ after} hwalk hwalk' h h' hfresh hhosts := by
    obtain ⟨hmiddle, hext⟩ := hwalk.extends hfresh
    obtain ⟨-, hext'⟩ := hwalk'.extends hmiddle
    obtain ⟨hneg, hgrow⟩ := h hfresh hhosts
    obtain ⟨hneg', hgrow'⟩ := h' hmiddle (hext.hosts hhosts)
    refine ⟨fun hin => ?_, fun hlt => ?_⟩
    · have hin' : middle.inNegation = true := by
        rw [Context.inNegation, hext.negations]
        exact hin
      rw [hneg' hin', hneg hin]
    · by_cases hcount : context.matchedCount < middle.matchedCount
      · obtain ⟨hne, k, hk, hlink⟩ := hgrow hcount
        have hklt := hlink.lt_length hmiddle
        exact ⟨by simp [hne], k, hk, (hext'.link_iff hklt).mpr hlink⟩
      · obtain ⟨hne, k, hk, hlink⟩ := hgrow' (by omega)
        exact ⟨by simp [hne], k, Nat.le_trans hext.length_le hk, hlink⟩
  leaf _ _ _ := ⟨fun _ => rfl, fun h => absurd h (Nat.lt_irrefl _)⟩
  group {id context _ _ inside} op _ h hfresh hhosts := by
    obtain ⟨hneg, hgrow⟩ := h (hfresh.opened op) (hhosts.opened op)
    have hopened : (context.opened op).matchedCount = context.matchedCount := by
      rw [Context.opened_eq]
    have hclosed : (inside.closed op).matchedCount = inside.matchedCount := by
      rw [Context.closed_eq]
    rw [hopened] at hneg hgrow
    rw [hclosed]
    refine ⟨fun hin => hneg ?_, fun hlt => ?_⟩
    · cases op with
      | and | or | xor => exact hin
      | not | nor => exact decide_eq_true (Nat.succ_pos _)
    · obtain ⟨hne, k, hk, hlink⟩ := hgrow hlt
      refine ⟨toList_groupTerm_ne_nil op hne, k, ?_, ?_⟩
      · rw [Context.opened_eq] at hk
        exact hk
      · rw [Context.closed_eq]
        exact hlink
  conjoin _ h hfresh hhosts := by
    obtain ⟨hneg, hgrow⟩ := h hfresh hhosts
    refine ⟨hneg, fun hlt => ?_⟩
    obtain ⟨hne, hlink⟩ := hgrow hlt
    exact ⟨toList_conjoin_ne_nil hne, hlink⟩
  related {id context label fields _ _} h hbody hfresh hhosts := by
    rcases follow_cases hfresh h with ⟨hneg, terms, hwalk, -⟩ |
      ⟨hneg, terms, inside, hwalk, -, hext, -, rfl⟩
    · obtain ⟨hstays, -⟩ := hbody hwalk hfresh.addScoped (Context.hosts_addScoped hneg)
      have hcount := hstays hneg
      rw [Context.matchedCount_addScoped] at hcount
      exact ⟨fun _ => hcount, fun hlt => absurd hlt (by rw [hcount]; exact Nat.lt_irrefl _)⟩
    · refine ⟨fun hneg' => absurd (hneg.symm.trans hneg') (by decide), fun _ => ?_⟩
      refine ⟨List.cons_ne_nil _ _, context.aliases.length, Nat.le_refl _, ?_⟩
      rw [Context.link_congr Context.left_aliases Context.left_patterns,
        hext.link_iff (context.isMatched_entered label fields id).lt_length]
      exact Context.link_entered label fields hhosts.1

/-- Inside a negation a walk matches no alias. -/
theorem Walk.matchedCount_eq {part : Part} {id : AliasId} {context after : Context}
    {terms : List Formula} (h : Walk follow id context part terms after)
    (hfresh : context.IsFresh) (hhosts : context.Hosts id) (hneg : context.inNegation = true) :
    after.matchedCount = context.matchedCount :=
  (h.invariant isWalkInvariant_grows hfresh hhosts).1 hneg

/-- When a walk matches aliases it yields a term, and some alias hangs on the one it is at. -/
theorem Walk.grows {part : Part} {id : AliasId} {context after : Context}
    {terms : List Formula} (h : Walk follow id context part terms after)
    (hfresh : context.IsFresh) (hhosts : context.Hosts id)
    (hlt : context.matchedCount < after.matchedCount) :
    terms ≠ [] ∧ ∃ k, context.aliases.length ≤ k ∧ after.Link id k :=
  (h.invariant isWalkInvariant_grows hfresh hhosts).2 hlt

/-! ## 4.  Anchored formulas -/

/-- The formula belongs to an object with the alias `node`.  It speaks of the records of that
alias; it tests relations along an edge from there; and where it goes on to the terms of another
object, be it after the test of a relation on whose alias others hang or in an existential, these
belong to the alias of that object. -/
inductive Anchored (edge : String → String → Prop) : String → Formula → Prop
  | predicate {node text} : Anchored edge node (.atom (.predicate node text))
  | present {node child} : edge node child → (∀ c, ¬ edge child c) →
    Anchored edge node (.atom (.present child))
  | object {node child c term terms} : edge node child → edge child c →
    (∀ t ∈ term :: terms, Anchored edge child t) →
    Anchored edge node (.group .and (.atom (.present child)) (term :: terms))
  | group {node connective first others} : (∀ t ∈ first :: others, Anchored edge node t) →
    Anchored edge node (.group connective first others)
  | negation {node connective first others} : (∀ t ∈ first :: others, Anchored edge node t) →
    Anchored edge node (.negation connective first others)
  | existential {node relation child label terms} : (∀ t ∈ terms, Anchored edge child t) →
    Anchored edge node (.existential (.hop node relation child label) terms)

section

variable {edge : String → String → Prop} {node : String}

theorem anchored_groupTerm (op : GroupOp) {members : List Formula}
    (h : ∀ t ∈ members, Anchored edge node t) :
    ∀ t ∈ (groupTerm op members).toList, Anchored edge node t := by
  cases members with
  | nil => cases op <;> exact h
  | cons first others =>
    have hnegation : Anchored edge node (.negation (connectiveOf op) first others) := .negation h
    have hgroup : Anchored edge node (.group (connectiveOf op) first others) := .group h
    intro t ht
    cases others with
    | nil =>
      cases op with
      | and =>
        obtain rfl : t = first := by simpa [groupTerm] using ht
        exact h _ List.mem_cons_self
      | or | xor =>
        obtain rfl := List.mem_singleton.mp ht
        exact hgroup
      | not | nor =>
        obtain rfl := List.mem_singleton.mp ht
        exact hnegation
    | cons second others =>
      cases op with
      | and | or | xor =>
        obtain rfl := List.mem_singleton.mp ht
        exact hgroup
      | not | nor =>
        obtain rfl := List.mem_singleton.mp ht
        exact hnegation

theorem anchored_conjoin {terms : List Formula} (h : ∀ t ∈ terms, Anchored edge node t) :
    ∀ t ∈ (conjoin terms).toList, Anchored edge node t := by
  cases terms with
  | nil => exact h
  | cons first others =>
    intro t ht
    cases others with
    | nil =>
      obtain rfl := List.mem_singleton.mp ht
      exact h _ List.mem_cons_self
    | cons second others =>
      obtain rfl := List.mem_singleton.mp ht
      exact .group h

theorem anchored_predicateTerms (predicates : List String) :
    ∀ t ∈ predicateTerms node predicates, Anchored edge node t := by
  intro t ht
  obtain ⟨predicate, -, rfl⟩ := List.mem_map.mp ht
  exact .predicate

end

/-! ## 5.  Walks are anchored -/

/-- The edges agree with the patterns of the aliases added since `before`: an edge leads to each
of them from the alias it hangs on, and none from one of them on which nothing hangs. -/
structure Settled (edge : String → String → Prop) (before after : Context) : Prop where
  up : ∀ {parent k}, before.aliases.length ≤ k → after.Link parent k →
    edge (after.nameOf parent) (after.nameOf k)
  down : ∀ {k c}, before.aliases.length ≤ k → k < after.aliases.length →
    edge (after.nameOf k) c → ∃ j, after.Link k j

section

variable {edge : String → String → Prop} {before middle after : Context}

theorem Settled.since (h : Settled edge before after)
    (hle : before.aliases.length ≤ middle.aliases.length) : Settled edge middle after :=
  ⟨fun hk => h.up (Nat.le_trans hle hk), fun hk => h.down (Nat.le_trans hle hk)⟩

theorem Settled.congr {before' after' : Context} (h : Settled edge before after)
    (hbefore : before'.aliases = before.aliases) (haliases : after'.aliases = after.aliases)
    (hpatterns : after'.patterns = after.patterns) : Settled edge before' after' := by
  have hname : ∀ i, after'.nameOf i = after.nameOf i :=
    fun i => Context.nameOf_congr (by rw [haliases])
  refine ⟨fun {parent k} hk hlink => ?_, fun {k c} hk hlt hedge => ?_⟩
  · rw [hname, hname]
    rw [hbefore] at hk
    exact h.up hk ((Context.link_congr haliases hpatterns).mp hlink)
  · rw [hname] at hedge
    rw [hbefore] at hk
    rw [haliases] at hlt
    obtain ⟨j, hlink⟩ := h.down hk hlt hedge
    exact ⟨j, (Context.link_congr haliases hpatterns).mpr hlink⟩

/-- What is added after `middle` hangs on none of the aliases added before it. -/
theorem Settled.until {id : AliasId} (h : Settled edge before after)
    (hid : id < before.aliases.length) (hmiddle : middle.IsFresh) (hafter : after.IsFresh)
    (hnum : after.IsNumbered) (hext : middle.Extends after) (hhangs : middle.Hangs id after) :
    Settled edge before middle := by
  refine ⟨fun {parent k} hk hlink => ?_, fun {k c} hk hlt hedge => ?_⟩
  · have hlt := hlink.lt_length hmiddle
    rw [← hext.nameOf hlt, ← hext.nameOf (Nat.lt_trans hlink.1 hlt)]
    exact h.up hk ((hext.link_iff hlt).mpr hlink)
  · rw [← hext.nameOf hlt] at hedge
    obtain ⟨j, hlink⟩ := h.down hk (Nat.lt_of_lt_of_le hlt hext.length_le) hedge
    by_cases hj : j < middle.aliases.length
    · exact ⟨j, (hext.link_iff hj).mp hlink⟩
    · have hmatched := hhangs.matched j (Nat.le_of_not_lt hj) hlink.pattern?_ne_none
      obtain ⟨parent, hor, -, hlink'⟩ := hhangs.parent j (Nat.le_of_not_lt hj) hmatched
      obtain rfl := hlink'.parent_eq hlink hafter hnum
      rcases hor with rfl | hle
      · exact absurd hk (Nat.not_le.mpr hid)
      · exact absurd hlt (Nat.not_lt.mpr hle)

end

/-- Terms that were attached to aliases added since `before` belong to these, on which nothing
hangs. -/
def AttachedApart (edge : String → String → Prop) (before after : Context) : Prop :=
  ∀ k terms, before.aliases.length ≤ k → after.attached? k = some terms →
    terms ≠ [] ∧ (∀ c, ¬ edge (after.nameOf k) c) ∧
      ∀ t ∈ terms, Anchored edge (after.nameOf k) t

section

variable {edge : String → String → Prop} {before middle after : Context}

theorem AttachedApart.of_attached_eq (hfresh : before.IsFresh)
    (h : after.attached = before.attached) : AttachedApart edge before after := by
  intro k terms hk hattached
  have hnone := hfresh.attached hk
  rw [Context.attached?, ← h] at hnone
  rw [Context.attached?, hnone] at hattached
  cases hattached

theorem AttachedApart.trans (h : AttachedApart edge before middle)
    (h' : AttachedApart edge middle after) (hext : middle.Extends after) :
    AttachedApart edge before after := by
  intro k terms hk hattached
  by_cases hlt : k < middle.aliases.length
  · rw [hext.attached hlt] at hattached
    rw [hext.nameOf hlt]
    exact h k terms hk hattached
  · exact h' k terms (Nat.le_of_not_lt hlt) hattached

/-- Leaving a matched alias attaches its terms to it only when nothing hangs on it. -/
theorem AttachedApart.left {id : AliasId} {count : Nat} {terms : List Formula}
    (h : AttachedApart edge before after) (hnone : after.attached? id = none)
    (hleaf : ¬ count < after.matchedCount → ∀ c, ¬ edge (after.nameOf id) c)
    (hterms : ∀ t ∈ terms, Anchored edge (after.nameOf id) t) :
    AttachedApart edge before (after.left id count terms) := by
  intro k stored hk hstored
  rw [Context.left_nameOf]
  by_cases hself : k = id
  · subst hself
    rw [Context.left_attached?_self hnone] at hstored
    split at hstored
    · cases hstored
    · rename_i hkept
      obtain rfl := Option.some.inj hstored
      exact ⟨fun hnil => hkept (Or.inr hnil), hleaf fun hlt => hkept (Or.inl hlt), hterms⟩
  · rw [Context.left_attached?_of_ne hself] at hstored
    exact h k stored hk hstored

end

/-- The term of a matched relation, and what is attached to its alias, when the terms of its
fields are anchored. -/
theorem anchored_presence {edge : String → String → Prop} {id : AliasId} {context inside : Context}
    {label : String} {fields : List (String × Json)} {terms : List Formula}
    (hfresh : context.IsFresh) (hhosts : context.Hosts id)
    (hwalk : Walk follow context.aliases.length (context.entered label fields id)
      (.object fields) terms inside)
    (hext : (context.entered label fields id).Extends inside)
    (hsettled : Settled edge context inside)
    (hterms : ∀ t ∈ terms, Anchored edge (inside.nameOf context.aliases.length) t) :
    Anchored edge (context.nameOf id)
        (presence (inside.nameOf context.aliases.length)
          (carriedTerms (context.entered label fields id).matchedCount terms inside)) ∧
      (¬ (context.entered label fields id).matchedCount < inside.matchedCount →
        ∀ c, ¬ edge (inside.nameOf context.aliases.length) c) := by
  have hentered := context.isMatched_entered label fields id
  have hhosts' := context.hosts_entered label fields id
  have hlink : inside.Link id context.aliases.length :=
    (hext.link_iff hentered.lt_length).mpr (Context.link_entered label fields hhosts.1)
  have hedge := hsettled.up (Nat.le_refl _) hlink
  have hname : inside.nameOf id = context.nameOf id :=
    ((context.extends_entered label fields id).trans hext).nameOf hhosts.1
  rw [hname] at hedge
  -- an alias that hangs here was added inside, and counts
  have hleaf : ¬ (context.entered label fields id).matchedCount < inside.matchedCount →
      ∀ c, ¬ edge (inside.nameOf context.aliases.length) c := by
    intro hcount c hc
    obtain ⟨j, hj⟩ := hsettled.down (Nat.le_refl _)
      (Nat.lt_of_lt_of_le hentered.lt_length hext.length_le) hc
    have hle : (context.entered label fields id).aliases.length ≤ j := by
      rw [Context.entered_aliases, List.length_append, List.length_singleton]
      exact hj.1
    have hmatched := (hwalk.hangs (hfresh.entered label fields id) hhosts').matched j hle
      hj.pattern?_ne_none
    exact hcount (hext.matchedCount_lt hle hmatched)
  refine ⟨?_, hleaf⟩
  by_cases hcount : (context.entered label fields id).matchedCount < inside.matchedCount
  · obtain ⟨hne, j, hj, hlink'⟩ := hwalk.grows (hfresh.entered label fields id) hhosts' hcount
    rw [carriedTerms, if_pos hcount]
    cases terms with
    | nil => exact absurd rfl hne
    | cons term terms =>
      have hbelow : context.aliases.length ≤ j := by
        rw [Context.entered_aliases, List.length_append] at hj
        omega
      exact .object hedge (hsettled.up hbelow hlink') hterms
  · rw [carriedTerms, if_neg hcount]
    exact .present hedge (hleaf hcount)

theorem isWalkInvariant_isAnchored {edge : String → String → Prop} :
    IsWalkInvariant follow fun id context terms after =>
      context.IsFresh → context.IsNumbered → context.Hosts id → Settled edge context after →
        (∀ t ∈ terms, Anchored edge (context.nameOf id) t) ∧ AttachedApart edge context after where
  nil hfresh _ _ _ := ⟨fun _ ht => absurd ht List.not_mem_nil, .of_attached_eq hfresh rfl⟩
  append {id context _ _ middle _ _ after} hwalk hwalk' h h' hfresh hnum hhosts hsettled := by
    obtain ⟨hmiddle, hext⟩ := hwalk.extends hfresh
    obtain ⟨hafter, hext'⟩ := hwalk'.extends hmiddle
    have hnum' := hwalk.isNumbered hfresh hnum
    have hhosts' := hext.hosts hhosts
    obtain ⟨hterms, hattached⟩ := h hfresh hnum hhosts (hsettled.until hhosts.1 hmiddle hafter
      (hwalk'.isNumbered hmiddle hnum') hext' (hwalk'.hangs hmiddle hhosts'))
    obtain ⟨hterms', hattached'⟩ := h' hmiddle hnum' hhosts' (hsettled.since hext.length_le)
    rw [hext.nameOf hhosts.1] at hterms'
    refine ⟨fun t ht => ?_, hattached.trans hattached' hext'⟩
    rcases List.mem_append.mp ht with ht | ht
    · exact hterms t ht
    · exact hterms' t ht
  leaf predicates hfresh _ _ _ := ⟨anchored_predicateTerms predicates, .of_attached_eq hfresh rfl⟩
  group {id context _ _ inside} op _ h hfresh hnum hhosts hsettled := by
    obtain ⟨hterms, hattached⟩ := h (hfresh.opened op) (hnum.opened op) (hhosts.opened op)
      (hsettled.congr (context.opened_aliases op) (inside.closed_aliases op).symm
        (inside.closed_patterns op).symm)
    have hname : (context.opened op).nameOf id = context.nameOf id :=
      Context.nameOf_congr (by rw [context.opened_aliases])
    rw [hname] at hterms
    refine ⟨anchored_groupTerm op hterms, ?_⟩
    rw [Context.opened_eq] at hattached
    rw [Context.closed_eq]
    exact hattached
  conjoin _ h hfresh hnum hhosts hsettled := by
    obtain ⟨hterms, hattached⟩ := h hfresh hnum hhosts hsettled
    exact ⟨anchored_conjoin hterms, hattached⟩
  related {id context label fields _ after} h hbody hfresh hnum hhosts hsettled := by
    rcases follow_cases hfresh h with ⟨hneg, terms, hwalk, rfl⟩ |
      ⟨hneg, terms, inside, hwalk, -, hext, rfl, rfl⟩
    · have hlen : context.addScoped.2.aliases.length = context.aliases.length + 1 := by simp
      obtain ⟨hterms, hattached⟩ := hbody hwalk hfresh.addScoped hnum.addScoped
        (Context.hosts_addScoped hneg) (hsettled.since (by omega))
      have hapart : AttachedApart edge context context.addScoped.2 := .of_attached_eq hfresh rfl
      refine ⟨fun t ht => ?_, hapart.trans hattached (hwalk.extends hfresh.addScoped).2⟩
      obtain rfl := List.mem_singleton.mp ht
      rw [context.extends_addScoped.nameOf hhosts.1]
      exact .existential hterms
    · have hentered := context.isMatched_entered label fields id
      have hsettled' : Settled edge context inside := hsettled.congr rfl Context.left_aliases.symm
        Context.left_patterns.symm
      have hlen : (context.entered label fields id).aliases.length
          = context.aliases.length + 1 := by simp
      obtain ⟨hterms, hattached⟩ := hbody hwalk (hfresh.entered label fields id)
        (hnum.entered label fields id) (context.hosts_entered label fields id)
        (hsettled'.since (by omega))
      rw [← hext.nameOf hentered.lt_length] at hterms ⊢
      obtain ⟨hterm, hleaf⟩ := anchored_presence hfresh hhosts hwalk hext hsettled' hterms
      have hapart : AttachedApart edge context (context.entered label fields id) :=
        .of_attached_eq hfresh Context.entered_attached
      have hnone : inside.attached? context.aliases.length = none := by
        rw [hext.attached hentered.lt_length, Context.attached?, Context.entered_attached]
        exact hfresh.attached (Nat.le_refl _)
      refine ⟨fun t ht => ?_, (hapart.trans hattached hext).left hnone hleaf hterms⟩
      obtain rfl := List.mem_singleton.mp ht
      exact hterm

/-- The terms of a walk are anchored at its alias, and terms it attached are anchored at theirs. -/
theorem Walk.isAnchored {edge : String → String → Prop} {part : Part} {id : AliasId}
    {context after : Context} {terms : List Formula}
    (h : Walk follow id context part terms after) (hfresh : context.IsFresh)
    (hnum : context.IsNumbered) (hhosts : context.Hosts id)
    (hsettled : Settled edge context after) :
    (∀ t ∈ terms, Anchored edge (context.nameOf id) t) ∧ AttachedApart edge context after :=
  h.invariant isWalkInvariant_isAnchored hfresh hnum hhosts hsettled

end GraphSearch.Matching
