import Mathlib.Logic.Relation
import GraphSearch.Proofs.Matching.Endings
import GraphSearch.Proofs.Matching.Links
import GraphSearch.Proofs.Matching.Polarity
/-!
# Relations are tested in monotone position

The filter of a selection is evaluated once for each row of the optional matches.  That some row
passes is to mean that some related record satisfies what is asked of it, and this takes more than
a test in each row: a row that meets a relation's test must not fail for that.  So the test of a
matched relation stands in conjunctions and disjunctions, and never in a negation; what may be
negated is what its own fields ask, inside of the test.

* `Walk.tests_about`: the tests of a walk are about its alias and those it adds;
* `IsTested`: the tests about an alias and those below it stand inside of the test of its
  relation, and this stands in conjunctions and disjunctions, unless it is in an exclusive group;
* `Walk.testsAdded`: so it is with every matched alias that a walk adds;
* `rootTerms_isRaised`: whatever becomes of the tests about a related record and those below it,
  the filter fails for it only if the test of the relation does.
-/

namespace GraphSearch.Matching

open Criteria

/-! ## 1.  Members of groups -/

/-- The tests of a group are those of its members. -/
theorem mem_tests_groupTerm {op : GroupOp} {members : List Formula} {t test : Formula}
    (ht : t ∈ (groupTerm op members).toList) (htest : test ∈ t.tests) :
    ∃ member ∈ members, test ∈ member.tests := by
  rcases toList_groupTerm op members with heq | ⟨first, others, rfl, heq⟩
  · rw [heq] at ht
    exact ⟨t, ht, htest⟩
  · rw [heq] at ht
    obtain rfl := List.mem_singleton.mp ht
    split at htest
    · exact Formula.mem_tests_negation.mp htest
    · exact Formula.mem_tests_group.mp htest

theorem mem_tests_presence {child : String} {terms : List Formula} {test : Formula} :
    test ∈ (presence child terms).tests ↔
      test = .atom (.present child) ∨ ∃ t ∈ terms, test ∈ t.tests := by
  cases terms with
  | nil => simp [presence, Formula.tests]
  | cons first others =>
    rw [presence, Formula.mem_tests_group]
    simp [Formula.tests]

/-! ## 2.  What tests are about -/

/-- The test is about one of the aliases from `first` up to `stop`. -/
def AboutBetween (context : Context) (first stop : AliasId) (test : Formula) : Prop :=
  ∃ b, first ≤ b ∧ b < stop ∧ test.node? = some (context.nameOf b)

/-- The test is about the alias `id` or about one added since `before`. -/
def AboutAdded (id : AliasId) (before after : Context) (test : Formula) : Prop :=
  test.node? = some (before.nameOf id) ∨
    AboutBetween after before.aliases.length after.aliases.length test

theorem AboutBetween.extend {before after : Context} {first stop : AliasId} {test : Formula}
    (h : AboutBetween before first stop test) (hext : before.Extends after)
    (hstop : stop ≤ before.aliases.length) : AboutBetween after first stop test := by
  obtain ⟨b, hfirst, hlt, hnode⟩ := h
  refine ⟨b, hfirst, hlt, ?_⟩
  rw [hext.nameOf (Nat.lt_of_lt_of_le hlt hstop)]
  exact hnode

theorem AboutBetween.congr {context other : Context} {first stop : AliasId} {test : Formula}
    (h : AboutBetween context first stop test) (haliases : other.aliases = context.aliases) :
    AboutBetween other first stop test := by
  obtain ⟨b, hfirst, hlt, hnode⟩ := h
  exact ⟨b, hfirst, hlt, hnode.trans (congrArg some (Context.nameOf_congr (by rw [haliases])).symm)⟩

theorem isWalkInvariant_tests_about :
    IsWalkInvariant follow fun id context terms after =>
      context.IsFresh → id < context.aliases.length →
        ∀ t ∈ terms, ∀ test ∈ t.tests, AboutAdded id context after test where
  nil _ _ _ ht := absurd ht List.not_mem_nil
  append {id context _ _ middle _ _ after} hwalk hwalk' h h' hfresh hid t ht test htest := by
    obtain ⟨hmiddle, hext⟩ := hwalk.extends hfresh
    obtain ⟨-, hext'⟩ := hwalk'.extends hmiddle
    rcases List.mem_append.mp ht with ht | ht
    · refine (h hfresh hid t ht test htest).imp_right fun habout => ?_
      obtain ⟨b, hfirst, hlt, hnode⟩ := habout.extend hext' (Nat.le_refl _)
      exact ⟨b, hfirst, Nat.lt_of_lt_of_le hlt hext'.length_le, hnode⟩
    · rcases h' hmiddle (Nat.lt_of_lt_of_le hid hext.length_le) t ht test htest with
        hnode | ⟨b, hfirst, hlt, hnode⟩
      · rw [hext.nameOf hid] at hnode
        exact Or.inl hnode
      · exact Or.inr ⟨b, Nat.le_trans hext.length_le hfirst, hlt, hnode⟩
  leaf predicates _ _ t ht test htest := by
    obtain ⟨predicate, -, rfl⟩ := List.mem_map.mp ht
    obtain rfl := List.mem_singleton.mp htest
    exact Or.inl rfl
  group {id context _ members inside} op _ h hfresh hid t ht test htest := by
    obtain ⟨member, hmember, htest'⟩ := mem_tests_groupTerm ht htest
    have hid' : id < (context.opened op).aliases.length := by
      rw [context.opened_aliases]
      exact hid
    have habout := h (hfresh.opened op) hid' member hmember test htest'
    rw [Context.opened_eq] at habout
    rw [Context.closed_eq]
    exact habout
  conjoin _ h hfresh hid t ht test htest := by
    rw [conjoin_eq_groupTerm] at ht
    obtain ⟨member, hmember, htest'⟩ := mem_tests_groupTerm ht htest
    exact h hfresh hid member hmember test htest'
  related {id context label fields term after} h hbody hfresh hid t ht test htest := by
    obtain rfl := List.mem_singleton.mp ht
    rcases follow_cases hfresh h with ⟨-, terms, hwalk, rfl⟩ |
      ⟨-, terms, inside, hwalk, -, hext, rfl, rfl⟩
    · obtain rfl := List.mem_singleton.mp htest
      rw [AboutAdded, ← context.extends_addScoped.nameOf hid]
      exact Or.inl rfl
    · have hentered := context.isMatched_entered label fields id
      have hlen : (context.entered label fields id).aliases.length
          = context.aliases.length + 1 := by simp
      have hlt : context.aliases.length < inside.aliases.length :=
        Nat.lt_of_lt_of_le hentered.lt_length hext.length_le
      refine Or.inr (AboutBetween.congr ?_ Context.left_aliases)
      rw [Context.left_aliases]
      rw [← hext.nameOf hentered.lt_length] at htest
      rcases mem_tests_presence.mp htest with rfl | ⟨t, ht, htest⟩
      · exact ⟨_, Nat.le_refl _, hlt, rfl⟩
      · rcases hbody hwalk (hfresh.entered label fields id) hentered.lt_length t
          (mem_of_mem_carriedTerms ht) test htest with hnode | ⟨b, hfirst, hb, hnode⟩
        · rw [← hext.nameOf hentered.lt_length] at hnode
          exact ⟨_, Nat.le_refl _, hlt, hnode⟩
        · rw [hlen] at hfirst
          exact ⟨b, Nat.le_of_succ_le hfirst, hb, hnode⟩

/-- The tests of a walk are about the alias it is at and about those it adds. -/
theorem Walk.tests_about {part : Part} {id : AliasId} {context after : Context}
    {terms : List Formula} (h : Walk follow id context part terms after)
    (hfresh : context.IsFresh) (hid : id < context.aliases.length) :
    ∀ t ∈ terms, ∀ test ∈ t.tests, AboutAdded id context after test :=
  h.invariant isWalkInvariant_tests_about hfresh hid

/-! ## 3.  The test of a relation -/

/-- The test that the records of a matched alias were found, as it is written of the alias. -/
def Context.presenceOf (context : Context) (id : AliasId) : Formula :=
  .atom (.present (context.nameOf id))

/-- The relation of the alias `id` is tested in monotone position: the aliases below it come
before `stop`, all tests about these and about itself stand inside the test of the relation, and
this stands in conjunctions and disjunctions.  Nothing is said of a relation whose presence is
tested in an exclusive group. -/
structure IsTested (context : Context) (terms : List Formula) (id stop : AliasId)
    (others : List Formula) : Prop where
  lt : id < stop
  le : stop ≤ context.aliases.length
  closed : ∀ {b c}, id ≤ b → b < stop → context.Link b c → c < stop
  tested : (∀ t ∈ terms, context.presenceOf id ∉ t.chained false) →
    (∀ t ∈ terms, Sheltered (presence (context.nameOf id) others)
      (AboutBetween context id stop) t) ∧
    ∃ t ∈ terms, Stands (presence (context.nameOf id) others) t

namespace IsTested

variable {context middle after : Context} {terms first second : List Formula}
  {id stop : AliasId} {others : List Formula}

theorem congr {other : Context} (h : IsTested context terms id stop others)
    (haliases : other.aliases = context.aliases) (hpatterns : other.patterns = context.patterns) :
    IsTested other terms id stop others := by
  have hname : ∀ i, other.nameOf i = context.nameOf i :=
    fun i => Context.nameOf_congr (by rw [haliases])
  refine ⟨h.lt, ?_, fun hb hlt hlink => ?_, fun hchained => ?_⟩
  · rw [haliases]
    exact h.le
  · exact h.closed hb hlt ((Context.link_congr haliases hpatterns).mp hlink)
  · rw [Context.presenceOf, hname] at hchained
    obtain ⟨hsheltered, hstands⟩ := h.tested hchained
    rw [hname]
    exact ⟨fun t ht => (hsheltered t ht).imp fun test habout => habout.congr haliases.symm,
      hstands⟩

/-- The presence of a tested alias is among the tests. -/
theorem exists_mem_tests (h : IsTested context terms id stop others) :
    ∃ t ∈ terms, context.presenceOf id ∈ t.tests := by
  by_cases hchained : ∀ t ∈ terms, context.presenceOf id ∉ t.chained false
  · obtain ⟨-, t, ht, hstands⟩ := h.tested hchained
    exact ⟨t, ht, hstands.tests_subset (mem_tests_presence.mpr (Or.inl rfl))⟩
  · simp only [not_forall, not_not] at hchained
    obtain ⟨t, ht, hmem⟩ := hchained
    exact ⟨t, ht, Formula.chained_subset_tests hmem⟩

/-- A group that negates nothing keeps the test of a relation in monotone position, unless it is
an exclusive one. -/
theorem group {op : GroupOp} (h : IsTested context terms id stop others)
    (hop : op.negates = false) :
    IsTested context (groupTerm op terms).toList id stop others := by
  refine ⟨h.lt, h.le, h.closed, ?_⟩
  rcases toList_groupTerm op terms with heq | ⟨first, others', rfl, heq⟩
  · rw [heq]
    exact h.tested
  · rw [heq, if_neg (by rw [hop]; exact Bool.false_ne_true)]
    intro hchained
    have hfree := hchained _ (List.mem_singleton_self _)
    by_cases hxor : connectiveOf op = .xor
    · rw [hxor, Formula.chained_xor, Formula.mem_tests_group] at hfree
      exact absurd h.exists_mem_tests hfree
    · have hmembers : ∀ member ∈ first :: others',
          context.presenceOf id ∉ member.chained false := fun member hmember hmem =>
        hfree ((Formula.mem_chained_group hxor).mpr ⟨member, hmember, hmem⟩)
      obtain ⟨hsheltered, t, ht, hstands⟩ := h.tested hmembers
      refine ⟨fun t ht => ?_, _, List.mem_singleton_self _, .member hxor ht hstands⟩
      obtain rfl := List.mem_singleton.mp ht
      exact .members hxor hsheltered

/-- What comes before the alias is opened is not about it. -/
theorem after_others (h : IsTested context second id stop others)
    (hfirst : ∀ t ∈ first, ∀ test ∈ t.tests, ¬ AboutBetween context id stop test) :
    IsTested context (first ++ second) id stop others := by
  refine ⟨h.lt, h.le, h.closed, fun hchained => ?_⟩
  obtain ⟨hsheltered, t, ht, hstands⟩ :=
    h.tested fun t ht => hchained t (List.mem_append_right first ht)
  refine ⟨fun t ht => ?_, t, List.mem_append_right first ht, hstands⟩
  rcases List.mem_append.mp ht with ht | ht
  · exact .apart (hfirst t ht)
  · exact hsheltered t ht

/-- What comes after the relation is compiled is not about its alias or one below it. -/
theorem before_others (h : IsTested context first id stop others) (hext : context.Extends after)
    (hclosed : ∀ {b c}, id ≤ b → b < stop → after.Link b c → c < context.aliases.length)
    (hsecond : ∀ t ∈ second, ∀ test ∈ t.tests, ¬ AboutBetween after id stop test) :
    IsTested after (first ++ second) id stop others := by
  have hid : id < context.aliases.length := Nat.lt_of_lt_of_le h.lt h.le
  have hname := hext.nameOf hid
  refine ⟨h.lt, Nat.le_trans h.le hext.length_le, fun hb hlt hlink => ?_, fun hchained => ?_⟩
  · exact h.closed hb hlt ((hext.link_iff (hclosed hb hlt hlink)).mp hlink)
  · rw [Context.presenceOf, hname] at hchained
    obtain ⟨hsheltered, t, ht, hstands⟩ :=
      h.tested fun t ht => hchained t (List.mem_append_left second ht)
    rw [hname]
    refine ⟨fun t ht => ?_, t, List.mem_append_left second ht, hstands⟩
    rcases List.mem_append.mp ht with ht | ht
    · refine (hsheltered t ht).imp fun test => ?_
      rintro ⟨b, hfirst, hlt, hnode⟩
      rw [hext.nameOf (Nat.lt_of_lt_of_le hlt h.le)] at hnode
      exact ⟨b, hfirst, hlt, hnode⟩
    · exact .apart (hsecond t ht)

end IsTested

/-! ## 4.  Walks test monotonically -/

/-- A test is about an alias between two others only if it is about one of them. -/
theorem AboutBetween.mem {context : Context} {first stop id : AliasId} {test : Formula}
    (h : AboutBetween context first stop test) (hnum : context.IsNumbered)
    (hstop : stop ≤ context.aliases.length) (hid : id < context.aliases.length)
    (hnode : test.node? = some (context.nameOf id)) : first ≤ id ∧ id < stop := by
  obtain ⟨b, hfirst, hlt, hnode'⟩ := h
  have hname := Option.some.inj (hnode'.symm.trans hnode)
  obtain rfl := hnum.nameOf_injective (Nat.lt_of_lt_of_le hlt hstop) hid hname
  exact ⟨hfirst, hlt⟩

/-- What a walk asks is not about aliases that were there before it, but for the one it is at, or
about aliases that come after it. -/
theorem AboutAdded.not_aboutBetween {id first stop : AliasId} {context middle after : Context}
    {test : Formula} (h : AboutAdded id context middle test) (hext : context.Extends middle)
    (hext' : middle.Extends after) (hnum : after.IsNumbered) (hid : id < context.aliases.length)
    (hstop : stop ≤ after.aliases.length) (hfirst : id < first)
    (hapart : stop ≤ context.aliases.length ∨ middle.aliases.length ≤ first) :
    ¬ AboutBetween after first stop test := by
  intro habout
  rcases h with hnode | ⟨b, hb, hlt, hnode⟩
  · have hidAfter := Nat.lt_of_lt_of_le hid (hext.trans hext').length_le
    rw [← (hext.trans hext').nameOf hid] at hnode
    exact Nat.not_lt.mpr (habout.mem hnum hstop hidAfter hnode).1 hfirst
  · rw [← hext'.nameOf hlt] at hnode
    obtain ⟨hle, hbs⟩ :=
      habout.mem hnum hstop (Nat.lt_of_lt_of_le hlt hext'.length_le) hnode
    rcases hapart with hbefore | hafter
    · exact Nat.not_lt.mpr (Nat.le_trans hbefore hb) hbs
    · exact Nat.not_lt.mpr (Nat.le_trans hafter hle) hlt

/-- Inside a negation no alias is matched. -/
theorem Walk.not_isMatched {part : Part} {id k : AliasId} {context after : Context}
    {terms : List Formula} (h : Walk follow id context part terms after)
    (hfresh : context.IsFresh) (hhosts : context.Hosts id) (hneg : context.inNegation = true)
    (hk : context.aliases.length ≤ k) : ¬ after.IsMatched k := by
  intro hmatched
  have hlt := (h.extends hfresh).2.matchedCount_lt hk hmatched
  rw [h.matchedCount_eq hfresh hhosts hneg] at hlt
  exact Nat.lt_irrefl _ hlt

theorem holds_of_presence {v : String → Bool} {child : String} {terms : List Formula}
    (h : (presence child terms).holds v = true) :
    v (Formula.atom (.present child)).text = true := by
  cases terms with
  | nil => exact h
  | cons first others =>
    rw [presence, Formula.holds_group, Connective.truth, List.all_map, List.all_eq_true] at h
    exact h _ List.mem_cons_self

/-- The test of a relation does not fail for a test that becomes true, be it the presence of the
alias or one that is neither negated nor in an exclusive group. -/
theorem holds_presence_of_raised {v v' : String → Bool} {child : String}
    {terms : List Formula} {raised : Formula}
    (hraised : raised = .atom (.present child) ∨
      raised ∉ (presence child terms).chained true)
    (hsame : ∀ test ∈ (presence child terms).tests, test ≠ raised →
      v test.text = v' test.text)
    (hfalse : v raised.text = false) (htrue : v' raised.text = true)
    (hholds : (presence child terms).holds v = true) :
    (presence child terms).holds v' = true := by
  rcases hraised with rfl | hfree
  · -- the test does not hold without the presence of the alias
    exact absurd (hfalse.symm.trans (holds_of_presence hholds)) (by decide)
  · refine Formula.holds_mono (fun test hmem hv => ?_) (fun test hmem => ?_) hholds
    · by_cases heq : test = raised
      · rw [heq]
        exact htrue
      · rw [← hsame test hmem heq]
        exact hv
    · refine hsame test (Formula.chained_subset_tests hmem) ?_
      rintro rfl
      exact hfree hmem

/-- The term of a matched relation is a conjunction of its presence and what it carries. -/
theorem toList_groupTerm_presence (child : String) (terms : List Formula) :
    (groupTerm .and (.atom (.present child) :: terms)).toList = [presence child terms] := by
  cases terms <;> rfl

/-- The matched aliases that were added are tested in monotone position. -/
def TestsAdded (before after : Context) (terms : List Formula) : Prop :=
  ∀ k, before.aliases.length ≤ k → after.IsMatched k →
    ∃ stop others, IsTested after terms k stop others

theorem TestsAdded.append {id : AliasId} {context middle after : Context} {part part' : Part}
    {first second : List Formula} (h : TestsAdded context middle first)
    (h' : TestsAdded middle after second)
    (hwalk : Walk follow id context part first middle)
    (hwalk' : Walk follow id middle part' second after) (hfresh : context.IsFresh)
    (hnum : context.IsNumbered) (hhosts : context.Hosts id) :
    TestsAdded context after (first ++ second) := by
  intro k hk hmatched
  obtain ⟨hmiddle, hext⟩ := hwalk.extends hfresh
  obtain ⟨-, hext'⟩ := hwalk'.extends hmiddle
  have hhosts' := hext.hosts hhosts
  have hnum' := hwalk'.isNumbered hmiddle (hwalk.isNumbered hfresh hnum)
  have hid : id < k := Nat.lt_of_lt_of_le hhosts.1 hk
  by_cases hlt : k < middle.aliases.length
  · obtain ⟨stop, others, htested⟩ := h k hk ((hext'.isMatched_iff hlt).mp hmatched)
    refine ⟨stop, others, htested.before_others hext' (fun hb hbs hlink => ?_)
      fun t ht test htest => ?_⟩
    · refine hwalk'.lt_of_link hmiddle hnum' hhosts' ?_ (Nat.lt_of_lt_of_le hbs htested.le) hlink
      exact Nat.ne_of_gt (Nat.lt_of_lt_of_le hid hb)
    · exact (hwalk'.tests_about hmiddle hhosts'.1 t ht test htest).not_aboutBetween hext'
        (.refl after) hnum' hhosts'.1 (Nat.le_trans htested.le hext'.length_le) hid
        (Or.inl htested.le)
  · obtain ⟨stop, others, htested⟩ := h' k (Nat.le_of_not_lt hlt) hmatched
    refine ⟨stop, others, htested.after_others fun t ht test htest => ?_⟩
    exact (hwalk.tests_about hfresh hhosts.1 t ht test htest).not_aboutBetween hext hext' hnum'
      hhosts.1 htested.le hid (Or.inr (Nat.le_of_not_lt hlt))

/-- A relation that is matched tests its alias, and those below it, in monotone position. -/
theorem TestsAdded.related {id : AliasId} {context inside : Context} {label : String}
    {fields : List (String × Json)} {terms : List Formula}
    (hinside : inside.IsFresh) (hnum : inside.IsNumbered)
    (hext : (context.entered label fields id).Extends inside)
    (h : TestsAdded (context.entered label fields id) inside terms) :
    TestsAdded context inside
      [presence (inside.nameOf context.aliases.length)
        (carriedTerms (context.entered label fields id).matchedCount terms inside)] := by
  intro k hk hmatched
  have hentered := context.isMatched_entered label fields id
  have hlen : (context.entered label fields id).aliases.length
      = context.aliases.length + 1 := by simp
  have hlt : context.aliases.length < inside.aliases.length :=
    Nat.lt_of_lt_of_le hentered.lt_length hext.length_le
  by_cases hself : k = context.aliases.length
  · subst hself
    refine ⟨inside.aliases.length, _, hlt, Nat.le_refl _, fun _ _ hlink => hlink.lt_length hinside,
      fun _ => ⟨fun t ht => ?_, _, List.mem_singleton_self _, .whole⟩⟩
    obtain rfl := List.mem_singleton.mp ht
    exact .whole
  · have hbelow : (context.entered label fields id).aliases.length ≤ k := by omega
    obtain ⟨stop, others, htested⟩ := h k hbelow hmatched
    refine ⟨stop, others, ?_⟩
    -- an alias was matched below, so the terms wait for it
    rw [carriedTerms, if_pos (hext.matchedCount_lt hbelow hmatched),
      ← toList_groupTerm_presence]
    have hwhole : IsTested inside
        ([.atom (.present (inside.nameOf context.aliases.length))] ++ terms) k stop others := by
      refine htested.after_others fun t ht test htest habout => ?_
      obtain rfl := List.mem_singleton.mp ht
      obtain rfl := List.mem_singleton.mp htest
      exact hself (Nat.le_antisymm (habout.mem hnum htested.le hlt rfl).1 hk)
    exact hwhole.group rfl

theorem isWalkInvariant_testsAdded :
    IsWalkInvariant follow fun id context terms after =>
      context.IsFresh → context.IsNumbered → context.Hosts id → TestsAdded context after terms where
  nil _ _ _ k hk hmatched := absurd hmatched.lt_length (Nat.not_lt.mpr hk)
  append hwalk hwalk' h h' hfresh hnum hhosts := by
    obtain ⟨hmiddle, hext⟩ := hwalk.extends hfresh
    have hadded' := h' hmiddle (hwalk.isNumbered hfresh hnum) (hext.hosts hhosts)
    exact (h hfresh hnum hhosts).append hadded' hwalk hwalk' hfresh hnum hhosts
  leaf _ _ _ _ k hk hmatched := absurd hmatched.lt_length (Nat.not_lt.mpr hk)
  group {id context _ members inside} op hwalk h hfresh hnum hhosts k hk hmatched := by
    rw [← context.opened_aliases op] at hk
    rw [Context.isMatched_congr (inside.closed_aliases op)] at hmatched
    cases hop : op.negates with
    | true =>
      have hneg : (context.opened op).inNegation = true := by
        rw [Context.inNegation_opened, hop, Bool.or_true]
      exact absurd hmatched
        (hwalk.not_isMatched (hfresh.opened op) (hhosts.opened op) hneg hk)
    | false =>
      obtain ⟨stop, others, htested⟩ :=
        h (hfresh.opened op) (hnum.opened op) (hhosts.opened op) k hk hmatched
      exact ⟨stop, others,
        (htested.group hop).congr (inside.closed_aliases op) (inside.closed_patterns op)⟩
  conjoin _ h hfresh hnum hhosts k hk hmatched := by
    obtain ⟨stop, others, htested⟩ := h hfresh hnum hhosts k hk hmatched
    rw [conjoin_eq_groupTerm]
    exact ⟨stop, others, htested.group rfl⟩
  related {id context label fields _ after} h hbody hfresh hnum hhosts := by
    rcases follow_cases hfresh h with ⟨hneg, terms, hwalk, -⟩ |
      ⟨hneg, terms, inside, hwalk, hinside, hext, rfl, rfl⟩
    · intro k hk hmatched
      -- the new alias is a scoped one, and so are all below it
      have hext := (hwalk.extends hfresh.addScoped).2
      have hlt := (context.extends_addScoped.trans hext).matchedCount_lt hk hmatched
      rw [hwalk.matchedCount_eq hfresh.addScoped (Context.hosts_addScoped hneg) hneg,
        Context.matchedCount_addScoped] at hlt
      exact absurd hlt (Nat.lt_irrefl _)
    · have hentered := context.isMatched_entered label fields id
      have hnum' := hnum.entered label fields id
      have hterms := hbody hwalk (hfresh.entered label fields id) hnum'
        (context.hosts_entered label fields id)
      have hrelated := TestsAdded.related hinside
        (hwalk.isNumbered (hfresh.entered label fields id) hnum') hext hterms
      intro k hk hmatched
      rw [Context.isMatched_congr Context.left_aliases] at hmatched
      obtain ⟨stop, others, htested⟩ := hrelated k hk hmatched
      rw [hext.nameOf hentered.lt_length] at htested
      exact ⟨stop, others, htested.congr Context.left_aliases Context.left_patterns⟩

/-- Every matched alias that a walk adds is tested in monotone position. -/
theorem Walk.testsAdded {part : Part} {id : AliasId} {context after : Context}
    {terms : List Formula} (h : Walk follow id context part terms after)
    (hfresh : context.IsFresh) (hnum : context.IsNumbered) (hhosts : context.Hosts id) :
    TestsAdded context after terms :=
  h.invariant isWalkInvariant_testsAdded hfresh hnum hhosts

/-! ## 5.  The filter of a root record -/

/-- The test is about the alias `id`, or about one that hangs on it, directly or not. -/
def AboutOrBelow (context : Context) (id : AliasId) (test : Formula) : Prop :=
  ∃ b, Relation.ReflTransGen context.Link id b ∧ test.node? = some (context.nameOf b)

/-- What it comes to that a relation is tested in monotone position.  `others` is what the test
of the relation carries besides the presence of the alias `id`. -/
structure IsRaised (context : Context) (terms : List Formula) (id : AliasId)
    (others : List Formula) : Prop where
  stands : ∃ t ∈ terms, Stands (presence (context.nameOf id) others) t
  /-- Whatever the tests about the alias and those below it come to, the terms fail for it only
  if the test of the relation does. -/
  keeps : ∀ {v v' : String → Bool},
    (∀ t ∈ terms, ∀ test ∈ t.tests, ¬ AboutOrBelow context id test → v test.text = v' test.text) →
    ((presence (context.nameOf id) others).holds v = true →
      (presence (context.nameOf id) others).holds v' = true) →
    terms.all (Formula.holds v) = true → terms.all (Formula.holds v') = true
  /-- The terms do not fail for a test that becomes true, be it the presence of the alias, or a
  test about it or those below it that the relation neither negates nor chains. -/
  raises : ∀ {v v' : String → Bool} {raised : Formula},
    (raised = context.presenceOf id ∨ AboutOrBelow context id raised ∧
      raised ∉ (presence (context.nameOf id) others).chained true) →
    (∀ t ∈ terms, ∀ test ∈ t.tests, test ≠ raised → v test.text = v' test.text) →
    v raised.text = false → v' raised.text = true →
    terms.all (Formula.holds v) = true → terms.all (Formula.holds v') = true

namespace IsTested

variable {context : Context} {terms : List Formula} {id stop : AliasId} {others : List Formula}

/-- All aliases below a tested one come before its `stop`. -/
theorem aboutBetween (h : IsTested context terms id stop others) {test : Formula}
    (habout : AboutOrBelow context id test) : AboutBetween context id stop test := by
  obtain ⟨b, hbelow, hnode⟩ := habout
  have hbetween : id ≤ b ∧ b < stop := by
    clear hnode
    induction hbelow with
    | refl => exact ⟨Nat.le_refl _, h.lt⟩
    | tail _ hlink ih => exact ⟨Nat.le_trans ih.1 (Nat.le_of_lt hlink.1), h.closed ih.1 ih.2 hlink⟩
  exact ⟨b, hbetween.1, hbetween.2, hnode⟩

/-- Where only tests about the alias and those below it change, the terms fail only if the test
of the relation does. -/
theorem all_holds (h : IsTested context terms id stop others)
    (hsheltered : ∀ t ∈ terms, Sheltered (presence (context.nameOf id) others)
      (AboutBetween context id stop) t) {v v' : String → Bool}
    (hsame : ∀ t ∈ terms, ∀ test ∈ t.tests, ¬ AboutOrBelow context id test →
      v test.text = v' test.text)
    (hpresence : (presence (context.nameOf id) others).holds v = true →
      (presence (context.nameOf id) others).holds v' = true)
    (hall : terms.all (Formula.holds v) = true) : terms.all (Formula.holds v') = true := by
  rw [List.all_eq_true] at hall ⊢
  intro t ht
  refine (hsheltered t ht).holds_mono (fun test hmem hapart => ?_) hpresence (hall t ht)
  exact hsame t ht test hmem fun hbelow => hapart (h.aboutBetween hbelow)

theorem isRaised (h : IsTested context terms id stop others)
    (hchained : ∀ t ∈ terms, context.presenceOf id ∉ t.chained false) :
    IsRaised context terms id others := by
  obtain ⟨hsheltered, t, ht, hstands⟩ := h.tested hchained
  refine ⟨⟨t, ht, hstands⟩, h.all_holds hsheltered,
    fun {v v' raised} hraised hsame hfalse htrue => ?_⟩
  have habout : AboutOrBelow context id raised := by
    rcases hraised with rfl | ⟨habout, -⟩
    · exact ⟨id, .refl, rfl⟩
    · exact habout
  refine h.all_holds hsheltered (fun t ht test hmem hapart => hsame t ht test hmem ?_)
    (holds_presence_of_raised (hraised.imp_right And.right) (fun test hmem => ?_) hfalse htrue)
  · rintro rfl
    exact hapart habout
  · exact hsame t ht test (hstands.tests_subset hmem)

end IsTested

/-- **Matched relations are tested in monotone position.**  In the filter that the criteria of a
root record come out as, the test of each matched relation stands in conjunctions and
disjunctions, unless its presence is tested in an exclusive group; and the filter does not fail
for a test about its records, or about records matched below them, that becomes true, unless the
relation's own criteria negate or chain it. -/
theorem rootTerms_isRaised {options : Options} {fields : List (String × Json)} {after : Context}
    (h : rootTerms (.object fields) (Context.start options) = .ok () after) {id : AliasId}
    (hid : id ≠ Context.root) (hmatched : after.IsMatched id)
    (hchained : ∀ t ∈ (Selection.takeRootTerms after).1,
      after.presenceOf id ∉ t.chained false) :
    ∃ others, IsRaised after (Selection.takeRootTerms after).1 id others := by
  obtain ⟨terms, inside, hwalk, rfl⟩ := rootTerms_object_eq_ok.mp h
  rw [takeRootTerms_keepTerms hwalk] at hchained ⊢
  rw [Context.isMatched_congr keepTerms_aliases] at hmatched
  have hnum := Context.isNumbered_rooted options fields
  have hlength : (Context.rooted options fields).aliases.length ≤ id := by
    rw [Context.rooted_eq]
    exact Nat.pos_of_ne_zero hid
  obtain ⟨stop, others, htested⟩ := hwalk.testsAdded (Context.isFresh_rooted options fields) hnum
    ⟨hnum.length_pos, fun _ => ⟨_, hnum.root⟩⟩ id hlength hmatched
  exact ⟨others, (htested.congr keepTerms_aliases keepTerms_patterns).isRaised hchained⟩

/-- An object that asks of a related record what it must not be, and what it must be related to,
as one of two alternatives. -/
def negatedBelow : List (String × Json) :=
  [("$or", .array [
    .object [("A", .object [("$not", .array [.object [("x", .bool true)]]), ("B", .object [])])],
    .object [("y", .bool true)]])]

/-- The negation stays inside the test of the relation, which is one of the alternatives. -/
theorem rootTerms_isRaised_negatedBelow :
    ∃ after, rootTerms (.object negatedBelow) (Context.start {}) = .ok () after ∧
      1 ≠ Context.root ∧ after.IsMatched 1 ∧
      (∀ t ∈ (Selection.takeRootTerms after).1, after.presenceOf 1 ∉ t.chained false) ∧
      (∃ others, IsRaised after (Selection.takeRootTerms after).1 1 others) ∧
      (Selection.takeRootTerms after).1.map Formula.text =
        ["((record1 IS NOT NULL AND NOT (any(value IN record1.x WHERE value = true))"
          ++ " AND record2 IS NOT NULL) OR any(value IN record.y WHERE value = true))"] := by
  obtain ⟨_, after, hok⟩ := Descent.accepts_iff.mp
    (show Descent.accepts (rootTerms (.object negatedBelow)) (Context.start {}) = true by
      decide +kernel)
  have hafter := Descent.contextAfter_eq_of_ok hok
  have hmatched : after.IsMatched 1 := by
    rw [← hafter]
    exact ⟨"record1", by decide +kernel⟩
  have htexts : (Selection.takeRootTerms after).1.all (fun t =>
      (t.chained false).all fun test => test.text != (after.presenceOf 1).text) = true := by
    rw [← hafter]
    decide +kernel
  have hchained : ∀ t ∈ (Selection.takeRootTerms after).1,
      after.presenceOf 1 ∉ t.chained false := by
    intro t ht hmem
    have hne := List.all_eq_true.mp (List.all_eq_true.mp htexts t ht) _ hmem
    simp at hne
  refine ⟨after, hok, by decide, hmatched, hchained,
    rootTerms_isRaised hok (by decide) hmatched hchained, ?_⟩
  rw [← hafter]
  decide +kernel

/-! ## 6.  What a relation negates or chains -/

/-- No test about a matched alias on which another one hangs, or about an alias below it, makes
the filter fail by becoming true. -/
def NeverHurts (options : Options) (fields : List (String × Json)) : Prop :=
  ∀ after, rootTerms (.object fields) (Context.start options) = .ok () after →
    ∀ id child, after.IsMatched id → after.IsMatched child → after.Link id child →
      ∀ test, AboutOrBelow after id test → ∀ v v' : String → Bool,
        (∀ text, text ≠ test.text → v text = v' text) →
        v test.text = false → v' test.text = true →
        (Selection.takeRootTerms after).1.all (Formula.holds v) = true →
        (Selection.takeRootTerms after).1.all (Formula.holds v') = true

/-- A test hurts when the filter holds with all other tests true and fails with all of them
true. -/
theorem not_neverHurts_of_left {options : Options} {fields : List (String × Json)}
    (haccepts : Descent.accepts (rootTerms (.object fields)) (Context.start options) = true)
    (left : Context)
    (hleft : Descent.contextAfter (rootTerms (.object fields)) (Context.start options) = left)
    (id child : AliasId) (hid : left.IsMatched id) (hchild : left.IsMatched child)
    (hlink : left.Link id child) (test : Formula)
    (hnode : test.node? = some (left.nameOf id))
    (hbefore : (Selection.takeRootTerms left).1.all
      (Formula.holds fun text => text != test.text) = true)
    (hall : (Selection.takeRootTerms left).1.all (Formula.holds fun _ => true) = false) :
    ¬ NeverHurts options fields := by
  intro h
  obtain ⟨_, after, hok⟩ := Descent.accepts_iff.mp haccepts
  obtain rfl := (Descent.contextAfter_eq_of_ok hok).symm.trans hleft
  have hholds := h after hok id child hid hchild hlink test ⟨id, .refl, hnode⟩
    (fun text => text != test.text) (fun _ => true) (fun text hne => by simpa using hne)
    (by simp) rfl hbefore
  rw [hall] at hholds
  cases hholds

/-- Related records that are not to be `x`, and are to be related to others in turn. -/
def negatedBelowOther : List (String × Json) :=
  [("A", .object [("$not", .array [.object [("x", .bool true)]]), ("B", .object [])])]

/-- Either related records that are `x` and are related to others in turn, or other ones. -/
def chainedBelowOther : List (String × Json) :=
  [("$xor", .array [.object [("A", .object [("x", .bool true), ("B", .object [])])],
    .object [("C", .object [])]])]

/-- A test that the criteria of a related record negate can hurt, and so can one in an exclusive
group: both filters hold when all their tests do but that of `x`, and fail when all do. -/
theorem not_neverHurts :
    ¬ NeverHurts {} negatedBelowOther ∧ ¬ NeverHurts {} chainedBelowOther := by
  let test : Formula :=
    .atom (.predicate "record1" "any(value IN record1.x WHERE value = true)")
  constructor
  · refine not_neverHurts_of_left (by decide +kernel) _ rfl 1 2 ⟨"record1", ?_⟩ ⟨"record2", ?_⟩
      ⟨by decide, {}, "B", ?_⟩ test ?_ ?_ ?_ <;> decide +kernel
  · refine not_neverHurts_of_left (by decide +kernel) _ rfl 1 2 ⟨"record1", ?_⟩ ⟨"record2", ?_⟩
      ⟨by decide, {}, "B", ?_⟩ test ?_ ?_ ?_ <;> decide +kernel

end GraphSearch.Matching
