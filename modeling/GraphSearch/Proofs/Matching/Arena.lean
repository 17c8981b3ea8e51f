import Mathlib.Data.List.Nodup
import Mathlib.Data.List.Perm.Basic
import GraphSearch.Matching.Selection
import GraphSearch.Proofs.Matching.Walk
/-!
# The aliases of a compilation

Aliases are only ever added.  What was known of an alias stays as it is while others are
compiled, because a walk writes down facts about the alias it opened last and about no other:

* `Context.IsFresh`: nothing is known of an alias before it is there;
* `Context.Extends`: aliases were added, and what was known of the others is unchanged;
* `Walk.extends`: every walk from a fresh context extends it and leaves a fresh context.

Names are told apart by their numbers.  The matched aliases and the scoped ones are numbered
separately, in the order they are added (`Context.IsNumbered`), a scoped name has an underscore
where a matched one has a digit, and so no name is given twice (`IsNumbered.names_nodup`).

What all terms have that are attached stays so where such terms are attached
(`Context.AttachedHave`), and the optional matches of a context have it then
(`exists_of_mem_hopsOf`).
-/

namespace GraphSearch.Matching

open Criteria

/-! ## 1.  Opening an alias -/

namespace Context

variable {context : Context} {label : String} {fields : List (String × Json)}
  {parent id : AliasId}

@[simp] theorem aliases_addScoped : context.addScoped.2.aliases = context.aliases ++
    [⟨context.options.rootAlias ++ "_" ++ toString (context.scopedCount + 1), true⟩] := rfl

@[simp] theorem options_addScoped : context.addScoped.2.options = context.options := rfl

@[simp] theorem matchedCount_addScoped :
    context.addScoped.2.matchedCount = context.matchedCount := rfl

@[simp] theorem scopedCount_addScoped :
    context.addScoped.2.scopedCount = context.scopedCount + 1 := rfl

@[simp] theorem aliases_addMatched : context.addMatched.2.aliases = context.aliases ++
    [⟨context.options.rootAlias ++ toString context.matchedCount, false⟩] := rfl

@[simp] theorem options_addMatched : context.addMatched.2.options = context.options := rfl

@[simp] theorem matchedCount_addMatched :
    context.addMatched.2.matchedCount = context.matchedCount + 1 := rfl

@[simp] theorem scopedCount_addMatched :
    context.addMatched.2.scopedCount = context.scopedCount := rfl

/-- Opening a matched alias adds it and its pattern, and may declare a name. -/
theorem entered_eq (context : Context) (label : String) (fields : List (String × Json))
    (parent : AliasId) : context.entered label fields parent =
      { context.addMatched.2 with
        patterns := (context.entered label fields parent).patterns
        bindings := (context.entered label fields parent).bindings } := by
  simp only [entered, openMatched]
  cases aliasOf fields <;> rfl

@[simp] theorem entered_aliases : (context.entered label fields parent).aliases =
    context.aliases ++ [⟨context.options.rootAlias ++ toString context.matchedCount, false⟩] := by
  rw [entered_eq]
  rfl

theorem entered_matchedCount :
    (context.entered label fields parent).matchedCount = context.matchedCount + 1 := by
  rw [entered_eq]
  rfl

@[simp] theorem entered_options :
    (context.entered label fields parent).options = context.options := by
  rw [entered_eq]
  rfl

@[simp] theorem entered_negations :
    (context.entered label fields parent).negations = context.negations := by
  rw [entered_eq]
  rfl

@[simp] theorem entered_attached :
    (context.entered label fields parent).attached = context.attached := by
  rw [entered_eq]
  rfl

@[simp] theorem entered_deferred :
    (context.entered label fields parent).deferred = context.deferred := by
  rw [entered_eq]
  rfl

theorem nameOf_congr {other : Context} (h : other.aliases[id]? = context.aliases[id]?) :
    other.nameOf id = context.nameOf id := by
  rw [nameOf, nameOf, h]

theorem entered_patterns : (context.entered label fields parent).patterns =
    Table.insert context.aliases.length
      (.hop ((context.entered label fields parent).nameOf parent) (relationOf fields)
        ((context.entered label fields parent).nameOf context.aliases.length) label)
      context.patterns := by
  simp only [entered, openMatched]
  cases aliasOf fields <;> rfl

end Context

/-! ## 2.  What a walk leaves alone -/

namespace Context

/-- Nothing is known of an alias before it is there. -/
structure IsFresh (context : Context) : Prop where
  pattern : ∀ {id}, context.aliases.length ≤ id → context.pattern? id = none
  attached : ∀ {id}, context.aliases.length ≤ id → context.attached? id = none
  deferred : ∀ {id}, context.aliases.length ≤ id → Table.find? id context.deferred = none

/-- Aliases were added, and what was known of those before is unchanged. -/
structure Extends (before after : Context) : Prop where
  options : after.options = before.options
  negations : after.negations = before.negations
  aliases : before.aliases <+: after.aliases
  deferred : after.deferred = before.deferred
  pattern : ∀ {id}, id < before.aliases.length → after.pattern? id = before.pattern? id
  attached : ∀ {id}, id < before.aliases.length → after.attached? id = before.attached? id

theorem Extends.refl (context : Context) : context.Extends context :=
  ⟨rfl, rfl, List.prefix_rfl, rfl, fun _ => rfl, fun _ => rfl⟩

theorem Extends.length_le {before after : Context} (h : before.Extends after) :
    before.aliases.length ≤ after.aliases.length := h.aliases.length_le

theorem Extends.trans {before middle after : Context} (h : before.Extends middle)
    (h' : middle.Extends after) : before.Extends after where
  options := h'.options.trans h.options
  negations := h'.negations.trans h.negations
  aliases := h.aliases.trans h'.aliases
  deferred := h'.deferred.trans h.deferred
  pattern hid := (h'.pattern (Nat.lt_of_lt_of_le hid h.length_le)).trans (h.pattern hid)
  attached hid := (h'.attached (Nat.lt_of_lt_of_le hid h.length_le)).trans (h.attached hid)

theorem Extends.nameOf {before after : Context} (h : before.Extends after) {id : AliasId}
    (hid : id < before.aliases.length) : after.nameOf id = before.nameOf id := by
  obtain ⟨more, hmore⟩ := h.aliases
  exact nameOf_congr (by rw [← hmore, List.getElem?_append_left hid])

theorem Extends.matchedCount_le {before after : Context} (h : before.Extends after) :
    before.matchedCount ≤ after.matchedCount := by
  rw [before.matchedCount_eq, after.matchedCount_eq]
  exact (h.aliases.sublist.filter _).length_le

theorem length_matchedNames (context : Context) :
    context.matchedNames.length = context.matchedCount := by
  rw [matchedNames, List.length_map, ← context.matchedCount_eq]

/-- The aliases tell how many there are of either kind. -/
theorem counts_congr {context other : Context} (h : other.aliases = context.aliases) :
    other.matchedCount = context.matchedCount ∧ other.scopedCount = context.scopedCount := by
  rw [matchedCount_eq, matchedCount_eq, scopedCount_eq, scopedCount_eq, h]
  exact ⟨rfl, rfl⟩

/-- A walk among the members of a group, seen from outside the group. -/
theorem Extends.of_group {op : GroupOp} {context inside : Context}
    (h : (context.opened op).Extends inside) : context.Extends (inside.closed op) := by
  have hneg := negations_closed h.negations
  rw [opened_eq] at h
  rw [closed_eq] at hneg ⊢
  exact ⟨h.options, hneg, h.aliases, h.deferred, h.pattern, h.attached⟩

theorem IsFresh.opened {context : Context} (h : context.IsFresh) (op : GroupOp) :
    (context.opened op).IsFresh := by
  rw [opened_eq]
  exact ⟨h.pattern, h.attached, h.deferred⟩

theorem IsFresh.closed {context : Context} (h : context.IsFresh) (op : GroupOp) :
    (context.closed op).IsFresh := by
  rw [closed_eq]
  exact ⟨h.pattern, h.attached, h.deferred⟩

theorem isFresh_start (options : Options) : (start options).IsFresh :=
  ⟨fun _ => rfl, fun _ => rfl, fun _ => rfl⟩

theorem IsFresh.addScoped {context : Context} (h : context.IsFresh) :
    context.addScoped.2.IsFresh := by
  have hlen : context.aliases.length ≤ context.addScoped.2.aliases.length := by simp
  exact ⟨fun hid => h.pattern (Nat.le_trans hlen hid),
    fun hid => h.attached (Nat.le_trans hlen hid),
    fun hid => h.deferred (Nat.le_trans hlen hid)⟩

theorem extends_addScoped (context : Context) : context.Extends context.addScoped.2 :=
  ⟨rfl, rfl, List.prefix_append _ _, rfl, fun _ => rfl, fun _ => rfl⟩

theorem IsFresh.entered {context : Context} (h : context.IsFresh) (label : String)
    (fields : List (String × Json)) (parent : AliasId) :
    (context.entered label fields parent).IsFresh := by
  have hlen : (context.entered label fields parent).aliases.length
      = context.aliases.length + 1 := by simp
  refine ⟨fun {id} hid => ?_, fun {id} hid => ?_, fun {id} hid => ?_⟩
  · rw [pattern?, entered_patterns, Table.find?_insert_of_ne (Nat.ne_of_gt (by omega))]
    exact h.pattern (by omega)
  · rw [attached?, entered_attached]
    exact h.attached (by omega)
  · rw [entered_deferred]
    exact h.deferred (by omega)

theorem extends_entered (context : Context) (label : String) (fields : List (String × Json))
    (parent : AliasId) : context.Extends (context.entered label fields parent) := by
  refine ⟨entered_options, entered_negations, ?_, entered_deferred, fun {id} hid => ?_,
    fun {id} hid => ?_⟩
  · rw [entered_aliases]
    exact List.prefix_append _ _
  · rw [pattern?, entered_patterns, Table.find?_insert_of_ne (Nat.ne_of_lt hid)]
    rfl
  · rw [attached?, entered_attached]
    rfl

end Context

/-! ## 3.  Closing an alias -/

/-- The context after a matched relation: the terms of an alias with nothing deferred are
attached to it when no further aliases were matched, and are not kept otherwise. -/
def Context.left (context : Context) (id : AliasId) (before : Nat) (terms : List Formula) :
    Context :=
  if before < context.matchedCount ∨ terms = [] then context else context.attach id terms

/-- The terms that the term of a matched relation carries. -/
def carriedTerms (before : Nat) (terms : List Formula) (context : Context) : List Formula :=
  if before < context.matchedCount then terms else []

theorem mem_of_mem_carriedTerms {before : Nat} {terms : List Formula} {context : Context}
    {t : Formula} (h : t ∈ carriedTerms before terms context) : t ∈ terms := by
  rw [carriedTerms] at h
  split at h
  · exact h
  · exact absurd h List.not_mem_nil

/-- When nothing was deferred for an alias, the deferred terms of a matched relation are in
its term, and the queue is as it was. -/
theorem leaveMatched_eq {id : AliasId} {before : Nat} {terms : List Formula}
    {context : Context} (h : Table.find? id context.deferred = none) :
    leaveMatched id before terms context =
      (presence (context.nameOf id) (carriedTerms before terms context),
        context.left id before terms) := by
  have herase : Table.erase id context.deferred = context.deferred :=
    Table.erase_eq_self (Table.find?_eq_none_iff.mp h)
  simp only [leaveMatched, keepTerms, carriedTerms, Context.left]
  by_cases hcount : before < context.matchedCount
  · have hinsert : Table.erase id (Table.insert id terms context.deferred) = context.deferred :=
      Table.erase_insert (Table.find?_eq_none_iff.mp h) terms
    simp only [hcount, if_true, true_or, Context.defer, Context.takeDeferred, h,
      Option.getD_none, List.nil_append, Table.find?_insert_self, Option.getD_some, hinsert]
  · cases terms with
    | nil =>
      simp only [hcount, if_false, List.isEmpty_nil, if_true, or_true, Context.takeDeferred, h,
        Option.getD_none, herase]
    | cons term terms =>
      simp only [hcount, if_false, List.isEmpty_cons, reduceCtorEq, or_self, Bool.false_eq_true,
        Context.attach, Context.takeDeferred, h, Option.getD_none, herase]
      rfl

section

variable {context : Context} {id : AliasId} {before : Nat} {terms : List Formula}

/-- Leaving a matched alias changes attached terms alone. -/
theorem Context.left_eq : context.left id before terms =
    { context with attached := (context.left id before terms).attached } := by
  simp only [Context.left, Context.attach]
  split <;> rfl

@[simp] theorem Context.left_aliases :
    (context.left id before terms).aliases = context.aliases := by
  rw [Context.left_eq]

@[simp] theorem Context.left_matchedCount :
    (context.left id before terms).matchedCount = context.matchedCount := by
  rw [Context.left_eq]

@[simp] theorem Context.left_options :
    (context.left id before terms).options = context.options := by
  rw [Context.left_eq]

@[simp] theorem Context.left_negations :
    (context.left id before terms).negations = context.negations := by
  rw [Context.left_eq]

@[simp] theorem Context.left_bindings :
    (context.left id before terms).bindings = context.bindings := by
  rw [Context.left_eq]

@[simp] theorem Context.left_patterns :
    (context.left id before terms).patterns = context.patterns := by
  rw [Context.left_eq]

@[simp] theorem Context.left_deferred :
    (context.left id before terms).deferred = context.deferred := by
  rw [Context.left_eq]

@[simp] theorem Context.left_nameOf {other : AliasId} :
    (context.left id before terms).nameOf other = context.nameOf other :=
  Context.nameOf_congr (by rw [Context.left_aliases])

theorem Context.left_attached?_of_ne {other : AliasId} (h : other ≠ id) :
    (context.left id before terms).attached? other = context.attached? other := by
  simp only [Context.left]
  split
  · rfl
  · exact Table.find?_insert_of_ne h terms context.attached

/-- What an alias without attached terms has attached once its relation is compiled. -/
theorem Context.left_attached?_self (h : context.attached? id = none) :
    (context.left id before terms).attached? id =
      if before < context.matchedCount ∨ terms = [] then none else some terms := by
  simp only [Context.left]
  split
  · exact h
  · exact Table.find?_insert_self id terms context.attached

/-- Leaving an alias that was added since is nothing to what was known before. -/
theorem Context.Extends.left {earlier : Context} (h : earlier.Extends context)
    (hid : earlier.aliases.length ≤ id) : earlier.Extends (context.left id before terms) := by
  refine ⟨?_, ?_, ?_, ?_, fun {i} hi => ?_, fun {i} hi => ?_⟩
  · rw [Context.left_options, h.options]
  · rw [Context.left_negations, h.negations]
  · rw [Context.left_aliases]
    exact h.aliases
  · rw [Context.left_deferred, h.deferred]
  · rw [Context.pattern?, Context.left_patterns]
    exact h.pattern hi
  · rw [Context.left_attached?_of_ne (Nat.ne_of_lt (Nat.lt_of_lt_of_le hi hid))]
    exact h.attached hi

end

/-! ## 4.  Walks extend the context -/

/-- What following a relation outside of negations comes to, when walks over its fields
extend the context. -/
theorem followMatched_cases {label : String} {fields : List (String × Json)}
    {parent : AliasId} {context after : Context} {term : Formula} (hfresh : context.IsFresh)
    (hbody : ∀ {child before terms inside},
      Walk follow child before (.object fields) terms inside →
      before.IsFresh → inside.IsFresh ∧ before.Extends inside)
    (h : followMatched label fields parent (fun child => fieldTerms follow child fields) context
      = .ok term after) :
    ∃ terms inside,
      Walk follow context.aliases.length (context.entered label fields parent)
        (.object fields) terms inside ∧
      inside.IsFresh ∧ (context.entered label fields parent).Extends inside ∧
      term = presence ((context.entered label fields parent).nameOf context.aliases.length)
        (carriedTerms (context.entered label fields parent).matchedCount terms inside) ∧
      after = inside.left context.aliases.length
        (context.entered label fields parent).matchedCount terms := by
  obtain ⟨terms, inside, hok, hleave⟩ := followMatched_eq_ok.mp h
  have hwalk : Walk follow context.aliases.length (context.entered label fields parent)
      (.object fields) terms inside := .of_terms hok
  obtain ⟨hfresh', hext⟩ := hbody hwalk (hfresh.entered label fields parent)
  have hdeferred : Table.find? context.aliases.length inside.deferred = none := by
    rw [hext.deferred, Context.entered_deferred]
    exact hfresh.deferred (Nat.le_refl _)
  rw [leaveMatched_eq hdeferred, hext.nameOf (by simp), Prod.mk.injEq] at hleave
  exact ⟨terms, inside, hwalk, hfresh', hext, hleave.1, hleave.2⟩

theorem isWalkInvariant_extends :
    IsWalkInvariant follow fun _ context _ after =>
      context.IsFresh → after.IsFresh ∧ context.Extends after where
  nil hfresh := ⟨hfresh, .refl _⟩
  append _ _ h h' hfresh := by
    obtain ⟨hmiddle, hext⟩ := h hfresh
    obtain ⟨hafter, hext'⟩ := h' hmiddle
    exact ⟨hafter, hext.trans hext'⟩
  leaf _ hfresh := ⟨hfresh, .refl _⟩
  group op _ h hfresh := by
    obtain ⟨hinside, hext⟩ := h (hfresh.opened op)
    exact ⟨hinside.closed op, hext.of_group⟩
  conjoin _ h := h
  related {_ context label fields _ after} h hbody hfresh := by
    rw [follow_eq_ok] at h
    split at h
    case isTrue =>
      obtain ⟨terms, hok, -⟩ := followScoped_eq_ok.mp h
      obtain ⟨hafter, hext⟩ := hbody (.of_terms hok) hfresh.addScoped
      exact ⟨hafter, (context.extends_addScoped).trans hext⟩
    case isFalse =>
      obtain ⟨terms, inside, -, hinside, hext, -, rfl⟩ :=
        followMatched_cases hfresh (fun hwalk => hbody hwalk) h
      have hlen := hext.length_le
      rw [Context.entered_aliases, List.length_append, List.length_singleton] at hlen
      refine ⟨⟨fun {i} hi => ?_, fun {i} hi => ?_, fun {i} hi => ?_⟩,
        ((context.extends_entered label fields _).trans hext).left (Nat.le_refl _)⟩
      · rw [Context.left_aliases] at hi
        rw [Context.pattern?, Context.left_patterns]
        exact hinside.pattern hi
      · rw [Context.left_aliases] at hi
        rw [Context.left_attached?_of_ne (Nat.ne_of_gt (by omega))]
        exact hinside.attached hi
      · rw [Context.left_aliases] at hi
        rw [Context.left_deferred]
        exact hinside.deferred hi

/-- A walk from a fresh context only adds aliases, and facts about those it added. -/
theorem Walk.extends {part : Part} {id : AliasId} {context after : Context}
    {terms : List Formula} (h : Walk follow id context part terms after)
    (hfresh : context.IsFresh) : after.IsFresh ∧ context.Extends after :=
  h.invariant isWalkInvariant_extends hfresh

/-- The two ways a relation is followed, from a fresh context. -/
theorem follow_cases {label : String} {fields : List (String × Json)} {parent : AliasId}
    {context after : Context} {term : Formula} (hfresh : context.IsFresh)
    (h : follow label fields parent (fun child => fieldTerms follow child fields) context
      = .ok term after) :
    (context.inNegation = true ∧ ∃ terms,
      Walk follow context.aliases.length context.addScoped.2 (.object fields) terms after ∧
      term = .existential (.hop (context.addScoped.2.nameOf parent) (relationOf fields)
        (context.addScoped.2.nameOf context.aliases.length) label) terms) ∨
    (context.inNegation = false ∧ ∃ terms inside,
      Walk follow context.aliases.length (context.entered label fields parent)
        (.object fields) terms inside ∧
      inside.IsFresh ∧ (context.entered label fields parent).Extends inside ∧
      term = presence ((context.entered label fields parent).nameOf context.aliases.length)
        (carriedTerms (context.entered label fields parent).matchedCount terms inside) ∧
      after = inside.left context.aliases.length
        (context.entered label fields parent).matchedCount terms) := by
  rw [follow_eq_ok] at h
  split at h
  case isTrue hneg =>
    obtain ⟨terms, hok, hterm⟩ := followScoped_eq_ok.mp h
    exact Or.inl ⟨hneg, terms, .of_terms hok, hterm⟩
  case isFalse hneg =>
    exact Or.inr ⟨Bool.eq_false_iff.mpr hneg,
      followMatched_cases hfresh (fun hwalk => hwalk.extends) h⟩

/-! ## 5.  Names -/

theorem repr_injective {m n : Nat} (h : toString m = toString n) : m = n := by
  have hvalue := congrArg (fun s : String => Nat.ofDigitChars 10 s.toList 0) h
  simpa using hvalue

/-- A numeral does not start with an underscore. -/
theorem repr_ne_underscore_append {n : Nat} {s : String} : toString n ≠ "_" ++ s := by
  intro h
  have hchars := congrArg String.toList h
  rw [Nat.toString_eq_repr, Nat.toList_repr, String.toList_append] at hchars
  have hmem : '_' ∈ Nat.toDigits 10 n := by
    rw [hchars]
    simp
  exact absurd (Nat.isDigit_of_mem_toDigits (by decide) (by decide) hmem) (by decide)

/-- The name of the `n`-th matched alias, the root being the one of number zero. -/
def matchedName (root : String) : Nat → String
  | 0 => root
  | n + 1 => root ++ toString (n + 1)

/-- The name of the `n`-th scoped alias, counted from zero. -/
def scopedName (root : String) (n : Nat) : String := root ++ "_" ++ toString (n + 1)

theorem matchedName_eq (root : String) {n : Nat} (h : 0 < n) :
    matchedName root n = root ++ toString n := by
  cases n with
  | zero => exact absurd h (Nat.lt_irrefl 0)
  | succ n => rfl

theorem matchedName_injective (root : String) : Function.Injective (matchedName root) := by
  intro m n h
  cases m with
  | zero =>
    cases n with
    | zero => rfl
    | succ n =>
      have hempty := String.append_eq_left_iff.mp h.symm
      simp at hempty
  | succ m =>
    cases n with
    | zero =>
      have hempty := String.append_eq_left_iff.mp h
      simp at hempty
    | succ n => exact repr_injective ((String.append_right_inj root).mp h)

theorem scopedName_injective (root : String) : Function.Injective (scopedName root) := by
  intro m n h
  have hnumber := repr_injective ((String.append_right_inj (root ++ "_")).mp h)
  omega

theorem matchedName_ne_scopedName (root : String) (m n : Nat) :
    matchedName root m ≠ scopedName root n := by
  intro h
  rw [scopedName, String.append_assoc] at h
  cases m with
  | zero =>
    have hempty := String.append_eq_left_iff.mp h.symm
    simp at hempty
  | succ m => exact repr_ne_underscore_append ((String.append_right_inj root).mp h)

/-- The root comes first, and the aliases of either kind are numbered in the order in which
they were added. -/
structure Context.IsNumbered (context : Context) : Prop where
  root : context.aliases[0]? = some ⟨context.options.rootAlias, false⟩
  namesMatched : context.matchedNames =
    (List.range context.matchedCount).map (matchedName context.options.rootAlias)
  namesScoped : (context.aliases.filter fun a => a.isScoped).map Alias.name =
    (List.range context.scopedCount).map (scopedName context.options.rootAlias)

namespace Context

theorem isNumbered_start (options : Options) : (start options).IsNumbered :=
  ⟨rfl, rfl, rfl⟩

theorem IsNumbered.length_pos {context : Context} (h : context.IsNumbered) :
    0 < context.aliases.length :=
  (List.getElem?_eq_some_iff.mp h.root).1

theorem IsNumbered.matchedCount_pos {context : Context} (h : context.IsNumbered) :
    0 < context.matchedCount := by
  have hmem : (⟨context.options.rootAlias, false⟩ : Alias) ∈
      context.aliases.filter fun a => !a.isScoped := by
    rw [List.mem_filter]
    exact ⟨List.mem_of_getElem? h.root, rfl⟩
  rw [context.matchedCount_eq]
  exact List.length_pos_of_mem hmem

/-- Numbering depends on the aliases and the name of the root. -/
theorem IsNumbered.congr {context other : Context} (h : context.IsNumbered)
    (haliases : other.aliases = context.aliases) (hoptions : other.options = context.options) :
    other.IsNumbered := by
  obtain ⟨hroot, hmatched, hscoped⟩ := h
  obtain ⟨hcount, hcount'⟩ := counts_congr haliases
  refine ⟨?_, ?_, ?_⟩
  · rw [haliases, hoptions, hroot]
  · rw [matchedNames, hcount, haliases, hoptions]
    exact hmatched
  · rw [hcount', haliases, hoptions]
    exact hscoped

theorem IsNumbered.opened {context : Context} (h : context.IsNumbered) (op : GroupOp) :
    (context.opened op).IsNumbered := by
  rw [opened_eq]
  exact h.congr rfl rfl

theorem IsNumbered.addScoped {context : Context} (h : context.IsNumbered) :
    context.addScoped.2.IsNumbered := by
  refine ⟨?_, ?_, ?_⟩
  · rw [aliases_addScoped, List.getElem?_append_left h.length_pos]
    exact h.root
  · simp only [matchedNames, aliases_addScoped, List.filter_append]
    simpa [matchedNames] using h.namesMatched
  · simp only [aliases_addScoped, List.filter_append, List.map_append, h.namesScoped]
    simp [List.range_succ, scopedName]

theorem IsNumbered.addMatched {context : Context} (h : context.IsNumbered) :
    context.addMatched.2.IsNumbered := by
  refine ⟨?_, ?_, ?_⟩
  · rw [aliases_addMatched, List.getElem?_append_left h.length_pos]
    exact h.root
  · have hname := matchedName_eq context.options.rootAlias h.matchedCount_pos
    have hmatched := h.namesMatched
    simp only [matchedNames] at hmatched
    simp only [matchedNames, aliases_addMatched, options_addMatched, List.filter_append,
      List.map_append, hmatched]
    simp [List.range_succ, hname]
  · simp only [aliases_addMatched, options_addMatched, List.filter_append]
    simpa using h.namesScoped

theorem IsNumbered.entered {context : Context} (h : context.IsNumbered) (label : String)
    (fields : List (String × Json)) (parent : AliasId) :
    (context.entered label fields parent).IsNumbered :=
  h.addMatched.congr entered_aliases entered_options

/-- No name is given twice. -/
theorem IsNumbered.names_nodup {context : Context} (h : context.IsNumbered) :
    (context.aliases.map Alias.name).Nodup := by
  have hperm := (List.filter_append_perm (fun a : Alias => a.isScoped) context.aliases).map
    Alias.name
  rw [← hperm.nodup_iff, List.map_append, List.nodup_append]
  have hmatched := h.namesMatched
  rw [matchedNames] at hmatched
  rw [h.namesScoped, hmatched]
  refine ⟨List.nodup_range.map (scopedName_injective _),
    List.nodup_range.map (matchedName_injective _), ?_⟩
  intro a ha b hb
  obtain ⟨m, -, rfl⟩ := List.mem_map.mp ha
  obtain ⟨n, -, rfl⟩ := List.mem_map.mp hb
  exact (matchedName_ne_scopedName _ n m).symm

/-- An alias is found by its name. -/
theorem IsNumbered.idxOf_nameOf {context : Context} (h : context.IsNumbered) {id : AliasId}
    (hid : id < context.aliases.length) :
    (context.aliases.map Alias.name).idxOf (context.nameOf id) = id := by
  have hlen : id < (context.aliases.map Alias.name).length := by
    rw [List.length_map]
    exact hid
  have hname : context.nameOf id = (context.aliases.map Alias.name)[id] := by
    simp [nameOf, List.getElem?_eq_getElem hid]
  rw [hname]
  exact h.names_nodup.idxOf_getElem id hlen

theorem IsNumbered.nameOf_injective {context : Context} (h : context.IsNumbered)
    {id other : AliasId} (hid : id < context.aliases.length)
    (hother : other < context.aliases.length) (heq : context.nameOf id = context.nameOf other) :
    id = other := by
  rw [← h.idxOf_nameOf hid, ← h.idxOf_nameOf hother, heq]

end Context

theorem isWalkInvariant_isNumbered :
    IsWalkInvariant follow fun _ context _ after =>
      context.IsFresh → context.IsNumbered → after.IsNumbered where
  nil _ hnum := hnum
  append hwalk _ h h' hfresh hnum := h' (hwalk.extends hfresh).1 (h hfresh hnum)
  leaf _ _ hnum := hnum
  group op _ h hfresh hnum := by
    rw [Context.closed_eq]
    exact (h (hfresh.opened op) (hnum.opened op)).congr rfl rfl
  conjoin _ h := h
  related {_ _ label fields _ _} h hbody hfresh hnum := by
    rcases follow_cases hfresh h with ⟨-, terms, hwalk, -⟩ |
      ⟨-, terms, inside, hwalk, -, -, -, rfl⟩
    · exact hbody hwalk hfresh.addScoped hnum.addScoped
    · have hinside := hbody hwalk (hfresh.entered label fields _) (hnum.entered label fields _)
      exact hinside.congr Context.left_aliases Context.left_options

/-- A walk numbers the aliases it adds. -/
theorem Walk.isNumbered {part : Part} {id : AliasId} {context after : Context}
    {terms : List Formula} (h : Walk follow id context part terms after)
    (hfresh : context.IsFresh) (hnum : context.IsNumbered) : after.IsNumbered :=
  h.invariant isWalkInvariant_isNumbered hfresh hnum

/-! ## 6.  The root record -/

/-- The context in which the fields of the root record are compiled. -/
def Context.rooted (options : Options) (fields : List (String × Json)) : Context :=
  match aliasOf fields with
  | some declared => (Context.start options).bind declared Context.root
  | none => Context.start options

theorem Context.rooted_eq (options : Options) (fields : List (String × Json)) :
    Context.rooted options fields =
      { Context.start options with bindings := (Context.rooted options fields).bindings } := by
  simp only [Context.rooted]
  cases aliasOf fields <;> rfl

@[simp] theorem Context.rooted_options (options : Options) (fields : List (String × Json)) :
    (Context.rooted options fields).options = options := by
  rw [Context.rooted_eq]
  rfl

@[simp] theorem Context.rooted_aliases (options : Options) (fields : List (String × Json)) :
    (Context.rooted options fields).aliases = (Context.start options).aliases := by
  rw [Context.rooted_eq]

@[simp] theorem Context.rooted_matchedCount (options : Options) (fields : List (String × Json)) :
    (Context.rooted options fields).matchedCount = 1 := by
  rw [Context.rooted_eq]
  rfl

@[simp] theorem Context.rooted_inNegation (options : Options) (fields : List (String × Json)) :
    (Context.rooted options fields).inNegation = false := by
  rw [Context.rooted_eq]
  rfl

theorem Context.isFresh_rooted (options : Options) (fields : List (String × Json)) :
    (Context.rooted options fields).IsFresh := by
  rw [Context.rooted_eq]
  exact ⟨fun _ => rfl, fun _ => rfl, fun _ => rfl⟩

theorem Context.isNumbered_rooted (options : Options) (fields : List (String × Json)) :
    (Context.rooted options fields).IsNumbered := by
  rw [Context.rooted_eq]
  exact (Context.isNumbered_start options).congr rfl rfl

theorem walk_object_iff {id : AliasId} {fields : List (String × Json)}
    {context after : Context} {terms : List Formula} :
    objectTerms id fields context = .ok terms after ↔
      Walk follow id context (.object fields) terms after := by
  show (Part.object fields).terms follow id context = .ok terms after ↔ _
  exact walk_iff

/-- The criteria of the root record are compiled along a walk, and then its terms are kept. -/
theorem rootTerms_object_eq_ok {options : Options} {fields : List (String × Json)}
    {after : Context} :
    rootTerms (.object fields) (Context.start options) = .ok () after ↔
      ∃ terms inside, Walk follow Context.root (Context.rooted options fields) (.object fields)
        terms inside ∧ keepTerms Context.root 1 terms inside = after := by
  simp only [← walk_object_iff, rootTerms, Context.rooted]
  cases aliasOf fields with
  | none => simp only [Descent.bind_eq_ok, Descent.modify_eq_ok]
  | some declared =>
    simp only [Descent.bind_eq_ok, Descent.modify_eq_ok]
    constructor
    · rintro ⟨_, _, rfl, h⟩
      exact h
    · intro h
      exact ⟨⟨⟩, _, rfl, h⟩

section

variable {id : AliasId} {before : Nat} {terms : List Formula} {context : Context}

/-- Keeping the terms of the root changes deferred and attached terms alone. -/
theorem keepTerms_eq : keepTerms id before terms context =
    { context with
      deferred := (keepTerms id before terms context).deferred
      attached := (keepTerms id before terms context).attached } := by
  simp only [keepTerms, Context.defer, Context.attach]
  split
  · rfl
  · split <;> rfl

@[simp] theorem keepTerms_aliases :
    (keepTerms id before terms context).aliases = context.aliases := by
  rw [keepTerms_eq]

@[simp] theorem keepTerms_patterns :
    (keepTerms id before terms context).patterns = context.patterns := by
  rw [keepTerms_eq]

@[simp] theorem keepTerms_bindings :
    (keepTerms id before terms context).bindings = context.bindings := by
  rw [keepTerms_eq]

theorem keepTerms_attached?_of_ne {other : AliasId} (h : other ≠ id) :
    (keepTerms id before terms context).attached? other = context.attached? other := by
  simp only [keepTerms]
  split
  · rfl
  · split
    · rfl
    · exact Table.find?_insert_of_ne h terms context.attached

end

/-- Every relation takes its deferred terms away again. -/
theorem Walk.deferred_eq_nil {options : Options} {fields : List (String × Json)}
    {terms : List Formula} {inside : Context}
    (h : Walk follow Context.root (Context.rooted options fields) (.object fields) terms inside) :
    inside.deferred = [] := by
  obtain ⟨-, hext⟩ := h.extends (Context.isFresh_rooted options fields)
  rw [hext.deferred, Context.rooted_eq]
  rfl

/-- The terms taken for the root are the terms its criteria yield, whether they were deferred
or attached. -/
theorem takeRootTerms_keepTerms {options : Options} {fields : List (String × Json)}
    {terms : List Formula} {inside : Context}
    (h : Walk follow Context.root (Context.rooted options fields) (.object fields) terms inside) :
    (Selection.takeRootTerms (keepTerms Context.root 1 terms inside)).1 = terms := by
  obtain ⟨-, hext⟩ := h.extends (Context.isFresh_rooted options fields)
  have hdeferred := h.deferred_eq_nil
  have hattached : inside.attached? Context.root = none := by
    rw [hext.attached (by rw [Context.rooted_eq]; exact Nat.zero_lt_one), Context.rooted_eq]
    rfl
  simp only [Selection.takeRootTerms, keepTerms, Context.takeDeferred]
  by_cases hcount : 1 < inside.matchedCount
  · simp [hcount, Context.defer, hdeferred]
  · cases terms with
    | nil => simp [hcount, hdeferred, Context.attached?] at hattached ⊢; simp [hattached]
    | cons term terms => simp [hcount, hdeferred, Context.attach, Context.attached?]

/-! ## 7.  Attached terms -/

/-- What is attached in the context has the property. -/
def Context.AttachedHave (P : Formula → Prop) (context : Context) : Prop :=
  ∀ {id terms}, context.attached? id = some terms → ∀ t ∈ terms, P t

namespace Context.AttachedHave

variable {P : Formula → Prop} {context : Context} {terms : List Formula}

theorem attach (h : context.AttachedHave P) (id : AliasId) (hterms : ∀ t ∈ terms, P t) :
    (context.attach id terms).AttachedHave P := by
  intro other stored hattached
  rw [Context.attached?, Context.attach] at hattached
  by_cases hother : other = id
  · subst hother
    rw [Table.find?_insert_self] at hattached
    obtain rfl := Option.some.inj hattached
    exact hterms
  · rw [Table.find?_insert_of_ne hother] at hattached
    exact h hattached

theorem left (h : context.AttachedHave P) (id : AliasId) (count : Nat)
    (hterms : ∀ t ∈ terms, P t) : (context.left id count terms).AttachedHave P := by
  rw [Context.left]
  split
  · exact h
  · exact h.attach id hterms

theorem keepTerms (h : context.AttachedHave P) (id : AliasId) (count : Nat)
    (hterms : ∀ t ∈ terms, P t) : (Matching.keepTerms id count terms context).AttachedHave P := by
  rw [Matching.keepTerms]
  split
  · exact h
  · split
    · exact h
    · exact h.attach id hterms

end Context.AttachedHave

/-- An optional match of a context has a pattern of it and what is attached there. -/
theorem exists_of_mem_hopsOf {context : Context} {hop : OptionalMatch}
    (h : hop ∈ Selection.hopsOf context) : ∃ id, context.pattern? id = some hop.pattern ∧
      ∀ t ∈ hop.terms, ∃ terms, context.attached? id = some terms ∧ t ∈ terms := by
  obtain ⟨id, -, hfound⟩ := List.mem_filterMap.mp h
  obtain ⟨pattern, hpattern, rfl⟩ := Option.map_eq_some_iff.mp hfound
  refine ⟨id, hpattern, fun t ht => ?_⟩
  cases hattached : context.attached? id with
  | none => simp [hattached] at ht
  | some terms =>
    rw [hattached] at ht
    exact ⟨terms, rfl, ht⟩

end GraphSearch.Matching
