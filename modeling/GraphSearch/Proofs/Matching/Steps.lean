import GraphSearch.Matching.Terms
/-!
# Steps that succeed

A step of the compilation either leaves a value and a context or a rejection and a context.
The lemmas here say what a step that succeeded did, one constructor of the monad at a time,
so that no later proof unfolds the monad:

* `bind_eq_ok`, `pure_eq_ok`, `map_eq_ok`, `lift_eq_ok`: the plumbing;
* `get_eq_ok`, `modify_eq_ok`, `modifyGet_eq_ok`: access to the context;
* `accepts_iff`: that a step succeeds is decided by running it;
* `amongMembers_eq_ok`: a step among the members of a group runs in `Context.opened` and
  leaves `Context.closed`;
* `own_append_related_perm`: the two passes over an object come by all of its entries;
* `leafTerms_eq_ok`: an entry without criteria inside leaves the context alone;
* `followScoped_eq_ok`, `followMatched_eq_ok`, `follow_eq_ok`: a relation is followed by
  compiling its fields against a new alias, the last of the aliases there are then;
* `toList_groupTerm`: what becomes of the terms of the members of a group.
-/

namespace GraphSearch.Matching

open Criteria

/-! ## 1.  Groups and contexts -/

namespace Context

/-- The context in which the members of a group are compiled. -/
def opened (op : GroupOp) (context : Context) : Context :=
  if op.negates then { context with negations := context.negations + 1 } else context

/-- The context after the members of a group are compiled. -/
def closed (op : GroupOp) (context : Context) : Context :=
  if op.negates then { context with negations := context.negations - 1 } else context

theorem opened_eq (op : GroupOp) (context : Context) :
    context.opened op = { context with negations := (context.opened op).negations } := by
  cases op <;> rfl

theorem closed_eq (op : GroupOp) (context : Context) :
    context.closed op = { context with negations := (context.closed op).negations } := by
  cases op <;> rfl

@[simp] theorem opened_aliases (op : GroupOp) (context : Context) :
    (context.opened op).aliases = context.aliases := by
  rw [opened_eq]

@[simp] theorem closed_aliases (op : GroupOp) (context : Context) :
    (context.closed op).aliases = context.aliases := by
  rw [closed_eq]

@[simp] theorem closed_patterns (op : GroupOp) (context : Context) :
    (context.closed op).patterns = context.patterns := by
  rw [closed_eq]

theorem negations_closed {op : GroupOp} {context after : Context}
    (h : after.negations = (context.opened op).negations) :
    (after.closed op).negations = context.negations := by
  cases op <;> simp_all [opened, closed, GroupOp.negates]

/-- The members of a group are inside a negation if the group is, or negates them. -/
theorem inNegation_opened (op : GroupOp) (context : Context) :
    (context.opened op).inNegation = (context.inNegation || op.negates) := by
  cases op <;> simp [opened, inNegation, GroupOp.negates]

end Context

/-! ## 2.  The monad -/

namespace Descent

variable {α β : Type} {context after : Context}

theorem bind_eq_ok {step : Descent α} {next : α → Descent β} {b : β} :
    (step >>= next) context = .ok b after ↔
      ∃ a middle, step context = .ok a middle ∧ next a middle = .ok b after := by
  simp only [bind, EStateM.bind]
  cases step context with
  | ok a middle =>
    constructor
    · intro h
      exact ⟨a, middle, rfl, h⟩
    · rintro ⟨_, _, ⟨⟩, h⟩
      exact h
  | error rejection middle => simp

theorem pure_eq_ok {a b : α} :
    (pure a : Descent α) context = .ok b after ↔ a = b ∧ context = after := by
  simp [pure, EStateM.pure]

theorem throw_ne_ok {rejection : Rejection} {a : α} :
    (throw rejection : Descent α) context ≠ .ok a after := by
  intro h
  cases h

theorem map_eq_ok {f : α → β} {step : Descent α} {b : β} :
    (f <$> step) context = .ok b after ↔ ∃ a, step context = .ok a after ∧ f a = b := by
  simp only [Functor.map, EStateM.map]
  cases step context with
  | ok a middle =>
    constructor
    · rintro ⟨⟩
      exact ⟨a, rfl, rfl⟩
    · rintro ⟨_, ⟨⟩, rfl⟩
      rfl
  | error rejection middle => simp

theorem lift_eq_ok {result : Except Rejection α} {a : α} :
    lift result context = .ok a after ↔ result = .ok a ∧ context = after := by
  cases result with
  | ok b => simp [lift, pure_eq_ok]
  | error rejection => simp [lift, throw_ne_ok]

theorem get_eq_ok {found : Context} :
    (get : Descent Context) context = .ok found after ↔ context = found ∧ context = after := by
  show EStateM.Result.ok context context = .ok found after ↔ _
  rw [EStateM.Result.ok.injEq]

theorem modify_eq_ok {f : Context → Context} {u : PUnit} :
    (modify f : Descent PUnit) context = .ok u after ↔ f context = after := by
  show EStateM.Result.ok PUnit.unit (f context) = .ok u after ↔ _
  rw [EStateM.Result.ok.injEq, eq_self_iff_true, true_and]

theorem modifyGet_eq_ok {f : Context → α × Context} {a : α} :
    (modifyGet f : Descent α) context = .ok a after ↔ f context = (a, after) := by
  show EStateM.Result.ok (f context).1 (f context).2 = .ok a after ↔ _
  rw [EStateM.Result.ok.injEq, Prod.ext_iff]

/-- The step is not rejected. -/
def accepts (step : Descent α) (context : Context) : Bool :=
  match step context with
  | .ok _ _ => true
  | .error _ _ => false

theorem accepts_iff {step : Descent α} :
    accepts step context = true ↔ ∃ a after, step context = .ok a after := by
  rw [accepts]
  cases step context with
  | ok a after => exact ⟨fun _ => ⟨a, after, rfl⟩, fun _ => rfl⟩
  | error rejection after => simp

/-- The members of a group are compiled between the opening and the closing of the group. -/
theorem amongMembers_eq_ok {op : GroupOp} {step : Descent α} {a : α} :
    amongMembers op step context = .ok a after ↔
      ∃ inside, step (context.opened op) = .ok a inside ∧ after = inside.closed op := by
  simp only [amongMembers, Context.opened, Context.closed]
  split
  case isTrue h =>
    simp only [insideNegation]
    cases step { context with negations := context.negations + 1 } with
    | ok b inside =>
      constructor
      · rintro ⟨⟩
        exact ⟨inside, rfl, rfl⟩
      · rintro ⟨_, ⟨⟩, rfl⟩
        rfl
    | error rejection inside => simp
  case isFalse h =>
    constructor
    · intro hstep
      exact ⟨after, hstep, rfl⟩
    · rintro ⟨_, hstep, rfl⟩
      exact hstep

end Descent

/-! ## 3.  Entries -/

theorem filter_isRelated_false (fields : List (String × Json)) :
    (fields.filter fun entry => isRelated entry = false) = ownEntries fields := by
  simp [ownEntries]

theorem filter_isRelated_true (fields : List (String × Json)) :
    (fields.filter fun entry => isRelated entry = true) = relatedEntries fields := by
  simp [relatedEntries]

theorem own_append_related_perm (fields : List (String × Json)) :
    (ownEntries fields ++ relatedEntries fields).Perm fields :=
  List.perm_append_comm.trans (List.filter_append_perm isRelated fields)


theorem leafTerms_eq_ok {id : AliasId} {key : String} {value : Json}
    {context after : Context} {terms : List Formula} :
    leafTerms id key value context = .ok terms after ↔
      context = after ∧ ∃ predicates,
        leafPredicates context.options (context.nameOf id) key value = .ok predicates ∧
          terms = predicateTerms (context.nameOf id) predicates := by
  simp only [leafTerms, Descent.bind_eq_ok, Descent.get_eq_ok, Descent.lift_eq_ok,
    Descent.pure_eq_ok]
  constructor
  · rintro ⟨_, _, ⟨rfl, rfl⟩, predicates, _, ⟨hpredicates, rfl⟩, rfl, rfl⟩
    exact ⟨rfl, predicates, hpredicates, rfl⟩
  · rintro ⟨rfl, predicates, hpredicates, rfl⟩
    exact ⟨_, _, ⟨rfl, rfl⟩, predicates, _, ⟨hpredicates, rfl⟩, rfl, rfl⟩

/-- Groups and related records are no entries without criteria inside. -/
theorem kindOf_of_leafPredicates {options : Options} {node key : String} {value : Json}
    {predicates : List String} (h : leafPredicates options node key value = .ok predicates) :
    (∀ op, kindOf key value ≠ .group op) ∧ kindOf key value ≠ .related := by
  constructor
  · intro op hkind
    simp [leafPredicates, hkind] at h
  · intro hkind
    simp [leafPredicates, hkind] at h

/-! ## 4.  Following a relation -/

section

variable {label : String} {fields : List (String × Json)} {parent : AliasId}
  {body : AliasId → Descent (List Formula)} {context after : Context} {term : Formula}

/-- The context in which the fields of a matched relation are compiled. -/
def Context.entered (context : Context) (label : String) (fields : List (String × Json))
    (parent : AliasId) : Context :=
  (openMatched label fields parent context).2

theorem openMatched_eq (label : String) (fields : List (String × Json)) (parent : AliasId)
    (context : Context) : openMatched label fields parent context =
      (context.aliases.length, context.entered label fields parent) := rfl

/-- What becomes of the terms of a matched relation: its term, and the context after it. -/
def leaveMatched (id : AliasId) (before : Nat) (terms : List Formula) (context : Context) :
    Formula × Context :=
  let (deferred, rest) := (keepTerms id before terms context).takeDeferred id
  (presence (rest.nameOf id) (deferred.getD []), rest)

theorem followScoped_eq_ok :
    followScoped label fields parent body context = .ok term after ↔
      ∃ terms, body context.aliases.length context.addScoped.2 = .ok terms after ∧
        term = .existential
          (.hop (context.addScoped.2.nameOf parent) (relationOf fields)
            (context.addScoped.2.nameOf context.aliases.length) label) terms := by
  simp only [followScoped, Descent.bind_eq_ok, Descent.modifyGet_eq_ok, Descent.get_eq_ok,
    Descent.pure_eq_ok]
  constructor
  · rintro ⟨_, _, ⟨⟩, _, _, ⟨rfl, rfl⟩, terms, _, hbody, rfl, rfl⟩
    exact ⟨terms, hbody, rfl⟩
  · rintro ⟨terms, hbody, rfl⟩
    exact ⟨_, _, rfl, _, _, ⟨rfl, rfl⟩, terms, _, hbody, rfl, rfl⟩

theorem followMatched_eq_ok :
    followMatched label fields parent body context = .ok term after ↔
      ∃ terms inside,
        body context.aliases.length (context.entered label fields parent) = .ok terms inside ∧
        (term, after) = leaveMatched context.aliases.length
          (context.entered label fields parent).matchedCount terms inside := by
  simp only [followMatched, Descent.bind_eq_ok, Descent.modifyGet_eq_ok, Descent.get_eq_ok,
    Descent.modify_eq_ok, Descent.pure_eq_ok, openMatched_eq]
  constructor
  · rintro ⟨_, _, ⟨⟩, _, _, ⟨rfl, rfl⟩, terms, inside, hbody, _, _, rfl, _, _, ⟨⟩, _, _,
      ⟨rfl, rfl⟩, rfl, rfl⟩
    exact ⟨terms, inside, hbody, rfl⟩
  · rintro ⟨terms, inside, hbody, ⟨⟩⟩
    exact ⟨_, _, rfl, _, _, ⟨rfl, rfl⟩, terms, inside, hbody, ⟨⟩, _, rfl, _, _, rfl, _, _,
      ⟨rfl, rfl⟩, rfl, rfl⟩

/-- Whether a relation is matched is decided by the context in which it is met. -/
theorem follow_eq_ok :
    follow label fields parent body context = .ok term after ↔
      if context.inNegation then followScoped label fields parent body context = .ok term after
      else followMatched label fields parent body context = .ok term after := by
  simp only [follow, Descent.bind_eq_ok, Descent.get_eq_ok]
  constructor
  · rintro ⟨_, _, ⟨rfl, rfl⟩, h⟩
    split at h <;> simp_all
  · intro h
    refine ⟨context, context, ⟨rfl, rfl⟩, ?_⟩
    split at h <;> simp_all

end

/-! ## 5.  Putting terms together -/

theorem conjoin_eq_groupTerm (terms : List Formula) : conjoin terms = groupTerm .and terms := by
  match terms with
  | [] | [_] | _ :: _ :: _ => rfl

/-- A group keeps its members as they are, or puts them under its connective or a negation. -/
theorem toList_groupTerm (op : GroupOp) (members : List Formula) :
    (groupTerm op members).toList = members ∨
      ∃ first others, members = first :: others ∧
        (groupTerm op members).toList =
          [if op.negates then .negation (connectiveOf op) first others
            else .group (connectiveOf op) first others] := by
  match members with
  | [] => cases op <;> exact Or.inl rfl
  | [member] =>
    cases op with
    | and => exact Or.inl rfl
    | or | xor | not | nor => exact Or.inr ⟨member, [], rfl, rfl⟩
  | first :: second :: others =>
    cases op <;> exact Or.inr ⟨first, second :: others, rfl, rfl⟩

end GraphSearch.Matching
