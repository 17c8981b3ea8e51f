import GraphSearch.Proofs.Matching.Leaves
/-!
# What the recursion respects

Two compilations of the same criteria go through the same steps, against whatever aliases and in
whatever contexts they run.  A relation between steps is a *congruence* when it is kept by the
few ways in which the recursion puts steps together (`IsCongruence`), and then any two
compilations of the same criteria are related: of an object (`IsCongruence.of_object`), of a
group (`IsCongruence.of_group`) and below a relation (`IsCongruence.of_related`).

Some relations are kept only where the criteria are of some kind.  A congruence *on* leaves that
are admitted is one where nothing is asked of the others (`IsCongruenceOn`), and it relates the
compilations of criteria whose leaves are all admitted.

Nothing is asked of runs that succeed, so this is how a fact about runs that may be rejected is
proved, where `Walk` has nothing to say.  A property of single steps is a relation that does not
look at its second step.
-/

namespace GraphSearch.Matching

open Criteria

/-- Compiles the members of a group, however the group is written. -/
def groupMembers (id : AliasId) (op : GroupOp) : Json → Descent (List Formula)
  | .array items => memberTerms follow id op items
  | .object fields => entryMembers follow id fields
  | other => throw (.invalidOperand op.key op.key other)

theorem groupTerms_eq (id : AliasId) (op : GroupOp) (value : Json) : groupTerms id op value =
    Descent.amongMembers op (groupMembers id op value) >>= fun members =>
      pure (groupTerm op members) := by
  cases value <;> rfl

/-! ## 1.  Congruences on some leaves -/

/-- A relation between steps that the recursion respects where all leaves are admitted.  What a
step yields does not matter to it: two sequences are related when their continuations are,
whatever these are given. -/
structure IsCongruenceOn (Admits : String × Json → Prop)
    (Related : {α : Type} → Descent α → Descent α → Prop) : Prop where
  value : ∀ {α : Type} (a b : α), Related (pure a) (pure b)
  refusal : ∀ {α : Type} (rejection : Rejection),
    Related (throw rejection : Descent α) (throw rejection)
  sequence : ∀ {α β : Type} {step other : Descent α} {next next' : α → Descent β},
    Related step other → (∀ a b, Related (next a) (next' b)) →
    Related (step >>= next) (other >>= next')
  group : ∀ {α : Type} (op : GroupOp) {step other : Descent α}, Related step other →
    Related (Descent.amongMembers op step) (Descent.amongMembers op other)
  leaf : ∀ (id id' : AliasId) (key : String) (value : Json), Admits (key, value) →
    Related (leafTerms id key value) (leafTerms id' key value)
  relation : ∀ {label : String} {fields : List (String × Json)} {parent parent' : AliasId}
    {body body' : AliasId → Descent (List Formula)}, (∀ leaf ∈ fieldLeaves fields, Admits leaf) →
    (∀ child child', Related (body child) (body' child')) →
    Related (follow label fields parent body) (follow label fields parent' body')

namespace IsCongruenceOn

variable {Admits : String × Json → Prop} {Related : {α : Type} → Descent α → Descent α → Prop}

theorem of_bothPasses (h : IsCongruenceOn Admits Related)
    {pass pass' : Bool → Descent (List Formula)}
    (hpass : ∀ related, Related (pass related) (pass' related)) :
    Related (bothPasses pass) (bothPasses pass') :=
  h.sequence (hpass false) fun _ _ => h.sequence (hpass true) fun _ _ => h.value _ _

mutual

theorem of_entry (h : IsCongruenceOn Admits Related) (id id' : AliasId) (key : String)
    (value : Json) (hleaves : ∀ leaf ∈ entryLeaves key value, Admits leaf) :
    Related (entryTerms follow id key value) (entryTerms follow id' key value) := by
  match value with
  | .object fields =>
    rw [entryLeaves] at hleaves
    rw [entryTerms, entryTerms]
    match hkind : kindOf key (.object fields) with
    | .group op =>
      simp only [hkind] at hleaves
      exact h.sequence (h.group op (h.of_groupEntries id id' fields hleaves)) fun _ _ =>
        h.value _ _
    | .related =>
      simp only [hkind] at hleaves
      refine h.sequence (h.relation hleaves fun child child' => ?_) fun _ _ => h.value _ _
      exact h.of_bothPasses fun related => h.of_pass child child' related fields hleaves
    | .identity | .declaration | .relation | .property =>
      simp only [hkind] at hleaves
      exact h.leaf id id' key (.object fields) (hleaves _ (List.mem_singleton_self _))
  | .array items =>
    rw [entryLeaves] at hleaves
    rw [entryTerms, entryTerms]
    match hkind : kindOf key (.array items) with
    | .group op =>
      simp only [hkind] at hleaves
      exact h.sequence (h.group op (h.of_members id id' op items hleaves)) fun _ _ =>
        h.value _ _
    | .identity | .declaration | .relation | .property | .related =>
      simp only [hkind] at hleaves
      exact h.leaf id id' key (.array items) (hleaves _ (List.mem_singleton_self _))
  | .null | .bool _ | .number _ | .string _ =>
    simp only [entryLeaves] at hleaves
    rw [entryTerms, entryTerms]
    exact h.leaf id id' key _ (hleaves _ (List.mem_singleton_self _))

theorem of_pass (h : IsCongruenceOn Admits Related) (id id' : AliasId) (related : Bool)
    (fields : List (String × Json)) (hleaves : ∀ leaf ∈ fieldLeaves fields, Admits leaf) :
    Related (passTerms follow id related fields) (passTerms follow id' related fields) := by
  match fields with
  | [] =>
    rw [passTerms, passTerms]
    exact h.value _ _
  | (key, value) :: fields =>
    rw [fieldLeaves] at hleaves
    obtain ⟨hentry, hfields⟩ := List.forall_mem_append.mp hleaves
    rw [passTerms, passTerms]
    split
    · refine h.sequence (h.of_entry id id' key value hentry) fun _ _ => ?_
      exact h.sequence (h.of_pass id id' related fields hfields) fun _ _ => h.value _ _
    · exact h.of_pass id id' related fields hfields

theorem of_members (h : IsCongruenceOn Admits Related) (id id' : AliasId) (op : GroupOp)
    (items : List Json) (hleaves : ∀ leaf ∈ itemsLeaves items, Admits leaf) :
    Related (memberTerms follow id op items) (memberTerms follow id' op items) := by
  match items with
  | [] =>
    rw [memberTerms, memberTerms]
    exact h.value _ _
  | item :: items =>
    rw [itemsLeaves] at hleaves
    obtain ⟨hitem, hitems⟩ := List.forall_mem_append.mp hleaves
    rw [memberTerms, memberTerms]
    refine h.sequence (h.of_member id id' op item hitem) fun _ _ => ?_
    exact h.sequence (h.of_members id id' op items hitems) fun _ _ => h.value _ _

theorem of_member (h : IsCongruenceOn Admits Related) (id id' : AliasId) (op : GroupOp)
    (item : Json) (hleaves : ∀ leaf ∈ itemLeaves item, Admits leaf) :
    Related (memberTerm follow id op item) (memberTerm follow id' op item) := by
  match item with
  | .object fields =>
    rw [itemLeaves] at hleaves
    rw [memberTerm, memberTerm]
    refine h.sequence (h.of_bothPasses fun related => ?_) fun _ _ => h.value _ _
    exact h.of_pass id id' related fields hleaves
  | .array items =>
    rw [itemLeaves] at hleaves
    rw [memberTerm, memberTerm]
    exact h.sequence (h.of_members id id' .and items hleaves) fun _ _ => h.value _ _
  | .null | .bool _ | .number _ | .string _ =>
    rw [memberTerm, memberTerm]
    exact h.refusal _

theorem of_groupEntries (h : IsCongruenceOn Admits Related) (id id' : AliasId)
    (fields : List (String × Json)) (hleaves : ∀ leaf ∈ fieldLeaves fields, Admits leaf) :
    Related (entryMembers follow id fields) (entryMembers follow id' fields) := by
  match fields with
  | [] =>
    rw [entryMembers, entryMembers]
    exact h.value _ _
  | (key, value) :: fields =>
    rw [fieldLeaves] at hleaves
    obtain ⟨hentry, hfields⟩ := List.forall_mem_append.mp hleaves
    rw [entryMembers, entryMembers]
    refine h.sequence (h.of_entry id id' key value hentry) fun _ _ => ?_
    exact h.sequence (h.of_groupEntries id id' fields hfields) fun _ _ => h.value _ _

end

/-- The compilations of one criteria object are related. -/
theorem of_object (h : IsCongruenceOn Admits Related) (id id' : AliasId)
    (fields : List (String × Json)) (hleaves : ∀ leaf ∈ fieldLeaves fields, Admits leaf) :
    Related (objectTerms id fields) (objectTerms id' fields) :=
  h.of_bothPasses fun related => h.of_pass id id' related fields hleaves

/-- The compilations of the members of one group are related, before they are put together. -/
theorem of_groupMembers (h : IsCongruenceOn Admits Related) (id id' : AliasId) (op : GroupOp)
    (value : Json) (hleaves : ∀ leaf ∈ itemLeaves value, Admits leaf) :
    Related (groupMembers id op value) (groupMembers id' op value) := by
  cases value with
  | array items =>
    rw [itemLeaves] at hleaves
    exact h.of_members id id' op items hleaves
  | object fields =>
    rw [itemLeaves] at hleaves
    exact h.of_groupEntries id id' fields hleaves
  | null | bool _ | number _ | string _ => exact h.refusal _

/-- The compilations of one group are related. -/
theorem of_group (h : IsCongruenceOn Admits Related) (id id' : AliasId) (op : GroupOp)
    (value : Json) (hleaves : ∀ leaf ∈ itemLeaves value, Admits leaf) :
    Related (groupTerms id op value) (groupTerms id' op value) := by
  rw [groupTerms_eq, groupTerms_eq]
  exact h.sequence (h.group op (h.of_groupMembers id id' op value hleaves)) fun _ _ =>
    h.value _ _

/-- The compilations of criteria for related records are related. -/
theorem of_related (h : IsCongruenceOn Admits Related) (parent parent' : AliasId)
    (label : String) (value : Json) (hleaves : ∀ leaf ∈ itemLeaves value, Admits leaf) :
    Related (relatedTerm parent label value) (relatedTerm parent' label value) := by
  cases value with
  | object fields =>
    rw [itemLeaves] at hleaves
    exact h.relation hleaves fun child child' => h.of_object child child' fields hleaves
  | array _ | null | bool _ | number _ | string _ => exact h.refusal _

end IsCongruenceOn

/-! ## 2.  Congruences -/

/-- A relation between steps that the recursion respects, whatever the leaves are. -/
structure IsCongruence (Related : {α : Type} → Descent α → Descent α → Prop) : Prop where
  value : ∀ {α : Type} (a b : α), Related (pure a) (pure b)
  refusal : ∀ {α : Type} (rejection : Rejection),
    Related (throw rejection : Descent α) (throw rejection)
  sequence : ∀ {α β : Type} {step other : Descent α} {next next' : α → Descent β},
    Related step other → (∀ a b, Related (next a) (next' b)) →
    Related (step >>= next) (other >>= next')
  group : ∀ {α : Type} (op : GroupOp) {step other : Descent α}, Related step other →
    Related (Descent.amongMembers op step) (Descent.amongMembers op other)
  leaf : ∀ (id id' : AliasId) (key : String) (value : Json),
    Related (leafTerms id key value) (leafTerms id' key value)
  relation : ∀ {label : String} {fields : List (String × Json)} {parent parent' : AliasId}
    {body body' : AliasId → Descent (List Formula)},
    (∀ child child', Related (body child) (body' child')) →
    Related (follow label fields parent body) (follow label fields parent' body')

namespace IsCongruence

variable {Related : {α : Type} → Descent α → Descent α → Prop}

/-- A congruence is one on all leaves. -/
theorem on (h : IsCongruence Related) : IsCongruenceOn (fun _ => True) Related where
  value := h.value
  refusal := h.refusal
  sequence := h.sequence
  group := h.group
  leaf id id' key value _ := h.leaf id id' key value
  relation _ hbody := h.relation hbody

theorem of_entry (h : IsCongruence Related) (id id' : AliasId) (key : String) (value : Json) :
    Related (entryTerms follow id key value) (entryTerms follow id' key value) :=
  h.on.of_entry id id' key value fun _ _ => trivial

/-- The compilations of one criteria object are related. -/
theorem of_object (h : IsCongruence Related) (id id' : AliasId)
    (fields : List (String × Json)) :
    Related (objectTerms id fields) (objectTerms id' fields) :=
  h.on.of_object id id' fields fun _ _ => trivial

/-- The compilations of the members of one group are related, before they are put together. -/
theorem of_groupMembers (h : IsCongruence Related) (id id' : AliasId) (op : GroupOp)
    (value : Json) : Related (groupMembers id op value) (groupMembers id' op value) :=
  h.on.of_groupMembers id id' op value fun _ _ => trivial

/-- The compilations of one group are related. -/
theorem of_group (h : IsCongruence Related) (id id' : AliasId) (op : GroupOp) (value : Json) :
    Related (groupTerms id op value) (groupTerms id' op value) :=
  h.on.of_group id id' op value fun _ _ => trivial

/-- The compilations of criteria for related records are related. -/
theorem of_related (h : IsCongruence Related) (parent parent' : AliasId) (label : String)
    (value : Json) :
    Related (relatedTerm parent label value) (relatedTerm parent' label value) :=
  h.on.of_related parent parent' label value fun _ _ => trivial

end IsCongruence
end GraphSearch.Matching
