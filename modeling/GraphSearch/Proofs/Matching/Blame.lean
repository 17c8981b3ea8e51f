import GraphSearch.Matching.Selection
import GraphSearch.Proofs.Criteria.Blame
import GraphSearch.Proofs.Matching.Endings
/-!
# What a filter is rejected for

A filter is rejected for a value that stands in it, given as it was written, and the rejection
names a key on the way to that value.  There is one exception.  An array among the members of a
group is an inner conjunction, and what is no member of it is reported under the operator of
conjunctions, which may be written nowhere in the filter.

* `Json.EndsInInnerItem`: the path ends at an item of an array that is an item itself;
* `Rejection.IsPlacedIn`: where the value of a rejection stands, and whether its key is on the way;
* `leafPredicates_blames`: entries without criteria inside;
* `isPlacedIn_of_entry`: the recursion;
* `ofCriteria_eq_error`: the rejections of a filter.
-/

namespace GraphSearch

/-! ## 1.  Items of inner arrays -/

namespace Json

/-- The path ends at an item of an array that is itself an item of an array. -/
def EndsInInnerItem (path : List PathStep) : Prop :=
  ∃ place inner, [PathStep.item place, .item inner] <:+ path

theorem endsInInnerItem_cons {step : PathStep} {path : List PathStep} :
    EndsInInnerItem (step :: path) ↔
      (∃ place inner, step = .item place ∧ path = [.item inner]) ∨ EndsInInnerItem path := by
  simp only [EndsInInnerItem, List.suffix_cons_iff, exists_or]
  constructor
  · rintro (⟨place, inner, h⟩ | h)
    · obtain ⟨rfl, rfl⟩ := List.cons.inj h.symm
      exact .inl ⟨place, inner, rfl, rfl⟩
    · exact .inr h
  · rintro (⟨place, inner, rfl, rfl⟩ | h)
    · exact .inl ⟨place, inner, rfl⟩
    · exact .inr h

/-- Going on through items, a path ends in an inner one. -/
theorem endsInInnerItem_items (place : Nat) {places : List Nat} (h : places ≠ []) :
    EndsInInnerItem (.item place :: places.map .item) := by
  induction places generalizing place with
  | nil => exact absurd rfl h
  | cons inner places ih =>
    rw [endsInInnerItem_cons]
    cases places with
    | nil => exact .inl ⟨place, inner, rfl, rfl⟩
    | cons next places => exact .inr (ih inner (List.cons_ne_nil _ _))

theorem not_endsInInnerItem_keys (names : List String) :
    ¬ EndsInInnerItem (names.map .key) := by
  rintro ⟨place, inner, h⟩
  have hmem : PathStep.item place ∈ names.map PathStep.key := h.subset List.mem_cons_self
  obtain ⟨name, -, hname⟩ := List.mem_map.mp hmem
  exact PathStep.noConfusion hname

/-- The items of the array under a key are no inner ones. -/
theorem not_endsInInnerItem_pair (name : String) (place : Nat) :
    ¬ EndsInInnerItem [.key name, .item place] := by
  rintro ⟨_, _, h⟩
  cases h.eq_of_length rfl

end Json

/-! ## 2.  Where the value of a rejection stands -/

namespace Rejection

open Json (PathStep EndsInInnerItem)

variable {rejection : Rejection} {op : GroupOp} {key : String} {value item : Json}
  {fields : List (String × Json)} {items : List Json} {place : Nat}

/-- The rejection is for what a path into the criteria leads to, and names a key on the path.
Only if this is an item of an inner array it names the operator of conjunctions instead, whether
or not that is on the path. -/
def IsPlacedIn (rejection : Rejection) (criteria : Json) : Prop :=
  ∃ path, criteria.Reaches path rejection.value ∧
    (¬ EndsInInnerItem path ∧ .key rejection.key ∈ path ∨
      EndsInInnerItem path ∧
        rejection = .invalidOperand GroupOp.and.key GroupOp.and.key rejection.value)

/-- What is placed in a value is placed in those the value is a step inside of. -/
theorem IsPlacedIn.of_step {outer : Json} {step : PathStep} (h : rejection.IsPlacedIn value)
    (hstep : ∀ {path inner}, value.Reaches path inner → outer.Reaches (step :: path) inner) :
    rejection.IsPlacedIn outer := by
  obtain ⟨path, hreaches, hkey⟩ := h
  refine ⟨step :: path, hstep hreaches, ?_⟩
  rw [Json.endsInInnerItem_cons]
  rcases hkey with ⟨hinner, hkey⟩ | ⟨hinner, hkey⟩
  · refine .inl ⟨?_, List.mem_cons_of_mem _ hkey⟩
    rintro (⟨_, inner, rfl, rfl⟩ | h)
    · exact PathStep.noConfusion (List.mem_singleton.mp hkey)
    · exact hinner h
  · exact .inr ⟨.inr hinner, hkey⟩

theorem IsPlacedIn.of_field (hmem : (key, value) ∈ fields) (h : rejection.IsPlacedIn value) :
    rejection.IsPlacedIn (.object fields) :=
  h.of_step (.key hmem)

theorem IsPlacedIn.of_item (hitem : items[place]? = some item) (h : rejection.IsPlacedIn item) :
    rejection.IsPlacedIn (.array items) :=
  h.of_step (.item hitem)

/-- What the value of an entry is blamed for is placed in the object. -/
theorem Blames.isPlacedIn (h : rejection.Blames key value) (hmem : (key, value) ∈ fields) :
    rejection.IsPlacedIn (.object fields) := by
  obtain ⟨rfl, names, hreaches⟩ := h
  exact ⟨_, .key hmem hreaches, .inl ⟨Json.not_endsInInnerItem_keys (_ :: names),
    List.mem_cons_self⟩⟩

/-- The rejection is for something that is no member of a group.  It is the item itself, or an
item of arrays inside of it, which are conjunctions whatever the group is. -/
def RefusesMember (rejection : Rejection) (op : GroupOp) (item : Json) : Prop :=
  ∃ places : List Nat, item.Reaches (places.map .item) rejection.value ∧
    ∃ named : GroupOp, named = (if places = [] then op else .and) ∧
      rejection = .invalidOperand named.key named.key rejection.value

theorem refusesMember_self (op : GroupOp) (item : Json) :
    (Rejection.invalidOperand op.key op.key item).RefusesMember op item :=
  ⟨[], .here, op, rfl, rfl⟩

theorem RefusesMember.of_item (hitem : items[place]? = some item)
    (h : rejection.RefusesMember .and item) : rejection.RefusesMember op (.array items) := by
  obtain ⟨places, hreaches, named, hnamed, hrejection⟩ := h
  refine ⟨place :: places, .item hitem hreaches, named, ?_, hrejection⟩
  rw [hnamed, ite_self, if_neg (List.cons_ne_nil _ _)]

/-- What is no member of a group is placed in the object that the group is an entry of. -/
theorem RefusesMember.isPlacedIn (h : rejection.RefusesMember op item)
    (hitem : items[place]? = some item) (hmem : (op.key, .array items) ∈ fields) :
    rejection.IsPlacedIn (.object fields) := by
  obtain ⟨places, hreaches, named, hnamed, hrejection⟩ := h
  refine ⟨.key op.key :: .item place :: places.map .item, .key hmem (.item hitem hreaches), ?_⟩
  by_cases hplaces : places = []
  · subst hplaces
    obtain rfl : named = op := hnamed
    refine .inl ⟨Json.not_endsInInnerItem_pair _ _, ?_⟩
    rw [hrejection]
    exact List.mem_cons_self
  · rw [if_neg hplaces] at hnamed
    subst hnamed
    exact .inr ⟨Json.endsInInnerItem_cons.mpr (.inr (Json.endsInInnerItem_items place hplaces)),
      hrejection⟩

end Rejection

namespace Matching

open Criteria Json

variable {rejection : Rejection} {id : AliasId} {context : Context} {key : String} {value : Json}
  {fields : List (String × Json)}

/-! ## 3.  Entries without criteria inside -/

/-- An entry without criteria inside is blamed for its own value. -/
theorem leafPredicates_blames {options : Options} {node : String}
    (h : leafPredicates options node key value = .error rejection) :
    rejection.Blames key value := by
  simp only [leafPredicates] at h
  split at h
  case h_1 hkind =>
    obtain rfl := key_of_kindOf_identity hkind
    exact Cypher.identityPredicates_blames h
  case h_2 => exact Cypher.propertyPredicates_blames h
  case h_3 => cases h
  case h_4 => cases h
  case h_5 op hkind =>
    obtain rfl := key_of_kindOf_group hkind
    cases h
    exact .whole _
  case h_6 =>
    cases h
    exact .whole _

theorem isPlacedIn_of_leaf
    (h : Descent.rejection? (leafTerms id key value) context = some rejection)
    (hmem : (key, value) ∈ fields) : rejection.IsPlacedIn (.object fields) := by
  rw [rejection?_leafTerms] at h
  split at h
  case h_1 => cases h
  case h_2 hleaf =>
    cases h
    exact (leafPredicates_blames hleaf).isPlacedIn hmem

/-! ## 4.  The recursion -/

theorem exists_of_rejection?_bothPasses {pass : Bool → Descent (List Formula)}
    (h : Descent.rejection? (bothPasses pass) context = some rejection) :
    ∃ related middle, Descent.rejection? (pass related) middle = some rejection := by
  rcases Descent.rejection?_bind_eq_some h with h | ⟨own, middle, h⟩
  · exact ⟨false, context, h⟩
  · rw [Descent.rejection?_bind_pure] at h
    exact ⟨true, middle, h⟩

mutual

theorem isPlacedIn_of_entry (id : AliasId) (context : Context) (key : String) (value : Json)
    {whole : List (String × Json)} (hmem : (key, value) ∈ whole)
    (h : Descent.rejection? (entryTerms follow id key value) context = some rejection) :
    rejection.IsPlacedIn (.object whole) := by
  match value with
  | .object fields =>
    rw [entryTerms] at h
    match hkind : kindOf key (.object fields) with
    | .group op =>
      simp only [hkind] at h
      rw [Descent.rejection?_bind_pure, Descent.rejection?_amongMembers] at h
      exact .of_field hmem (isPlacedIn_of_groupEntries id _ fields (List.Subset.refl _) h)
    | .related =>
      simp only [hkind] at h
      rw [Descent.rejection?_bind_pure] at h
      obtain ⟨child, inside, h⟩ := exists_of_rejection?_follow h
      obtain ⟨related, middle, h⟩ := exists_of_rejection?_bothPasses h
      exact .of_field hmem (isPlacedIn_of_pass child middle related fields (List.Subset.refl _) h)
    | .identity | .declaration | .relation | .property =>
      simp only [hkind] at h
      exact isPlacedIn_of_leaf h hmem
  | .array items =>
    rw [entryTerms] at h
    match hkind : kindOf key (.array items) with
    | .group op =>
      simp only [hkind] at h
      rw [Descent.rejection?_bind_pure, Descent.rejection?_amongMembers] at h
      obtain rfl : op.key = key := key_of_kindOf_group hkind
      obtain ⟨place, item, hitem, h⟩ := isPlacedIn_or_refusesMember_of_members id _ op items h
      rcases h with h | h
      · exact .of_field hmem (.of_item hitem h)
      · exact h.isPlacedIn hitem hmem
    | .identity | .declaration | .relation | .property | .related =>
      simp only [hkind] at h
      exact isPlacedIn_of_leaf h hmem
  | .null | .bool _ | .number _ | .string _ =>
    rw [entryTerms] at h
    exact isPlacedIn_of_leaf h hmem

theorem isPlacedIn_of_pass (id : AliasId) (context : Context) (related : Bool)
    (fields : List (String × Json)) {whole : List (String × Json)} (hsub : fields ⊆ whole)
    (h : Descent.rejection? (passTerms follow id related fields) context = some rejection) :
    rejection.IsPlacedIn (.object whole) := by
  match fields with
  | [] =>
    rw [passTerms] at h
    cases h
  | (key, value) :: fields =>
    obtain ⟨hmem, hsub⟩ := List.cons_subset.mp hsub
    rw [passTerms] at h
    split at h
    · rcases Descent.rejection?_bind_eq_some h with h | ⟨terms, middle, h⟩
      · exact isPlacedIn_of_entry id context key value hmem h
      · rw [Descent.rejection?_bind_pure] at h
        exact isPlacedIn_of_pass id middle related fields hsub h
    · exact isPlacedIn_of_pass id context related fields hsub h

/-- The members of a group that is written as an array are rejected for one of them: for what is
placed in it, or because it is none. -/
theorem isPlacedIn_or_refusesMember_of_members (id : AliasId) (context : Context) (op : GroupOp)
    (items : List Json)
    (h : Descent.rejection? (memberTerms follow id op items) context = some rejection) :
    ∃ (place : Nat) (item : Json), items[place]? = some item ∧
      (rejection.IsPlacedIn item ∨ rejection.RefusesMember op item) := by
  match items with
  | [] =>
    rw [memberTerms] at h
    cases h
  | item :: items =>
    rw [memberTerms] at h
    rcases Descent.rejection?_bind_eq_some h with h | ⟨term, middle, h⟩
    · exact ⟨0, item, rfl, isPlacedIn_or_refusesMember_of_member id context op item h⟩
    · rw [Descent.rejection?_bind_pure] at h
      obtain ⟨place, item, hitem, h⟩ :=
        isPlacedIn_or_refusesMember_of_members id middle op items h
      exact ⟨place + 1, item, hitem, h⟩

theorem isPlacedIn_or_refusesMember_of_member (id : AliasId) (context : Context) (op : GroupOp)
    (item : Json)
    (h : Descent.rejection? (memberTerm follow id op item) context = some rejection) :
    rejection.IsPlacedIn item ∨ rejection.RefusesMember op item := by
  match item with
  | .object fields =>
    rw [memberTerm, Descent.rejection?_bind_pure] at h
    obtain ⟨related, middle, h⟩ := exists_of_rejection?_bothPasses h
    exact .inl (isPlacedIn_of_pass id middle related fields (List.Subset.refl _) h)
  | .array items =>
    -- an inner array is a conjunction, and from here on it is named whatever the group is
    rw [memberTerm, Descent.rejection?_bind_pure] at h
    obtain ⟨place, item, hitem, h⟩ := isPlacedIn_or_refusesMember_of_members id context .and items h
    rcases h with h | h
    · exact .inl (.of_item hitem h)
    · exact .inr (h.of_item hitem)
  | .null | .bool _ | .number _ | .string _ =>
    rw [memberTerm] at h
    cases h
    exact .inr (Rejection.refusesMember_self op _)

theorem isPlacedIn_of_groupEntries (id : AliasId) (context : Context)
    (fields : List (String × Json)) {whole : List (String × Json)} (hsub : fields ⊆ whole)
    (h : Descent.rejection? (entryMembers follow id fields) context = some rejection) :
    rejection.IsPlacedIn (.object whole) := by
  match fields with
  | [] =>
    rw [entryMembers] at h
    cases h
  | (key, value) :: fields =>
    obtain ⟨hmem, hsub⟩ := List.cons_subset.mp hsub
    rw [entryMembers] at h
    rcases Descent.rejection?_bind_eq_some h with h | ⟨terms, middle, h⟩
    · exact isPlacedIn_of_entry id context key value hmem h
    · rw [Descent.rejection?_bind_pure] at h
      exact isPlacedIn_of_groupEntries id middle fields hsub h

end

/-! ## 5.  Filters -/

/-- The criteria of the root record are rejected for what their entries are. -/
theorem exists_of_rejection?_rootTerms
    (h : Descent.rejection? (rootTerms (.object fields)) context = some rejection) :
    ∃ related middle, Descent.rejection? (passTerms follow Context.root related fields) middle
      = some rejection := by
  have hobject : ∃ inside,
      Descent.rejection? (objectTerms Context.root fields) inside = some rejection := by
    rw [rootTerms] at h
    -- neither the declaration of the root nor keeping the terms is ever rejected
    split at h
    · rcases Descent.rejection?_bind_eq_some h with h | ⟨_, inside, h⟩
      · cases h
      · rcases Descent.rejection?_bind_eq_some h with h | ⟨_, _, h⟩
        · exact ⟨inside, h⟩
        · cases h
    · rcases Descent.rejection?_bind_eq_some h with h | ⟨_, _, h⟩
      · exact ⟨context, h⟩
      · cases h
  obtain ⟨inside, h⟩ := hobject
  exact exists_of_rejection?_bothPasses h

theorem rejection?_of_ofCriteria {options : Options} {criteria : Json} {labels : List String}
    {order : Option SortOrder} {skip limit : Option Nat}
    (h : Selection.ofCriteria options criteria labels order skip limit = .error rejection) :
    Descent.rejection? (rootTerms criteria) (Context.start options) = some rejection := by
  simp only [Selection.ofCriteria, EStateM.run] at h
  rw [Descent.rejection?]
  cases hrun : rootTerms criteria (Context.start options) with
  | ok _ after =>
    rw [hrun] at h
    cases h
  | error rejection' after =>
    rw [hrun] at h
    exact congrArg some (Except.error.inj h)

/-- A filter that is no object is rejected as a whole.  Any other is rejected for a value that
stands in it, and the key that is named is on the way to that value, save for the items of inner
arrays. -/
theorem ofCriteria_eq_error {options : Options} {criteria : Json} {labels : List String}
    {order : Option SortOrder} {skip limit : Option Nat}
    (h : Selection.ofCriteria options criteria labels order skip limit = .error rejection) :
    (∀ fields, criteria ≠ .object fields) ∧ rejection = .invalidOperand "where" "where" criteria ∨
      rejection.IsPlacedIn criteria := by
  have h := rejection?_of_ofCriteria h
  cases criteria with
  | object fields =>
    obtain ⟨related, middle, h⟩ := exists_of_rejection?_rootTerms h
    exact .inr (isPlacedIn_of_pass _ middle related fields (List.Subset.refl _) h)
  | null => cases h
  | bool _ | number _ | string _ | array _ =>
    cases h
    exact .inl ⟨fun _ => Json.noConfusion, rfl⟩

/-- A date-time with an entry that is no component of it, in a comparison below a relation and a
negation. -/
def strayComponent : Json :=
  .object [("A", .object [("$not", .array [.object [("age", .object
    [("$gte", .object [("$year", .number (.int 2024)), ("$era", .number (.int 1))])])]])])]

/-- The whole date-time is blamed, and the property it is compared with. -/
theorem ofCriteria_eq_error_strayComponent :
    ∃ rejection, Selection.ofCriteria {} strayComponent [] none none none = .error rejection ∧
      rejection.key = "age" ∧ rejection.IsPlacedIn strayComponent := by
  have hrejected : Selection.ofCriteria {} strayComponent [] none none none =
      .error (.unknownComponent "age" "$era"
        (.object [("$year", .number (.int 2024)), ("$era", .number (.int 1))])) := by rfl
  refine ⟨_, hrejected, rfl, ?_⟩
  rcases ofCriteria_eq_error hrejected with ⟨h, -⟩ | h
  · exact absurd rfl (h _)
  · exact h

/-- The item of an inner array is reported under a key that is written nowhere: the group it
stands in has another one. -/
theorem ofCriteria_misplaces : ¬ ∀ (options : Options) (criteria : Json) (labels : List String)
    (order : Option SortOrder) (skip limit : Option Nat) (rejection : Rejection),
    Selection.ofCriteria options criteria labels order skip limit = .error rejection →
      (∃ path, criteria.Reaches path rejection.value) ∧
        ((∀ fields, criteria ≠ .object fields) ∧ rejection.key = "where" ∨
          ∃ path, criteria.Reaches path rejection.value ∧ .key rejection.key ∈ path) := by
  intro h
  have hrejected : Selection.ofCriteria {} (.object [("$or", .array [.array [.number (.int 1)]])])
      [] none none none = .error (.invalidOperand "$and" "$and" (.number (.int 1))) := by rfl
  rcases (h _ _ _ _ _ _ _ hrejected).2 with ⟨h, -⟩ | ⟨path, hreaches, hkey⟩
  · exact h _ rfl
  · -- the only path to a number goes through the group and two items
    cases hreaches with
    | key hmem hreaches =>
      obtain ⟨rfl, rfl⟩ := Prod.mk.inj (List.mem_singleton.mp hmem)
      cases hreaches with
      | item hitem hreaches =>
        obtain rfl := List.mem_singleton.mp (List.mem_of_getElem? hitem)
        cases hreaches with
        | item hitem hreaches =>
          obtain rfl := List.mem_singleton.mp (List.mem_of_getElem? hitem)
          cases hreaches with
          | here => simp [Rejection.key] at hkey

end Matching
end GraphSearch
