import GraphSearch.Proofs.Matching.Congruence
import GraphSearch.Proofs.Matching.Normalizing
/-!
# Compiling by levels

An object is compiled as two halves: its own entries, in order, and then its entries about related
records, in order.  Each entry is in one of the halves, and those about related records are objects
(`objectTerms_levels`), so the halves of an object are all that matters to what it is compiled to.

The recursion follows the shape of a value and takes a relation to an object as it meets it.  The
levels can be said directly as well: what each of the steps of a compilation comes to in terms of
the others (`LevelCompiler.IsLevelwise`).  These equations leave open what becomes of a relation to
a value that is no object.  They still have one solution on objects, groups and root criteria, which
is therefore the same whatever is answered there (`LevelCompiler.IsLevelwise.agrees`,
`LevelCompiler.isLevelwise_withRefusal`): no way into the compilation leads to such a relation, not
even by the members of a group that is written as an object, which are compiled as objects with one
entry.
-/

namespace GraphSearch.Matching

open Criteria Descent

/-! ## 1.  Passes as sequences of steps -/

section

variable (following : Following)

theorem passTerms_eq_mapM (id : AliasId) (related : Bool) (fields : List (String × Json)) :
    passTerms following id related fields = List.flatten <$>
      (fields.filter fun entry => isRelated entry = related).mapM fun entry =>
        entryTerms following id entry.1 entry.2 := by
  induction fields with
  | nil =>
    rw [passTerms]
    rfl
  | cons entry fields ih =>
    obtain ⟨key, value⟩ := entry
    rw [passTerms, List.filter_cons]
    by_cases hrelated : isRelated (key, value) = related
    · simp [hrelated, ih]
    · simp [hrelated, ih]

theorem reduceOption_cons (term : Option Formula) (terms : List (Option Formula)) :
    (term :: terms).reduceOption = term.toList ++ terms.reduceOption := by
  cases term <;> rfl

theorem memberTerms_eq_mapM (id : AliasId) (op : GroupOp) (items : List Json) :
    memberTerms following id op items =
      List.reduceOption <$> items.mapM (memberTerm following id op) := by
  induction items with
  | nil =>
    rw [memberTerms]
    rfl
  | cons item items ih =>
    rw [memberTerms, ih]
    simp [reduceOption_cons]

end

/-- An entry of a group that is written as an object is compiled as an object with that entry. -/
theorem entryMembers_eq_mapM (id : AliasId) (op : GroupOp) (fields : List (String × Json)) :
    entryMembers follow id fields = List.reduceOption <$>
      fields.mapM fun entry => memberTerm follow id op (.object [entry]) := by
  induction fields with
  | nil =>
    rw [entryMembers]
    rfl
  | cons entry fields ih =>
    obtain ⟨key, value⟩ := entry
    rw [entryMembers, ih]
    simp [reduceOption_cons, memberTerm, bothPasses_single]

/-- A step for each item of a list does as another one that is the same on these items. -/
theorem mapM_congr {α β : Type} {step step' : α → Descent β} {items : List α}
    (h : ∀ item ∈ items, step item = step' item) : items.mapM step = items.mapM step' := by
  induction items with
  | nil => rfl
  | cons item items ih =>
    obtain ⟨hitem, hitems⟩ := List.forall_mem_cons.mp h
    rw [List.mapM_cons, List.mapM_cons, hitem, ih hitems]

/-- The entries of an object, half by half. -/
theorem objectTerms_eq_mapM (id : AliasId) (fields : List (String × Json)) :
    objectTerms id fields = do
      let own ← (ownEntries fields).mapM fun entry => entryTerms follow id entry.1 entry.2
      let related ← (relatedEntries fields).mapM fun entry => entryTerms follow id entry.1 entry.2
      return own.flatten ++ related.flatten := by
  rw [objectTerms, fieldTerms, bothPasses, passTerms_eq_mapM, passTerms_eq_mapM,
    filter_isRelated_false, filter_isRelated_true]
  simp

/-- Terms that come one by one need not be put together. -/
theorem flatten_mapM_singleton {α : Type} (step : α → Descent Formula) (items : List α) :
    List.flatten <$> items.mapM (fun item => (fun term => [term]) <$> step item) =
      items.mapM step := by
  induction items with
  | nil => rfl
  | cons item items ih => simp [List.mapM_cons, ← ih]

theorem amongMembers_map {α β : Type} (op : GroupOp) (f : α → β) (step : Descent α) :
    amongMembers op (f <$> step) = f <$> amongMembers op step := by
  rw [amongMembers, amongMembers]
  split
  case isTrue =>
    funext context
    simp only [insideNegation, Functor.map, EStateM.map]
    cases step { context with negations := context.negations + 1 } <;> rfl
  case isFalse => rfl

/-- A rejection is raised among the members of a group as outside of it. -/
theorem amongMembers_throw {α : Type} (op : GroupOp) (rejection : Rejection) :
    amongMembers op (throw rejection : Descent α) = throw rejection := by
  rw [amongMembers]
  split
  case isTrue => rfl
  case isFalse => rfl

/-- What is under the key of a group and is no group is refused under that key. -/
theorem leafTerms_of_group {id : AliasId} {key : String} {value : Json} {op : GroupOp}
    (h : kindOf key value = .group op) :
    leafTerms id key value = throw (.invalidOperand op.key op.key value) := by
  simp only [leafTerms, leafPredicates, h]
  rfl

/-! ## 2.  Levels -/

/-- The steps of a compilation: of an object, a group, a member of a group, and the relation to the
records with a label. -/
structure LevelCompiler where
  object : AliasId → List (String × Json) → Descent (List Formula)
  group : AliasId → GroupOp → Json → Descent (Option Formula)
  member : AliasId → GroupOp → Json → Descent (Option Formula)
  relation : AliasId → String → Json → Descent Formula

namespace LevelCompiler

variable (compiler : LevelCompiler)

/-- The terms of an entry about the record itself. -/
def ownTerms (id : AliasId) (entry : String × Json) : Descent (List Formula) :=
  match kindOf entry.1 entry.2 with
  | .group op => Option.toList <$> compiler.group id op entry.2
  | .identity | .declaration | .relation | .property | .related => leafTerms id entry.1 entry.2

/-- The members of a group. -/
def members (id : AliasId) (op : GroupOp) : Json → Descent (List (Option Formula))
  | .array items => items.mapM (compiler.member id op)
  | .object fields => fields.mapM fun entry => compiler.member id op (.object [entry])
  | other => throw (.invalidOperand op.key op.key other)

/-- The criteria of the root record. -/
def root (criteria : Json) : Descent Unit :=
  match criteria with
  | .null => return
  | .object fields => do
    if let some declared := aliasOf fields then
      modify fun context => context.bind declared Context.root
    let terms ← compiler.object Context.root fields
    modify (keepTerms Context.root 1 terms)
  | other => throw (.invalidOperand "where" "where" other)

/-- What each step comes to in terms of the others.  Nothing is said of the relation to a value that
is no object. -/
structure IsLevelwise : Prop where
  /-- The two halves of an object are compiled one after the other. -/
  object : ∀ id fields, compiler.object id fields = do
    let own ← (ownEntries fields).mapM (compiler.ownTerms id)
    let related ← (relatedEntries fields).mapM fun entry => compiler.relation id entry.1 entry.2
    return own.flatten ++ related
  /-- A group keeps those of its members that yield a term. -/
  group : ∀ id op value, compiler.group id op value = do
    let members ← amongMembers op (compiler.members id op value)
    return groupTerm op members.reduceOption
  /-- A member is an object, whose terms are conjoined, or an array, which is an inner group. -/
  member : ∀ id op value, compiler.member id op value = match value with
    | .object fields => conjoin <$> compiler.object id fields
    | .array items => compiler.group id .and (.array items)
    | other => throw (.invalidOperand op.key op.key other)
  /-- A relation to an object is followed by compiling the object against a new alias. -/
  relation : ∀ parent label fields, compiler.relation parent label (.object fields) =
    follow label fields parent fun child => compiler.object child fields

/-! ## 3.  The equations determine a compilation -/

/-- Two compilations do the same at a value. -/
structure AgreesAt (compiler other : LevelCompiler) (value : Json) : Prop where
  group : ∀ id op, compiler.group id op value = other.group id op value
  member : ∀ id op, compiler.member id op value = other.member id op value
  relation : ∀ fields, value = .object fields → ∀ parent label,
    compiler.relation parent label value = other.relation parent label value

variable {compiler} {other : LevelCompiler}

theorem object_eq_of_agreesAt (h : compiler.IsLevelwise) (h' : other.IsLevelwise)
    {fields : List (String × Json)} (hfields : ∀ entry ∈ fields, compiler.AgreesAt other entry.2)
    (id : AliasId) : compiler.object id fields = other.object id fields := by
  have hown : (ownEntries fields).mapM (compiler.ownTerms id) =
      (ownEntries fields).mapM (other.ownTerms id) := by
    refine mapM_congr fun entry hentry => ?_
    have hagrees := hfields entry (List.mem_filter.mp hentry).1
    simp only [ownTerms, hagrees.group]
  have hrelated : ((relatedEntries fields).mapM fun entry =>
        compiler.relation id entry.1 entry.2) =
      (relatedEntries fields).mapM fun entry => other.relation id entry.1 entry.2 := by
    refine mapM_congr fun entry hentry => ?_
    obtain ⟨hmem, hkind⟩ := List.mem_filter.mp hentry
    obtain ⟨inner, hinner⟩ := isRelated_object hkind
    exact (hfields entry hmem).relation inner hinner id entry.1
  rw [h.object, h'.object, hown, hrelated]

theorem agreesAt_object (h : compiler.IsLevelwise) (h' : other.IsLevelwise)
    {fields : List (String × Json)} (hfields : ∀ entry ∈ fields, compiler.AgreesAt other entry.2) :
    compiler.AgreesAt other (.object fields) := by
  have hobject := object_eq_of_agreesAt h h' hfields
  constructor
  case group =>
    intro id op
    rw [h.group, h'.group, members, members]
    have hmembers := mapM_congr fun entry hentry =>
      show compiler.member id op (.object [entry]) = other.member id op (.object [entry]) by
        rw [h.member, h'.member]
        exact congrArg (conjoin <$> ·) (object_eq_of_agreesAt h h'
          (List.forall_mem_singleton.mpr (hfields entry hentry)) id)
    rw [hmembers]
  case member =>
    intro id op
    rw [h.member, h'.member]
    exact congrArg (conjoin <$> ·) (hobject id)
  case relation =>
    rintro _ ⟨⟩ parent label
    rw [h.relation, h'.relation]
    exact congrArg _ (funext hobject)

theorem agreesAt_array (h : compiler.IsLevelwise) (h' : other.IsLevelwise) {items : List Json}
    (hitems : ∀ item ∈ items, compiler.AgreesAt other item) :
    compiler.AgreesAt other (.array items) := by
  have hgroup : ∀ id op,
      compiler.group id op (.array items) = other.group id op (.array items) := by
    intro id op
    rw [h.group, h'.group, members, members,
      mapM_congr fun item hitem => (hitems item hitem).member id op]
  constructor
  case group => exact hgroup
  case member =>
    intro id op
    rw [h.member, h'.member]
    exact hgroup id .and
  case relation =>
    intro fields hfields
    cases hfields

mutual

theorem agreesAt (h : compiler.IsLevelwise) (h' : other.IsLevelwise) (value : Json) :
    compiler.AgreesAt other value := by
  match value with
  | .object fields => exact agreesAt_object h h' (agreesAt_fields h h' fields)
  | .array items => exact agreesAt_array h h' (agreesAt_items h h' items)
  | .null | .bool _ | .number _ | .string _ =>
    refine ⟨fun id op => ?_, fun id op => ?_, nofun⟩
    · rw [h.group, h'.group]
      rfl
    · rw [h.member, h'.member]

theorem agreesAt_items (h : compiler.IsLevelwise) (h' : other.IsLevelwise) (items : List Json) :
    ∀ item ∈ items, compiler.AgreesAt other item := by
  match items with
  | [] => exact List.forall_mem_nil _
  | item :: items =>
    exact List.forall_mem_cons.mpr ⟨agreesAt h h' item, agreesAt_items h h' items⟩

theorem agreesAt_fields (h : compiler.IsLevelwise) (h' : other.IsLevelwise)
    (fields : List (String × Json)) : ∀ entry ∈ fields, compiler.AgreesAt other entry.2 := by
  match fields with
  | [] => exact List.forall_mem_nil _
  | (key, value) :: fields =>
    exact List.forall_mem_cons.mpr ⟨agreesAt h h' value, agreesAt_fields h h' fields⟩

end

/-- Two compilations by levels do the same with objects, groups and root criteria. -/
theorem IsLevelwise.agrees (h : compiler.IsLevelwise) (h' : other.IsLevelwise) :
    compiler.object = other.object ∧ compiler.group = other.group ∧ compiler.root = other.root := by
  have hobject : compiler.object = other.object := by
    funext id fields
    exact object_eq_of_agreesAt h h' (agreesAt_fields h h' fields) id
  refine ⟨hobject, ?_, ?_⟩
  · funext id op value
    exact (agreesAt h h' value).group id op
  · funext criteria
    cases criteria with
    | object fields => rw [root, root, hobject]
    | _ => rfl

/-! ## 4.  The compilation by levels -/

/-- The compilation, but for a relation to a value that is no object, which is answered as given. -/
def withRefusal (refuse : AliasId → String → Json → Descent Formula) : LevelCompiler where
  object := objectTerms
  group := groupTerms
  member := memberTerm follow
  relation parent label value := match value with
    | .object fields => follow label fields parent fun child => objectTerms child fields
    | other => refuse parent label other

variable {refuse : AliasId → String → Json → Descent Formula}

/-- The entries about the record itself are compiled as the recursion compiles them, -/
theorem ownTerms_withRefusal {id : AliasId} {entry : String × Json}
    (h : isRelated entry = false) :
    (withRefusal refuse).ownTerms id entry = entryTerms follow id entry.1 entry.2 := by
  obtain ⟨key, value⟩ := entry
  have hrelated : kindOf key value ≠ .related := of_decide_eq_false h
  rw [ownTerms]
  cases hkind : kindOf key value with
  | group op =>
    have hgroup : entryTerms follow id key value = Option.toList <$> groupTerms id op value := by
      cases value with
      | object fields | array items =>
        rw [entryTerms, hkind]
        simp [groupTerms]
      | null | bool _ | number _ | string _ =>
        rw [entryTerms, leafTerms_of_group hkind, groupTerms_eq, groupMembers, amongMembers_throw]
        · rfl
        all_goals
          intro _ heq
          cases heq
    exact hgroup.symm
  | related => exact absurd hkind hrelated
  | identity | declaration | relation | property =>
    refine (entryTerms_eq_leafTerms ?_ hrelated).symm
    intro op hop
    rw [hkind] at hop
    cases hop

/-- and so are those about related records. -/
theorem relation_withRefusal {id : AliasId} {entry : String × Json} (h : isRelated entry = true) :
    (fun term => [term]) <$> (withRefusal refuse).relation id entry.1 entry.2 =
      entryTerms follow id entry.1 entry.2 := by
  obtain ⟨key, value⟩ := entry
  obtain ⟨fields, rfl⟩ := isRelated_object h
  have hkind : kindOf key (.object fields) = .related := of_decide_eq_true h
  rw [entryTerms, hkind]
  rfl

theorem members_withRefusal (refuse : AliasId → String → Json → Descent Formula) (id : AliasId)
    (op : GroupOp) (value : Json) :
    groupMembers id op value = List.reduceOption <$> (withRefusal refuse).members id op value := by
  cases value with
  | array items => exact memberTerms_eq_mapM follow id op items
  | object fields => exact entryMembers_eq_mapM id op fields
  | _ => rfl

/-- However a relation to a value that is no object is answered, the compilation is one by
levels. -/
theorem isLevelwise_withRefusal (refuse : AliasId → String → Json → Descent Formula) :
    (withRefusal refuse).IsLevelwise := by
  constructor
  case object =>
    intro id fields
    have hown : (ownEntries fields).mapM ((withRefusal refuse).ownTerms id) =
        (ownEntries fields).mapM fun entry => entryTerms follow id entry.1 entry.2 := by
      refine mapM_congr fun entry hentry => ownTerms_withRefusal ?_
      simpa using (List.mem_filter.mp hentry).2
    have hrelated : ((relatedEntries fields).mapM fun entry =>
          (fun term => [term]) <$> (withRefusal refuse).relation id entry.1 entry.2) =
        (relatedEntries fields).mapM fun entry => entryTerms follow id entry.1 entry.2 :=
      mapM_congr fun entry hentry => relation_withRefusal (List.mem_filter.mp hentry).2
    show objectTerms id fields = _
    rw [objectTerms_eq_mapM, hown, ← flatten_mapM_singleton, hrelated]
    simp
  case group =>
    intro id op value
    show groupTerms id op value = _
    rw [groupTerms_eq, members_withRefusal refuse, amongMembers_map]
    simp
  case member =>
    intro id op value
    show memberTerm follow id op value = _
    cases value with
    | object fields =>
      rw [memberTerm]
      simp [withRefusal, objectTerms, fieldTerms]
    | array items =>
      show _ = groupTerms id .and (.array items)
      rw [memberTerm]
      rfl
    | _ => rw [memberTerm]
  case relation => exact fun _ _ _ => rfl

/-- The compilation is one by levels with the relation it has. -/
theorem isLevelwise_relatedTerm :
    (LevelCompiler.mk objectTerms groupTerms (memberTerm follow) relatedTerm).IsLevelwise := by
  have hrelation : relatedTerm =
      (withRefusal fun _ label value => throw (.invalidOperand label label value)).relation := by
    funext parent label value
    cases value <;> rfl
  rw [hrelation]
  exact isLevelwise_withRefusal _

end LevelCompiler

/-! ## 5.  The two halves of an object -/

theorem keys_own_append_related_perm (fields : List (String × Json)) :
    (Table.keys (ownEntries fields) ++ Table.keys (relatedEntries fields)).Perm
      (Table.keys fields) := by
  rw [Table.keys, Table.keys, ← List.map_append]
  exact (own_append_related_perm fields).map Prod.fst

/-- **Objects are compiled by levels.**  Every entry of an object is in one of two halves, each in
the order of the object, and the values in the second half are objects; and how the halves are
interleaved does not matter.  The compilation is the only one that takes the halves one after the
other and follows relations to objects: whatever becomes of a relation to anything else, it becomes
of none that is met. -/
theorem objectTerms_levels (fields : List (String × Json)) :
    (ownEntries fields ++ relatedEntries fields).Perm fields ∧
    (ownEntries fields).Sublist fields ∧ (relatedEntries fields).Sublist fields ∧
    ((Table.keys fields).Nodup →
      (Table.keys (ownEntries fields) ++ Table.keys (relatedEntries fields)).Nodup) ∧
    (∀ entry ∈ relatedEntries fields, ∃ inner, entry.2 = .object inner) ∧
    (∀ other, ownEntries other = ownEntries fields → relatedEntries other = relatedEntries fields →
      ∀ id context, objectTerms id other context = objectTerms id fields context) ∧
    (LevelCompiler.mk objectTerms groupTerms (memberTerm follow) relatedTerm).IsLevelwise ∧
    (∀ compiler : LevelCompiler, compiler.IsLevelwise → compiler.object = objectTerms ∧
      compiler.group = groupTerms ∧ compiler.root = rootTerms) ∧
    ∀ refuse : AliasId → String → Json → Descent Formula, ∃ compiler : LevelCompiler,
      compiler.IsLevelwise ∧ ∀ parent label value, (∀ inner, value ≠ .object inner) →
        compiler.relation parent label value = refuse parent label value := by
  refine ⟨own_append_related_perm fields, List.filter_sublist, List.filter_sublist,
    (keys_own_append_related_perm fields).nodup_iff.mpr, ?_, ?_,
    LevelCompiler.isLevelwise_relatedTerm, ?_, ?_⟩
  · intro entry hentry
    exact isRelated_object (List.mem_filter.mp hentry).2
  · intro other hown hrelated id context
    rw [objectTerms_eq_mapM, hown, hrelated, ← objectTerms_eq_mapM]
  · intro compiler h
    exact h.agrees LevelCompiler.isLevelwise_relatedTerm
  · intro refuse
    refine ⟨_, LevelCompiler.isLevelwise_withRefusal refuse, ?_⟩
    intro parent label value hvalue
    cases value with
    | object inner => exact absurd rfl (hvalue inner)
    | _ => rfl

/-- Relations among comparisons and a group, and the same entries half by half. -/
theorem objectTerms_levels_interleaved :
    let name : String × Json := ("name", .string "x")
    let group : String × Json := ("$or", .object [("A", .object []), ("age", .null)])
    let first : String × Json := ("B", .object [("$alias", .string "$b"), ("C", .object [])])
    let second : String × Json := ("A", .object [("age", .object [("$gt", .number (.int 1))])])
    (Table.keys [first, name, second, group]).Nodup ∧
      (Table.keys (ownEntries [first, name, second, group]) ++
        Table.keys (relatedEntries [first, name, second, group])).Nodup ∧
      ∀ id context, objectTerms id [name, group, first, second] context =
        objectTerms id [first, name, second, group] context := by
  intro name group first second
  obtain ⟨-, -, -, hkeys, -, hinterleaved, -⟩ := objectTerms_levels [first, name, second, group]
  have hnodup : (Table.keys [first, name, second, group]).Nodup := by decide
  exact ⟨hnodup, hkeys hnodup, hinterleaved _ rfl rfl⟩

end GraphSearch.Matching
