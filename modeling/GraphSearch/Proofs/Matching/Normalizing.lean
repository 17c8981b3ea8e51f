import GraphSearch.Proofs.Criteria.Reading
/-!
# Normalization keeps the meaning of criteria

Criteria and their normal form are compiled alike: from every context both leave the same
context, or both are refused with the same outline (`rootTerms_normalize`).

Normalization keeps what kind of entry an entry is, so both compilations descend side by side.
They part at one place only.  A group that is written as an object has its entries compiled one
by one (`entryMembers`), and its normal form is an array of objects with one entry each.  Such
an object is compiled in two passes, of which one takes the entry and the other finds nothing
(`bothPasses_single`).
-/

namespace GraphSearch.Matching

open Criteria Descent

/-! ## 1.  Entries without criteria inside -/

theorem isGroupKey_of_group {key : String} {value : Json} {op : GroupOp}
    (h : kindOf key value = .group op) : isGroupKey key = true := by
  rw [isGroupKey]
  cases hop : GroupOp.ofKey? key with
  | some op => rfl
  | none =>
    rw [kindOf, hop] at h
    simp only at h
    repeat' split at h
    all_goals cases h

theorem isGroupKey_of_not_group {key : String} {value : Json}
    (h : ∀ op, kindOf key value ≠ .group op) : isGroupKey key = false := by
  rw [isGroupKey]
  cases hop : GroupOp.ofKey? key with
  | none => rfl
  | some op =>
    have hkind : kindOf key value = .group op := by
      rw [kindOf, hop]
    exact absurd hkind (h op)

theorem leafPredicates_normalizeUnder (options : Options) (node key : String) (value : Json) :
    Results.Alike (leafPredicates options node key value)
      (leafPredicates options node key (normalizeUnder (isGroupKey key) value)) := by
  rw [leafPredicates, leafPredicates, kindOf_normalizeUnder]
  cases hkind : kindOf key value with
  | group op => exact Results.Alike.error rfl
  | identity =>
    have hkey : isGroupKey key = false :=
      isGroupKey_of_not_group fun op => by rw [hkind]; exact EntryKind.noConfusion
    rw [hkey]
    exact Cypher.identityPredicates_normalize value
  | property =>
    have hkey : isGroupKey key = false :=
      isGroupKey_of_not_group fun op => by rw [hkind]; exact EntryKind.noConfusion
    rw [hkey]
    exact Cypher.propertyPredicates_normalize value
  | declaration => exact Results.Alike.refl _
  | relation => exact Results.Alike.refl _
  | related => exact Results.Alike.error rfl

theorem leafTerms_normalizeUnder (id : AliasId) (key : String) (value : Json) :
    Alike (leafTerms id key value)
      (leafTerms id key (normalizeUnder (isGroupKey key) value)) := by
  refine Alike.bind (Alike.refl get) fun context => ?_
  exact (Alike.lift (leafPredicates_normalizeUnder _ _ _ _)).bind fun predicates => Alike.refl _

/-- An entry that is neither a group nor about related records has no criteria inside. -/
theorem entryTerms_eq_leafTerms {id : AliasId} {key : String} {value : Json}
    (hgroup : ∀ op, kindOf key value ≠ .group op) (hrelated : kindOf key value ≠ .related) :
    entryTerms follow id key value = leafTerms id key value := by
  cases value with
  | object fields =>
    rw [entryTerms]
    split
    case h_1 op hkind => exact absurd hkind (hgroup op)
    case h_2 hkind => exact absurd hkind hrelated
    case h_3 => rfl
  | array items =>
    rw [entryTerms]
    split
    case h_1 op hkind => exact absurd hkind (hgroup op)
    case h_2 => rfl
  | _ => rw [entryTerms]

theorem entryTerms_alike_of_leaf {id : AliasId} {key : String} {value : Json}
    (hgroup : ∀ op, kindOf key value ≠ .group op) (hrelated : kindOf key value ≠ .related) :
    Alike (entryTerms follow id key value)
      (entryTerms follow id key (normalizeUnder (isGroupKey key) value)) := by
  have hkind := kindOf_normalizeUnder key value
  rw [entryTerms_eq_leafTerms hgroup hrelated, entryTerms_eq_leafTerms (hkind ▸ hgroup)
    (hkind ▸ hrelated)]
  exact leafTerms_normalizeUnder id key value

/-! ## 2.  Following a relation -/

section

variable {label : String} {fields : List (String × Json)} {parent : AliasId}
  {body body' : AliasId → Descent (List Formula)}

theorem openMatched_normalizeFields :
    openMatched label (normalizeFields fields) parent = openMatched label fields parent := by
  funext context
  rw [openMatched, openMatched, aliasOf_normalizeFields, relationOf_normalizeFields]

theorem followMatched_alike (h : ∀ child, Alike (body child) (body' child)) :
    Alike (followMatched label fields parent body)
      (followMatched label (normalizeFields fields) parent body') := by
  rw [followMatched, followMatched, openMatched_normalizeFields]
  refine Alike.bind (Alike.refl _) fun child => Alike.bind (Alike.refl _) fun before => ?_
  exact (h child).bind fun terms => Alike.refl _

theorem followScoped_alike (h : ∀ child, Alike (body child) (body' child)) :
    Alike (followScoped label fields parent body)
      (followScoped label (normalizeFields fields) parent body') := by
  rw [followScoped, followScoped, relationOf_normalizeFields]
  refine Alike.bind (Alike.refl _) fun child => Alike.bind (Alike.refl _) fun before => ?_
  exact (h child).bind fun terms => Alike.refl _

/-- A relation is followed alike when the records it leads to are filtered alike. -/
theorem follow_alike (h : ∀ child, Alike (body child) (body' child)) :
    Alike (follow label fields parent body)
      (follow label (normalizeFields fields) parent body') := by
  refine Alike.bind (Alike.refl get) fun context => ?_
  split
  · exact followScoped_alike h
  · exact followMatched_alike h

end

/-! ## 3.  The two passes over an object -/

theorem bothPasses_alike {pass pass' : Bool → Descent (List Formula)}
    (h : ∀ related, Alike (pass related) (pass' related)) :
    Alike (bothPasses pass) (bothPasses pass') :=
  (h false).bind fun _ => (h true).bind fun _ => Alike.refl _

/-- One of the two passes over a single entry takes it, and the other finds nothing. -/
theorem bothPasses_single (id : AliasId) (key : String) (value : Json) :
    bothPasses (fun related => passTerms follow id related [(key, value)]) =
      entryTerms follow id key value := by
  have hpass : ∀ related, passTerms follow id related [(key, value)] =
      if isRelated (key, value) = related then entryTerms follow id key value else pure [] := by
    intro related
    rw [passTerms, passTerms]
    simp only [pure_bind, List.append_nil, bind_pure]
  rw [bothPasses, hpass, hpass]
  cases isRelated (key, value) <;> simp

/-! ## 4.  Side by side -/

mutual

theorem entryTerms_normalize (value : Json) (id : AliasId) (key : String) :
    Alike (entryTerms follow id key value)
      (entryTerms follow id key (normalizeUnder (isGroupKey key) value)) := by
  match value with
  | .object fields =>
    have hkind := kindOf_normalizeUnder key (.object fields)
    match hvalue : kindOf key (.object fields) with
    | .group op =>
      rw [hvalue, isGroupKey_of_group hvalue, normalizeUnder, if_pos rfl] at hkind
      rw [isGroupKey_of_group hvalue, normalizeUnder, if_pos rfl, entryTerms, entryTerms]
      simp only [hvalue, hkind]
      exact (Alike.amongMembers op (entryMembers_normalize fields id op)).bind fun members =>
        Alike.refl _
    | .related =>
      have hkey : isGroupKey key = false :=
        isGroupKey_of_not_group fun op => by rw [hvalue]; exact EntryKind.noConfusion
      rw [hvalue, hkey, normalizeUnder, if_neg Bool.false_ne_true] at hkind
      rw [hkey, normalizeUnder, if_neg Bool.false_ne_true, entryTerms, entryTerms]
      simp only [hvalue, hkind]
      exact (follow_alike fun child =>
        bothPasses_alike (passTerms_normalize fields child)).bind fun term => Alike.refl _
    | .identity | .declaration | .relation | .property =>
      exact entryTerms_alike_of_leaf (by simp [hvalue]) (by simp [hvalue])
  | .array items =>
    have hkind := kindOf_normalizeUnder key (.array items)
    match hvalue : kindOf key (.array items) with
    | .group op =>
      rw [hvalue, normalizeUnder] at hkind
      rw [normalizeUnder, entryTerms, entryTerms]
      simp only [hvalue, hkind]
      exact (Alike.amongMembers op (memberTerms_normalize items id op)).bind fun members =>
        Alike.refl _
    | .related =>
      obtain ⟨fields, hfields⟩ := isRelated_object (decide_eq_true hvalue)
      cases hfields
    | .identity | .declaration | .relation | .property =>
      exact entryTerms_alike_of_leaf (by simp [hvalue]) (by simp [hvalue])
  | .null | .bool _ | .number _ | .string _ =>
    rw [normalizeUnder]
    exact Alike.refl _

theorem passTerms_normalize (fields : List (String × Json)) (id : AliasId) (related : Bool) :
    Alike (passTerms follow id related fields)
      (passTerms follow id related (normalizeFields fields)) := by
  match fields with
  | [] => exact Alike.refl _
  | (key, value) :: fields =>
    have hrelated : isRelated (key, normalizeUnder (isGroupKey key) value) =
        isRelated (key, value) := isRelated_normalizeEntry (key, value)
    rw [normalizeFields, passTerms, passTerms, hrelated]
    split
    · exact (entryTerms_normalize value id key).bind fun terms =>
        (passTerms_normalize fields id related).bind fun others => Alike.refl _
    · exact passTerms_normalize fields id related

theorem memberTerms_normalize (items : List Json) (id : AliasId) (op : GroupOp) :
    Alike (memberTerms follow id op items)
      (memberTerms follow id op (normalizeItems items)) := by
  match items with
  | [] => exact Alike.refl _
  | item :: items =>
    rw [normalizeItems, memberTerms, memberTerms]
    exact (memberTerm_normalize item id op).bind fun term =>
      (memberTerms_normalize items id op).bind fun others => Alike.refl _

theorem memberTerm_normalize (item : Json) (id : AliasId) (op : GroupOp) :
    Alike (memberTerm follow id op item) (memberTerm follow id op (normalize item)) := by
  match item with
  | .object fields =>
    rw [normalize_object, memberTerm, memberTerm]
    exact (bothPasses_alike (passTerms_normalize fields id)).bind fun terms => Alike.refl _
  | .array items =>
    rw [normalize_array, memberTerm, memberTerm]
    exact (memberTerms_normalize items id .and).bind fun terms => Alike.refl _
  | .null | .bool _ | .number _ | .string _ => exact Alike.refl _

/-- The entries of a group written as an object are the members of its normal form. -/
theorem entryMembers_normalize (fields : List (String × Json)) (id : AliasId) (op : GroupOp) :
    Alike (entryMembers follow id fields)
      (memberTerms follow id op (normalizeMembers fields)) := by
  match fields with
  | [] => exact Alike.refl _
  | (key, value) :: fields =>
    rw [normalizeMembers, entryMembers, memberTerms, memberTerm, bothPasses_single]
    simp only [bind_assoc, pure_bind]
    exact (entryTerms_normalize value id key).bind fun terms =>
      (entryMembers_normalize fields id op).bind fun others => Alike.refl _

end

theorem objectTerms_normalizeFields (id : AliasId) (fields : List (String × Json)) :
    Alike (objectTerms id fields) (objectTerms id (normalizeFields fields)) :=
  bothPasses_alike (passTerms_normalize fields id)

/-! ## 5.  The root record -/

theorem rootTerms_alike (criteria : Json) :
    Alike (rootTerms criteria) (rootTerms (normalize criteria)) := by
  cases criteria with
  | object fields =>
    rw [normalize_object, rootTerms, rootTerms, aliasOf_normalizeFields]
    cases aliasOf fields with
    | none => exact (objectTerms_normalizeFields _ fields).bind fun terms => Alike.refl _
    | some declared =>
      refine Alike.bind (Alike.refl _) fun _ => ?_
      exact (objectTerms_normalizeFields _ fields).bind fun terms => Alike.refl _
  | array items => exact Alike.throw rfl
  | _ => exact Alike.refl _

/-- **Normalization keeps the meaning of criteria.**  Compiled from any context, criteria and
their normal form both succeed and leave one and the same context, or both are refused, with the
same rejection at the same key. -/
theorem rootTerms_normalize (criteria : Json) (context : Context) :
    (∃ after, rootTerms criteria context = .ok () after ∧
        rootTerms (normalize criteria) context = .ok () after) ∨
      ∃ rejection rejection' after, rootTerms criteria context = .error rejection after ∧
        rootTerms (normalize criteria) context = .error rejection' after ∧
        rejection'.kind = rejection.kind ∧ rejection'.key = rejection.key := by
  obtain ⟨⟨⟩, after, hbefore, hnormal⟩ |
      ⟨rejection, rejection', after, hbefore, hnormal, houtline⟩ :=
    (rootTerms_alike criteria).cases context
  · exact .inl ⟨after, hbefore, hnormal⟩
  · obtain ⟨hkind, hkey⟩ := Prod.mk.inj houtline
    exact .inr ⟨rejection, rejection', after, hbefore, hnormal, hkind.symm, hkey.symm⟩

end GraphSearch.Matching
