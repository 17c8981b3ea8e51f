import GraphSearch.Proofs.Aggregate.Reading
import GraphSearch.Request
/-!
# Requests written and read back

A request is read from an object, in any order, or from an array in the order of its fields, and is
written as an object that leaves out what is absent.  What an absent field is given as differs from
field to field: `null` for most of them, and an empty list for the labels, which `null` is refused
for.  Either way it is worth nothing (`Request.worth`), and what a request is written as has of each
field what was given for it, where that is worth anything (`Request.toJson_of_ofJson`).

A request that was read holds no `null`, and no count beyond 64 bits (`Request.IsProper`); and just
these requests are read back from what they are written as (`Request.ofJson_toJson_iff`).
-/

namespace GraphSearch

open Results

/-! ## 1.  Writing the fields of a record -/

namespace Json

section

variable {ρ : Type} {write : String → Json → ρ → Except ShapeFault ρ}
  {fields : List (String × Json)} {record result : ρ}

/-- What every write keeps, all of them keep. -/
theorem writeFields_keeps {P : ρ → Prop}
    (hwrite : ∀ {field value record result}, write field value record = .ok result →
      P record → P result)
    (h : writeFields write fields record = .ok result) (hrecord : P record) : P result := by
  induction fields generalizing record with
  | nil =>
    cases h
    exact hrecord
  | cons field fields ih =>
    rw [writeFields, List.foldlM_cons] at h
    obtain ⟨next, hnext, h⟩ := bind_eq_ok.mp h
    exact ih h (hwrite hnext hrecord)

/-- Fields that can be written into any record can be written one after the other. -/
theorem exists_writeFields_eq_ok
    (hwrite : ∀ field ∈ fields, ∀ record, ∃ result, write field.1 field.2 record = .ok result)
    (record : ρ) : ∃ result, writeFields write fields record = .ok result := by
  induction fields generalizing record with
  | nil => exact ⟨record, rfl⟩
  | cons field fields ih =>
    obtain ⟨hfield, hfields⟩ := List.forall_mem_cons.mp hwrite
    obtain ⟨next, hnext⟩ := hfield record
    obtain ⟨result, hresult⟩ := ih hfields next
    refine ⟨result, ?_⟩
    rw [writeFields, List.foldlM_cons]
    exact bind_eq_ok.mpr ⟨next, hnext, hresult⟩

/-- The items of an array are written under the names of their places. -/
theorem writeItems_eq_ok {names : List String} {items : List Json}
    (h : writeItems write names items record = .ok result) :
    writeFields write (names.zip items) record = .ok result := by
  obtain ⟨written, hwritten, h⟩ := bind_eq_ok.mp h
  split at h
  case isTrue => cases h
  case isFalse =>
    cases h
    exact hwritten

end

variable {value : Json}

theorem asString_eq_ok_iff (value : Json) (text : String) :
    value.asString = .ok text ↔ value = .string text := by
  constructor
  · exact eq_of_asString
  · rintro rfl
    rfl

theorem asStrings_eq_ok_iff {texts : List String} :
    value.asStrings = .ok texts ↔ value = .array (texts.map .string) := by
  cases value with
  | array items => rw [asStrings, mapM_eq_ok_iff_eq_map asString_eq_ok_iff, array.injEq]
  | _ => simp [asStrings]

theorem asCount_eq_ok {bits count : Nat} (h : count < Nat.pow 2 bits) :
    asCount bits (.number (.int count)) = .ok count := by
  rw [asCount, if_pos ⟨Int.natCast_nonneg count, Int.ofNat_lt.mpr h⟩, Int.toNat_natCast]

/-- A count that is kept fits its type. -/
theorem lt_of_asOptional {bits : Nat} {kept : Option Nat}
    (h : asOptional (asCount bits) value = .ok kept) : ∀ count ∈ kept, count < Nat.pow 2 bits := by
  rintro count ⟨⟩
  cases value with
  | number n =>
    obtain ⟨read, hread, ⟨⟩⟩ := map_eq_ok.mp h
    obtain ⟨⟩ := eq_of_asCount hread
    rw [asCount] at hread
    split at hread
    case isTrue hrange => exact Int.ofNat_lt.mp hrange.2
    case isFalse => cases hread
  | _ => cases h

/-- A value that is kept is there. -/
theorem ne_null_of_asOptional {kept : Option Json} (h : asOptional asAny value = .ok kept) :
    kept ≠ some .null := by
  cases value with
  | null =>
    cases h
    exact nofun
  | _ =>
    cases h
    rintro ⟨⟩

theorem asOptional_of_ne_null {α : Type} {read : Json → Except ShapeFault α} (h : value ≠ .null) :
    asOptional read value = (read value).map some := by
  cases value with
  | null => exact absurd rfl h
  | _ => rfl

end Json

namespace Table

variable {α : Type} {names : List String} {written : String → Option α}

theorem keys_zip_sublist (names : List String) (items : List α) :
    (keys (names.zip items)).Sublist names := by
  induction names generalizing items with
  | nil => exact .slnil
  | cons name names ih =>
    cases items with
    | nil => exact List.nil_sublist _
    | cons item items => exact (ih items).cons_cons name

theorem keys_filterMap_sublist :
    (keys (names.filterMap fun name => (written name).map (name, ·))).Sublist names := by
  induction names with
  | nil => exact .slnil
  | cons name names ih =>
    rw [List.filterMap_cons]
    cases written name with
    | none => exact ih.cons name
    | some a => exact ih.cons_cons name

/-- Under names that differ, what is there under each of them is found. -/
theorem find?_filterMap (hnames : names.Nodup) {name : String} (hname : name ∈ names) :
    find? name (names.filterMap fun name => (written name).map (name, ·)) = written name := by
  have hkeys : (keys (names.filterMap fun name => (written name).map (name, ·))).Nodup :=
    hnames.sublist keys_filterMap_sublist
  cases hwritten : written name with
  | some a =>
    refine find?_of_mem hkeys (List.mem_filterMap.mpr ⟨name, hname, ?_⟩)
    rw [hwritten, Option.map_some]
  | none =>
    rw [find?_eq_none_iff]
    intro hmem
    obtain ⟨⟨key, a⟩, hentry, rfl⟩ := List.mem_map.mp hmem
    obtain ⟨other, -, hother⟩ := List.mem_filterMap.mp hentry
    obtain ⟨b, hb, heq⟩ := Option.map_eq_some_iff.mp hother
    obtain ⟨rfl, rfl⟩ := Prod.mk.inj heq
    rw [hwritten] at hb
    cases hb

end Table

namespace Request

variable {request result : Request} {value : Json} {name field : String}

/-! ## 2.  What is given and what is written -/

/-- The fields that are given, an array under the names of its places. -/
def fields : Json → List (String × Json)
  | .object fields => fields
  | .array items => fieldNames.zip items
  | .null | .bool _ | .number _ | .string _ => []

/-- What a value is worth to a field: `null` is worth nothing, and no labels are neither. -/
def worth (name : String) (value : Json) : Option Json :=
  if name = "labels" ∧ value = .array [] then none else Json.present? value

/-- What is given for a field. -/
def given? (name : String) (value : Json) : Option Json :=
  (Table.find? name (fields value)).bind (worth name)

/-- What a request is written with for a field. -/
def written (name : String) (request : Request) : Option Json :=
  match name with
  | "where" => request.criteria
  | "labels" =>
    if request.labels.isEmpty then none else some (.array (request.labels.map Json.string))
  | "orderBy" => request.order
  | "skip" => request.skip.map fun (n : Nat) => .number (.int n)
  | "limit" => request.limit.map fun (n : Nat) => .number (.int n)
  | "aggregate" => request.aggregate
  | _ => none

theorem toJson_eq (request : Request) : request.toJson =
    .object (fieldNames.filterMap fun name => (request.written name).map (name, ·)) := by
  obtain ⟨criteria, labels, order, skip, limit, aggregate⟩ := request
  rw [List.filterMap_eq_flatMap_toList]
  simp only [toJson, fieldNames, List.flatMap_cons, List.flatMap_nil, List.append_nil,
    List.append_assoc]
  refine congrArg Json.object (congrArg₂ _ ?_ (congrArg₂ _ ?_ (congrArg₂ _ ?_ (congrArg₂ _ ?_
    (congrArg₂ _ ?_ ?_)))))
  · cases criteria <;> rfl
  · cases labels <;> rfl
  · cases order <;> rfl
  · cases skip <;> rfl
  · cases limit <;> rfl
  · cases aggregate <;> rfl

/-! ## 3.  Reading -/

/-- A request that can be read holds no `null`, and its counts fit 64 bits. -/
structure IsProper (request : Request) : Prop where
  criteria : request.criteria ≠ some .null
  order : request.order ≠ some .null
  aggregate : request.aggregate ≠ some .null
  skip : ∀ count ∈ request.skip, count < Nat.pow 2 64
  limit : ∀ count ∈ request.limit, count < Nat.pow 2 64

theorem nodup_fieldNames : fieldNames.Nodup := by
  decide

/-- Both forms of a request are read by writing its fields. -/
theorem writeFields_of_ofJson (h : ofJson value = .ok request) :
    Json.writeFields write (fields value) {} = .ok request := by
  have hwritten := mapError_eq_ok.mp h
  cases value with
  | object members => exact hwritten
  | array items => exact Json.writeItems_eq_ok hwritten
  | _ => cases hwritten

theorem nodup_keys_fields (hproper : value.isProper = true) :
    (Table.keys (fields value)).Nodup := by
  cases value with
  | object members => exact (Json.areProperFields_iff.mp hproper).1
  | array items => exact nodup_fieldNames.sublist (Table.keys_zip_sublist fieldNames items)
  | _ => exact List.nodup_nil

theorem IsProper.write (h : write field value request = .ok result) (hrequest : request.IsProper) :
    result.IsProper := by
  unfold Request.write at h
  split at h
  case h_7 => cases h
  all_goals
    obtain ⟨read, hread, ⟨⟩⟩ := bind_eq_ok.mp h
    obtain ⟨hcriteria, horder, haggregate, hskip, hlimit⟩ := hrequest
  case h_1 => exact ⟨Json.ne_null_of_asOptional hread, horder, haggregate, hskip, hlimit⟩
  case h_2 => exact ⟨hcriteria, horder, haggregate, hskip, hlimit⟩
  case h_3 => exact ⟨hcriteria, Json.ne_null_of_asOptional hread, haggregate, hskip, hlimit⟩
  case h_4 => exact ⟨hcriteria, horder, haggregate, Json.lt_of_asOptional hread, hlimit⟩
  case h_5 => exact ⟨hcriteria, horder, haggregate, hskip, Json.lt_of_asOptional hread⟩
  case h_6 => exact ⟨hcriteria, horder, Json.ne_null_of_asOptional hread, hskip, hlimit⟩

theorem written_write_self (hname : name ∈ fieldNames) (h : write name value request = .ok result) :
    written name result = worth name value := by
  unfold write at h
  split at h
  case h_7 => simp_all [fieldNames]
  all_goals obtain ⟨read, hread, ⟨⟩⟩ := bind_eq_ok.mp h
  case h_2 =>
    obtain rfl := Json.asStrings_eq_ok_iff.mp hread
    cases read <;> rfl
  case h_4 | h_5 =>
    exact Json.map_of_asOptional (fun _ _ => Json.eq_of_asCount) hread
  case h_1 | h_3 | h_6 =>
    have hkept := Json.map_of_asOptional (fun _ _ h => Except.ok.inj h) hread
    rw [worth, if_neg fun h => absurd h.1 (by decide), ← hkept, Option.map_id']
    rfl

theorem written_write_of_ne (hne : field ≠ name) (h : write field value request = .ok result) :
    written name result = written name request := by
  unfold write at h
  split at h
  case h_7 => cases h
  all_goals
    obtain ⟨read, -, ⟨⟩⟩ := bind_eq_ok.mp h
    unfold written
    split
    all_goals first | contradiction | rfl

theorem isProper_of_ofJson (h : ofJson value = .ok request) : request.IsProper :=
  Json.writeFields_keeps IsProper.write (writeFields_of_ofJson h)
    ⟨nofun, nofun, nofun, nofun, nofun⟩

/-- What is read is written with what was given for each field. -/
theorem written_of_ofJson (hname : name ∈ fieldNames) (hkeys : (Table.keys (fields value)).Nodup)
    (h : ofJson value = .ok request) : written name request = given? name value := by
  have hwrite : ∀ field value (request result : Request), write field value request = .ok result →
      written name result = if field = name then worth name value else written name request := by
    intro field value request result h
    split
    case isTrue heq => exact written_write_self hname (heq ▸ h)
    case isFalse hne => exact written_write_of_ne hne h
  have hnone : written name {} = none := by
    unfold written
    split
    all_goals rfl
  rw [Json.shown_of_writeFields hwrite hkeys (writeFields_of_ofJson h), hnone, given?]
  cases Table.find? name (fields value) with
  | none => rfl
  | some found => rfl

/-- The object that a request is written as has of each field, in the order of the fields, what was
given for it, where that is worth anything. -/
theorem toJson_of_ofJson (hproper : value.isProper = true) (h : ofJson value = .ok request) :
    request.toJson =
      .object (fieldNames.filterMap fun name => (given? name value).map (name, ·)) := by
  rw [toJson_eq]
  refine congrArg Json.object (List.filterMap_congr fun name hname => ?_)
  rw [written_of_ofJson hname (nodup_keys_fields hproper) h]

/-! ## 4.  Reading what is written -/

/-- A request is told by what it is written with. -/
theorem eq_of_written (h : ∀ name ∈ fieldNames, written name request = written name result) :
    request = result := by
  obtain ⟨criteria, labels, order, skip, limit, aggregate⟩ := request
  obtain ⟨criteria', labels', order', skip', limit', aggregate'⟩ := result
  have hcount : Function.Injective fun n : Nat => Json.number (.int n) := by
    intro n n' heq
    exact Int.ofNat_inj.mp (Number.int.inj (Json.number.inj heq))
  have hcriteria : criteria = criteria' := h "where" (by decide)
  have horder : order = order' := h "orderBy" (by decide)
  have haggregate : aggregate = aggregate' := h "aggregate" (by decide)
  have hskip : skip = skip' := Option.map_injective hcount (h "skip" (by decide))
  have hlimit : limit = limit' := Option.map_injective hcount (h "limit" (by decide))
  have hlabels : labels = labels' := by
    have hwritten := h "labels" (by decide)
    cases labels with
    | nil =>
      cases labels' with
      | nil => rfl
      | cons label' labels' => cases hwritten
    | cons label labels =>
      cases labels' with
      | nil => cases hwritten
      | cons label' labels' =>
        have hmap := Json.array.inj (Option.some.inj hwritten)
        exact List.map_injective_iff.mpr (fun _ _ heq => Json.string.inj heq) hmap
  rw [hcriteria, hlabels, horder, hskip, hlimit, haggregate]

section

variable (hrequest : request.IsProper) (h : written name request = some value)
include hrequest h

theorem ne_null_of_written : value ≠ .null := by
  unfold written at h
  split at h
  case h_1 => exact fun heq => hrequest.criteria (heq ▸ h)
  case h_2 =>
    split at h
    · cases h
    · cases h
      exact nofun
  case h_3 => exact fun heq => hrequest.order (heq ▸ h)
  case h_4 | h_5 =>
    obtain ⟨count, -, rfl⟩ := Option.map_eq_some_iff.mp h
    exact nofun
  case h_6 => exact fun heq => hrequest.aggregate (heq ▸ h)
  case h_7 => cases h

/-- What a request is written with for a field can be written into any request, -/
theorem exists_write_eq_ok (record : Request) : ∃ result, write name value record = .ok result := by
  have hnull := ne_null_of_written hrequest h
  unfold written at h
  split at h
  case h_1 | h_3 | h_6 =>
    exact ⟨_, bind_eq_ok.mpr ⟨some value, Json.asOptional_of_ne_null hnull, rfl⟩⟩
  case h_2 =>
    split at h
    case isTrue => cases h
    case isFalse =>
      cases h
      exact ⟨_, bind_eq_ok.mpr ⟨request.labels, Json.asStrings_eq_ok_iff.mpr rfl, rfl⟩⟩
  case h_4 =>
    obtain ⟨count, hcount, rfl⟩ := Option.map_eq_some_iff.mp h
    refine ⟨_, bind_eq_ok.mpr ⟨some count, ?_, rfl⟩⟩
    rw [Json.asOptional_of_ne_null hnull, Json.asCount_eq_ok (hrequest.skip count hcount)]
    rfl
  case h_5 =>
    obtain ⟨count, hcount, rfl⟩ := Option.map_eq_some_iff.mp h
    refine ⟨_, bind_eq_ok.mpr ⟨some count, ?_, rfl⟩⟩
    rw [Json.asOptional_of_ne_null hnull, Json.asCount_eq_ok (hrequest.limit count hcount)]
    rfl
  case h_7 => cases h

/-- and is worth what it is. -/
theorem worth_of_written : worth name value = some value := by
  rw [worth, if_neg]
  · exact Json.present?_eq_some_iff.mpr ⟨ne_null_of_written hrequest h, rfl⟩
  · rintro ⟨rfl, rfl⟩
    simp [written] at h

end

theorem fields_toJson (request : Request) : fields request.toJson =
    fieldNames.filterMap fun name => (request.written name).map (name, ·) := by
  rw [toJson_eq]
  rfl

/-- A request is read back from what it is written as when it can be read at all. -/
theorem ofJson_toJson_iff : ofJson request.toJson = .ok request ↔ request.IsProper := by
  constructor
  · exact isProper_of_ofJson
  · intro hrequest
    have hwrite : ∀ field ∈ fields request.toJson, ∀ record,
        ∃ result, write field.1 field.2 record = .ok result := by
      intro field hfield
      rw [fields_toJson] at hfield
      obtain ⟨name, -, hname⟩ := List.mem_filterMap.mp hfield
      obtain ⟨value, hvalue, rfl⟩ := Option.map_eq_some_iff.mp hname
      exact exists_write_eq_ok hrequest hvalue
    obtain ⟨result, hresult⟩ := Json.exists_writeFields_eq_ok hwrite {}
    have hread : ofJson request.toJson = .ok result := mapError_eq_ok.mpr hresult
    have hkeys : (Table.keys (fields request.toJson)).Nodup := by
      rw [fields_toJson]
      exact nodup_fieldNames.sublist Table.keys_filterMap_sublist
    have heq : result = request := by
      refine eq_of_written fun name hname => ?_
      rw [written_of_ofJson hname hkeys hread, given?, fields_toJson,
        Table.find?_filterMap nodup_fieldNames hname]
      cases hvalue : written name request with
      | none => rfl
      | some value => exact worth_of_written hrequest hvalue
    rw [hread, heq]

/-- **Requests round-trip.**  Whatever a request is read from, it is read back from the object it is
written as, and is then written as it was.  That object has the fields that were given, each as it
was given and in the order of the fields, but for those that are `null` and for an empty list of
labels. -/
theorem ofJson_roundTrip (h : ofJson value = .ok request) :
    ofJson request.toJson = .ok request ∧
      (∀ again, ofJson request.toJson = .ok again → again.toJson = request.toJson) ∧
      (value.isProper = true → request.toJson =
        .object (fieldNames.filterMap fun name => (given? name value).map (name, ·))) := by
  have hread : ofJson request.toJson = .ok request := ofJson_toJson_iff.mpr (isProper_of_ofJson h)
  refine ⟨hread, fun again hagain => ?_, fun hproper => toJson_of_ofJson hproper h⟩
  rw [Except.ok.inj (hagain.symm.trans hread)]

/-- An array that ends early, with an absent order, and an object in another order than that of the
fields, with no labels. -/
theorem ofJson_roundTrip_forms :
    let criteria : Json := .object [("name", .null), ("$or", .array [.null, .object []])]
    let items : Json := .array [criteria, .array [.string "B", .string "A"], .null,
      .number (.int 0)]
    let members : Json := .object [("skip", .number (.int 0)), ("labels", .array []),
      ("where", criteria), ("limit", .null)]
    let request : Request := { criteria := criteria, labels := ["B", "A"], skip := some 0 }
    ofJson items = .ok request ∧
      (ofJson request.toJson = .ok request ∧
        (∀ again, ofJson request.toJson = .ok again → again.toJson = request.toJson) ∧
        (items.isProper = true → request.toJson =
          .object (fieldNames.filterMap fun name => (given? name items).map (name, ·)))) ∧
      ofJson members = .ok { request with labels := [] } ∧
      toJson { request with labels := [] } =
        .object [("where", criteria), ("skip", .number (.int 0))] := by
  intro criteria items members request
  have hitems : ofJson items = .ok request := rfl
  have hmembers : ofJson members = .ok { request with labels := [] } := rfl
  refine ⟨hitems, ofJson_roundTrip hitems, hmembers, ?_⟩
  exact (ofJson_roundTrip hmembers).2.2 rfl

end Request
end GraphSearch
