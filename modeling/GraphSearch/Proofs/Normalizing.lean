import GraphSearch.Command.Run
import GraphSearch.Proofs.Aggregate.Normalizing
import GraphSearch.Proofs.Criteria.NormalForm
import GraphSearch.Proofs.Json.RoundTrip
/-!
# Requests compiled from their normal text

The text that a request is normalized to is a request again, and compiles to the same search
(`compileText_normalizeText`).  There are three reasons why it may not, and each is one hypothesis.

* Text is read only so deep, and every group that becomes an array is one level more.  A request
  whose normal value is nested deeper is refused (`compileText_refused`), which none is that is
  nested at most 64 deep itself (`Json.depth_normalize_le_maxDepth`).
* A number need not read back: reading rounds more than once, and what was printed may come back
  as the double beside it.
* The names of output columns go through the rewriting like any other keys.
-/

namespace GraphSearch

open Criteria Results

/-! ## 1.  What holds of a value as it holds of its parts -/

/-- The property holds of an array when it holds of its items, and of an object when it holds of
its values and the keys are as asked, which single keys always are. -/
structure Json.Inherited (P : Json → Prop) (keys : List String → Prop) : Prop where
  array_iff : ∀ items, P (.array items) ↔ ∀ item ∈ items, P item
  object_iff : ∀ fields,
    P (.object fields) ↔ keys (Table.keys fields) ∧ ∀ field ∈ fields, P field.2
  single : ∀ key, keys [key]

section

variable {P : Json → Prop} {keys : List String → Prop}

mutual

/-- Normalization keeps what holds of a value as of its parts: it moves values about, and makes
objects with one key. -/
theorem Json.Inherited.normalizeUnder (hP : Inherited P keys) (grouped : Bool) (value : Json)
    (h : P value) : P (normalizeUnder grouped value) := by
  cases value with
  | object fields =>
    obtain ⟨hkeys, hfields⟩ := (hP.object_iff fields).mp h
    have hnormal := Json.Inherited.normalizeFields hP fields hfields
    cases grouped with
    | false =>
      have hsame : keys (Table.keys (Criteria.normalizeFields fields)) := by
        rwa [keys_normalizeFields]
      refine (hP.object_iff _).mpr ⟨hsame, ?_⟩
      rw [normalizeFields_eq_map]
      exact List.forall_mem_map.mpr hnormal
    | true =>
      rw [Criteria.normalizeUnder, if_pos rfl, normalizeMembers_eq_map]
      refine (hP.array_iff _).mpr (List.forall_mem_map.mpr fun field hfield => ?_)
      exact (hP.object_iff _).mpr ⟨hP.single field.1, List.forall_mem_singleton.mpr
        (hnormal field hfield)⟩
  | array items =>
    have hnormal := Json.Inherited.normalizeItems hP items ((hP.array_iff items).mp h)
    rw [Criteria.normalizeUnder, normalizeItems_eq_map]
    exact (hP.array_iff _).mpr (List.forall_mem_map.mpr hnormal)
  | _ => exact h

theorem Json.Inherited.normalizeItems (hP : Inherited P keys) (items : List Json)
    (h : ∀ item ∈ items, P item) : ∀ item ∈ items, P (normalize item) := by
  cases items with
  | nil => exact List.forall_mem_nil _
  | cons item items =>
    obtain ⟨hitem, hitems⟩ := List.forall_mem_cons.mp h
    exact List.forall_mem_cons.mpr ⟨Json.Inherited.normalizeUnder hP false item hitem,
      Json.Inherited.normalizeItems hP items hitems⟩

theorem Json.Inherited.normalizeFields (hP : Inherited P keys) (fields : List (String × Json))
    (h : ∀ field ∈ fields, P field.2) : ∀ field ∈ fields, P (normalizeEntry field).2 := by
  cases fields with
  | nil => exact List.forall_mem_nil _
  | cons field fields =>
    obtain ⟨hfield, hfields⟩ := List.forall_mem_cons.mp h
    exact List.forall_mem_cons.mpr
      ⟨Json.Inherited.normalizeUnder hP (isGroupKey field.1) field.2 hfield,
        Json.Inherited.normalizeFields hP fields hfields⟩

end

end

namespace Json

theorem inherited_isProper : Inherited (fun value => value.isProper = true) List.Nodup where
  array_iff _ := areProper_iff
  object_iff _ := areProperFields_iff
  single := List.pairwise_singleton _

theorem inherited_readsBack :
    Inherited (fun value => value.readsBack = true) (fun _ => True) where
  array_iff _ := allReadBack_iff
  object_iff _ := by rw [true_and, ← fieldsReadBack_iff]; rfl
  single _ := trivial

mutual

/-- Each level of a value is at most two levels of its normal value, and the outermost is one level
unless it is a group. -/
theorem depth_normalizeUnder_le (grouped : Bool) (value : Json) :
    (normalizeUnder grouped value).depth ≤ 2 * value.depth - (!grouped).toNat := by
  cases value with
  | object fields =>
    have hfields := depth_normalizeFields_le fields
    cases grouped with
    | false =>
      have hnormal : depthFields (normalizeFields fields) ≤ 2 * depthFields fields := by
        rw [normalizeFields_eq_map]
        exact depthFields_le_iff.mpr (List.forall_mem_map.mpr hfields)
      show depthFields (normalizeFields fields) + 1 ≤ 2 * (depthFields fields + 1) - 1
      omega
    | true =>
      have hnormal : depthItems (normalizeMembers fields) ≤ 2 * depthFields fields + 1 := by
        rw [normalizeMembers_eq_map]
        refine depthItems_le_iff.mpr (List.forall_mem_map.mpr fun field hfield => ?_)
        exact Nat.succ_le_succ (depthFields_le_iff.mpr (List.forall_mem_singleton.mpr
          (hfields field hfield)))
      show depthItems (normalizeMembers fields) + 1 ≤ 2 * (depthFields fields + 1) - 0
      omega
  | array items =>
    have hnormal : depthItems (normalizeItems items) ≤ 2 * depthItems items := by
      rw [normalizeItems_eq_map]
      exact depthItems_le_iff.mpr (List.forall_mem_map.mpr (depth_normalizeItems_le items))
    have hgrouped := Bool.toNat_le (!grouped)
    show depthItems (normalizeItems items) + 1 ≤ 2 * (depthItems items + 1) - (!grouped).toNat
    omega
  | _ => exact Nat.zero_le _

theorem depth_normalizeItems_le (items : List Json) :
    ∀ item ∈ items, (normalize item).depth ≤ 2 * depthItems items := by
  cases items with
  | nil => exact List.forall_mem_nil _
  | cons item items =>
    have hitem : (normalize item).depth ≤ 2 * item.depth - 1 := depth_normalizeUnder_le false item
    have hitems := depth_normalizeItems_le items
    have hfirst : item.depth ≤ depthItems (item :: items) := Nat.le_max_left _ _
    have hothers : depthItems items ≤ depthItems (item :: items) := Nat.le_max_right _ _
    refine List.forall_mem_cons.mpr ⟨by omega, fun other hother => ?_⟩
    have := hitems other hother
    omega

theorem depth_normalizeFields_le (fields : List (String × Json)) :
    ∀ field ∈ fields, (normalizeEntry field).2.depth ≤ 2 * depthFields fields := by
  cases fields with
  | nil => exact List.forall_mem_nil _
  | cons field fields =>
    have hfield : (normalizeEntry field).2.depth ≤
        2 * field.2.depth - (!isGroupKey field.1).toNat :=
      depth_normalizeUnder_le (isGroupKey field.1) field.2
    have hfields := depth_normalizeFields_le fields
    have hfirst : field.2.depth ≤ depthFields (field :: fields) := Nat.le_max_left _ _
    have hothers : depthFields fields ≤ depthFields (field :: fields) := Nat.le_max_right _ _
    refine List.forall_mem_cons.mpr ⟨by omega, fun other hother => ?_⟩
    have := hfields other hother
    omega

end

/-- What is nested at most 64 deep can be read again once it is normalized.  One level more can be
too many, as it is for `Command.deepDocument`. -/
theorem depth_normalize_le_maxDepth {value : Json} (h : value.depth ≤ 64) :
    (normalize value).depth ≤ maxDepth := by
  have hnormal : (normalize value).depth ≤ 2 * value.depth - 1 :=
    depth_normalizeUnder_le false value
  rw [maxDepth]
  omega

/-- The pretty text of the normal value of a document is read as that value, if it is not nested
too deep; numbers must read back. -/
theorem parse_pretty_normalize_iff {text ending : String} {value other : Json}
    (hparse : parse text = .ok value) (hnumbers : value.readsBack = true)
    (hending : ∀ c ∈ ending.toList, isBlank c = true) :
    parse ((normalize value).pretty ++ ending) = .ok other ↔
      other = normalize value ∧ (normalize value).depth ≤ maxDepth := by
  have hproper : value.isProper = true := (isWithin_of_parse hparse).1
  exact parse_pretty_iff (inherited_isProper.normalizeUnder false value hproper)
    (inherited_readsBack.normalizeUnder false value hnumbers) hending

end Json

/-! ## 2.  Requests -/

namespace Request

/-- A request with the values it keeps normalized. -/
def normal (request : Request) : Request :=
  { request with
    criteria := request.criteria.map normalize
    order := request.order.map normalize
    aggregate := request.aggregate.map normalize }

theorem writesNormal : Json.WritesNormal write normal := by
  intro field value request result h
  unfold write at h
  split at h
  case h_7 => cases h
  all_goals obtain ⟨read, hread, ⟨⟩⟩ := bind_eq_ok.mp h
  case h_2 =>
    rw [Json.readsPlain_asStrings hread]
    exact bind_eq_ok.mpr ⟨read, hread, rfl⟩
  case h_4 | h_5 =>
    rw [Json.readsPlain_asOptional (Json.readsPlain_asCount _) hread]
    exact bind_eq_ok.mpr ⟨read, hread, rfl⟩
  case h_1 | h_3 | h_6 =>
    exact bind_eq_ok.mpr ⟨read.map normalize, Json.asOptional_asAny_normalize hread, rfl⟩

theorem ofJson_normalize {value : Json} {request : Request} (h : ofJson value = .ok request) :
    ofJson (normalize value) = .ok request.normal := by
  have hnames : ∀ name ∈ fieldNames, isGroupKey name = false := by decide
  refine mapError_eq_ok.mpr ?_
  cases value with
  | object fields => exact Json.writeFields_normalizeFields writesNormal (mapError_eq_ok.mp h)
  | array items => exact Json.writeItems_normalizeItems writesNormal hnames (mapError_eq_ok.mp h)
  | _ => cases h

theorem parse_eq_ok_iff {text : String} {request : Request} : parse text = .ok request ↔
    ∃ value, Json.parse text = .ok value ∧ ofJson value = .ok request := by
  rw [parse]
  cases hparse : Json.parse text with
  | ok value =>
    constructor
    · intro h
      exact ⟨value, rfl, h⟩
    · rintro ⟨_, ⟨⟩, h⟩
      exact h
  | error fault =>
    constructor
    · intro h
      cases h
    · rintro ⟨_, ⟨⟩, _⟩

end Request

/-! ## 3.  Searches -/

namespace Search

variable {options : Options} {request : Request}

/-- Criteria are normalized before they are compiled anyway. -/
theorem criteriaOf_normal (request : Request) : criteriaOf request.normal = criteriaOf request := by
  obtain ⟨criteria, labels, order, skip, limit, aggregate⟩ := request
  cases criteria with
  | none => rfl
  | some criteria => exact normalize_normalize criteria

theorem orderOf_normal {order : Option SortOrder} (h : orderOf request = .ok order) :
    orderOf request.normal = .ok order := by
  obtain ⟨criteria, labels, given, skip, limit, aggregate⟩ := request
  cases given with
  | none => exact h
  | some given =>
    obtain ⟨order, horder, rfl⟩ := map_eq_ok.mp h
    exact map_eq_ok.mpr ⟨order, SortOrder.ofJson_normalize horder, rfl⟩

theorem planOf_normal {bindings : List (String × String)} {plan : Option Aggregate.Plan}
    (havoids : request.aggregate.all Aggregation.avoidsGroups = true)
    (h : planOf options bindings request = .ok plan) :
    planOf options bindings request.normal = .ok plan := by
  obtain ⟨criteria, labels, order, skip, limit, aggregate⟩ := request
  cases aggregate with
  | none => exact h
  | some aggregate =>
    obtain ⟨columns, hcolumns, h⟩ := bind_eq_ok.mp h
    exact bind_eq_ok.mpr ⟨columns, Aggregation.ofJson_normalize havoids hcolumns, h⟩

theorem ofRequest_normal {search : Search}
    (havoids : request.aggregate.all Aggregation.avoidsGroups = true)
    (h : ofRequest options request = .ok search) :
    ofRequest options request.normal = .ok search := by
  obtain ⟨order, horder, h⟩ := bind_eq_ok.mp h
  obtain ⟨selection, hselection, h⟩ := bind_eq_ok.mp h
  obtain ⟨plan, hplan, h⟩ := bind_eq_ok.mp h
  rw [← criteriaOf_normal] at hselection
  exact bind_eq_ok.mpr ⟨order, orderOf_normal horder, bind_eq_ok.mpr ⟨selection, hselection,
    bind_eq_ok.mpr ⟨plan, planOf_normal havoids hplan, h⟩⟩⟩

end Search

/-! ## 4.  Texts -/

namespace Command

variable {options : Options} {text ending : String} {value : Json} {request : Request}
  {search : Search}

/-- Two texts that are compiled to one search are printed alike. -/
theorem compileText_congr {other : String} {again : Request}
    (hrequest : Request.parse text = .ok request)
    (hsearch : Search.ofRequest options request = .ok search)
    (hagain : Request.parse other = .ok again)
    (hother : Search.ofRequest options again = .ok search)
    (format : OutputFormat) :
    compileText options format other = compileText options format text := by
  simp only [compileText, hrequest, hsearch, hagain, hother]

theorem normalizeText_eq_ok (hparse : Json.parse text = .ok value) :
    normalizeText text = .ok (normalize value).pretty := by
  rw [normalizeText, hparse]

/-- **The normal text of a request compiles to what the request compiles to.**  A request is
accepted, its numbers read back from their own texts, no output column that is read is an object
under the name of a group operator, and its normal value is not nested deeper than text is read.
Then the text it is normalized to, with any blanks after it, is a request that compiles to the same
selection, the same plan and the same statement, and what is printed for it is the same in every
format. -/
theorem compileText_normalizeText (hparse : Json.parse text = .ok value)
    (hrequest : Request.ofJson value = .ok request)
    (hsearch : Search.ofRequest options request = .ok search)
    (hnumbers : value.readsBack = true)
    (hcolumns : request.aggregate.all Aggregation.avoidsGroups = true)
    (hdepth : (normalize value).depth ≤ Json.maxDepth) :
    ∃ printed, normalizeText text = .ok printed ∧
      ∀ ending : String, (∀ c ∈ ending.toList, Json.isBlank c = true) →
        (∃ again, Request.parse (printed ++ ending) = .ok again ∧
          Search.ofRequest options again = .ok search) ∧
        ∀ format, compileText options format (printed ++ ending) =
          compileText options format text := by
  refine ⟨(normalize value).pretty, normalizeText_eq_ok hparse, fun ending hending => ?_⟩
  have hreread : Json.parse ((normalize value).pretty ++ ending) = .ok (normalize value) :=
    (Json.parse_pretty_normalize_iff hparse hnumbers hending).mpr ⟨rfl, hdepth⟩
  have hagain : Request.parse ((normalize value).pretty ++ ending) = .ok request.normal :=
    Request.parse_eq_ok_iff.mpr ⟨normalize value, hreread, Request.ofJson_normalize hrequest⟩
  have hsame : Search.ofRequest options request.normal = .ok search :=
    Search.ofRequest_normal hcolumns hsearch
  refine ⟨⟨request.normal, hagain, hsame⟩, ?_⟩
  have hread : Request.parse text = .ok request :=
    Request.parse_eq_ok_iff.mpr ⟨value, hparse, hrequest⟩
  exact compileText_congr hread hsearch hagain hsame

/-- Criteria in a group that is written as an object. -/
def groupCriteria : Json :=
  .object [("$or", .object [("title", .string "Tides"), ("sold", .bool true)])]

/-- One output column, which counts the records of the root. -/
def countColumns : Json :=
  .object [("n", .object [("fn", .string "count"), ("alias", .string "$record")])]

def groupDocument : Json := .object [("where", groupCriteria), ("aggregate", countColumns)]

/-- A request normalized to text, with the line break that ends what is printed. -/
theorem compileText_normalizeText_group :
    ∃ printed, normalizeText groupDocument.pretty = .ok printed ∧
      ∀ format, compileText {} format (printed ++ "\n") =
        compileText {} format groupDocument.pretty := by
  let request : Request := { criteria := some groupCriteria, aggregate := some countColumns }
  have hparse : Json.parse groupDocument.pretty = .ok groupDocument := by decide +kernel
  have hrequest : Request.ofJson groupDocument = .ok request := by rfl
  have haccepted : (Search.ofRequest {} request).isOk = true := by decide +kernel
  have hbreak : ∀ c ∈ ['\n'], Json.isBlank c = true := List.forall_mem_singleton.mpr rfl
  obtain ⟨search, hsearch⟩ := exists_eq_ok haccepted
  have hdepth : groupDocument.depth ≤ 64 := by decide +kernel
  obtain ⟨printed, hprinted, h⟩ := compileText_normalizeText hparse hrequest hsearch
    (by decide +kernel) (by decide +kernel) (Json.depth_normalize_le_maxDepth hdepth)
  exact ⟨printed, hprinted, (h "\n" hbreak).2⟩

/-! ## 5.  Texts that do not compile to the same -/

/-- A request that is accepted is accepted from the text it is normalized to, and comes to the same
statement. -/
def SurvivesNormalizing (options : Options) (text : String) : Prop :=
  (compileText options .cypher text).isOk = true →
    ∃ printed, normalizeText text = .ok printed ∧
      compileText options .cypher printed = compileText options .cypher text

/-- What is printed for a normal value that is nested too deep is refused. -/
theorem compileText_refused {format : OutputFormat} (hparse : Json.parse text = .ok value)
    (hnumbers : value.readsBack = true) (hdepth : Json.maxDepth < (normalize value).depth) :
    (compileText options format (normalize value).pretty).isOk = false := by
  have hunread : ∀ other, Json.parse (normalize value).pretty ≠ .ok other := by
    intro other hother
    rw [← String.append_empty (s := (normalize value).pretty)] at hother
    obtain ⟨-, hwithin⟩ :=
      (Json.parse_pretty_normalize_iff hparse hnumbers (List.forall_mem_nil _)).mp hother
    omega
  cases hread : Json.parse (normalize value).pretty with
  | ok other => exact absurd hread (hunread other)
  | error fault =>
    rw [compileText, Request.parse, hread]
    rfl

/-- Criteria in groups, one inside the other. -/
def groupsWithin : Nat → Json
  | 0 => .object [("a", .number (.int 1))]
  | depth + 1 => .object [("$and", groupsWithin depth)]

def deepDocument : Json := .object [("where", groupsWithin 63)]

theorem parse_deepDocument : Json.parse deepDocument.pretty = .ok deepDocument := by
  have hproper : deepDocument.isProper = true := by decide +kernel
  have hnumbers : deepDocument.readsBack = true := by decide +kernel
  have hdepth : deepDocument.depth ≤ Json.maxDepth := by decide +kernel
  rw [← String.append_empty (s := deepDocument.pretty)]
  exact (Json.parse_pretty_iff hproper hnumbers (List.forall_mem_nil _)).mpr ⟨rfl, hdepth⟩

theorem compileText_deepDocument : (compileText {} .cypher deepDocument.pretty).isOk = true := by
  have hrequest : Request.parse deepDocument.pretty = .ok { criteria := some (groupsWithin 63) } :=
    Request.parse_eq_ok_iff.mpr ⟨deepDocument, parse_deepDocument, rfl⟩
  have hsearch : (Search.ofRequest {} { criteria := some (groupsWithin 63) }).isOk = true := by
    decide +kernel
  obtain ⟨search, hsearch⟩ := exists_eq_ok hsearch
  rw [compileText, hrequest]
  simp only [hsearch]
  rfl

/-- A number that is rounded when it is read, and again when what was printed of it is read. -/
def roundedText : String := "\x7b\"where\": \x7b\"a\": 3e49\x7d\x7d"

/-- A column under the name of a group operator. -/
def groupColumnDocument : Json :=
  .object [("aggregate", .object [("$or", .object [("fn", .string "count"),
    ("alias", .string "$record")])])]

theorem not_survivesNormalizing {printed : String}
    (haccepted : (compileText options .cypher text).isOk = true)
    (hprinted : normalizeText text = .ok printed)
    (hother : compileText options .cypher printed ≠ compileText options .cypher text) :
    ¬ SurvivesNormalizing options text := by
  intro h
  obtain ⟨other, hnormal, hsame⟩ := h haccepted
  obtain rfl := Except.ok.inj (hprinted.symm.trans hnormal)
  exact hother hsame

/-- The number comes back as the double beside it, the groups come to 128 levels, and the column
is no entry any more. -/
theorem survivesNormalizing_not_always :
    ¬ SurvivesNormalizing {} roundedText ∧ ¬ SurvivesNormalizing {} deepDocument.pretty ∧
      ¬ SurvivesNormalizing {} groupColumnDocument.pretty := by
  refine ⟨?number, ?depth, ?column⟩
  case number =>
    have hprinted : normalizeText roundedText =
        .ok "\x7b\n  \"where\": \x7b\n    \"a\": 2.9999999999999997e+49\n  \x7d\n\x7d" := by
      decide +kernel
    exact not_survivesNormalizing (by decide +kernel) hprinted (by decide +kernel)
  case depth =>
    have hrefused : (compileText {} .cypher (normalize deepDocument).pretty).isOk = false :=
      compileText_refused parse_deepDocument (by decide +kernel) (by decide +kernel)
    refine not_survivesNormalizing compileText_deepDocument
      (normalizeText_eq_ok parse_deepDocument) fun hsame => ?_
    rw [hsame, compileText_deepDocument] at hrefused
    cases hrefused
  case column =>
    have hparse : Json.parse groupColumnDocument.pretty = .ok groupColumnDocument := by
      decide +kernel
    exact not_survivesNormalizing (by decide +kernel) (normalizeText_eq_ok hparse)
      (by decide +kernel)

end Command
end GraphSearch
