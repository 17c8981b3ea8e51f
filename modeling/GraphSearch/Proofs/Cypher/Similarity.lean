import GraphSearch.Proofs.Cypher.Name
import GraphSearch.Proofs.Cypher.Predicate
/-!
# Similarity tests

A similarity condition becomes one test to each of its bounds: a call of a function on the property
and a vector of numbers, compared with the bound (`callTest`, `similarityPredicates_eq_map`).

## 1.  What a test should be

The function that is called has the prefix of the similarity functions, whatever the request says
(`similarityFunction_eq`).  A test is one call of such a function if plain names with dots between
them follow the prefix (`IsDottedPath`, `IsSimilarityTest`).

## 2.  Where the name of the function ends

The name stands in front of the first bracket of a call, and behind that bracket only the property
can have another one that opens.  So a text is a call in one way at most, and the name that makes
it one is the name it was written with (`isDottedPath_of_isSimilarityTest`).

## 3.  Calls are well formed

A call of a function with a path for a name is read to its end, with every bracket closed
(`ends_callTest`).

## 4.  What a request asks for

The condition is read from `$vector`, and all its tests are predicates of the property
(`exists_similarity`).  The name it gives for the function is not looked at: the tests are calls of
similarity functions if the name is a path, and otherwise none of them is (`similarity_tests_iff`).
There are names that close the call and go on (`similarity_escapes`).
-/

namespace GraphSearch.Cypher

open Criteria Results

variable {property : Property} {similarity : Similarity}

/-! ## 1.  What a test should be -/

/-- The bounds a threshold sets. -/
def boundsOf : Threshold → List (Comparator × Number)
  | .atLeast bound => [(.gte, bound)]
  | .range bounds => bounds

/-- The call of a function on the property and a vector, compared with a bound. -/
def callTest (property : Property) (function : String) (query : List Number)
    (bound : Comparator × Number) : String :=
  function ++ "(" ++ property.text ++ ", " ++ listOf (query.map Number.toText) ++ ")"
    ++ " " ++ bound.1.symbol ++ " " ++ bound.2.toText

theorem similarityPredicates_eq_map (property : Property) (similarity : Similarity) :
    similarityPredicates property similarity =
      (boundsOf similarity.threshold).map
        (callTest property similarity.function similarity.query) := by
  rw [similarityPredicates]
  cases similarity.threshold with
  | atLeast bound =>
    have hsymbol : " >= " = " " ++ Comparator.symbol .gte ++ " " := rfl
    simp only [boundsOf, List.map_cons, List.map_nil, callTest, hsymbol, String.append_assoc]
  | range bounds => rfl

theorem similarityPredicates_ne_nil {fields : List (String × Json)}
    (h : similarity.WrittenAs fields) : similarityPredicates property similarity ≠ [] := by
  obtain ⟨function, query, threshold⟩ := similarity
  obtain ⟨-, -, ⟨written, -, hthreshold⟩⟩ := h
  rw [similarityPredicates]
  cases hthreshold with
  | atLeast bound => exact List.cons_ne_nil _ _
  | range hne =>
    intro hnil
    exact hne (List.map_eq_nil_iff.mp hnil)

/-- Plain names with dots between them, at least one of them. -/
def IsDottedPath (text : String) : Prop :=
  ∃ names : List String, names ≠ [] ∧ (∀ part ∈ names, isPlain part = true) ∧
    text = ".".intercalate names

/-- One call of a function of the similarity namespace on the property and numbers, compared
with a number. -/
def IsSimilarityTest (property : Property) (text : String) : Prop :=
  ∃ path query bound, IsDottedPath path ∧ query ≠ [] ∧
    text = callTest property (similarityNamespace ++ path) query bound

/-- The name of a similarity function inside of the namespace. -/
def similarityPath (name : String) : String :=
  if similarityNamespace.toList.isPrefixOf name.toList then
    String.ofList (name.toList.drop similarityNamespace.toList.length)
  else name

/-- Every function that is called starts with the namespace. -/
theorem similarityFunction_eq (name : String) :
    similarityFunction name = similarityNamespace ++ similarityPath name := by
  rw [similarityFunction, similarityPath]
  split
  case isTrue h =>
    obtain ⟨rest, hrest⟩ := List.isPrefixOf_iff_prefix.mp h
    refine String.toList_injective ?_
    rw [String.toList_append, String.toList_ofList, ← hrest, List.drop_left]
  case isFalse => rfl

/-! ## 2.  Where the name of the function ends -/

theorem bracket_notMem_numeral {text : String} (h : IsNumeral text) : '(' ∉ text.toList :=
  fun hmem => absurd (h _ hmem) (by decide)

theorem bracket_notMem_intercalate {separator : String} {items : List String}
    (hseparator : '(' ∉ separator.toList) (h : ∀ item ∈ items, '(' ∉ item.toList) :
    '(' ∉ (separator.intercalate items).toList := by
  induction items with
  | nil => simp
  | cons first items ih =>
    have hfirst := h first List.mem_cons_self
    cases items with
    | nil => simpa using hfirst
    | cons second items =>
      have hrest := ih fun item hitem => h item (List.mem_cons_of_mem first hitem)
      rw [String.intercalate_cons_cons, String.toList_append, String.toList_append]
      simp only [List.mem_append, not_or]
      exact ⟨⟨hfirst, hseparator⟩, hrest⟩

theorem IsDottedPath.bracket_notMem {path : String} (h : IsDottedPath path) :
    '(' ∉ path.toList := by
  obtain ⟨names, -, hnames, rfl⟩ := h
  refine bracket_notMem_intercalate (by decide) fun part hpart hmem => ?_
  obtain ⟨c, rest, hchars, hc, hrest⟩ := isNamePart_of_isPlain (hnames part hpart)
  rw [hchars] at hmem
  rcases List.mem_cons.mp hmem with rfl | hmem
  · exact absurd hc (by decide)
  · exact absurd (List.all_eq_true.mp hrest _ hmem) (by decide)

/-- After the property, no bracket is opened. -/
theorem bracket_notMem_operands (query : List Number) (bound : Comparator × Number) :
    '(' ∉ (", " ++ listOf (query.map Number.toText) ++ ")" ++ " " ++ bound.1.symbol ++ " "
      ++ bound.2.toText).toList := by
  have hitems : '(' ∉ (",".intercalate (query.map Number.toText)).toList := by
    refine bracket_notMem_intercalate (by decide) fun text htext => ?_
    obtain ⟨number, -, rfl⟩ := List.mem_map.mp htext
    exact bracket_notMem_numeral (isNumeral_number number)
  have hbound := bracket_notMem_numeral (isNumeral_number bound.2)
  have hsymbol : '(' ∉ bound.1.symbol.toList := by cases bound.1 <;> decide
  simp [listOf, -String.toList_intercalate, hitems, hbound, hsymbol]

theorem callTest_eq (property : Property) (function : String) (query : List Number)
    (bound : Comparator × Number) : ∃ operands : List Char, '(' ∉ operands ∧
      (callTest property function query bound).toList =
        function.toList ++ '(' :: (property.text.toList ++ operands) := by
  refine ⟨_, bracket_notMem_operands query bound, ?_⟩
  simp [callTest]

theorem takeWhile_bracket {chars rest : List Char} (h : '(' ∉ chars) :
    (chars ++ '(' :: rest).takeWhile (fun c => c ≠ '(') = chars := by
  rw [List.takeWhile_append_of_pos, List.takeWhile_cons_of_neg, List.append_nil]
  · simp
  · intro c hc
    have hne : c ≠ '(' := fun heq => h (heq ▸ hc)
    simpa using hne

/-- A text is a call in one way at most: the name of the function ends at its first bracket. -/
theorem isDottedPath_of_isSimilarityTest {path : String} {query : List Number}
    {bound : Comparator × Number}
    (h : IsSimilarityTest property (callTest property (similarityNamespace ++ path) query bound)) :
    IsDottedPath path := by
  obtain ⟨path', query', bound', hpath, -, heq⟩ := h
  obtain ⟨operands, hoperands, htext⟩ :=
    callTest_eq property (similarityNamespace ++ path) query bound
  obtain ⟨operands', hoperands', htext'⟩ :=
    callTest_eq property (similarityNamespace ++ path') query' bound'
  have hchars := htext.symm.trans ((congrArg String.toList heq).trans htext')
  have hlacks := hpath.bracket_notMem
  -- both texts have the brackets of the property and one more, so the path has none
  have hlacks' : '(' ∉ path.toList := by
    have hcount := congrArg (List.count '(') hchars
    simp only [String.toList_append, List.count_append, List.count_cons_self,
      List.count_eq_zero.mpr hoperands, List.count_eq_zero.mpr hoperands',
      List.count_eq_zero.mpr hlacks] at hcount
    exact List.count_eq_zero.mp (by omega)
  rw [String.toList_append, String.toList_append, List.append_assoc, List.append_assoc,
    List.append_cancel_left_eq] at hchars
  have hpaths := congrArg (List.takeWhile fun c => c ≠ '(') hchars
  rw [takeWhile_bracket hlacks', takeWhile_bracket hlacks] at hpaths
  exact String.toList_injective hpaths ▸ hpath

/-! ## 3.  Calls are well formed -/

theorem ends_dottedPath {before after : List Bracket} {base : String} (h : Ends before after base)
    {names : List String} (hne : names ≠ []) (hnames : ∀ part ∈ names, isPlain part = true) :
    Ends before after (base ++ "." ++ ".".intercalate names) := by
  induction names generalizing base with
  | nil => exact absurd rfl hne
  | cons first names ih =>
    have hfirst := h.member first
    rw [member, name_of_isPlain (hnames first List.mem_cons_self)] at hfirst
    cases names with
    | nil =>
      rw [String.intercalate_singleton]
      exact hfirst
    | cons second names =>
      have hrest := ih hfirst (List.cons_ne_nil _ _)
        fun part hpart => hnames part (List.mem_cons_of_mem first hpart)
      rw [String.intercalate_cons_cons]
      simpa only [String.append_assoc] using hrest

theorem ends_callTest (hnode : Ends [] [] property.node) {path : String} (hpath : IsDottedPath path)
    (query : List Number) (bound : Comparator × Number) :
    Ends [] [] (callTest property (similarityNamespace ++ path) query bound) := by
  obtain ⟨names, hne, hnames, rfl⟩ := hpath
  have hbase : Ends [] [] "gds.similarity" := ⟨.inProperty, rfl, rfl⟩
  have hfunction := ends_dottedPath hbase hne hnames
  have hopening : Leads [] [.round] "(" := rfl
  have hcomma : Leads [.round] [.round] ", " := rfl
  have hclosing : Leads [.round] [] ")" := rfl
  have hsymbol : Leads [] [] (" " ++ bound.1.symbol ++ " ") := by cases bound.1 <;> rfl
  have hquery : Leads [.round] [.round] (listOf (query.map Number.toText)) := by
    refine leads_listOf fun text htext => ?_
    obtain ⟨number, -, rfl⟩ := List.mem_map.mp htext
    exact (isNumeral_number number).ends
  have hcall := ((((hfunction.append_leads hopening rfl).append_ends
    (ends_property hnode [.round])).append_leads hcomma rfl).append_leads hquery).append_leads
    hclosing
  have htest := (hcall.append_leads hsymbol).append_ends (isNumeral_number bound.2).ends
  have hnamespace : similarityNamespace = "gds.similarity" ++ "." := rfl
  simpa only [callTest, hnamespace, String.append_assoc] using htest

/-! ## 4.  What a request asks for -/

section

variable {options : Options} {node key : String} {fields : List (String × Json)} {operand : Json}
  {predicates : List String}

/-- What is written under `$vector` is a similarity. -/
theorem exists_similarity_of_writtenAs {condition : Condition}
    (h : condition.WrittenAs (vectorKey, operand)) : ∃ similarity : Similarity, ∃ entries,
      condition = .similar similarity ∧ operand = .object entries ∧
        similarity.WrittenAs entries := by
  generalize hfield : (vectorKey, operand) = field at h
  cases h with
  | similar hsimilarity => exact ⟨_, _, rfl, (Prod.mk.inj hfield).2, hsimilarity⟩
  | compare comparator _ =>
    cases Comparator.ofKey?_eq_some_iff.mpr (Prod.mk.inj hfield).1
  | text test _ => cases TextTest.ofKey?_eq_some_iff.mpr (Prod.mk.inj hfield).1
  | oneOf | noneOf | present | hasType =>
    exact absurd (Prod.mk.inj hfield).1 (by decide)

/-- A similarity that is asked for is read, and all its tests are predicates of the property. -/
theorem exists_similarity
    (h : propertyPredicates options node key (.object fields) = .ok predicates)
    (hvector : (vectorKey, operand) ∈ fields) : ∃ similarity : Similarity, ∃ entries,
      operand = .object entries ∧ similarity.WrittenAs entries ∧
        similarityPredicates ⟨node, key⟩ similarity ⊆ predicates := by
  obtain ⟨expression, hread, rfl⟩ := map_eq_ok.mp h
  generalize hwritten : Json.object fields = value at hread
  cases readExpression_eq_ok_iff.mp hread with
  | equals hoperand =>
    cases hoperand with
    | scalar scalar => cases scalar <;> cases hwritten
    | @date parts hyear =>
      obtain rfl := Json.object.inj hwritten
      obtain ⟨part, -, hpart⟩ := List.mem_map.mp hvector
      cases Component.ofKey?_eq_some_iff.mpr (Prod.mk.inj hpart).1.symm
  | all hkeys hconditions =>
    obtain rfl := Json.object.inj hwritten
    obtain ⟨_, hcondition, hfield⟩ := exists_mem_of_forall₂ hconditions hvector
    obtain ⟨similarity, entries, rfl, hoperand, hsimilarity⟩ :=
      exists_similarity_of_writtenAs hfield
    refine ⟨similarity, entries, hoperand, hsimilarity, fun text htext => ?_⟩
    exact List.mem_eraseDups.mpr (List.mem_flatMap.mpr ⟨_, hcondition, htext⟩)

end

/-- **A similarity stays inside of its namespace just when its name is a path.**  Whatever name the
request gives, it stands behind the prefix in every test, unquoted, and a quoted property and
numbers are all that the test has besides. -/
theorem similarity_tests_iff {options : Options} {node key : String}
    {fields : List (String × Json)} {operand : Json} {predicates : List String}
    (h : propertyPredicates options node key (.object fields) = .ok predicates)
    (hvector : (vectorKey, operand) ∈ fields) :
    ∃ (similarity : Similarity) (entries : List (String × Json)) (function : String),
      readSimilarity key operand = .ok similarity ∧
      operand = .object entries ∧ Table.find? "fn" entries = some (.string function) ∧
      similarityPredicates ⟨node, key⟩ similarity =
        (boundsOf similarity.threshold).map (callTest ⟨node, key⟩
          (similarityNamespace ++ similarityPath function) similarity.query) ∧
      similarityPredicates ⟨node, key⟩ similarity ≠ [] ∧
      ∀ text ∈ similarityPredicates ⟨node, key⟩ similarity, text ∈ predicates ∧
        (IsSimilarityTest ⟨node, key⟩ text ↔ IsDottedPath (similarityPath function)) ∧
        (IsDottedPath (similarityPath function) → isWellFormed node = true →
          isWellFormed text = true) := by
  obtain ⟨similarity, entries, rfl, hwritten, hsubset⟩ := exists_similarity h hvector
  obtain ⟨function, hname, hfunction⟩ := hwritten.function
  have htests := similarityPredicates_eq_map ⟨node, key⟩ similarity
  rw [hfunction, similarityFunction_eq] at htests
  refine ⟨similarity, entries, function, readSimilarity_of_writtenAs hwritten, rfl, hname, htests,
    ?_, fun text htext => ⟨hsubset htext, ?_⟩⟩
  · exact similarityPredicates_ne_nil hwritten
  · rw [htests] at htext
    obtain ⟨bound, -, rfl⟩ := List.mem_map.mp htext
    refine ⟨⟨isDottedPath_of_isSimilarityTest, fun hpath => ?_⟩, fun hpath hnode => ?_⟩
    · exact ⟨_, _, bound, hpath, hwritten.query.1, rfl⟩
    · rw [isWellFormed_iff] at hnode ⊢
      exact ends_callTest hnode hpath _ _

/-- Another function of the namespace, with two bounds. -/
def alphaVector : Json := .object [
  ("fn", .string "gds.similarity.alpha.cosine"),
  ("query", .array [.number (.int 1), .number (.int 0)]),
  ("threshold", .object [("$gt", .number (.int 0)), ("$lte", .number (.int 1))])]

theorem similarity_tests_iff_alpha :
    propertyPredicates {} "record0" "embedding" (.object [("$vector", alphaVector)]) =
      .ok ["gds.similarity.alpha.cosine(record0.embedding, [1,0]) > 0",
        "gds.similarity.alpha.cosine(record0.embedding, [1,0]) <= 1"] ∧
    ∀ text ∈ ["gds.similarity.alpha.cosine(record0.embedding, [1,0]) > 0",
        "gds.similarity.alpha.cosine(record0.embedding, [1,0]) <= 1"],
      IsSimilarityTest ⟨"record0", "embedding"⟩ text ∧ isWellFormed text = true := by
  have hread : propertyPredicates {} "record0" "embedding" (.object [("$vector", alphaVector)]) =
      .ok ["gds.similarity.alpha.cosine(record0.embedding, [1,0]) > 0",
        "gds.similarity.alpha.cosine(record0.embedding, [1,0]) <= 1"] := rfl
  obtain ⟨similarity, entries, function, hsimilarity, hentries, hname, -, -, htests⟩ :=
    similarity_tests_iff hread List.mem_cons_self
  obtain rfl := Json.object.inj hentries
  obtain rfl := Json.string.inj (Option.some.inj hname)
  obtain rfl := Except.ok.inj hsimilarity
  have hpath : IsDottedPath (similarityPath "gds.similarity.alpha.cosine") :=
    ⟨["alpha", "cosine"], List.cons_ne_nil _ _, by decide, rfl⟩
  refine ⟨hread, fun text htext => ?_⟩
  obtain ⟨-, htest, hwellFormed⟩ := htests text htext
  exact ⟨htest.mpr hpath, hwellFormed hpath rfl⟩

/-- The name of a function with a call of it, and another test begun. -/
def escapingName : String := "cosine(record0.embedding, [0]) >= -1 OR gds.similarity.cosine"

/-- What such a name makes of a test. -/
def escapingTest : String :=
  "gds.similarity.cosine(record0.embedding, [0]) >= -1 OR " ++
    "gds.similarity.cosine(record0.embedding, [1]) >= 2"

theorem similarity_escapes :
    propertyPredicates {} "record0" "embedding" (.object [("$vector", .object [
      ("fn", .string escapingName), ("query", .array [.number (.int 1)]),
      ("threshold", .number (.int 2))])]) = .ok [escapingTest] ∧
    ¬ IsSimilarityTest ⟨"record0", "embedding"⟩ escapingTest ∧
    isWellFormed escapingTest = false := by
  refine ⟨rfl, fun htest => ?_, rfl⟩
  have hcall : escapingTest = callTest ⟨"record0", "embedding"⟩
      (similarityNamespace ++ escapingName) [.int 1] (.gte, .int 2) := rfl
  rw [hcall] at htest
  exact (isDottedPath_of_isSimilarityTest htest).bracket_notMem (by decide)

end GraphSearch.Cypher
