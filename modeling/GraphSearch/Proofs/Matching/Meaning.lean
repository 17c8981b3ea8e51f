import GraphSearch.Proofs.Matching.Precedence
import GraphSearch.Proofs.Matching.Walk
/-!
# What criteria mean

Criteria have a truth value of their own, given the truth values of the tests they come down
to.  An object is the conjunction of its entries, a group says of its members what its operator
says, an array among the members of a group is a conjunction, and an entry about related
records is the test that following the relation yields.  Members that ask for nothing are
passed over, and a group of none asks for nothing either (`verdict`).

The functions of section 2 read criteria in that way and never put a formula together.  They go
through the contexts of a compilation, because the tests depend on the aliases given out so far.
The main result compares them with what is compiled, as text:

    value of the terms, read with the precedences of the query language  =  value of the criteria

for all criteria, aliases, contexts and truth values (`objectTerms_meaning`).
-/

namespace GraphSearch.Matching

open Criteria

/-! ## 1.  Verdicts -/

/-- What an operator says of its members; `$not` and `$nor` say that the group they negate
fails. -/
def groupTruth : GroupOp → List Bool → Bool
  | .and, members => members.all id
  | .or, members => members.any id
  | .xor, members => members.count true % 2 == 1
  | .not, members => !members.all id
  | .nor, members => !members.any id

/-- The truth of a group, which has none without members. -/
def verdict (op : GroupOp) : List Bool → Option Bool
  | [] => none
  | members => some (groupTruth op members)

/-- The truth of what is to hold together. -/
def conjunction (readings : List Bool) : Option Bool := verdict .and readings

/-! ## 2.  The reading of criteria -/

section

variable (v : String → Bool)

/-- The truth of an entry that has no criteria inside. -/
def leafReading (id : AliasId) (key : String) (value : Json) : Descent (Option Bool) := do
  let context ← get
  let predicates ← Descent.lift (leafPredicates context.options (context.nameOf id) key value)
  return conjunction (predicates.map v)

/-- The truth of the test that a relation comes down to. -/
def relatedReading (id : AliasId) (label : String) (fields : List (String × Json)) :
    Descent (Option Bool) := do
  let term ← follow label fields id fun child => objectTerms child fields
  return some (term.holds v)

mutual

/-- The truth of one entry of a criteria object. -/
def entryReading (id : AliasId) (key : String) : Json → Descent (Option Bool)
  | .object fields =>
    match kindOf key (.object fields) with
    | .group op => do
      let members ← Descent.amongMembers op (entryMemberReadings id fields)
      return verdict op members
    | .related => relatedReading v id key fields
    | _ => leafReading v id key (.object fields)
  | .array items =>
    match kindOf key (.array items) with
    | .group op => do
      let members ← Descent.amongMembers op (memberReadings id op items)
      return verdict op members
    | _ => leafReading v id key (.array items)
  | .null => leafReading v id key .null
  | .bool b => leafReading v id key (.bool b)
  | .number n => leafReading v id key (.number n)
  | .string s => leafReading v id key (.string s)

/-- The truth of those entries that are about related records if `related` is set, and of all
others if it is not. -/
def passReadings (id : AliasId) (related : Bool) :
    List (String × Json) → Descent (List Bool)
  | [] => return []
  | (key, value) :: fields => do
    if isRelated (key, value) = related then
      let reading ← entryReading id key value
      let others ← passReadings id related fields
      return reading.toList ++ others
    else passReadings id related fields

/-- The truth of the members of a group that is written as an array. -/
def memberReadings (id : AliasId) (op : GroupOp) : List Json → Descent (List Bool)
  | [] => return []
  | item :: items => do
    let reading ← memberReading id op item
    let others ← memberReadings id op items
    return reading.toList ++ others

/-- The truth of a member of a group. -/
def memberReading (id : AliasId) (op : GroupOp) : Json → Descent (Option Bool)
  | .object fields => do
    let own ← passReadings id false fields
    let related ← passReadings id true fields
    return conjunction (own ++ related)
  | .array items => do
    return verdict .and (← memberReadings id .and items)
  | .null => throw (.invalidOperand op.key op.key .null)
  | .bool b => throw (.invalidOperand op.key op.key (.bool b))
  | .number n => throw (.invalidOperand op.key op.key (.number n))
  | .string s => throw (.invalidOperand op.key op.key (.string s))

/-- The truth of the members of a group that is written as an object. -/
def entryMemberReadings (id : AliasId) : List (String × Json) → Descent (List Bool)
  | [] => return []
  | (key, value) :: fields => do
    let reading ← entryReading id key value
    let others ← entryMemberReadings id fields
    return reading.toList ++ others

end

/-- The truth of a criteria object: all its entries hold. -/
def objectReading (id : AliasId) (fields : List (String × Json)) : Descent (Option Bool) := do
  let own ← passReadings v id false fields
  let related ← passReadings v id true fields
  return conjunction (own ++ related)

end

/-! ## 3.  Terms and readings -/

section

variable {v : String → Bool}

@[simp] theorem conjunction_nil : conjunction [] = none := rfl

theorem conjunction_cons (b : Bool) (readings : List Bool) :
    conjunction (b :: readings) = some ((b :: readings).all id) := rfl

@[simp] theorem conjunction_toList (reading : Option Bool) :
    conjunction reading.toList = reading := by
  cases reading with
  | none => rfl
  | some b => cases b <;> rfl

theorem conjunction_getD (readings : List Bool) :
    (conjunction readings).getD true = readings.all id := by
  cases readings with
  | nil => rfl
  | cons b readings => rfl

theorem conjunction_eq_none_iff {readings : List Bool} :
    conjunction readings = none ↔ readings = [] := by
  cases readings with
  | nil => simp
  | cons b readings => simp [conjunction_cons]

/-- Conjunctions may be taken in steps. -/
theorem conjunction_append_congr {a a' b b' : List Bool} (ha : conjunction a = conjunction a')
    (hb : conjunction b = conjunction b') :
    conjunction (a ++ b) = conjunction (a' ++ b') := by
  have hempty : a ++ b = [] ↔ a' ++ b' = [] := by
    rw [List.append_eq_nil_iff, List.append_eq_nil_iff, ← conjunction_eq_none_iff,
      ← conjunction_eq_none_iff, ha, hb, conjunction_eq_none_iff, conjunction_eq_none_iff]
  have hall : (a ++ b).all id = (a' ++ b').all id := by
    rw [List.all_append, List.all_append, ← conjunction_getD, ← conjunction_getD, ha, hb,
      conjunction_getD, conjunction_getD]
  cases hab : a ++ b with
  | nil => rw [hempty.mp hab]
  | cons x xs =>
    cases hab' : a' ++ b' with
    | nil => exact absurd (hempty.mpr hab') (by simp [hab])
    | cons y ys => rw [conjunction_cons, conjunction_cons, ← hab, ← hab', hall]

/-- The term of a group says of the members what the operator says. -/
theorem map_holds_groupTerm (op : GroupOp) (members : List Formula) :
    (groupTerm op members).toList.map (Formula.holds v)
      = (verdict op (members.map (Formula.holds v))).toList := by
  cases members with
  | nil => cases op <;> rfl
  | cons first others =>
    cases others with
    | nil =>
      cases op <;>
        simp [groupTerm, verdict, groupTruth, GroupOp.negates, Formula.holds,
          connectiveOf, Connective.truth]
    | cons second others =>
      cases op <;>
        simp [groupTerm, verdict, groupTruth, GroupOp.negates, Formula.holds,
          connectiveOf, Connective.truth]

/-- The term of an object among the members of a group says that all its terms hold. -/
theorem map_holds_conjoin (terms : List Formula) :
    (conjoin terms).toList.map (Formula.holds v)
      = (conjunction (terms.map (Formula.holds v))).toList := by
  cases terms with
  | nil => rfl
  | cons first others =>
    cases others with
    | nil => simp [conjoin, conjunction_cons]
    | cons second others => simp [conjoin, conjunction_cons, Formula.holds, Connective.truth]

theorem map_holds_predicateTerms (node : String) (predicates : List String) :
    (predicateTerms node predicates).map (Formula.holds v) = predicates.map v := by
  simp [predicateTerms, Formula.holds, Atom.text]

end

/-! ## 4.  Side by side -/

/-- The part reads as terms with the truth values given: the entries of an object hold
together, and the members of a group one by one. -/
def Part.ReadsAs (v : String → Bool) (id : AliasId) (context : Context) (truths : List Bool)
    (after : Context) : Part → Prop
  | .object fields => objectReading v id fields context = .ok (conjunction truths) after
  | .pass related fields => ∃ readings,
    passReadings v id related fields context = .ok readings after ∧
      conjunction readings = conjunction truths
  | .entry key value => entryReading v id key value context = .ok (conjunction truths) after
  | .members op items => memberReadings v id op items context = .ok truths after
  | .member op item => ∃ reading, memberReading v id op item context = .ok reading after ∧
      reading.toList = truths
  | .groupEntries fields => entryMemberReadings v id fields context = .ok truths after

theorem objectReading_eq_ok {v : String → Bool} {id : AliasId} {fields : List (String × Json)}
    {context after : Context} {reading : Option Bool} :
    objectReading v id fields context = .ok reading after ↔
      ∃ own middle others, passReadings v id false fields context = .ok own middle ∧
        passReadings v id true fields middle = .ok others after ∧
        reading = conjunction (own ++ others) := by
  simp only [objectReading, Descent.bind_eq_ok, Descent.pure_eq_ok]
  constructor
  · rintro ⟨own, middle, hown, others, _, hothers, rfl, rfl⟩
    exact ⟨own, middle, others, hown, hothers, rfl⟩
  · rintro ⟨own, middle, others, hown, hothers, rfl⟩
    exact ⟨own, middle, hown, others, after, hothers, rfl, rfl⟩

/-- An object is read in the same way where it is a member of a group. -/
theorem memberReading_object (v : String → Bool) (id : AliasId) (op : GroupOp)
    (fields : List (String × Json)) :
    memberReading v id op (.object fields) = objectReading v id fields := by
  rw [memberReading, objectReading]

theorem leafReading_of_leafTerms {v : String → Bool} {id : AliasId} {key : String}
    {value : Json} {context after : Context} {terms : List Formula}
    (h : leafTerms id key value context = .ok terms after) :
    leafReading v id key value context
      = .ok (conjunction (terms.map (Formula.holds v))) after := by
  obtain ⟨rfl, predicates, hpredicates, rfl⟩ := leafTerms_eq_ok.mp h
  simp only [leafReading, Descent.bind_eq_ok, Descent.get_eq_ok, Descent.lift_eq_ok,
    Descent.pure_eq_ok]
  refine ⟨_, _, ⟨rfl, rfl⟩, predicates, _, ⟨hpredicates, rfl⟩, ?_, rfl⟩
  rw [map_holds_predicateTerms]

/-- A leaf is read as one by `entryReading` too. -/
theorem entryReading_of_leaf {v : String → Bool} {id : AliasId} {key : String} {value : Json}
    {context after : Context} {terms : List Formula}
    (h : leafTerms id key value context = .ok terms after) :
    entryReading v id key value context
      = .ok (conjunction (terms.map (Formula.holds v))) after := by
  have hreading := leafReading_of_leafTerms (v := v) h
  obtain ⟨-, predicates, hpredicates, -⟩ := leafTerms_eq_ok.mp h
  obtain ⟨hgroup, hrelated⟩ := kindOf_of_leafPredicates hpredicates
  cases value with
  | object fields =>
    rw [entryReading]
    cases hkind : kindOf key (.object fields) with
    | group op => exact absurd hkind (hgroup op)
    | related => exact absurd hkind hrelated
    | identity | declaration | relation | property => exact hreading
  | array items =>
    rw [entryReading]
    cases hkind : kindOf key (.array items) with
    | group op => exact absurd hkind (hgroup op)
    | identity | declaration | relation | property | related => exact hreading
  | null | bool _ | number _ | string _ =>
    rw [entryReading]
    exact hreading

/-- What is compiled from a part of criteria has the truth values of the part. -/
theorem Walk.readsAs {part : Part} {id : AliasId} {context after : Context}
    {terms : List Formula} (v : String → Bool) (h : Walk follow id context part terms after) :
    part.ReadsAs v id context (terms.map (Formula.holds v)) after := by
  induction h with
  | object _ _ ihOwn ihOthers =>
    obtain ⟨own, hown, heq⟩ := ihOwn
    obtain ⟨others, hothers, heq'⟩ := ihOthers
    refine objectReading_eq_ok.mpr ⟨own, _, others, hown, hothers, ?_⟩
    rw [List.map_append]
    exact (conjunction_append_congr heq heq').symm
  | passNil => exact ⟨[], Descent.pure_eq_ok.mpr ⟨rfl, rfl⟩, rfl⟩
  | @passTake _ _ _ _ _ terms _ _ _ _ hrelated _ _ ihEntry ihOthers =>
    obtain ⟨others, hothers, heq⟩ := ihOthers
    refine ⟨(conjunction (terms.map (Formula.holds v))).toList ++ others, ?_, ?_⟩
    · rw [passReadings, if_pos hrelated]
      simp only [Descent.bind_eq_ok, Descent.pure_eq_ok]
      exact ⟨_, _, ihEntry, others, _, hothers, rfl, rfl⟩
    · rw [List.map_append]
      exact conjunction_append_congr (conjunction_toList _) heq
  | passSkip hrelated _ ih =>
    obtain ⟨readings, hreadings, heq⟩ := ih
    refine ⟨readings, ?_, heq⟩
    rw [passReadings, if_neg hrelated]
    exact hreadings
  | leaf hleaf => exact entryReading_of_leaf hleaf
  | groupObject hkind _ ih =>
    rw [map_holds_groupTerm, Part.ReadsAs, conjunction_toList, entryReading]
    simp only [hkind, Descent.bind_eq_ok, Descent.amongMembers_eq_ok, Descent.pure_eq_ok]
    exact ⟨_, _, ⟨_, ih, rfl⟩, rfl, rfl⟩
  | groupArray hkind _ ih =>
    rw [map_holds_groupTerm, Part.ReadsAs, conjunction_toList, entryReading]
    simp only [hkind, Descent.bind_eq_ok, Descent.amongMembers_eq_ok, Descent.pure_eq_ok]
    exact ⟨_, _, ⟨_, ih, rfl⟩, rfl, rfl⟩
  | @related id context key fields term after hkind hterm _ _ =>
    rw [Part.ReadsAs, entryReading]
    simp only [hkind, relatedReading, Descent.bind_eq_ok, Descent.pure_eq_ok]
    refine ⟨term, _, hterm, ?_, rfl⟩
    rw [List.map_singleton, conjunction_cons]
    simp
  | membersNil => exact Descent.pure_eq_ok.mpr ⟨rfl, rfl⟩
  | membersCons _ _ ihItem ihItems =>
    obtain ⟨reading, hreading, heq⟩ := ihItem
    rw [Part.ReadsAs, memberReadings, List.map_append, ← heq]
    simp only [Descent.bind_eq_ok, Descent.pure_eq_ok]
    exact ⟨reading, _, hreading, _, _, ihItems, rfl, rfl⟩
  | memberObject _ ih =>
    refine ⟨conjunction _, ?_, (map_holds_conjoin _).symm⟩
    rw [memberReading_object]
    exact ih
  | memberArray _ ih =>
    refine ⟨verdict .and _, ?_, (map_holds_groupTerm .and _).symm⟩
    rw [memberReading]
    simp only [Descent.bind_eq_ok, Descent.pure_eq_ok]
    exact ⟨_, _, ih, rfl, rfl⟩
  | groupEntriesNil => exact Descent.pure_eq_ok.mpr ⟨rfl, rfl⟩
  | groupEntriesCons _ _ ihEntry ihEntries =>
    rw [Part.ReadsAs, entryMemberReadings, List.map_append, map_holds_conjoin]
    simp only [Descent.bind_eq_ok, Descent.pure_eq_ok]
    exact ⟨_, _, ihEntry, _, _, ihEntries, rfl, rfl⟩

/-! ## 5.  Terms as text -/

/-- The text of a conjunction is read as the conjunction of what its terms are read as; that of
no terms is read as nothing. -/
theorem value?_joined_tokens (v : String → Bool) (terms : List Formula) :
    value? v (joined .and (terms.map Formula.tokens))
      = conjunction (terms.map (Formula.holds v)) := by
  cases terms with
  | nil => rfl
  | cons first others =>
    rw [Formula.value?_joined_and, List.map_cons, conjunction_cons, ← List.map_cons,
      List.all_map]
    rfl

theorem mapM_value?_tokens (v : String → Bool) (terms : List Formula) :
    (terms.map Formula.tokens).mapM (value? v) = some (terms.map (Formula.holds v)) := by
  induction terms with
  | nil => rfl
  | cons first others ih =>
    rw [List.map_cons, List.mapM_cons, Formula.value?_tokens, ih]
    rfl

theorem map_spell_tokens (terms : List Formula) :
    (terms.map Formula.tokens).map spell = terms.map Formula.text := by
  rw [List.map_map]
  exact List.map_congr_left fun term _ => Formula.spell_tokens term

/-- **Criteria mean what their text says.**  The terms of a criteria object are texts that can
be read with the precedences of the query language, one by one and as one conjunction without
parentheses around its terms; and their values, whatever those of the tests, conjoin to the
value of the criteria.  Criteria without a value are those that yield no terms. -/
theorem objectTerms_meaning {id : AliasId} {fields : List (String × Json)}
    {context after : Context} {terms : List Formula}
    (h : objectTerms id fields context = .ok terms after) (v : String → Bool) :
    (terms.map Formula.tokens).map spell = terms.map Formula.text ∧
      spell (joined .and (terms.map Formula.tokens)) = joinAnd (terms.map Formula.text) ∧
      ∃ values, (terms.map Formula.tokens).mapM (value? v) = some values ∧
        value? v (joined .and (terms.map Formula.tokens)) = conjunction values ∧
        objectReading v id fields context = .ok (conjunction values) after := by
  have hwalk : Walk follow id context (.object fields) terms after := .of_terms h
  refine ⟨map_spell_tokens terms, ?_, terms.map (Formula.holds v), mapM_value?_tokens v terms,
    value?_joined_tokens v terms, hwalk.readsAs v⟩
  rw [spell_joined, map_spell_tokens, joinAnd]

/-- All groups, an array among the members of one, and a relation outside of a negation and one
inside, where only the tests of identity `1` hold. -/
theorem objectTerms_meaning_groups :
    let fields := [("$xor", Json.array [.object [("$id", .number (.int 1))], .array
      [.object [("$id", .number (.int 2))], .object [("A", .object [])]]]),
      ("$nor", .object [("$id", .number (.int 2)), ("B", .object [])])]
    let v := fun text : String => text == "record.__id = 1"
    ∃ terms after, objectTerms Context.root fields (Context.start {}) = .ok terms after ∧
      (terms.map Formula.tokens).map spell = terms.map Formula.text ∧
      spell (joined .and (terms.map Formula.tokens)) = joinAnd (terms.map Formula.text) ∧
      ∃ values, (terms.map Formula.tokens).mapM (value? v) = some values ∧
        value? v (joined .and (terms.map Formula.tokens)) = conjunction values ∧
        objectReading v Context.root fields (Context.start {})
          = .ok (conjunction values) after := by
  intro fields v
  obtain ⟨terms, after, h⟩ := Descent.accepts_iff.mp
    (show Descent.accepts (objectTerms Context.root fields) (Context.start {}) = true by
      decide +kernel)
  exact ⟨terms, after, h, objectTerms_meaning h v⟩

end GraphSearch.Matching
