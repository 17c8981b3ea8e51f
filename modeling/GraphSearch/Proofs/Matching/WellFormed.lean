import GraphSearch.Proofs.Cypher.Predicate
import GraphSearch.Proofs.Matching.Binding
/-!
# Selections are well formed

Criteria and labels are the users' own, and what is written for them must not break out of the
place it is written in.  Every condition of a selection, every pattern and every term attached to
one is well formed: all its string literals and quoted names are ended, its brackets are balanced,
and no connective stands outside of them, so that conditions can be joined by `AND`.

* `ends_group`, `ends_negation`, `ends_existential`: formulas are, when their parts are;
* `Context.IsSpelled`: so is what a context keeps;
* `isWalkInvariantOn_isSpelled`: a walk keeps it so, when no leaf has a `$vector` operator;
* `ofCriteria_isWellFormed`: and so every text of a selection is.
-/

namespace GraphSearch.Matching

open Criteria Cypher

/-! ## 1.  Patterns -/

theorem leads_arrow (relation : Relation) (stack : List Bracket) :
    Leads stack stack (arrow relation) := by
  have hdash : Leads stack stack "-" := rfl
  have hright : Leads stack stack "->" := rfl
  have hleft : Leads stack stack "<-" := rfl
  unfold arrow
  extract_lets type
  have htype : Leads stack stack type := by
    have hopening : Leads stack (.square :: stack) "[:" := rfl
    have hclosing : Leads (.square :: stack) stack "]" := rfl
    unfold type
    cases relation.type with
    | none => rfl
    | some name =>
      exact (hopening.append_ends (ends_quoted name)).append_leads hclosing rfl
  cases relation.direction with
  | outgoing => exact (hdash.append_leads htype).append_leads hright
  | incoming => exact (hleft.append_leads htype).append_leads hdash
  | undirected => exact (hdash.append_leads htype).append_leads hdash

theorem leads_hop {parent child : String} (hparent : Ends [] [] parent) (hchild : Ends [] [] child)
    (relation : Relation) (label : String) (stack : List Bracket) :
    Leads stack stack (Pattern.hop parent relation child label).text := by
  have hopening : Leads stack (.round :: stack) "(" := rfl
  have hclosing : Leads (.round :: stack) stack ")" := rfl
  have hcolon : Leads (.round :: stack) (.round :: stack) ":" := rfl
  have hfrom := (hopening.append_ends (hparent.inside (.round :: stack))).append_leads hclosing
    rfl
  have hto := (((hfrom.append_leads (leads_arrow relation stack)).append_leads
    hopening).append_ends (hchild.inside (.round :: stack))).append_leads hcolon rfl
  exact (hto.append_ends (ends_quoted label)).append_leads hclosing rfl

/-! ## 2.  Formulas -/

/-- Members that are joined inside of parentheses. -/
theorem ends_joined (connective : Connective) {terms : List Formula} (bracket : Bracket)
    (h : ∀ t ∈ terms, Ends [] [] t.text) :
    Ends [bracket] [bracket] (connective.joiner.intercalate (terms.map Formula.text)) := by
  have hjoiner : Leads [bracket] [bracket] connective.joiner := by cases connective <;> rfl
  have hapart : startsApart connective.joiner = true := by cases connective <;> rfl
  refine ends_intercalate hjoiner hapart fun text htext => ?_
  obtain ⟨term, hterm, rfl⟩ := List.mem_map.mp htext
  exact (h term hterm).inside [bracket]

theorem ends_group (connective : Connective) {first : Formula} {others : List Formula}
    (h : ∀ t ∈ first :: others, Ends [] [] t.text) :
    Ends [] [] (Formula.group connective first others).text := by
  have hopening : Leads [] [.round] "(" := rfl
  have hclosing : Leads [.round] [] ")" := rfl
  rw [Formula.text_group, Formula.texts_eq_map, ← List.map_cons]
  exact ((hopening.append_ends (ends_joined connective .round h)).append_leads hclosing
    rfl).ends

theorem ends_negation (connective : Connective) {first : Formula} {others : List Formula}
    (h : ∀ t ∈ first :: others, Ends [] [] t.text) :
    Ends [] [] (Formula.negation connective first others).text := by
  have hopening : Leads [] [.round] "NOT (" := rfl
  have hclosing : Leads [.round] [] ")" := rfl
  rw [Formula.text_negation, Formula.texts_eq_map, ← List.map_cons]
  exact ((hopening.append_ends (ends_joined connective .round h)).append_leads hclosing
    rfl).ends

theorem ends_existential {pattern : Pattern} {terms : List Formula}
    (hpattern : Leads [.curly] [.curly] pattern.text) (h : ∀ t ∈ terms, Ends [] [] t.text) :
    Ends [] [] (Formula.existential pattern terms).text := by
  have hopening : Leads [] [.curly] "EXISTS \x7b MATCH " := rfl
  have hwhere : Leads [.curly] [.curly] " WHERE " := rfl
  have hclosing : Leads [.curly] [] " \x7d" := rfl
  cases terms with
  | nil =>
    rw [Formula.text_existential_nil]
    exact ((hopening.append_leads hpattern).append_leads hclosing).ends
  | cons term terms =>
    have hjoined := ends_joined .and .curly h
    rw [Formula.text_existential_cons]
    exact ((((hopening.append_leads hpattern).append_leads hwhere).append_ends
      hjoined).append_leads hclosing rfl).ends

/-- The term of a group is well formed when its members are. -/
theorem ends_groupTerm (op : GroupOp) {members : List Formula}
    (h : ∀ t ∈ members, Ends [] [] t.text) :
    ∀ t ∈ (groupTerm op members).toList, Ends [] [] t.text := by
  rcases toList_groupTerm op members with heq | ⟨first, others, rfl, heq⟩
  · rw [heq]
    exact h
  · rw [heq]
    intro t ht
    obtain rfl := List.mem_singleton.mp ht
    split
    · exact ends_negation _ h
    · exact ends_group _ h

theorem ends_present {child : String} (hchild : Ends [] [] child) :
    Ends [] [] (Formula.atom (.present child)).text := by
  have hnull : Ends [] [] " IS NOT NULL" := ⟨.inWord ['N', 'U', 'L', 'L'], rfl, rfl⟩
  exact hchild.append_ends hnull rfl

theorem ends_presence {child : String} {terms : List Formula} (hchild : Ends [] [] child)
    (h : ∀ t ∈ terms, Ends [] [] t.text) : Ends [] [] (presence child terms).text := by
  cases terms with
  | nil => exact ends_present hchild
  | cons term terms => exact ends_group .and (List.forall_mem_cons.mpr ⟨ends_present hchild, h⟩)

/-! ## 3.  Names -/

/-- The names of aliases are the root's name and what follows it. -/
theorem ends_record {suffix : String} (h : suffix.toList.all isNamePart = true) :
    Ends [] [] ("record" ++ suffix) := by
  have hrecord : "record".toList = ['r', 'e', 'c', 'o', 'r', 'd'] := rfl
  refine ends_word ?_ ?_
  · rw [String.toList_append, List.all_append, h]
    rfl
  · rw [String.toList_append, hrecord]
    simp [isConnective]

theorem all_isNamePart_nat (n : Nat) : (toString n).toList.all isNamePart = true := by
  rw [Nat.toString_eq_repr, Nat.toList_repr, List.all_eq_true]
  intro c hc
  rw [isNamePart, Bool.or_eq_true]
  exact Or.inr (Json.isDigit_of_mem_toDigits hc)

theorem ends_matchedName (n : Nat) : Ends [] [] (matchedName "record" n) := by
  cases n with
  | zero => exact ends_word rfl rfl
  | succ n => exact ends_record (all_isNamePart_nat (n + 1))

theorem ends_scopedName (n : Nat) : Ends [] [] (scopedName "record" n) := by
  rw [scopedName, String.append_assoc]
  refine ends_record ?_
  rw [String.toList_append, List.all_append, all_isNamePart_nat]
  rfl

/-- Whatever stands in the place of an alias, its name is well formed. -/
theorem Context.IsNumbered.ends_nameOf {context : Context} (h : context.IsNumbered)
    (hoptions : context.options = {}) (id : AliasId) : Ends [] [] (context.nameOf id) := by
  rw [Context.nameOf]
  cases hfound : context.aliases[id]? with
  | none => exact ends_empty []
  | some found =>
    show Ends [] [] found.name
    have hmem := List.mem_of_getElem? hfound
    have hroot : context.options.rootAlias = "record" := by rw [hoptions]
    cases hscoped : found.isScoped with
    | false =>
      have hname : found.name ∈ context.matchedNames :=
        List.mem_map_of_mem (List.mem_filter.mpr ⟨hmem, by rw [hscoped]; rfl⟩)
      rw [h.namesMatched, hroot] at hname
      obtain ⟨n, -, heq⟩ := List.mem_map.mp hname
      exact heq ▸ ends_matchedName n
    | true =>
      have hname : found.name ∈ (context.aliases.filter fun a => a.isScoped).map Alias.name :=
        List.mem_map_of_mem (List.mem_filter.mpr ⟨hmem, hscoped⟩)
      rw [h.namesScoped, hroot] at hname
      obtain ⟨n, -, heq⟩ := List.mem_map.mp hname
      exact heq ▸ ends_scopedName n

/-! ## 4.  Contexts -/

/-- What is kept in the context is well formed. -/
structure Context.IsSpelled (context : Context) : Prop where
  pattern : ∀ {id pattern}, context.pattern? id = some pattern →
    ∀ stack, Leads stack stack pattern.text
  attached : ∀ {id terms}, context.attached? id = some terms → ∀ t ∈ terms, Ends [] [] t.text

section

variable {context : Context}

theorem Context.IsSpelled.entered (h : context.IsSpelled) (hnum : context.IsNumbered)
    (hoptions : context.options = {}) (label : String) (fields : List (String × Json))
    (parent : AliasId) : (context.entered label fields parent).IsSpelled := by
  have hnames := (hnum.entered label fields parent).ends_nameOf
    (Context.entered_options.trans hoptions)
  refine ⟨fun {id pattern} hpattern stack => ?_, fun hattached => ?_⟩
  · rw [Context.pattern?, Context.entered_patterns] at hpattern
    by_cases hid : id = context.aliases.length
    · subst hid
      rw [Table.find?_insert_self] at hpattern
      obtain rfl := Option.some.inj hpattern
      exact leads_hop (hnames parent) (hnames _) _ label stack
    · rw [Table.find?_insert_of_ne hid] at hpattern
      exact h.pattern hpattern stack
  · rw [Context.attached?, Context.entered_attached] at hattached
    exact h.attached hattached

theorem Context.IsSpelled.attachedHave (h : context.IsSpelled) :
    context.AttachedHave fun t => Ends [] [] t.text := by
  intro id terms hstored
  exact h.attached hstored

theorem Context.IsSpelled.left (h : context.IsSpelled) (id : AliasId) (count : Nat)
    {terms : List Formula} (hterms : ∀ t ∈ terms, Ends [] [] t.text) :
    (context.left id count terms).IsSpelled where
  pattern hpattern := by
    rw [Context.pattern?, Context.left_patterns] at hpattern
    exact h.pattern hpattern
  attached := AttachedHave.left h.attachedHave id count hterms

theorem Context.IsSpelled.keepTerms (h : context.IsSpelled) (id : AliasId) (count : Nat)
    {terms : List Formula} (hterms : ∀ t ∈ terms, Ends [] [] t.text) :
    (keepTerms id count terms context).IsSpelled where
  pattern hpattern := by
    rw [Context.pattern?, keepTerms_patterns] at hpattern
    exact h.pattern hpattern
  attached := AttachedHave.keepTerms h.attachedHave id count hterms

theorem Context.isSpelled_of_empty (hpatterns : context.patterns = [])
    (hattached : context.attached = []) : context.IsSpelled := by
  refine ⟨fun hfound => ?_, fun hfound => ?_⟩
  · rw [Context.pattern?, hpatterns] at hfound
    cases hfound
  · rw [Context.attached?, hattached] at hfound
    cases hfound

end

/-- The leaf has no `$vector` operator. -/
def LacksVector (leaf : String × Json) : Prop :=
  kindOf leaf.1 leaf.2 = .property → UsesNoVector leaf.2

theorem ends_leafPredicates {node key : String} {value : Json} {predicates : List String}
    (hnode : Ends [] [] node) (hleaf : LacksVector (key, value))
    (h : leafPredicates {} node key value = .ok predicates) :
    ∀ text ∈ predicates, Ends [] [] text := by
  rw [leafPredicates] at h
  split at h
  case h_1 => exact ends_identityPredicates hnode h
  case h_2 hkind => exact ends_propertyPredicates hnode (hleaf hkind) h
  case h_3 | h_4 =>
    obtain rfl := Except.ok.inj h
    exact List.forall_mem_nil _
  case h_5 | h_6 => cases h

theorem isWalkInvariantOn_isSpelled :
    IsWalkInvariantOn LacksVector follow fun _ context terms after =>
      context.IsFresh → context.IsNumbered → context.options = {} → context.IsSpelled →
        after.IsSpelled ∧ ∀ t ∈ terms, Ends [] [] t.text where
  nil _ _ _ h := ⟨h, List.forall_mem_nil _⟩
  append hwalk _ h h' hfresh hnum hoptions hspelled := by
    obtain ⟨hmiddle, hext⟩ := hwalk.extends hfresh
    obtain ⟨hspelled', hterms⟩ := h hfresh hnum hoptions hspelled
    obtain ⟨hafter, hothers⟩ := h' hmiddle (hwalk.isNumbered hfresh hnum)
      (hext.options.trans hoptions) hspelled'
    exact ⟨hafter, List.forall_mem_append.mpr ⟨hterms, hothers⟩⟩
  leaf {id context _ _ _} hleaf hpredicates _ hnum hoptions hspelled := by
    rw [hoptions] at hpredicates
    refine ⟨hspelled, fun t ht => ?_⟩
    obtain ⟨text, htext, rfl⟩ := List.mem_map.mp ht
    exact ends_leafPredicates (hnum.ends_nameOf hoptions id) hleaf hpredicates text htext
  group {_ context _ _ _} op _ h hfresh hnum hoptions hspelled := by
    have hopened : (context.opened op).options = {} ∧ (context.opened op).IsSpelled := by
      rw [Context.opened_eq]
      exact ⟨hoptions, hspelled.pattern, hspelled.attached⟩
    obtain ⟨hinside, hmembers⟩ := h (hfresh.opened op) (hnum.opened op) hopened.1 hopened.2
    rw [Context.closed_eq]
    exact ⟨⟨hinside.pattern, hinside.attached⟩, ends_groupTerm op hmembers⟩
  conjoin _ h hfresh hnum hoptions hspelled := by
    obtain ⟨hafter, hterms⟩ := h hfresh hnum hoptions hspelled
    rw [conjoin_eq_groupTerm]
    exact ⟨hafter, ends_groupTerm .and hterms⟩
  related {id context label fields _ _} h hbody hfresh hnum hoptions hspelled := by
    rcases follow_cases hfresh h with ⟨-, terms, hwalk, rfl⟩ |
      ⟨-, terms, inside, hwalk, -, -, rfl, rfl⟩
    · have hnames := hnum.addScoped.ends_nameOf hoptions
      obtain ⟨hafter, hterms⟩ := hbody hwalk hfresh.addScoped hnum.addScoped hoptions
        ⟨hspelled.pattern, hspelled.attached⟩
      refine ⟨hafter, List.forall_mem_cons.mpr ⟨?_, List.forall_mem_nil _⟩⟩
      exact ends_existential (leads_hop (hnames id) (hnames _) _ label _) hterms
    · have hentered := hnum.entered label fields id
      have hoptions' : (context.entered label fields id).options = {} :=
        Context.entered_options.trans hoptions
      obtain ⟨hinside, hterms⟩ := hbody hwalk (hfresh.entered label fields id) hentered hoptions'
        (hspelled.entered hnum hoptions label fields id)
      refine ⟨hinside.left _ _ hterms, List.forall_mem_cons.mpr ⟨?_, List.forall_mem_nil _⟩⟩
      exact ends_presence (hentered.ends_nameOf hoptions' _)
        fun t ht => hterms t (mem_of_mem_carriedTerms ht)

/-! ## 5.  Selections -/

theorem isSpelled_rootTerms {criteria : Json} {after : Context}
    (hleaves : ∀ leaf ∈ itemLeaves criteria, LacksVector leaf)
    (h : rootTerms criteria (Context.start {}) = .ok () after) :
    (Selection.takeRootTerms after).2.IsSpelled ∧
      ∀ t ∈ (Selection.takeRootTerms after).1, Ends [] [] t.text := by
  rw [Selection.takeRootTerms_snd]
  cases criteria with
  | null =>
    obtain ⟨-, rfl⟩ := Descent.pure_eq_ok.mp h
    exact ⟨Context.isSpelled_of_empty rfl rfl, List.forall_mem_nil _⟩
  | object fields =>
    obtain ⟨terms, inside, hwalk, rfl⟩ := rootTerms_object_eq_ok.mp h
    have hrooted := Context.rooted_eq {} fields
    rw [itemLeaves] at hleaves
    obtain ⟨hinside, hterms⟩ := hwalk.invariantOn isWalkInvariantOn_isSpelled hleaves
      (Context.isFresh_rooted {} fields) (Context.isNumbered_rooted {} fields)
      (by rw [hrooted]; rfl) (Context.isSpelled_of_empty (by rw [hrooted]; rfl)
        (by rw [hrooted]; rfl))
    rw [takeRootTerms_keepTerms hwalk]
    have hkept := hinside.keepTerms Context.root 1 hterms
    exact ⟨⟨hkept.pattern, hkept.attached⟩, hterms⟩
  | bool _ | number _ | string _ | array _ => exact absurd h Descent.throw_ne_ok

/-- What a selection is told, it keeps. -/
theorem ofCriteria_given {options : Options} {criteria : Json} {labels : List String}
    {order : Option SortOrder} {skip limit : Option Nat} {selection : Selection}
    (h : Selection.ofCriteria options criteria labels order skip limit = .ok selection) :
    selection.rootAlias = options.rootAlias ∧ selection.recordLabel = options.recordLabel ∧
      selection.labels = labels := by
  simp only [Selection.ofCriteria, EStateM.run] at h
  split at h
  · cases h
  · obtain rfl := Except.ok.inj h
    exact ⟨rfl, rfl, rfl⟩

section

variable {selection : Selection}

theorem ends_rootPattern (halias : selection.rootAlias = "record")
    (hlabel : selection.recordLabel = "__RECORD__") : Ends [] [] selection.rootPattern := by
  have hopening : Leads [] [.round] "(" := rfl
  have hcolon : Leads [.round] [.round] ":" := rfl
  have hclosing : Leads [.round] [] ")" := rfl
  have hnode : Ends [.round] [.round] ("record" ++ ":" ++ "__RECORD__") :=
    ((ends_word rfl rfl).append_leads hcolon rfl).append_ends (ends_word rfl rfl)
  simp only [Selection.rootPattern, halias, hlabel]
  split
  case h_1 label _ =>
    exact ((((hopening.append_ends hnode).append_leads hcolon rfl).append_ends
      (ends_quoted label)).append_leads hclosing rfl).ends
  case h_2 => exact ((hopening.append_ends hnode).append_leads hclosing rfl).ends

theorem ends_conditions (halias : selection.rootAlias = "record")
    (hterms : ∀ t ∈ selection.terms, Ends [] [] t.text) :
    ∀ text ∈ selection.conditions, Ends [] [] text := by
  have hrecord : ∀ stack, Ends stack stack "record" := fun stack => ends_word rfl rfl
  rw [Selection.conditions, List.forall_mem_append, List.forall_mem_append, halias]
  refine ⟨⟨fun text htext => ?_, fun text htext => ?_⟩, fun text htext => ?_⟩
  · have hopening : Leads [] [.round] "(" := rfl
    have hclosing : Leads [.round] [] " IS NOT NULL)" := rfl
    obtain rfl := List.mem_singleton.mp htext
    exact ((hopening.append_ends (hrecord _)).append_leads hclosing rfl).ends
  · have hopening : Leads [] [.round, .round] "any(label IN labels(" := rfl
    have hwhere : Leads [.round, .round] [.round] ") WHERE label IN " := rfl
    have hclosing : Leads [.round] [] ")" := rfl
    rw [Selection.labelTests, halias] at htext
    split at htext
    · obtain rfl := List.mem_singleton.mp htext
      exact ((((hopening.append_ends (hrecord _)).append_leads hwhere
        rfl).append_leads (leads_list _)).append_leads hclosing).ends
    · cases htext
  · obtain ⟨term, hterm, rfl⟩ := List.mem_map.mp htext
    exact hterms term hterm

end

/-- **Nothing breaks out of its place.**  Where criteria without a `$vector` operator are accepted
under the default options, with whatever labels, every text of the selection is well formed: each
condition, the terms of the root record among them, the root pattern, and the pattern of each
optional match with each term attached to it. -/
theorem ofCriteria_isWellFormed {criteria : Json} {labels : List String}
    {order : Option SortOrder} {skip limit : Option Nat} {selection : Selection}
    (hvector : ∀ leaf ∈ itemLeaves criteria, LacksVector leaf)
    (h : Selection.ofCriteria {} criteria labels order skip limit = .ok selection) :
    (∀ text ∈ selection.conditions, isWellFormed text = true) ∧
      (∀ term ∈ selection.terms, isWellFormed term.text = true) ∧
      isWellFormed selection.rootPattern = true ∧
      ∀ hop ∈ selection.hops, isWellFormed hop.pattern.text = true ∧
        ∀ term ∈ hop.terms, isWellFormed term.text = true := by
  simp only [isWellFormed_iff]
  obtain ⟨after, hroot, hterms, -, hhops, -⟩ := ofCriteria_eq_ok h
  obtain ⟨halias, hlabel, -⟩ := ofCriteria_given h
  obtain ⟨hspelled, hends⟩ := isSpelled_rootTerms hvector hroot
  rw [← hterms] at hends
  refine ⟨ends_conditions halias hends, hends, ends_rootPattern halias hlabel, fun hop hhop => ?_⟩
  rw [hhops] at hhop
  obtain ⟨id, hpattern, hstored⟩ := exists_of_mem_hopsOf hhop
  refine ⟨(hspelled.pattern hpattern []).ends, fun term hterm => ?_⟩
  obtain ⟨stored, hstored, hmem⟩ := hstored term hterm
  exact hspelled.attached hstored term hmem

/-- Names, keys and operands that try to end what they stand in, inside of a negation and out of
it. -/
def hostileCriteria : Json :=
  .object [("na`me) OR (1", .string "x\" OR \"\\"), ("AND", .object [("$type", .string "string")]),
    ("$id", .object [("$in", .array [.string "a\") OR (\"", .null])]),
    ("`) WHERE true //", .object [("$relation", .string "T`]-() OR ("),
      ("born", .object [("$year", .number (.int 1990)), ("$month", .number (.int (-3)))]),
      ("$nor", .array [.object [("B", .object [("x]", .object [("$in", .array [.bool true,
        .string "2020-01-01T00:00Z"])])])]])])]

/-- The labels are hostile too. -/
theorem ofCriteria_isWellFormed_hostile : ∃ selection,
    Selection.ofCriteria {} hostileCriteria ["a\"]) OR (", "`b"] none none none = .ok selection ∧
      (∀ leaf ∈ itemLeaves hostileCriteria, LacksVector leaf) ∧
      selection.conditions.length = 6 ∧ selection.hops.length = 1 ∧
      (∀ text ∈ selection.conditions, isWellFormed text = true) ∧
      ∀ hop ∈ selection.hops, isWellFormed hop.pattern.text = true ∧
        ∀ term ∈ hop.terms, isWellFormed term.text = true := by
  have hvector : ∀ leaf ∈ itemLeaves hostileCriteria, LacksVector leaf := by
    unfold LacksVector
    decide +kernel
  obtain ⟨selection, hselection⟩ := Results.exists_eq_ok (show (Selection.ofCriteria {}
    hostileCriteria ["a\"]) OR (", "`b"] none none none).isOk = true by decide +kernel)
  have hcount : (match Selection.ofCriteria {} hostileCriteria ["a\"]) OR (", "`b"] none none none
      with
    | .ok selection => (selection.conditions.length, selection.hops.length)
    | .error _ => (0, 0)) = (6, 1) := by decide +kernel
  rw [hselection] at hcount
  obtain ⟨hconditions, hhops⟩ := Prod.mk.inj hcount
  obtain ⟨htexts, -, -, hmatches⟩ := ofCriteria_isWellFormed hvector hselection
  exact ⟨selection, hselection, hvector, hconditions, hhops, htexts, hmatches⟩

end GraphSearch.Matching
