import GraphSearch.Proofs.Handover
import GraphSearch.Proofs.Matching.Subfilters
/-!
# Where a search is cut into pages

A root record fills one row as long as nothing is matched besides it, and then its page can be
cut before anything is computed for it.  Each relation that is matched may multiply the rows, so
the page has to wait until the aggregation has put them together again.  Which of the two it is
depends on the relations of the criteria that lie outside of negations, and on nothing else.

* `matchedRelations`, `negatedRelations`: how many relations the criteria of a request have
  outside and inside of negated groups;
* `Statement.lines_cut`: a statement is cut on one line, before the aggregation or after it;
* `Search.ofRequest_isPaged`: what these numbers say of the search that a request comes to.
-/

namespace GraphSearch

open Matching (Selection Context rootTerms subfiltersOf rootTerms_follows)

/-! ## 1.  Lines -/

/-- The line cuts a page. -/
def StatementLine.IsPage (line : StatementLine) : Prop :=
  ∃ distinct carried order cut, line = .page distinct carried order cut

/-- The line is a stage of the aggregation. -/
def StatementLine.IsStage (line : StatementLine) : Prop := ∃ stage, line = .stage stage

namespace Statement

variable {options : Options} {selection : Selection} {plan : Option Aggregate.Plan}

/-- The lines before and after the one on which the page of a selection is cut. -/
structure IsCut (options : Options) (selection : Selection) (plan : Option Aggregate.Plan)
    (before : List StatementLine) (cut : StatementLine) (after : List StatementLine) :
    Prop where
  lines : lines options selection plan = before ++ cut :: after
  isPage : cut.IsPage
  text : ∃ carried, cut.text = "WITH " ++ carried ++ " " ++ selection.orderClause ++ " SKIP "
    ++ toString selection.skip ++ " LIMIT " ++ toString selection.limit
  once : ∀ line ∈ before ++ after, ¬ line.IsPage
  /-- Without relations, the whole aggregation comes after the page. -/
  early : selection.hasRelated = false → ∀ line ∈ before, ¬ line.IsStage
  /-- With relations, only the result comes after the page. -/
  late : selection.hasRelated = true → ∃ projection, after = [.result projection]

/-- The text of the line on which the page of a selection is cut. -/
theorem text_page (distinct : Bool) (carried : List String) :
    (StatementLine.page distinct carried selection.orderClause selection.page).text =
      "WITH " ++ (Aggregate.distinctText distinct ++ ", ".intercalate carried) ++ " "
        ++ selection.orderClause ++ " SKIP " ++ toString selection.skip ++ " LIMIT "
        ++ toString selection.limit := by
  have hskip : " SKIP " = " " ++ "SKIP " := by decide +kernel
  rw [StatementLine.text, Selection.page, hskip]
  simp only [String.append_assoc]

/-- The lines up to the filter of the rows. -/
def filtered (selection : Selection) : List StatementLine :=
  [.root selection.rootPattern] ++ selection.hops.map (fun hop => .hop hop.text)
    ++ [.scope selection.aliases, .filter selection.whereClause]

/-- The lines up to the filter cut no page and compute nothing. -/
theorem not_isPage_of_filtered {line : StatementLine} (h : line ∈ filtered selection) :
    ¬ line.IsPage ∧ ¬ line.IsStage := by
  simp only [filtered, List.mem_append, List.mem_cons, List.mem_map, List.not_mem_nil,
    or_false] at h
  rcases h with (rfl | ⟨hop, -, rfl⟩) | rfl | rfl <;>
    simp [StatementLine.IsPage, StatementLine.IsStage]

theorem not_isPage_of_stages {line : StatementLine} (h : line ∈ (stages plan).map .stage) :
    ¬ line.IsPage := by
  obtain ⟨stage, -, rfl⟩ := List.mem_map.mp h
  simp [StatementLine.IsPage]

theorem not_isPage_result (projection : String) : ¬ (StatementLine.result projection).IsPage := by
  simp [StatementLine.IsPage]

/-- With relations, the page is cut after the aggregation. -/
theorem latePage_eq (options : Options) (plan : Option Aggregate.Plan)
    (h : selection.hasRelated = true) : ∃ distinct carried,
    latePage options selection plan =
      [.page distinct carried selection.orderClause selection.page] := by
  simp only [latePage, h, if_true]
  cases plan with
  | none => exact ⟨_, _, rfl⟩
  | some plan => exact ⟨_, _, rfl⟩

/-- A statement is cut into pages on one line. -/
theorem lines_cut (options : Options) (selection : Selection) (plan : Option Aggregate.Plan) :
    ∃ before cut after, IsCut options selection plan before cut after := by
  cases hrelated : selection.hasRelated with
  | false =>
    have hlines : lines options selection plan = filtered selection ++
        .page false [options.rootAlias] selection.orderClause selection.page ::
          ((stages plan).map .stage ++ [.result (projection options plan)]) := by
      simp [lines, opening, earlyPage, closing, latePage, filtered, hrelated]
    refine ⟨_, _, _, hlines, ⟨_, _, _, _, rfl⟩, ⟨_, text_page false _⟩, fun line hline => ?_,
      fun _ line hline => (not_isPage_of_filtered hline).2, fun h => ?_⟩
    · rcases List.mem_append.mp hline with hline | hline
      · exact (not_isPage_of_filtered hline).1
      · rcases List.mem_append.mp hline with hline | hline
        · exact not_isPage_of_stages hline
        · obtain rfl := List.mem_singleton.mp hline
          exact not_isPage_result _
    · exact absurd (hrelated.symm.trans h) (by decide)
  | true =>
    obtain ⟨distinct, carried, hlate⟩ := latePage_eq options plan hrelated
    have hlines : lines options selection plan =
        (filtered selection ++ (stages plan).map .stage) ++
          .page distinct carried selection.orderClause selection.page ::
            [.result (projection options plan)] := by
      simp [lines, opening, earlyPage, closing, hlate, filtered, hrelated]
    refine ⟨_, _, _, hlines, ⟨_, _, _, _, rfl⟩, ⟨_, text_page distinct _⟩, fun line hline => ?_,
      fun h => ?_, fun _ => ⟨_, rfl⟩⟩
    · rcases List.mem_append.mp hline with hline | hline
      · rcases List.mem_append.mp hline with hline | hline
        · exact (not_isPage_of_filtered hline).1
        · exact not_isPage_of_stages hline
      · obtain rfl := List.mem_singleton.mp hline
        exact not_isPage_result _
    · exact absurd (hrelated.symm.trans h) (by decide)

end Statement

/-! ## 2.  Searches -/

namespace Search

/-- How many relations of the criteria lie outside of negated groups. -/
def matchedRelations (request : Request) : Nat :=
  (subfiltersOf (criteriaOf request)).countP fun subfilter => !subfilter.negated

/-- How many relations of the criteria lie inside of negated groups. -/
def negatedRelations (request : Request) : Nat :=
  (subfiltersOf (criteriaOf request)).countP Matching.Subfilter.negated

/-- The aliases, the optional matches and the page of a search, by the number of relations its
criteria match and the number of those they only test. -/
structure IsPaged (options : Options) (request : Request) (search : Search)
    (matched negated : Nat) : Prop where
  /-- An alias to each relation, besides that of the root. -/
  aliases : ∃ context, rootTerms (criteriaOf request) (Context.start options) = .ok () context ∧
    context.matchedCount = matched + 1 ∧ context.scopedCount = negated ∧
    search.selection.aliases = context.matchedNames
  hops : search.selection.hops.length = matched
  hasRelated : search.selection.hasRelated = true ↔ 0 < matched
  pagination : search.selection.pagination = "" ↔ 0 < matched
  statement : search.statement = "\n".intercalate
    ((Statement.lines options search.selection search.plan).map StatementLine.text)
  cut : ∃ before cut after,
    Statement.IsCut options search.selection search.plan before cut after

theorem pagination_eq_empty_iff (selection : Selection) :
    selection.pagination = "" ↔ selection.hasRelated = true := by
  have hpage : selection.page ≠ "" := by
    rw [Selection.page, String.append_assoc, String.append_assoc]
    simp
  rw [Selection.pagination]
  split
  case isTrue h => exact ⟨fun _ => h, fun _ => rfl⟩
  case isFalse h => exact ⟨fun hempty => absurd hempty hpage, fun htrue => absurd htrue h⟩

/-- **A search is cut into pages where its criteria say.**  Every relation outside of negations
is matched, and every other one is tested by an existential; the page is cut on one line, before
the aggregation if nothing is matched and right before the result otherwise. -/
theorem ofRequest_isPaged {options : Options} {request : Request} {search : Search}
    (h : ofRequest options request = .ok search) :
    search.IsPaged options request (matchedRelations request) (negatedRelations request) := by
  obtain ⟨order, -, hselection, -, hstatement⟩ := ofRequest_eq_ok h
  obtain ⟨context, hroot, -, haliases, -⟩ := Matching.ofCriteria_eq_ok hselection
  have hfollows := rootTerms_follows hroot
  have hmatched : context.matchedCount = matchedRelations request + 1 := by
    rw [hfollows.matchedCount, Nat.add_comm]
    rfl
  have hscoped : context.scopedCount = negatedRelations request := by
    rw [hfollows.scopedCount, negatedRelations]
    exact Nat.zero_add _
  have hnames : search.selection.aliases = context.matchedNames := by
    rw [haliases, Matching.Selection.takeRootTerms_snd]
    rfl
  have hlength : search.selection.aliases.length = matchedRelations request + 1 := by
    rw [hnames, context.length_matchedNames, hmatched]
  have hhops := (Matching.ofCriteria_isBound hselection).hopsLength
  have hrelated : search.selection.hasRelated = true ↔ 0 < matchedRelations request := by
    rw [Selection.hasRelated, decide_eq_true_iff, hlength]
    omega
  refine ⟨⟨context, hroot, hmatched, hscoped, hnames⟩, by omega, hrelated, ?_, hstatement,
    Statement.lines_cut options search.selection search.plan⟩
  rw [pagination_eq_empty_iff, hrelated]

/-- Criteria that follow relations in a negated group, and besides it when `criteria` does. -/
def pagedRequest (criteria : List (String × Json)) : Request where
  criteria := some (.object (("$nor", .array [.object [("C", .object [("D", .object [])])]])
    :: criteria))
  aggregate := some (.object [("n",
    .object [("fn", .string "count"), ("alias", .string "$record")])])

/-- Relations inside of a negation leave the page where it is, and those outside move it. -/
theorem ofRequest_isPaged_negated :
    let besides : List (String × Json) :=
      [("$or", .array [.array [.object [("A", .object [("B", .object [])])]]]), ("E", .object [])]
    (∃ search, ofRequest {} (pagedRequest []) = .ok search ∧
      search.IsPaged {} (pagedRequest []) 0 2) ∧
    ∃ search, ofRequest {} (pagedRequest besides) = .ok search ∧
      search.IsPaged {} (pagedRequest besides) 3 2 := by
  intro besides
  obtain ⟨search, h⟩ := Results.exists_eq_ok
    (show (ofRequest {} (pagedRequest [])).isOk = true by decide +kernel)
  obtain ⟨search', h'⟩ := Results.exists_eq_ok
    (show (ofRequest {} (pagedRequest besides)).isOk = true by decide +kernel)
  have hcounts : matchedRelations (pagedRequest []) = 0 ∧
      negatedRelations (pagedRequest []) = 2 := by decide +kernel
  have hcounts' : matchedRelations (pagedRequest besides) = 3 ∧
      negatedRelations (pagedRequest besides) = 2 := by decide +kernel
  refine ⟨⟨search, h, ?_⟩, search', h', ?_⟩
  · rw [← hcounts.1, ← hcounts.2]
    exact ofRequest_isPaged h
  · rw [← hcounts'.1, ← hcounts'.2]
    exact ofRequest_isPaged h'

end Search
end GraphSearch
