import GraphSearch.Proofs.Aggregate.PostOrder
import GraphSearch.Proofs.Matching.Binding
import GraphSearch.Search
/-!
# From the selection to the result

A statement hands the records of its selection to the stages of the aggregation, and what these
bind to the lines after them.  What such a line reads is seen from its shape: its variables are
those it carries, those its order is over, and those its projection is of.

* `StatementLine.ReadsOnly`: the line reads the root and the names of a list;
* `plan_getLast?`: the last stage of a plan carries the root, and binds the plan's names;
* `closing_readsOnly`: the lines after the aggregation read the root and those names;
* `ofRequest_isBound`: in the statement of a search every variable is bound before it is used.
-/

namespace GraphSearch

open Matching (Selection)
open Aggregate (Scope Plan Stage)

/-! ## 1.  What a line reads -/

/-- The entry that returns the label of the root. -/
def rootLabel (options : Options) : String :=
  Cypher.name options.labelKey ++ ": " ++ options.labelOf options.rootAlias

/-- The line reads the root and the names given, under which a page carries its rows and a
projection returns its columns, and no other variable. -/
inductive StatementLine.ReadsOnly (options : Options) (names : List String) :
    StatementLine → Prop
  /-- A page of the root and the names, ordered by properties of the root. -/
  | page {distinct : Bool} {keys : List (String × SortDirection)} {skip limit : Nat} :
    ReadsOnly options names (.page distinct (options.rootAlias :: names)
      ("ORDER BY " ++ ", ".intercalate (keys.map fun key =>
        options.rootAlias ++ "." ++ Cypher.name key.1 ++ " " ++ key.2.keyword))
      ("SKIP " ++ toString skip ++ " LIMIT " ++ toString limit))
  /-- All properties of the root, and its label. -/
  | record : ReadsOnly options names (.result (options.rootAlias ++ " \x7b"
      ++ ", ".intercalate [".*", rootLabel options] ++ "\x7d"))
  /-- The internal keys of the root, its label, and the names, each handed on as it is. -/
  | columns : ReadsOnly options names (.result (options.rootAlias ++ " \x7b"
      ++ ", ".intercalate (["." ++ options.idKey, "." ++ options.typesKey, rootLabel options]
        ++ names.map fun name => name ++ ": " ++ name) ++ "\x7d"))

theorem SortOrder.clause_eq (options : Options) (order : Option SortOrder) :
    ∃ keys : List (String × SortDirection), SortOrder.clause options order =
      "ORDER BY " ++ ", ".intercalate (keys.map (SortOrder.keyText options)) := by
  match order with
  | none =>
    refine ⟨[(options.idKey, .descending)], ?_⟩
    rw [List.map_singleton, String.intercalate_singleton]
    rfl
  | some (.identity direction) =>
    refine ⟨[(options.idKey, direction)], ?_⟩
    rw [List.map_singleton, String.intercalate_singleton]
    rfl
  | some (.properties keys) => exact ⟨keys, rfl⟩

/-! ## 2.  The last stage -/

/-- The names that the last stage of an aggregation binds, as they are written. -/
def boundNames (plan : Option Plan) : List String :=
  match (Statement.stages plan).getLast? with
  | some stage => stage.columns.map fun column => Cypher.name column.field
  | none => []

namespace Aggregate.Scope

variable {scope : Scope} {columns : Aggregation} {plan : Plan}

/-- The last stage carries the root alone and binds the names the plan is returned by. -/
theorem plan_getLast? (h : scope.plan columns = .ok plan) :
    ∃ stage, plan.stages.getLast? = some stage ∧ stage.carried = [scope.options.rootAlias] ∧
      stage.outputs = outputNames columns ∧ plan.fields = outputNames columns ∧
      plan.recordPart = scope.recordPart columns := by
  rw [Scope.plan] at h
  split at h
  · exact nestedPlan_getLast? h
  · simp only [flatPlan, Results.bind_eq_ok, Results.pure_eq_ok] at h
    obtain ⟨own, hown, rfl⟩ := h
    exact ⟨_, rfl, rfl, outputs_of_columns hown, rfl, rfl⟩

end Aggregate.Scope

/-! ## 3.  The lines after the aggregation -/

section

variable {options : Options} {selection : Selection}

theorem page_readsOnly (names : List String) (distinct : Bool)
    (horder : ∃ order, selection.orderClause = SortOrder.clause options order) :
    (StatementLine.page distinct (options.rootAlias :: names) selection.orderClause
      selection.page).ReadsOnly options names := by
  obtain ⟨order, horder⟩ := horder
  obtain ⟨keys, hkeys⟩ := SortOrder.clause_eq options order
  rw [horder, hkeys]
  exact .page

/-- The projection of a root record that nothing was computed for. -/
theorem projection_none_readsOnly (names : List String) :
    (StatementLine.result (Statement.projection options none)).ReadsOnly options names := by
  have hshape : Statement.projection options none = options.rootAlias ++ " \x7b"
      ++ ", ".intercalate [".*", rootLabel options] ++ "\x7d" := by
    have hopen : " \x7b.*, " = " \x7b" ++ (".*" ++ ", ") := by decide +kernel
    rw [String.intercalate_cons_cons, String.intercalate_singleton, Statement.projection, hopen,
      rootLabel]
    simp only [String.append_assoc]
  rw [hshape]
  exact .record

/-- The projection of a root record with its columns. -/
theorem recordPart_readsOnly (scope : Scope) (columns : Aggregation) :
    (StatementLine.result (scope.recordPart columns)).ReadsOnly scope.options
      (Scope.outputNames columns) := by
  rw [Scope.recordPart_eq]
  exact .columns

/-- The lines after the aggregation read the root and the names its last stage binds. -/
theorem closing_readsOnly {plan : Option Plan}
    (horder : ∃ order, selection.orderClause = SortOrder.clause options order)
    (hplan : ∀ p, plan = some p → ∃ columns,
      Scope.plan { options, bindings := selection.bindings } columns = .ok p) :
    ∀ line ∈ Statement.closing options selection plan,
      line.ReadsOnly options (boundNames plan) := by
  intro line hline
  rw [Statement.closing] at hline
  cases plan with
  | none =>
    rcases List.mem_append.mp hline with hline | hline
    · simp only [Statement.latePage] at hline
      split at hline
      · obtain rfl := List.mem_singleton.mp hline
        exact page_readsOnly [] true horder
      · exact absurd hline List.not_mem_nil
    · obtain rfl := List.mem_singleton.mp hline
      exact projection_none_readsOnly _
  | some p =>
    obtain ⟨columns, hcolumns⟩ := hplan p rfl
    obtain ⟨stage, hlast, -, hnames, hfields, hrecord⟩ := Scope.plan_getLast? hcolumns
    have hbound : boundNames (some p) = Scope.outputNames columns := by
      rw [boundNames, Statement.stages, hlast, ← hnames]
      rfl
    rw [hbound]
    rcases List.mem_append.mp hline with hline | hline
    · simp only [Statement.latePage] at hline
      split at hline
      · obtain rfl := List.mem_singleton.mp hline
        rw [hfields]
        exact page_readsOnly _ false horder
      · exact absurd hline List.not_mem_nil
    · obtain rfl := List.mem_singleton.mp hline
      rw [Statement.projection, hrecord]
      exact recordPart_readsOnly { options, bindings := selection.bindings } columns

/-- Without relations, the last line before the aggregation leaves the root alone. -/
theorem opening_getLast? (h : selection.hasRelated = false) :
    (Statement.opening options selection).getLast? = some
      (.page false [options.rootAlias] selection.orderClause selection.page) := by
  rw [Statement.opening, Statement.earlyPage, h]
  exact List.getLast?_concat ..

end

/-! ## 4.  Searches -/

namespace Search

theorem planOf_eq_ok {options : Options} {bindings : List (String × String)} {request : Request}
    {p : Plan} (h : planOf options bindings request = .ok (some p)) :
    ∃ columns, Scope.plan { options, bindings } columns = .ok p := by
  rw [planOf] at h
  split at h
  · simp only [Results.bind_eq_ok, Results.map_eq_ok] at h
    obtain ⟨columns, -, found, hplan, hsome⟩ := h
    obtain rfl := Option.some.inj hsome
    exact ⟨columns, hplan⟩
  · cases h

theorem ofRequest_eq_ok {options : Options} {request : Request} {search : Search}
    (h : ofRequest options request = .ok search) :
    ∃ order, orderOf request = .ok order ∧
      Selection.ofCriteria options (criteriaOf request) request.labels order request.skip
        request.limit = .ok search.selection ∧
      planOf options search.selection.bindings request = .ok search.plan ∧
      search.statement = Statement.text options search.selection search.plan := by
  simp only [ofRequest, Results.bind_eq_ok, Results.pure_eq_ok] at h
  obtain ⟨order, horder, selection, hselection, plan, hplan, rfl⟩ := h
  exact ⟨order, horder, hselection, hplan, rfl⟩

/-- In the statement of a search every variable is bound before it is used. -/
structure IsBound (options : Options) (search : Search) : Prop where
  selection : search.selection.IsBound options
  statement : search.statement = "\n".intercalate
    ((Statement.opening options search.selection
      ++ (Statement.stages search.plan).map StatementLine.stage
      ++ Statement.closing options search.selection search.plan).map StatementLine.text)
  /-- Without relations, the aggregation starts from the root alone. -/
  narrowed : search.selection.hasRelated = false →
    (Statement.opening options search.selection).getLast? = some
      (.page false [options.rootAlias] search.selection.orderClause search.selection.page)
  /-- The last stage carries the root alone, and binds each of its columns under its name. -/
  lastStage : ∀ p, search.plan = some p → ∃ stage,
    (Statement.stages search.plan).getLast? = some stage ∧ stage.carried = [options.rootAlias] ∧
      stage.text = "WITH " ++ ", ".intercalate (options.rootAlias :: stage.columns.map
        fun column => column.expr.text ++ " AS " ++ Cypher.name column.field)
  closing : ∀ line ∈ Statement.closing options search.selection search.plan,
    line.ReadsOnly options (boundNames search.plan)

/-- **Variables are bound before they are used.**  In the selection of a search every alias is
introduced after the one it hangs on, and every formula speaks of an alias that is there; and
what comes after the aggregation reads the root and what its last stage binds. -/
theorem ofRequest_isBound {options : Options} {request : Request} {search : Search}
    (h : ofRequest options request = .ok search) : search.IsBound options := by
  obtain ⟨order, -, hselection, hplan, hstatement⟩ := ofRequest_eq_ok h
  obtain ⟨_, -, -, -, -, -, horder⟩ := Matching.ofCriteria_eq_ok hselection
  have hcolumns : ∀ p, search.plan = some p → ∃ columns,
      Scope.plan { options, bindings := search.selection.bindings } columns = .ok p := by
    intro p hp
    rw [hp] at hplan
    exact planOf_eq_ok hplan
  refine ⟨Matching.ofCriteria_isBound hselection, hstatement, opening_getLast?, fun p hp => ?_,
    closing_readsOnly ⟨order, horder⟩ hcolumns⟩
  obtain ⟨columns, hp'⟩ := hcolumns p hp
  obtain ⟨stage, hlast, hcarried, -⟩ := Scope.plan_getLast? hp'
  refine ⟨stage, ?_, hcarried, ?_⟩
  · rw [hp]
    exact hlast
  · rw [Stage.text, hcarried]
    rfl

/-- Relations inside and outside of a negation, and an aggregation over one of them. -/
theorem ofRequest_isBound_negated :
    let request : Request := {
      criteria := some (.object [("A", .object [("$alias", .string "a"), ("B", .object [])]),
        ("$nor", .array [.object [("C", .object [("$id", .string "k")])]])])
      aggregate := some (.object [("n",
        .object [("fn", .string "count"), ("alias", .string "a")])]) }
    ∃ search, ofRequest {} request = .ok search ∧ search.IsBound {} := by
  intro request
  obtain ⟨search, h⟩ := Results.exists_eq_ok
    (show (ofRequest {} request).isOk = true by decide +kernel)
  exact ⟨search, h, ofRequest_isBound h⟩

end Search
end GraphSearch
