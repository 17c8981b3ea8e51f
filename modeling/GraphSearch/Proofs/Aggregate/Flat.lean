import GraphSearch.Proofs.Aggregate.Carrying
/-!
# Aggregations without inner columns

An aggregation without inner columns may be planned in either way.  A nested plan then has no
inner stages, and what it does besides a flat one is to look up all aliases of its only level before
it compiles a column (`nestedPlan_of_flat`).  A column that compiles has looked up its alias
itself, so this matters to rejections alone: a nested plan is there exactly when a flat one is,
and has the same stage and the same projection (`nestedPlan_eq_flatPlan`).  Of two faults the
two plans may report different ones.
-/

namespace GraphSearch.Aggregate.Scope

variable {scope : Scope} {columns : Aggregation}

/-- Without inner columns nothing is computed before a level. -/
theorem innerStages_of_flat (h : columns.isNested = false) (grouping needed produced : List String) :
    scope.innerStages grouping needed produced columns = .ok [] := by
  induction columns generalizing produced with
  | nil => rw [innerStages]
  | cons column columns ih =>
    obtain ⟨field, aggregate⟩ := column
    obtain ⟨hcolumn, hcolumns⟩ := isNested_cons.mp h
    have hinside : scope.columnStages field grouping (needed ++ produced)
        (scope.aliasesBelow columns) aggregate = .ok [] := by
      cases aggregate with
      | rollUp collection inner => cases hcolumn
      | collect _ | accumulate _ => rw [columnStages]
    rw [innerStages, hinside, ih hcolumns]
    rfl

/-- A column that compiles reads a declared alias. -/
theorem resolve_of_columnOf {column : String × Aggregate} {compiled : Column}
    (h : scope.columnOf column = .ok compiled) :
    scope.resolve column = .ok compiled.expr.node :=
  resolve_eq_ok.mpr (columnOf_eq_ok h).2.1

theorem mapM_resolve_of_mapM_columnOf {own : List Column}
    (h : columns.mapM scope.columnOf = .ok own) :
    columns.mapM scope.resolve = .ok (own.map fun compiled => compiled.expr.node) := by
  rw [Results.mapM_eq_ok, List.forall₂_map_right_iff]
  exact (Results.mapM_eq_ok.mp h).imp fun _ _ => resolve_of_columnOf

/-- Without inner columns, a nested plan looks up all aliases and compiles all columns. -/
theorem nestedPlan_of_flat (h : columns.isNested = false) : scope.nestedPlan columns = do
    let _ ← columns.mapM scope.resolve
    let own ← columns.mapM scope.columnOf
    return .nested [{ carried := [scope.options.rootAlias], columns := own }]
      (scope.recordPart columns) (outputNames columns) := by
  have hroot : ([scope.options.rootAlias] ++ []).eraseDups = [scope.options.rootAlias] := by
    rw [List.append_nil, List.eraseDups_cons]
    rfl
  rw [nestedPlan, levelStages, hroot]
  cases columns.mapM scope.resolve with
  | error rejection => rfl
  | ok aliases =>
    show (scope.innerStages _ aliases [] columns >>= _) >>= _ = _
    rw [innerStages_of_flat h]
    cases columns.mapM scope.columnOf with
    | error rejection => rfl
    | ok own => rfl

/-- A window that ends too far before an alias that is not declared. -/
example :
    let scope : Scope := ⟨{}, [("a", "record1")]⟩
    let collection : Collection := ⟨"a", none, true, some 1, some (Nat.pow 2 64 - 1), none⟩
    let columns : Aggregation :=
      [("list", .collect collection), ("n", .accumulate ⟨.count, "b", none, false, none⟩)]
    scope.flatPlan columns = .error (.invalidAggregate "list"
        (.windowOverflow (Nat.pow 2 64 - 1) 1) (.object [
          ("skip", .number (.int (Nat.pow 2 64 - 1))), ("limit", .number (.int 1))])) ∧
      scope.nestedPlan columns = .error (.unknownAlias "n" "b") := by
  decide +kernel

/-- **Both plans agree on aggregations without inner columns.**  One is there exactly when the
other is; the nested one then has a single stage, which carries the root alone and is the stage of
the flat one, and is returned in the same way. -/
theorem nestedPlan_eq_flatPlan (h : columns.isNested = false) :
    ((∃ plan, scope.flatPlan columns = .ok plan) ↔ ∃ plan, scope.nestedPlan columns = .ok plan) ∧
      ∀ nested, scope.nestedPlan columns = .ok nested → ∃ stage recordPart fields,
        nested = .nested [stage] recordPart fields ∧ stage.carried = [scope.options.rootAlias] ∧
        scope.flatPlan columns = .ok (.flat stage recordPart fields) := by
  have hboth : ∀ nested, scope.nestedPlan columns = .ok nested → ∃ stage recordPart fields,
      nested = .nested [stage] recordPart fields ∧ stage.carried = [scope.options.rootAlias] ∧
      scope.flatPlan columns = .ok (.flat stage recordPart fields) := by
    intro nested hnested
    rw [nestedPlan_of_flat h] at hnested
    obtain ⟨_, -, hnested⟩ := Results.bind_eq_ok.mp hnested
    obtain ⟨own, hown, hnested⟩ := Results.bind_eq_ok.mp hnested
    obtain rfl := Results.pure_eq_ok.mp hnested
    refine ⟨_, _, _, rfl, rfl, ?_⟩
    rw [flatPlan, hown]
    rfl
  refine ⟨⟨?_, ?_⟩, hboth⟩
  · rintro ⟨flat, hflat⟩
    obtain ⟨own, hown, -⟩ := Results.bind_eq_ok.mp hflat
    rw [nestedPlan_of_flat h, mapM_resolve_of_mapM_columnOf hown, hown]
    exact ⟨_, rfl⟩
  · rintro ⟨nested, hnested⟩
    obtain ⟨stage, recordPart, fields, -, -, hflat⟩ := hboth nested hnested
    exact ⟨_, hflat⟩

theorem nestedPlan_eq_flatPlan_count :
    let scope : Scope := ⟨{}, [("a", "record1")]⟩
    let columns : Aggregation := [("n", .accumulate ⟨.count, "a", none, true, none⟩),
      ("list", .collect ⟨"a", some "name", true, some 5, none, none⟩)]
    columns.isNested = false ∧ ∃ stage recordPart fields,
      scope.nestedPlan columns = .ok (.nested [stage] recordPart fields) ∧
      scope.flatPlan columns = .ok (.flat stage recordPart fields) := by
  intro scope columns
  have hflat : columns.isNested = false := rfl
  obtain ⟨nested, hnested⟩ := Results.exists_eq_ok
    (show (scope.nestedPlan columns).isOk = true by decide +kernel)
  obtain ⟨stage, recordPart, fields, rfl, -, hplan⟩ :=
    (nestedPlan_eq_flatPlan hflat).2 nested hnested
  exact ⟨hflat, stage, recordPart, fields, hnested, hplan⟩

end GraphSearch.Aggregate.Scope
