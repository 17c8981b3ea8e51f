import GraphSearch.Proofs.Aggregate.BoundNames
/-!
# The order of stages

A nested plan has one stage to each level of its aggregation.  A level is found by its place,
the numbers of the columns on the way down to it (`levelAt?`), so that two levels with the same
columns are told apart, and the stages come in the post-order of these places (`Place.Before`):
what is inside a level is computed before it, and what is inside a column before what is inside
the columns after it.

* `mem_places_iff`, `places_pairwise`: `places` are the places of all levels, in post-order;
* `map_levelAt?_places`: the levels at these places are those of the frames of the aggregation;
* `nestedPlan_getLast?`: the last stage carries the root alone and binds the names of the plan;
* `nestedPlan_postOrder`: the stages of a nested plan are those of the levels, in post-order.
-/

namespace GraphSearch

/-- The inner columns of a column, if it has them. -/
def Aggregate.inner? : Aggregate → Option Aggregation
  | .rollUp _ inner => some inner
  | .collect _ | .accumulate _ => none

namespace Aggregate

/-! ## 1.  Places -/

/-- Where a level stands: the numbers of the columns on the way down to it, the outermost first. -/
abbrev Place := List Nat

/-- The level at a place. -/
def levelAt? : Place → Aggregation → Option Aggregation
  | [], columns => some columns
  | number :: place, columns =>
    (columns[number]?.bind fun column => column.2.inner?).bind (levelAt? place)

/-- Post-order: a place comes after those below it, and after those below columns with smaller
numbers. -/
inductive Place.Before : Place → Place → Prop
  | inside (number : Nat) (place : Place) : Before (number :: place) []
  | apart {number other : Nat} (place place' : Place) (h : number < other) :
    Before (number :: place) (other :: place')
  | within {place place' : Place} (number : Nat) (h : Before place place') :
    Before (number :: place) (number :: place')

theorem Place.Before.irrefl (place : Place) : ¬ place.Before place := by
  intro h
  induction place with
  | nil => cases h
  | cons number place ih =>
    cases h with
    | apart _ _ hlt => exact Nat.lt_irrefl number hlt
    | within _ h => exact ih h

theorem Place.nodup_of_pairwise {places : List Place} (h : places.Pairwise Place.Before) :
    places.Nodup := by
  refine h.imp ?_
  rintro place _ hbefore rfl
  exact Place.Before.irrefl place hbefore

mutual

/-- The places inside a level whose columns are numbered from `number` on. -/
def placesFrom (number : Nat) : Aggregation → List Place
  | [] => []
  | (_, aggregate) :: columns =>
    (placesInside aggregate).map (number :: ·) ++ placesFrom (number + 1) columns

/-- The places inside a column, seen from there. -/
def placesInside : Aggregate → List Place
  | .rollUp _ inner => placesFrom 0 inner ++ [[]]
  | .collect _ | .accumulate _ => []

end

/-- The places of all levels of an aggregation. -/
def places (columns : Aggregation) : List Place := placesFrom 0 columns ++ [[]]

theorem mem_placesInside_iff {aggregate : Aggregate} {place : Place} :
    place ∈ placesInside aggregate ↔ ∃ inner, aggregate.inner? = some inner ∧
      place ∈ places inner := by
  cases aggregate with
  | rollUp collection inner =>
    rw [placesInside]
    constructor
    · intro h
      exact ⟨inner, rfl, h⟩
    · rintro ⟨_, ⟨⟩, h⟩
      exact h
  | collect _ | accumulate _ => simp [placesInside, inner?]

theorem mem_placesFrom_iff {number : Nat} {columns : Aggregation} {place : Place} :
    place ∈ placesFrom number columns ↔ ∃ n column rest, columns[n]? = some column ∧
      rest ∈ placesInside column.2 ∧ place = (number + n) :: rest := by
  induction columns generalizing number with
  | nil => simp [placesFrom]
  | cons column columns ih =>
    obtain ⟨field, aggregate⟩ := column
    rw [placesFrom, List.mem_append, List.mem_map, ih]
    constructor
    · rintro (⟨rest, hrest, rfl⟩ | ⟨n, column, rest, hcolumn, hrest, rfl⟩)
      · exact ⟨0, _, rest, rfl, hrest, rfl⟩
      · exact ⟨n + 1, column, rest, hcolumn, hrest, by rw [Nat.add_right_comm]; rfl⟩
    · rintro ⟨_ | n, column, rest, hcolumn, hrest, rfl⟩
      · obtain rfl := Option.some.inj hcolumn
        exact Or.inl ⟨rest, hrest, rfl⟩
      · exact Or.inr ⟨n, column, rest, hcolumn, hrest, by rw [Nat.add_right_comm]; rfl⟩

/-- Every place of a level is listed, and no other. -/
theorem mem_places_iff {columns : Aggregation} {place : Place} :
    place ∈ places columns ↔ (levelAt? place columns).isSome := by
  induction place generalizing columns with
  | nil => simp [places, levelAt?]
  | cons number place ih =>
    have hinside : number :: place ∈ places columns ↔ number :: place ∈ placesFrom 0 columns := by
      simp [places]
    rw [hinside, mem_placesFrom_iff, levelAt?]
    constructor
    · rintro ⟨n, column, rest, hcolumn, hrest, heq⟩
      rw [Nat.zero_add, List.cons.injEq] at heq
      obtain ⟨rfl, rfl⟩ := heq
      obtain ⟨inner, hinner, hplace⟩ := mem_placesInside_iff.mp hrest
      rw [hcolumn, Option.bind_some, hinner, Option.bind_some]
      exact ih.mp hplace
    · intro h
      obtain ⟨level, hlevel⟩ := Option.isSome_iff_exists.mp h
      obtain ⟨inner, hinner, hplace⟩ := Option.bind_eq_some_iff.mp hlevel
      obtain ⟨column, hcolumn, hinner⟩ := Option.bind_eq_some_iff.mp hinner
      have hlisted : place ∈ places inner := ih.mpr (Option.isSome_iff_exists.mpr ⟨level, hplace⟩)
      exact ⟨number, column, place, hcolumn, mem_placesInside_iff.mpr ⟨inner, hinner, hlisted⟩,
        by rw [Nat.zero_add]⟩

mutual

theorem placesFrom_pairwise (number : Nat) (columns : Aggregation) :
    (placesFrom number columns).Pairwise Place.Before := by
  match columns with
  | [] =>
    rw [placesFrom]
    exact .nil
  | (field, aggregate) :: columns =>
    rw [placesFrom, List.pairwise_append]
    refine ⟨?_, placesFrom_pairwise (number + 1) columns, ?_⟩
    · rw [List.pairwise_map]
      exact (placesInside_pairwise aggregate).imp fun h => .within number h
    · intro place hplace other hother
      obtain ⟨rest, -, rfl⟩ := List.mem_map.mp hplace
      obtain ⟨n, column, rest', -, -, rfl⟩ := mem_placesFrom_iff.mp hother
      exact .apart rest rest' (by omega)

theorem placesInside_pairwise (aggregate : Aggregate) :
    (placesInside aggregate).Pairwise Place.Before := by
  match aggregate with
  | .rollUp _ inner =>
    rw [placesInside, List.pairwise_append]
    refine ⟨placesFrom_pairwise 0 inner, List.pairwise_singleton _ _, ?_⟩
    intro place hplace other hother
    obtain ⟨n, column, rest, -, -, rfl⟩ := mem_placesFrom_iff.mp hplace
    obtain rfl := List.mem_singleton.mp hother
    exact .inside _ rest
  | .collect _ | .accumulate _ =>
    rw [placesInside]
    exact .nil

end

/-- The places are listed in post-order. -/
theorem places_pairwise (columns : Aggregation) : (places columns).Pairwise Place.Before := by
  have h := placesInside_pairwise (.rollUp default columns)
  rw [placesInside] at h
  exact h

/-- Two columns with inner columns; the first of them has two that have inner columns too. -/
example (collection : Collection) : places
    [("x", .rollUp collection [("y", .rollUp collection []), ("z", .rollUp collection [])]),
      ("w", .rollUp collection [])] = [[0, 0], [0, 1], [0], [1], []] := rfl

/-! ## 2.  Levels and frames -/

section

variable {scope : Scope}

mutual

/-- The columns from the number on are those of a level `whole`. -/
theorem map_levelAt?_placesFrom (columns : Aggregation) {whole : Aggregation} {number : Nat}
    (aliases computed : List String) (hwhole : ∀ n, whole[number + n]? = columns[n]?) :
    (placesFrom number columns).map (fun place => levelAt? place whole) =
      (scope.innerFrames aliases computed columns).map fun frame => some frame.columns := by
  match columns with
  | [] => rw [placesFrom, Scope.innerFrames, List.map_nil, List.map_nil]
  | (field, aggregate) :: columns =>
    have hhead : whole[number]? = some (field, aggregate) := hwhole 0
    have hinside : (fun place => levelAt? place whole) ∘ (number :: ·) =
        fun place => aggregate.inner?.bind (levelAt? place) := by
      funext place
      rw [Function.comp_apply, levelAt?, hhead, Option.bind_some]
    have hrest : ∀ n, whole[number + 1 + n]? = columns[n]? := by
      intro n
      rw [Nat.add_right_comm, Nat.add_assoc, hwhole, List.getElem?_cons_succ]
    rw [placesFrom, Scope.innerFrames, List.map_append, List.map_append, List.map_map, hinside,
      map_inner?_placesInside aggregate, map_levelAt?_placesFrom columns _ _ hrest]

theorem map_inner?_placesInside (aggregate : Aggregate) (aliases computed : List String) :
    (placesInside aggregate).map (fun place => aggregate.inner?.bind (levelAt? place)) =
      (scope.columnFrames aliases computed aggregate).map fun frame => some frame.columns := by
  match aggregate with
  | .rollUp _ inner =>
    rw [placesInside, Scope.columnFrames, inner?, List.map_append, List.map_append]
    congr 1
    exact map_levelAt?_placesFrom inner _ _ fun n => by rw [Nat.zero_add]
  | .collect _ | .accumulate _ => rw [placesInside, Scope.columnFrames, List.map_nil, List.map_nil]

end

/-- The levels at the places of an aggregation are those of its frames. -/
theorem map_levelAt?_places (scope : Scope) (columns : Aggregation) :
    (places columns).map (fun place => levelAt? place columns) =
      (scope.frames columns).map fun frame => some frame.columns := by
  rw [places, Scope.frames, List.map_append, List.map_append,
    map_levelAt?_placesFrom columns _ _ fun n => by rw [Nat.zero_add]]
  rfl

end

/-! ## 3.  Stages -/

/-- The stage writes the level: after the variables it carries stands one entry to each column of
the level, in order, an expression under the name of the column. -/
def Stage.Writes (scope : Scope) (level : Aggregation) (stage : Stage) : Prop :=
  ∃ entries, stage.text = "WITH " ++ ", ".intercalate (stage.carried ++ entries) ∧
    List.Forall₂ (fun column entry => ∃ computed, scope.columnOf column = .ok computed ∧
      entry = computed.expr.text ++ " AS " ++ Cypher.name column.1) level entries

theorem Stage.writes_of_columns {scope : Scope} {level : Aggregation} {stage : Stage}
    (h : level.mapM scope.columnOf = .ok stage.columns) : stage.Writes scope level := by
  refine ⟨stage.columns.map Column.text, rfl, ?_⟩
  rw [List.forall₂_map_right_iff]
  refine (Results.mapM_eq_ok.mp h).imp fun column computed hcomputed => ⟨computed, hcomputed, ?_⟩
  rw [Column.text, (Scope.columnOf_eq_ok hcomputed).1]

namespace Scope

variable {scope : Scope} {columns : Aggregation} {plan : Plan}

theorem outputs_of_columns {stage : Stage} (h : columns.mapM scope.columnOf = .ok stage.columns) :
    stage.outputs = outputNames columns := by
  rw [Stage.outputs_eq, outputNames, (stage_of_columns stage.carried h).1]

/-- The computed entries of a projection hand on the names of the columns as they are written. -/
theorem recordPart_eq (scope : Scope) (columns : Aggregation) :
    scope.recordPart columns = scope.options.rootAlias ++ " \x7b" ++ ", ".intercalate
      (["." ++ scope.options.idKey, "." ++ scope.options.typesKey,
        scope.labelEntry scope.options.rootAlias]
        ++ (outputNames columns).map fun name => name ++ ": " ++ name) ++ "\x7d" := by
  rw [outputNames, List.map_map]
  rfl

/-- The last stage carries the root alone and binds the names the plan is returned by. -/
theorem nestedPlan_getLast? (h : scope.nestedPlan columns = .ok plan) :
    ∃ stage, plan.stages.getLast? = some stage ∧ stage.carried = [scope.options.rootAlias] ∧
      stage.outputs = outputNames columns ∧ plan.fields = outputNames columns ∧
      plan.recordPart = scope.recordPart columns := by
  simp only [nestedPlan, Results.bind_eq_ok, Results.pure_eq_ok] at h
  obtain ⟨stages, hstages, rfl⟩ := h
  obtain ⟨_, before, own, -, -, hown, rfl⟩ := levelStages_eq_ok.mp hstages
  refine ⟨_, List.getLast?_concat .., ?_, outputs_of_columns hown, rfl, rfl⟩
  rw [List.append_nil, List.eraseDups_cons]
  rfl

/-- **One stage to each level, in post-order.**  The stages of a nested plan correspond one to one
to the places of the levels of the aggregation, in post-order, and each writes the level at its
place.  The last one carries the root alone, and the names it binds are those the plan is returned
by, in its fields and in the projection of the root record. -/
theorem nestedPlan_postOrder (h : scope.nestedPlan columns = .ok plan) :
    (∃ order : List Place, order.Nodup ∧ order.Pairwise Place.Before ∧
        (∀ place, place ∈ order ↔ (levelAt? place columns).isSome) ∧
        List.Forall₂ (fun place stage => ∃ level, levelAt? place columns = some level ∧
          Stage.Writes scope level stage) order plan.stages) ∧
      ∃ last, plan.stages.getLast? = some last ∧ last.carried = [scope.options.rootAlias] ∧
        plan.fields = last.outputs ∧
        plan.recordPart = scope.options.rootAlias ++ " \x7b" ++ ", ".intercalate
          (["." ++ scope.options.idKey, "." ++ scope.options.typesKey,
            scope.labelEntry scope.options.rootAlias]
            ++ last.outputs.map fun name => name ++ ": " ++ name) ++ "\x7d" := by
  refine ⟨⟨places columns, Place.nodup_of_pairwise (places_pairwise columns),
    places_pairwise columns, fun place => mem_places_iff, ?_⟩, ?_⟩
  · have hlevels : List.Forall₂ (fun found stage => ∃ level, found = some level ∧
        Stage.Writes scope level stage) ((scope.frames columns).map fun frame => some frame.columns)
        plan.stages := by
      rw [List.forall₂_map_left_iff]
      refine (nestedPlan_frames h).imp fun frame stage hframe => ⟨frame.columns, rfl, ?_⟩
      exact Stage.writes_of_columns hframe.columns
    rw [← map_levelAt?_places, List.forall₂_map_left_iff] at hlevels
    exact hlevels
  · obtain ⟨last, hlast, hcarried, houtputs, hfields, hrecord⟩ := nestedPlan_getLast? h
    refine ⟨last, hlast, hcarried, ?_, ?_⟩
    · rw [hfields, houtputs]
    · rw [hrecord, houtputs]
      exact recordPart_eq scope columns

/-- Levels at three depths, one of them without columns, and an alias that is read at several. -/
theorem nestedPlan_postOrder_depths :
    let scope : Scope := ⟨{}, [("a", "record1"), ("b", "record2")]⟩
    let records := fun source => Collection.mk source none false none none none
    let count := fun source => Aggregate.accumulate ⟨.count, source, none, false, none⟩
    let columns : Aggregation :=
      [("x", .rollUp (records "a")
          [("y", .rollUp (records "b") []), ("z", .rollUp (records "b") [("n", count "a")])]),
        ("w w", .rollUp (records "b") [("m", count "b")])]
    ∃ plan, scope.nestedPlan columns = .ok plan ∧
      (∃ order : List Place, order.Nodup ∧ order.Pairwise Place.Before ∧
        (∀ place, place ∈ order ↔ (levelAt? place columns).isSome) ∧
        List.Forall₂ (fun place stage => ∃ level, levelAt? place columns = some level ∧
          Stage.Writes scope level stage) order plan.stages) ∧
      ∃ last, plan.stages.getLast? = some last ∧ last.carried = ["record"] ∧
        plan.fields = last.outputs := by
  intro scope records count columns
  obtain ⟨plan, h⟩ := Results.exists_eq_ok
    (show (scope.nestedPlan columns).isOk = true by decide +kernel)
  obtain ⟨horder, last, hlast, hcarried, hfields, -⟩ := nestedPlan_postOrder h
  exact ⟨plan, h, horder, last, hlast, hcarried, hfields⟩

end Scope
end Aggregate
end GraphSearch
