import GraphSearch.Aggregate.Reader
import GraphSearch.Proofs.Aggregate.Carrying
import GraphSearch.Proofs.Cypher.Name
import GraphSearch.Proofs.Json.Proper
/-!
# Names that stages bind

A `WITH` binds the variables it carries under the names they have and its columns under the
names they are given.  Nothing keeps these apart: a column may have the name of an alias, or the
name of a column that an earlier stage computed and this one carries.  And a column that is
carried is referred to by its bare name, whatever name it was bound under.

* `ofJson_namesApart`: the columns of one level, as they are read, have different names;
* `plan_bindsOnce_iff`: a plan binds no name twice exactly when no column of a level is written
  like an alias or a column that the stage of the level carries;
* `nestedPlan_carried`: what a stage carries besides aliases are columns of stages before it,
  under the names these were bound by exactly when the names are plain.
-/

namespace GraphSearch

/-! ## 1.  Columns of one level -/

namespace Aggregate.Scope

mutual

/-- No level of the columns gives two of them the same name. -/
def NamesApart : Aggregation → Prop
  | [] => True
  | (field, aggregate) :: columns =>
    field ∉ fieldsOf columns ∧ NamesApartInside aggregate ∧ NamesApart columns

/-- No level inside the column gives two columns the same name. -/
def NamesApartInside : Aggregate → Prop
  | .rollUp _ inner => NamesApart inner
  | .collect _ | .accumulate _ => True

end

theorem NamesApart.nodup {columns : Aggregation} (h : NamesApart columns) :
    (fieldsOf columns).Nodup := by
  induction columns with
  | nil => exact List.nodup_nil
  | cons column columns ih =>
    obtain ⟨field, aggregate⟩ := column
    rw [NamesApart] at h
    exact List.nodup_cons.mpr ⟨h.1, ih h.2.2⟩

variable {scope : Scope}

mutual

theorem nodup_of_mem_innerFrames (columns : Aggregation) {aliases computed : List String}
    {frame : Frame} (hapart : NamesApart columns)
    (h : frame ∈ scope.innerFrames aliases computed columns) :
    (fieldsOf frame.columns).Nodup := by
  match columns with
  | [] =>
    rw [innerFrames] at h
    exact absurd h List.not_mem_nil
  | (field, aggregate) :: columns =>
    rw [NamesApart] at hapart
    rw [innerFrames] at h
    rcases List.mem_append.mp h with h | h
    · exact nodup_of_mem_columnFrames aggregate hapart.2.1 h
    · exact nodup_of_mem_innerFrames columns hapart.2.2 h

theorem nodup_of_mem_columnFrames (aggregate : Aggregate) {aliases computed : List String}
    {frame : Frame} (hapart : NamesApartInside aggregate)
    (h : frame ∈ scope.columnFrames aliases computed aggregate) :
    (fieldsOf frame.columns).Nodup := by
  match aggregate with
  | .rollUp _ inner =>
    rw [NamesApartInside] at hapart
    rw [columnFrames] at h
    rcases List.mem_append.mp h with h | h
    · exact nodup_of_mem_innerFrames inner hapart h
    · rw [List.mem_singleton] at h
      rw [h]
      exact hapart.nodup
  | .collect _ | .accumulate _ =>
    rw [columnFrames] at h
    exact absurd h List.not_mem_nil

end

theorem nodup_of_mem_frames {columns : Aggregation} {frame : Frame} (hapart : NamesApart columns)
    (h : frame ∈ scope.frames columns) : (fieldsOf frame.columns).Nodup := by
  rw [frames] at h
  rcases List.mem_append.mp h with h | h
  · exact nodup_of_mem_innerFrames columns hapart h
  · rw [List.mem_singleton] at h
    rw [h]
    exact hapart.nodup

end Aggregate.Scope

namespace Aggregation

open Aggregate.Scope (fieldsOf NamesApart NamesApartInside)

/-- Columns are read in the order of the entries, each under its key. -/
theorem readColumns_names {fields : List (String × Json)} {columns : Aggregation}
    (h : readColumns fields = .ok columns) : fieldsOf columns = Table.keys fields := by
  induction fields generalizing columns with
  | nil =>
    rw [readColumns] at h
    cases h
    rfl
  | cons field fields ih =>
    obtain ⟨key, value⟩ := field
    simp only [readColumns, Results.bind_eq_ok, Results.pure_eq_ok] at h
    obtain ⟨aggregate, -, others, hothers, rfl⟩ := h
    exact congrArg (key :: ·) (ih hothers)

/-- Inner columns come from a list of inner columns that was read, or there are none. -/
theorem complete_eq_ok {head : Head} {inner : Unit → Except Rejection Aggregation}
    {aggregate : Aggregate} (h : head.complete inner = .ok aggregate)
    (hinner : ∀ {columns}, inner () = .ok columns → NamesApart columns) :
    NamesApartInside aggregate := by
  cases head with
  | accumulate accumulation =>
    cases h
    rw [NamesApartInside]
    trivial
  | collect collection =>
    cases h
    rw [NamesApartInside]
    trivial
  | rollUp collection =>
    obtain ⟨columns, hcolumns, rfl⟩ := Results.map_eq_ok.mp h
    rw [NamesApartInside]
    exact hinner hcolumns

theorem bind_complete_nil {head : Except Rejection Head} {aggregate : Aggregate}
    (h : (head.bind fun head => head.complete fun _ => .ok []) = .ok aggregate) :
    NamesApartInside aggregate := by
  obtain ⟨found, -, hfound⟩ := Results.bind_eq_ok.mp h
  refine complete_eq_ok hfound fun {columns} hcolumns => ?_
  cases hcolumns
  rw [NamesApart]
  trivial

mutual

theorem readColumn_namesApart (column : String) (value : Json) {aggregate : Aggregate}
    (hproper : value.isProper = true) (h : readColumn column value = .ok aggregate) :
    NamesApartInside aggregate := by
  match value with
  | .object fields =>
    rw [readColumn, Results.bind_eq_ok] at h
    obtain ⟨head, -, h⟩ := h
    exact complete_eq_ok h fun hinner => innerOfFields_namesApart fields hproper hinner
  | .array items =>
    rw [readColumn, Results.bind_eq_ok] at h
    obtain ⟨head, -, h⟩ := h
    exact complete_eq_ok h fun hinner => innerOfItems_namesApart innerPlace items hproper hinner
  | .null | .bool _ | .number _ | .string _ =>
    rw [readColumn] at h
    exact bind_complete_nil h

theorem innerOfFields_namesApart (fields : List (String × Json)) {columns : Aggregation}
    (hproper : Json.areProperFields fields = true) (h : innerOfFields fields = .ok columns) :
    NamesApart columns := by
  match fields with
  | [] =>
    rw [innerOfFields] at h
    cases h
    rw [NamesApart]
    trivial
  | (key, value) :: fields =>
    obtain ⟨-, hvalue, hfields⟩ := Json.areProperFields_cons.mp hproper
    rw [innerOfFields] at h
    split at h
    · exact readInner_namesApart value hvalue h
    · exact innerOfFields_namesApart fields hfields h

theorem innerOfItems_namesApart (place : Nat) (items : List Json) {columns : Aggregation}
    (hproper : Json.areProper items = true) (h : innerOfItems place items = .ok columns) :
    NamesApart columns := by
  match place, items with
  | _, [] =>
    rw [innerOfItems] at h
    cases h
    rw [NamesApart]
    trivial
  | 0, value :: items =>
    rw [Json.areProper, Bool.and_eq_true] at hproper
    rw [innerOfItems] at h
    exact readInner_namesApart value hproper.1 h
  | place + 1, value :: items =>
    rw [Json.areProper, Bool.and_eq_true] at hproper
    rw [innerOfItems] at h
    exact innerOfItems_namesApart place items hproper.2 h

theorem readInner_namesApart (value : Json) {columns : Aggregation}
    (hproper : value.isProper = true) (h : readInner value = .ok columns) :
    NamesApart columns := by
  match value with
  | .object fields =>
    rw [readInner] at h
    exact readColumns_namesApart fields hproper h
  | .array _ | .null | .bool _ | .number _ | .string _ =>
    rw [readInner] at h
    cases h
    rw [NamesApart]
    trivial

theorem readColumns_namesApart (fields : List (String × Json)) {columns : Aggregation}
    (hproper : Json.areProperFields fields = true) (h : readColumns fields = .ok columns) :
    NamesApart columns := by
  match fields with
  | [] =>
    rw [readColumns] at h
    cases h
    rw [NamesApart]
    trivial
  | (column, value) :: fields =>
    obtain ⟨hfresh, hvalue, hfields⟩ := Json.areProperFields_cons.mp hproper
    simp only [readColumns, Results.bind_eq_ok, Results.pure_eq_ok] at h
    obtain ⟨aggregate, haggregate, others, hothers, rfl⟩ := h
    rw [NamesApart, readColumns_names hothers]
    exact ⟨hfresh, readColumn_namesApart column value hvalue haggregate,
      readColumns_namesApart fields hfields hothers⟩

end

/-- The columns of each level have different names when the keys of each object do. -/
theorem ofJson_namesApart {spec : Json} {columns : Aggregation} (hproper : spec.isProper = true)
    (h : ofJson spec = .ok columns) : NamesApart columns := by
  cases spec with
  | object fields =>
    rw [ofJson] at h
    exact readColumns_namesApart fields hproper h
  | _ => cases h

end Aggregation

namespace Aggregate

/-! ## 2.  Names that are bound twice -/

/-- The names a stage binds its columns under. -/
def Stage.outputs (stage : Stage) : List String :=
  stage.columns.map fun column => Cypher.name column.field

/-- A stage binds no two variables under one name. -/
def Stage.BindsOnce (stage : Stage) : Prop := (stage.carried ++ stage.outputs).Nodup

instance (stage : Stage) : Decidable stage.BindsOnce := by
  unfold Stage.BindsOnce
  infer_instance

/-- No column of the level is written like a variable that its stage carries. -/
def Frame.IsApart (frame : Frame) : Prop :=
  ∀ field ∈ Scope.fieldsOf frame.columns,
    Cypher.name field ∉ frame.aliases ∧ Cypher.name field ∉ frame.computed

instance (frame : Frame) : Decidable frame.IsApart := by
  unfold Frame.IsApart
  infer_instance

theorem Stage.outputs_eq (stage : Stage) : stage.outputs = stage.fields.map Cypher.name := by
  rw [outputs, fields, List.map_map]
  rfl

/-- What is carried is there once, and so are the columns; so only one of these with one of those
can make a stage bind a name twice. -/
theorem Frame.IsComputedBy.bindsOnce_iff {frame : Frame} {scope : Scope} {stage : Stage}
    (h : frame.IsComputedBy scope stage) (hnodup : (Scope.fieldsOf frame.columns).Nodup) :
    stage.BindsOnce ↔ frame.IsApart := by
  have houtputs : stage.outputs.Nodup := by
    rw [Stage.outputs_eq, h.fields]
    exact List.pairwise_map.mpr (hnodup.imp fun hne heq => hne (Cypher.name_injective heq))
  rw [Stage.BindsOnce, List.nodup_append]
  constructor
  · rintro ⟨-, -, hne⟩ field hfield
    have hbound : Cypher.name field ∈ stage.outputs := by
      rw [Stage.outputs_eq, h.fields]
      exact List.mem_map_of_mem hfield
    have hcarried : Cypher.name field ∉ stage.carried := fun hmem => hne _ hmem _ hbound rfl
    rw [h.carried, not_or] at hcarried
    exact hcarried
  · intro hapart
    refine ⟨h.nodup, houtputs, ?_⟩
    rintro x hx _ hbound rfl
    rw [Stage.outputs_eq, h.fields] at hbound
    obtain ⟨field, hfield, rfl⟩ := List.mem_map.mp hbound
    rcases (h.carried _).mp hx with hx | hx
    · exact (hapart field hfield).1 hx
    · exact (hapart field hfield).2 hx

namespace Scope

/-- **No name is bound twice where columns are written apart.**  The stages of a plan for columns
that were read bind no two variables under one name exactly when no column of a level is written
like an alias that the stage of the level carries, or as the name of a column that it carries. -/
theorem plan_bindsOnce_iff {scope : Scope} {spec : Json} {columns : Aggregation} {plan : Plan}
    (hproper : spec.isProper = true) (hspec : Aggregation.ofJson spec = .ok columns)
    (h : scope.plan columns = .ok plan) :
    (∀ stage ∈ plan.stages, stage.BindsOnce) ↔ ∀ frame ∈ scope.frames columns, frame.IsApart := by
  have hapart : ∀ frame ∈ scope.frames columns, (fieldsOf frame.columns).Nodup :=
    fun frame => nodup_of_mem_frames (Aggregation.ofJson_namesApart hproper hspec)
  have hframes := plan_frames h
  generalize scope.frames columns = frames, plan.stages = stages at hapart hframes
  induction hframes with
  | nil => simp
  | cons hframe _ ih =>
    rw [List.forall_mem_cons] at hapart
    rw [List.forall_mem_cons, List.forall_mem_cons]
    exact and_congr (hframe.bindsOnce_iff hapart.1) (ih hapart.2)

end Scope

/-- Two columns over related records, each with an inner column. -/
def siblingSpec (first second : String) : Json :=
  let count := fun (source : String) =>
    Json.object [("fn", .string "count"), ("alias", .string source)]
  let records := fun (source inner : String) => Json.object [("fn", .string "collect"),
    ("alias", .string source), ("aggregate", .object [(inner, count source)])]
  .object [("x", records "$a" first), ("y", records "$b" second)]

/-- The same columns, as they are read. -/
def siblingColumns (first second : String) : Aggregation :=
  let count := fun (source : String) => Aggregate.accumulate ⟨.count, source, none, false, none⟩
  let records := fun (source inner : String) =>
    Aggregate.rollUp ⟨source, none, true, none, none, none⟩ [(inner, count source)]
  [("x", records "$a" first), ("y", records "$b" second)]

/-- The aliases that they read. -/
def siblingScope : Scope := ⟨{}, [("$a", "record1"), ("$b", "record2")]⟩

theorem ofJson_siblingSpec (first second : String) :
    Aggregation.ofJson (siblingSpec first second) = .ok (siblingColumns first second) := rfl

namespace Scope

theorem plan_bindsOnce_iff_siblings :
    (siblingSpec "n" "m").isProper = true ∧ ∃ plan, siblingScope.plan (siblingColumns "n" "m")
      = .ok plan ∧ ∀ stage ∈ plan.stages, stage.BindsOnce := by
  obtain ⟨plan, h⟩ := Results.exists_eq_ok
    (show (siblingScope.plan (siblingColumns "n" "m")).isOk = true by decide +kernel)
  have hapart : ∀ frame ∈ siblingScope.frames (siblingColumns "n" "m"), frame.IsApart := by
    decide +kernel
  exact ⟨by decide +kernel, plan, h, (plan_bindsOnce_iff (by decide +kernel)
    (ofJson_siblingSpec "n" "m") h).mpr hapart⟩

/-- Inner columns of one name: the stage of the second level carries the first one's. -/
theorem plan_binds_twice :
    ¬ ∀ (scope : Scope) (spec : Json) (columns : Aggregation) (plan : Plan),
      spec.isProper = true → Aggregation.ofJson spec = .ok columns →
      scope.plan columns = .ok plan → ∀ stage ∈ plan.stages, stage.BindsOnce := by
  intro hclaim
  have hrun : (siblingScope.plan (siblingColumns "n" "n")).toOption.any
      (fun plan => plan.stages.any fun stage => !decide stage.BindsOnce) = true := by
    decide +kernel
  obtain ⟨plan, h⟩ := Results.exists_eq_ok
    (show (siblingScope.plan (siblingColumns "n" "n")).isOk = true by decide +kernel)
  have hall := hclaim siblingScope (siblingSpec "n" "n") _ plan (by decide +kernel)
    (ofJson_siblingSpec "n" "n") h
  rw [h] at hrun
  simp only [Except.toOption, Option.any_some, List.any_eq_true, Bool.not_eq_true',
    decide_eq_false_iff_not] at hrun
  obtain ⟨stage, hstage, htwice⟩ := hrun
  exact htwice (hall stage hstage)

end Scope

/-! ## 3.  Names of columns that are carried -/

namespace Scope

/-- **Columns are carried by their bare names.**  Every variable a stage of a nested plan carries
is the root alias, an alias that a column reads, or the name of a column of a stage before it;
and it is what that column was bound under exactly when the name is plain. -/
theorem nestedPlan_carried {scope : Scope} {columns : Aggregation} {plan : Plan}
    (h : scope.nestedPlan columns = .ok plan) :
    ∀ before stage after, plan.stages = before ++ stage :: after → ∀ x ∈ stage.carried,
      x ∈ scope.options.rootAlias :: scope.nodesBelow columns ∨
        ∃ column ∈ before.flatMap Stage.columns, column.field = x ∧
          (x = Cypher.name column.field ↔ Cypher.isPlain x = true) := by
  intro before stage after hstages x hx
  obtain ⟨frame, hframe, hcomputes, hcomputed⟩ :=
    (frames_traced columns).frame_of_stage (nestedPlan_frames h) hstages
  rcases (hcomputes.carried x).mp hx with hx | hx
  · exact Or.inl (frames_aliases hframe hx)
  · have hfields : x ∈ (before.flatMap Stage.columns).map Column.field := by
      rw [List.map_flatMap]
      exact hcomputed hx
    obtain ⟨column, hcolumn, rfl⟩ := List.mem_map.mp hfields
    refine Or.inr ⟨column, hcolumn, rfl, ?_⟩
    rw [eq_comm]
    exact Cypher.name_eq_self_iff

theorem nestedPlan_carried_siblings :
    ∃ plan, siblingScope.nestedPlan (siblingColumns "first name" "m") = .ok plan ∧
      ∀ before stage after, plan.stages = before ++ stage :: after → ∀ x ∈ stage.carried,
        x ∈ siblingScope.options.rootAlias ::
            siblingScope.nodesBelow (siblingColumns "first name" "m") ∨
          ∃ column ∈ before.flatMap Stage.columns, column.field = x ∧
            (x = Cypher.name column.field ↔ Cypher.isPlain x = true) := by
  obtain ⟨plan, h⟩ := Results.exists_eq_ok
    (show (siblingScope.nestedPlan (siblingColumns "first name" "m")).isOk = true by
      decide +kernel)
  exact ⟨plan, h, nestedPlan_carried h⟩

/-- An inner column with a blank in its name: it is bound between backticks, and carried
without them. -/
theorem nestedPlan_carries_misspelled :
    ¬ ∀ (scope : Scope) (spec : Json) (columns : Aggregation) (plan : Plan),
      spec.isProper = true → Aggregation.ofJson spec = .ok columns →
      scope.nestedPlan columns = .ok plan →
      ∀ before stage after, plan.stages = before ++ stage :: after → ∀ x ∈ stage.carried,
        x ∈ scope.options.rootAlias :: scope.bindings.map Prod.snd ∨
          x ∈ before.flatMap Stage.outputs := by
  intro hclaim
  have hrun : (siblingScope.nestedPlan (siblingColumns "first name" "m")).toOption.any
      (fun plan => plan.stages[1]?.any fun second => second.carried.contains "first name" &&
        !((plan.stages.take 1).flatMap Stage.outputs).contains "first name") = true := by
    decide +kernel
  obtain ⟨plan, h⟩ := Results.exists_eq_ok
    (show (siblingScope.nestedPlan (siblingColumns "first name" "m")).isOk = true by
      decide +kernel)
  have hall := hclaim siblingScope (siblingSpec "first name" "m") _ plan (by decide +kernel)
    (ofJson_siblingSpec "first name" "m") h
  rw [h] at hrun
  simp only [Except.toOption, Option.any_some] at hrun
  obtain ⟨second, hsecond, hcarried⟩ := (Option.any_eq_true _ _).mp hrun
  obtain ⟨hlt, rfl⟩ := List.getElem?_eq_some_iff.mp hsecond
  simp only [Bool.and_eq_true, Bool.not_eq_true', List.contains_eq_mem, decide_eq_true_eq,
    decide_eq_false_iff_not] at hcarried
  have hstages : plan.stages = plan.stages.take 1 ++ plan.stages[1] :: plan.stages.drop 2 := by
    rw [List.getElem_cons_drop, List.take_append_drop]
  rcases hall _ _ _ hstages "first name" hcarried.1 with hx | hx
  · exact absurd hx (by decide +kernel)
  · exact hcarried.2 hx

end Scope
end Aggregate
end GraphSearch
