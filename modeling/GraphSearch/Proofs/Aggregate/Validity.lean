import GraphSearch.Proofs.Aggregate.Carrying
/-!
# Whether an aggregation is valid

Two things may be wrong with a column, at any depth: it reads an alias that the filter does not
declare, or it collects and its window does not end at a 64-bit number.  A plan is there exactly
when neither is wrong with any column (`plan_eq_ok_iff`).

Aliases are looked up in three places, for a level as a whole, for the columns that come after an
inner level, and for each column, and windows are looked at in the last of them only.  So the first
fault that is met need not be the first that is written; but it is always the fault of a column
(`RefusedFor`), and no column is left out, because each is compiled in the stage of its level
(`frames_columns`).
-/

namespace GraphSearch

/-- What a column collects, if it does. -/
def Aggregate.collection? : Aggregate → Option Collection
  | .accumulate _ => none
  | .collect collection => some collection
  | .rollUp collection _ => some collection

namespace Aggregate

/-- The window of a column that collects. -/
def ColumnExpr.window? : ColumnExpr → Option Window
  | .accumulated _ _ _ _ _ => none
  | .values _ _ _ window => some window
  | .records _ _ _ _ _ window => some window

/-- A collected list is sliced where it ends. -/
theorem ColumnExpr.text_of_window? {expr : ColumnExpr} {window : Window}
    (h : expr.window? = some window) : ∃ list, expr.text = list ++ window.text := by
  cases expr with
  | accumulated _ _ _ _ _ => cases h
  | values _ _ _ _ | records _ _ _ _ _ _ =>
    obtain rfl := Option.some.inj h
    exact ⟨_, rfl⟩

/-! ## 1.  Columns at every depth -/

mutual

/-- The columns inside those of a level, at every depth. -/
def innerColumns : Aggregation → List (String × Aggregate)
  | [] => []
  | (_, aggregate) :: columns => columnsInside aggregate ++ innerColumns columns

/-- The columns inside a column, at every depth. -/
def columnsInside : Aggregate → List (String × Aggregate)
  | .rollUp _ inner => innerColumns inner ++ inner
  | .collect _ | .accumulate _ => []

end

/-- The columns of an aggregation at every depth, in the order in which they are computed. -/
def allColumns (columns : Aggregation) : List (String × Aggregate) :=
  innerColumns columns ++ columns

namespace Scope

variable (scope : Scope)

/-! ## 2.  What is asked of a column -/

/-- How many elements of a collected list are passed over. -/
def skipOf (collection : Collection) : Nat := collection.skip.getD 0

/-- How many elements of a collected list are kept. -/
def limitOf (collection : Collection) : Nat :=
  collection.limit.getD scope.options.defaultCollectLimit

/-- The column reads a declared alias, and its window ends at a 64-bit number. -/
structure Admits (column : String × Aggregate) : Prop where
  declared : column.2.source ∈ Table.keys scope.bindings
  fits : ∀ collection ∈ column.2.collection?,
    skipOf collection + scope.limitOf collection < Nat.pow 2 64

/-- The rejection of a column whose window does not end at a 64-bit number. -/
def overflow (column : String) (collection : Collection) : Rejection :=
  .invalidAggregate column (.windowOverflow (skipOf collection) (scope.limitOf collection))
    (.object [("skip", .number (.int (skipOf collection))),
      ("limit", .number (.int (scope.limitOf collection)))])

/-- The rejection is for a fault of the column, and shows it: the alias that is not declared, or
how many elements are passed over and how many are kept. -/
def Refuses (column : String × Aggregate) (rejection : Rejection) : Prop :=
  (column.2.source ∉ Table.keys scope.bindings ∧
      rejection = .unknownAlias column.1 column.2.source) ∨
    ∃ collection ∈ column.2.collection?,
      Nat.pow 2 64 ≤ skipOf collection + scope.limitOf collection ∧
      rejection = scope.overflow column.1 collection

/-- The column is computed under its name, and sliced where it collects: from the elements that are
passed over on, as many as are kept. -/
structure Computes (column : String × Aggregate) (computed : Column) : Prop where
  field : computed.field = column.1
  window : computed.expr.window? = column.2.collection?.map fun collection =>
    ⟨skipOf collection, skipOf collection + scope.limitOf collection⟩
  slice : ∀ collection ∈ column.2.collection?, ∃ list, computed.text =
    list ++ "[" ++ toString (skipOf collection) ++ ".."
      ++ toString (skipOf collection + scope.limitOf collection) ++ "] AS "
      ++ Cypher.name column.1

variable {scope}

theorem Refuses.not_admits {column : String × Aggregate} {rejection : Rejection}
    (h : scope.Refuses column rejection) : ¬ scope.Admits column := by
  rintro ⟨hdeclared, hfits⟩
  rcases h with ⟨hundeclared, -⟩ | ⟨collection, hcollection, hover, -⟩
  · exact hundeclared hdeclared
  · exact absurd (hfits collection hcollection) (Nat.not_lt_of_le hover)

/-! ## 3.  Columns that compile -/

theorem window_eq (column : String) (collection : Collection) :
    scope.window column collection =
      if skipOf collection + scope.limitOf collection < Nat.pow 2 64 then
        .ok ⟨skipOf collection, skipOf collection + scope.limitOf collection⟩
      else .error (scope.overflow column collection) := rfl

theorem mem_keys_of_nodeOf? {column : String × Aggregate} {node : String}
    (h : scope.nodeOf? column = some node) : column.2.source ∈ Table.keys scope.bindings := by
  by_contra hundeclared
  rw [nodeOf?, Table.find?_eq_none_iff.mpr hundeclared] at h
  cases h

theorem collected_window {column node : String} {collection : Collection} {inner : List String}
    {expr : ColumnExpr} (h : scope.collected column node collection inner = .ok expr) :
    skipOf collection + scope.limitOf collection < Nat.pow 2 64 ∧ expr.window? =
      some ⟨skipOf collection, skipOf collection + scope.limitOf collection⟩ := by
  obtain ⟨window, hwindow, h⟩ := Results.bind_eq_ok.mp h
  rw [window_eq] at hwindow
  split at hwindow
  case isFalse => cases hwindow
  case isTrue hfits =>
    obtain rfl := Except.ok.inj hwindow
    refine ⟨hfits, ?_⟩
    split at h <;> obtain rfl := Results.pure_eq_ok.mp h <;> rfl

/-- A column that compiles is admitted, and computed as it says. -/
theorem columnOf_computes {column : String × Aggregate} {computed : Column}
    (h : scope.columnOf column = .ok computed) :
    scope.Admits column ∧ scope.Computes column computed := by
  obtain ⟨hfield, hnode, -⟩ := columnOf_eq_ok h
  obtain ⟨field, aggregate⟩ := column
  have hwindow : (∀ collection ∈ aggregate.collection?,
      skipOf collection + scope.limitOf collection < Nat.pow 2 64) ∧
      computed.expr.window? = aggregate.collection?.map fun collection =>
        ⟨skipOf collection, skipOf collection + scope.limitOf collection⟩ := by
    rw [columnOf, Results.bind_eq_ok] at h
    obtain ⟨node, -, h⟩ := h
    cases aggregate with
    | accumulate accumulation =>
      obtain ⟨expr, hexpr, hcolumn⟩ := Results.bind_eq_ok.mp h
      obtain rfl := Results.pure_eq_ok.mp hexpr
      obtain rfl := Results.pure_eq_ok.mp hcolumn
      exact ⟨fun _ hcollection => absurd hcollection (Option.not_mem_none _), rfl⟩
    | collect collection | rollUp collection inner =>
      obtain ⟨expr, hexpr, hcolumn⟩ := Results.bind_eq_ok.mp h
      obtain ⟨hfits, hexpr⟩ := collected_window hexpr
      obtain rfl := Results.pure_eq_ok.mp hcolumn
      refine ⟨?_, hexpr⟩
      rintro _ ⟨⟩
      exact hfits
  refine ⟨⟨mem_keys_of_nodeOf? hnode, hwindow.1⟩, hfield, hwindow.2, ?_⟩
  intro collection hcollection
  rw [hcollection, Option.map_some] at hwindow
  obtain ⟨list, htext⟩ := ColumnExpr.text_of_window? hwindow.2
  refine ⟨list, ?_⟩
  rw [Column.text, htext, hfield, Window.text]
  simp only [String.append_assoc]
  rfl

/-! ## 4.  Rejections -/

/-- If the computation is rejected, then for a fault of one of the columns. -/
def RefusedFor {α : Type} (scope : Scope) (columns : List (String × Aggregate))
    (result : Except Rejection α) : Prop :=
  ∀ rejection, result = .error rejection → ∃ column ∈ columns, scope.Refuses column rejection

section

variable {α β : Type} {columns others : List (String × Aggregate)} {result : Except Rejection α}

theorem RefusedFor.ok (a : α) : scope.RefusedFor columns (.ok a) := nofun

theorem RefusedFor.mono (h : scope.RefusedFor columns result) (hsubset : columns ⊆ others) :
    scope.RefusedFor others result := by
  intro rejection hresult
  obtain ⟨column, hcolumn, hrefuses⟩ := h rejection hresult
  exact ⟨column, hsubset hcolumn, hrefuses⟩

theorem RefusedFor.bind {next : α → Except Rejection β} (h : scope.RefusedFor columns result)
    (hnext : ∀ a, scope.RefusedFor columns (next a)) :
    scope.RefusedFor columns (result >>= next) := by
  cases result with
  | ok a => exact hnext a
  | error rejection =>
    rintro _ ⟨⟩
    exact h rejection rfl

theorem RefusedFor.mapM {f : String × Aggregate → Except Rejection α}
    (h : ∀ column, scope.RefusedFor [column] (f column)) (columns : List (String × Aggregate)) :
    scope.RefusedFor columns (columns.mapM f) := by
  induction columns with
  | nil => exact .ok []
  | cons column columns ih =>
    rw [List.mapM_cons]
    refine ((h column).mono (List.cons_subset_cons _ (List.nil_subset _))).bind fun b => ?_
    exact (ih.mono (List.subset_cons_self _ _)).bind fun results => .ok (b :: results)

end

theorem resolve_refusedFor (column : String × Aggregate) :
    scope.RefusedFor [column] (scope.resolve column) := by
  intro rejection h
  refine ⟨column, List.mem_singleton_self _, .inl ?_⟩
  rw [resolve] at h
  cases hfind : Table.find? column.2.source scope.bindings with
  | some node =>
    rw [hfind] at h
    cases h
  | none =>
    rw [hfind] at h
    cases h
    exact ⟨Table.find?_eq_none_iff.mp hfind, rfl⟩

theorem collected_refusedFor {column : String × Aggregate} {collection : Collection}
    (hcollection : column.2.collection? = some collection) (node : String)
    (inner : List String) :
    scope.RefusedFor [column] (scope.collected column.1 node collection inner) := by
  refine RefusedFor.bind (fun rejection h => ?_) fun window => ?_
  · rw [window_eq] at h
    split at h
    case isTrue => cases h
    case isFalse hover =>
      cases h
      exact ⟨column, List.mem_singleton_self _,
        .inr ⟨collection, hcollection, Nat.le_of_not_lt hover, rfl⟩⟩
  · split <;> exact .ok _

theorem columnOf_refusedFor (column : String × Aggregate) :
    scope.RefusedFor [column] (scope.columnOf column) := by
  obtain ⟨field, aggregate⟩ := column
  refine (resolve_refusedFor _).bind fun node => ?_
  cases aggregate with
  | accumulate accumulation => exact .ok _
  | collect collection => exact (collected_refusedFor rfl node []).bind fun expr => .ok _
  | rollUp collection inner =>
    exact (collected_refusedFor rfl node (fieldsOf inner)).bind fun expr => .ok _

theorem columns_subset_allColumns (columns : Aggregation) : columns ⊆ allColumns columns :=
  List.subset_append_right _ _

theorem allColumns_subset_cons (column : String × Aggregate) (columns : Aggregation) :
    allColumns columns ⊆ allColumns (column :: columns) := by
  obtain ⟨field, aggregate⟩ := column
  rw [allColumns, allColumns, innerColumns, List.append_assoc]
  intro x hx
  simp only [List.mem_append, List.mem_cons] at hx ⊢
  tauto

theorem columnsInside_subset_allColumns (field : String) (aggregate : Aggregate)
    (columns : Aggregation) :
    columnsInside aggregate ⊆ allColumns ((field, aggregate) :: columns) := by
  rw [allColumns, innerColumns, List.append_assoc]
  exact List.subset_append_left _ _

/-- A level is rejected for a column of its own, or one inside it. -/
theorem levelStages_refusedFor {columns : Aggregation} {grouping carry : List String}
    {inside : List String → Except Rejection (List Stage)}
    (hinside : ∀ aliases, scope.RefusedFor (allColumns columns) (inside aliases)) :
    scope.RefusedFor (allColumns columns) (scope.levelStages columns grouping carry inside) := by
  have hown := columns_subset_allColumns columns
  refine ((RefusedFor.mapM resolve_refusedFor columns).mono hown).bind fun aliases => ?_
  refine (hinside aliases).bind fun before => ?_
  exact ((RefusedFor.mapM columnOf_refusedFor columns).mono hown).bind fun own => .ok _

mutual

theorem aliasesBelow_refusedFor (columns : Aggregation) :
    scope.RefusedFor (allColumns columns) (scope.aliasesBelow columns) := by
  match columns with
  | [] =>
    rw [aliasesBelow]
    exact .ok []
  | (field, aggregate) :: columns =>
    rw [aliasesBelow]
    refine ((resolve_refusedFor (field, aggregate)).mono ?_).bind fun node => ?_
    · exact List.Subset.trans (List.cons_subset_cons _ (List.nil_subset _))
        (columns_subset_allColumns ((field, aggregate) :: columns))
    refine ((aliasesInside_refusedFor aggregate).mono
      (columnsInside_subset_allColumns field aggregate columns)).bind fun below => ?_
    exact ((aliasesBelow_refusedFor columns).mono (allColumns_subset_cons _ columns)).bind
      fun others => .ok _

theorem aliasesInside_refusedFor (aggregate : Aggregate) :
    scope.RefusedFor (columnsInside aggregate) (scope.aliasesInside aggregate) := by
  match aggregate with
  | .rollUp _ inner =>
    rw [aliasesInside, columnsInside]
    exact aliasesBelow_refusedFor inner
  | .collect _ | .accumulate _ =>
    rw [aliasesInside]
    exact .ok []

end

mutual

theorem innerStages_refusedFor (columns : Aggregation) {grouping needed produced : List String} :
    scope.RefusedFor (allColumns columns)
      (scope.innerStages grouping needed produced columns) := by
  match columns with
  | [] =>
    rw [innerStages]
    exact .ok []
  | (field, aggregate) :: columns =>
    rw [innerStages]
    refine (columnStages_refusedFor aggregate ?_ (columnsInside_subset_allColumns field aggregate
      columns) ?_).bind fun stages => ?_
    · exact columns_subset_allColumns _ List.mem_cons_self
    · exact (aliasesBelow_refusedFor columns).mono (allColumns_subset_cons _ columns)
    · exact ((innerStages_refusedFor columns).mono (allColumns_subset_cons _ columns)).bind
        fun others => .ok _

/-- The level inside a column is rejected for the column, for a column inside it, or for one of
those after it, whose aliases are looked up too. -/
theorem columnStages_refusedFor (aggregate : Aggregate) {field : String}
    {grouping needed : List String} {later : Except Rejection (List String)}
    {columns : List (String × Aggregate)} (hcolumn : (field, aggregate) ∈ columns)
    (hinside : columnsInside aggregate ⊆ columns) (hlater : scope.RefusedFor columns later) :
    scope.RefusedFor columns (scope.columnStages field grouping needed later aggregate) := by
  match aggregate with
  | .rollUp collection inner =>
    rw [columnStages]
    rw [columnsInside] at hinside
    refine ((resolve_refusedFor _).mono (List.cons_subset.mpr ⟨hcolumn, List.nil_subset _⟩)).bind
      fun node => hlater.bind fun below => ?_
    exact (levelStages_refusedFor fun aliases => innerStages_refusedFor inner).mono hinside
  | .collect _ | .accumulate _ =>
    rw [columnStages]
    exact .ok []

end

/-- A plan is rejected for a fault of a column. -/
theorem plan_refusedFor (columns : Aggregation) :
    scope.RefusedFor (allColumns columns) (scope.plan columns) := by
  rw [plan]
  split
  · exact (levelStages_refusedFor fun aliases => innerStages_refusedFor columns).bind
      fun stages => .ok _
  · exact ((RefusedFor.mapM columnOf_refusedFor columns).mono
      (columns_subset_allColumns columns)).bind fun own => .ok _

/-! ## 5.  Plans -/

mutual

theorem innerFrames_columns (aliases computed : List String) (columns : Aggregation) :
    (scope.innerFrames aliases computed columns).flatMap Frame.columns = innerColumns columns := by
  match columns with
  | [] => rw [innerFrames, innerColumns, List.flatMap_nil]
  | (field, aggregate) :: columns =>
    rw [innerFrames, innerColumns, List.flatMap_append, columnFrames_columns,
      innerFrames_columns]

theorem columnFrames_columns (aliases computed : List String) (aggregate : Aggregate) :
    (scope.columnFrames aliases computed aggregate).flatMap Frame.columns =
      columnsInside aggregate := by
  match aggregate with
  | .rollUp _ inner =>
    rw [columnFrames, columnsInside, List.flatMap_append, List.flatMap_singleton,
      innerFrames_columns]
  | .collect _ | .accumulate _ => rw [columnFrames, columnsInside, List.flatMap_nil]

end

/-- Every column, at any depth, is a column of the frame of its level. -/
theorem frames_columns (scope : Scope) (columns : Aggregation) :
    (scope.frames columns).flatMap Frame.columns = allColumns columns := by
  rw [frames, allColumns, List.flatMap_append, List.flatMap_singleton, innerFrames_columns]

/-- The stages of a plan compute the columns of the aggregation, one after the other, which are
all admitted. -/
theorem plan_computes {columns : Aggregation} {plan : Plan} (h : scope.plan columns = .ok plan) :
    (∀ column ∈ allColumns columns, scope.Admits column) ∧
      List.Forall₂ scope.Computes (allColumns columns) (plan.stages.flatMap Stage.columns) := by
  rw [← List.forall₂_and_left, ← scope.frames_columns]
  have hframes := plan_frames h
  generalize scope.frames columns = frames, plan.stages = stages at hframes
  induction hframes with
  | nil => exact .nil
  | cons hframe _ ih =>
    rw [List.flatMap_cons, List.flatMap_cons]
    exact List.rel_append ((Results.mapM_eq_ok.mp hframe.columns).imp fun _ _ => columnOf_computes)
      ih

/-- An aggregation has a plan exactly when every column, at any depth, reads a declared alias and
has a window that ends at a 64-bit number.  The stages of a plan then compute every column, in
order, and slice what it collects by its window; and what is rejected is rejected for a column that
is at fault, and shows that column's fault. -/
theorem plan_eq_ok_iff (scope : Scope) (columns : Aggregation) :
    ((∃ plan, scope.plan columns = .ok plan) ↔ ∀ column ∈ allColumns columns, scope.Admits column) ∧
      (∀ plan, scope.plan columns = .ok plan →
        List.Forall₂ scope.Computes (allColumns columns) (plan.stages.flatMap Stage.columns)) ∧
      ∀ rejection, scope.plan columns = .error rejection →
        ∃ column ∈ allColumns columns, scope.Refuses column rejection := by
  refine ⟨⟨?_, fun hadmits => ?_⟩, fun plan hplan => (plan_computes hplan).2,
    plan_refusedFor columns⟩
  · rintro ⟨plan, hplan⟩
    exact (plan_computes hplan).1
  · cases hplan : scope.plan columns with
    | ok plan => exact ⟨plan, rfl⟩
    | error rejection =>
      obtain ⟨column, hcolumn, hrefuses⟩ := plan_refusedFor columns rejection hplan
      exact absurd (hadmits column hcolumn) hrefuses.not_admits

/-- A window inside a column, that fits in one aggregation and ends one too far in the other. -/
theorem plan_eq_ok_iff_windows :
    let scope : Scope := ⟨{}, [("a", "record1"), ("b", "record2")]⟩
    let columns := fun (skip limit : Option Nat) => [("x", Aggregate.rollUp
      ⟨"a", none, true, none, none, none⟩ [("n", .collect ⟨"b", none, true, limit, skip, none⟩)])]
    (∃ plan, scope.plan (columns (some (Nat.pow 2 64 - 101)) none) = .ok plan ∧
        List.Forall₂ scope.Computes (allColumns (columns (some (Nat.pow 2 64 - 101)) none))
          (plan.stages.flatMap Stage.columns)) ∧
      ∃ rejection, scope.plan (columns (some (Nat.pow 2 64 - 1)) (some 1)) = .error rejection ∧
        ∃ column ∈ allColumns (columns (some (Nat.pow 2 64 - 1)) (some 1)),
          scope.Refuses column rejection := by
  intro scope columns
  obtain ⟨plan, hplan⟩ := Results.exists_eq_ok
    (show (scope.plan (columns (some (Nat.pow 2 64 - 101)) none)).isOk = true by decide +kernel)
  have hrejected : scope.plan (columns (some (Nat.pow 2 64 - 1)) (some 1)) =
      .error (scope.overflow "n" ⟨"b", none, true, some 1, some (Nat.pow 2 64 - 1), none⟩) := by
    decide +kernel
  exact ⟨⟨plan, hplan, (plan_eq_ok_iff scope _).2.1 plan hplan⟩,
    _, hrejected, (plan_eq_ok_iff scope _).2.2 _ hrejected⟩

end Scope
end Aggregate
end GraphSearch
