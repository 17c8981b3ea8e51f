import GraphSearch.Proofs.Aggregate.Liveness
/-!
# What stages carry

A stage carries two kinds of variables: aliases of the query, and columns that earlier stages
computed.  `Scope.frames` says for each level of an aggregation which they are, by plain
recursion over the columns and without the results that may be missing on the way:

* the root, the aliases that the levels around it read, and the aliases that columns after it
  on the way down read, at any depth;
* the columns inside the columns before it on the way down.

* `plan_frames`: every stage of a plan belongs to the frame in its place, and carries exactly
  the aliases and columns of the frame, none of them twice;
* `frames_traced`: the columns a frame carries are columns of frames before it;
* `frames_aliases`: and its aliases are the root's or read by a column.
-/

namespace GraphSearch.Aggregate

/-- A level with what its stage carries: aliases, and columns computed by earlier stages. -/
structure Frame where
  aliases : List String
  computed : List String
  columns : Aggregation

/-- The stage computes the columns of the frame and carries what the frame says, in some order
but nothing twice. -/
structure Frame.IsComputedBy (frame : Frame) (scope : Scope) (stage : Stage) : Prop where
  carried : ∀ x, x ∈ stage.carried ↔ x ∈ frame.aliases ∨ x ∈ frame.computed
  nodup : stage.carried.Nodup
  columns : frame.columns.mapM scope.columnOf = .ok stage.columns

theorem Frame.IsComputedBy.fields {frame : Frame} {scope : Scope} {stage : Stage}
    (h : frame.IsComputedBy scope stage) : stage.fields = Scope.fieldsOf frame.columns :=
  (Scope.stage_of_columns stage.carried h.columns).1

namespace Scope

/-! ## 1.  Frames -/

section

variable (scope : Scope)

mutual

/-- The frames of the levels inside a level, given the aliases that are carried through all of
them and the columns carried so far. -/
def innerFrames (aliases computed : List String) : Aggregation → List Frame
  | [] => []
  | (_, aggregate) :: columns =>
    columnFrames (aliases ++ scope.nodesBelow columns) computed aggregate
      ++ innerFrames aliases (computed ++ fieldsInside aggregate) columns

/-- The frames of the levels inside a column. -/
def columnFrames (aliases computed : List String) : Aggregate → List Frame
  | .rollUp _ inner =>
    innerFrames (aliases ++ scope.nodesOf inner) computed inner ++ [⟨aliases, computed, inner⟩]
  | .collect _ | .accumulate _ => []

end

/-- The frames of an aggregation, the outermost last. -/
def frames (columns : Aggregation) : List Frame :=
  scope.innerFrames ([scope.options.rootAlias] ++ scope.nodesOf columns) [] columns
    ++ [⟨[scope.options.rootAlias], [], columns⟩]

end

variable {scope : Scope}

/-! ## 2.  Stages and frames -/

/-- The stage of a level is that of its frame when those inside it are. -/
theorem levelStages_frames {columns : Aggregation} {grouping carry aliases computed : List String}
    {inside : List String → Except Rejection (List Stage)} {frames : List Frame}
    {stages : List Stage}
    (hcarried : ∀ x, x ∈ grouping ++ carry ↔ x ∈ aliases ∨ x ∈ computed)
    (h : scope.levelStages columns grouping carry inside = .ok stages)
    (hinside : ∀ {before}, inside (scope.nodesOf columns) = .ok before →
      List.Forall₂ (fun frame stage => Frame.IsComputedBy frame scope stage) frames before) :
    List.Forall₂ (fun frame stage => Frame.IsComputedBy frame scope stage)
      (frames ++ [⟨aliases, computed, columns⟩]) stages := by
  obtain ⟨nodes, before, own, hnodes, hbefore, hown, rfl⟩ := levelStages_eq_ok.mp h
  rw [nodesOf_eq hnodes] at hbefore
  refine List.rel_append (hinside hbefore) (.cons ⟨fun x => ?_, nodup_eraseDups _, hown⟩ .nil)
  rw [List.mem_eraseDups]
  exact hcarried x

mutual

/-- The stages inside a level are those of its frames; what they carry are the way down to the
level, what is needed after it and the columns its inner stages computed so far. -/
theorem innerStages_frames (columns : Aggregation)
    {grouping needed produced aliases computed : List String} {stages : List Stage}
    (hcarried : ∀ x, x ∈ grouping ++ (needed ++ produced) ↔ x ∈ aliases ∨ x ∈ computed)
    (hnodes : scope.nodesOf columns ⊆ aliases)
    (h : scope.innerStages grouping needed produced columns = .ok stages) :
    List.Forall₂ (fun frame stage => Frame.IsComputedBy frame scope stage)
      (scope.innerFrames aliases computed columns) stages := by
  match columns with
  | [] =>
    rw [innerStages] at h
    cases h
    rw [innerFrames]
    exact .nil
  | (field, aggregate) :: columns =>
    obtain ⟨inside, others, hinside, hothers, rfl⟩ := innerStages_cons_eq_ok.mp h
    rw [nodesOf_cons, List.append_subset] at hnodes
    rw [innerFrames]
    refine List.rel_append (columnStages_frames aggregate hcarried hnodes.1
      (fun below => aliasesBelow_eq columns) hinside) (innerStages_frames columns ?_ hnodes.2
        hothers)
    intro x
    rw [← List.append_assoc, ← List.append_assoc, List.mem_append, List.append_assoc, hcarried x,
      List.mem_append, or_assoc]

/-- The stages inside a column are those of its frames; `below` are the aliases of the columns
after it. -/
theorem columnStages_frames (aggregate : Aggregate)
    {grouping needed below aliases computed : List String} {field : String}
    {later : Except Rejection (List String)} {stages : List Stage}
    (hcarried : ∀ x, x ∈ grouping ++ needed ↔ x ∈ aliases ∨ x ∈ computed)
    (hnode : (scope.nodeOf? (field, aggregate)).toList ⊆ aliases)
    (hlater : ∀ l, later = .ok l → l = below)
    (h : scope.columnStages field grouping needed later aggregate = .ok stages) :
    List.Forall₂ (fun frame stage => Frame.IsComputedBy frame scope stage)
      (scope.columnFrames (aliases ++ below) computed aggregate) stages := by
  match aggregate with
  | .rollUp collection inner =>
    obtain ⟨node, found, hfound, hbelow, hlevel⟩ := columnStages_rollUp_eq_ok.mp h
    obtain rfl := hlater found hbelow
    rw [hfound, Option.toList_some, List.cons_subset] at hnode
    have hframe : ∀ x, x ∈ (grouping ++ [node]).eraseDups ++ (needed ++ found).eraseDups ↔
        x ∈ aliases ++ found ∨ x ∈ computed := by
      intro x
      have hx := hcarried x
      have hxnode : x = node → x ∈ aliases := fun hx => hx ▸ hnode.1
      simp only [List.mem_append, List.mem_eraseDups, List.mem_singleton] at hx ⊢
      tauto
    rw [columnFrames]
    refine levelStages_frames hframe hlevel fun {before} hbefore => ?_
    refine innerStages_frames inner (fun x => ?_) (List.subset_append_right _ _) hbefore
    rw [List.append_nil, ← List.append_assoc, List.mem_append, hframe x, List.mem_append
      (s := aliases ++ found)]
    tauto
  | .collect _ | .accumulate _ =>
    rw [columnStages] at h
    cases h
    rw [columnFrames]
    exact .nil

end

theorem isNested_cons {column : String × Aggregate} {columns : Aggregation} :
    Aggregation.isNested (column :: columns) = false ↔
      column.2.isRollUp = false ∧ columns.isNested = false := by
  rw [Aggregation.isNested, List.any_cons, Bool.or_eq_false_iff]
  rfl

/-- Without inner columns there is nothing inside a level. -/
theorem innerFrames_of_flat {columns : Aggregation} (aliases computed : List String)
    (h : columns.isNested = false) : scope.innerFrames aliases computed columns = [] := by
  induction columns generalizing computed with
  | nil => rw [innerFrames]
  | cons column columns ih =>
    obtain ⟨field, aggregate⟩ := column
    obtain ⟨hcolumn, hcolumns⟩ := isNested_cons.mp h
    rw [innerFrames, ih _ hcolumns, List.append_nil]
    cases aggregate with
    | rollUp collection inner => cases hcolumn
    | collect _ | accumulate _ => rw [columnFrames]

/-- The stages of a nested plan are those of the frames of the aggregation. -/
theorem nestedPlan_frames {columns : Aggregation} {plan : Plan}
    (h : scope.nestedPlan columns = .ok plan) :
    List.Forall₂ (fun frame stage => Frame.IsComputedBy frame scope stage)
      (scope.frames columns) plan.stages := by
  simp only [nestedPlan, Results.bind_eq_ok, Results.pure_eq_ok] at h
  obtain ⟨stages, hstages, rfl⟩ := h
  refine levelStages_frames (fun x => by rw [List.append_nil]; simp) hstages fun {before} hbefore =>
    innerStages_frames columns (fun x => ?_) (List.subset_append_right _ _) hbefore
  simp

/-- The stages of a plan are those of the frames of the aggregation. -/
theorem plan_frames {columns : Aggregation} {plan : Plan} (h : scope.plan columns = .ok plan) :
    List.Forall₂ (fun frame stage => Frame.IsComputedBy frame scope stage)
      (scope.frames columns) plan.stages := by
  rw [Scope.plan] at h
  split at h
  case isTrue => exact nestedPlan_frames h
  case isFalse hflat =>
    simp only [flatPlan, Results.bind_eq_ok, Results.pure_eq_ok] at h
    obtain ⟨own, hown, rfl⟩ := h
    rw [frames, innerFrames_of_flat _ _ (Bool.not_eq_true _ ▸ hflat), List.nil_append]
    exact .cons ⟨fun x => by simp, List.pairwise_singleton _ _, hown⟩ .nil

/-! ## 3.  What frames carry -/

mutual

/-- The aliases of the frames inside a level are those carried through all of them, or read
below it. -/
theorem innerFrames_aliases (columns : Aggregation) {aliases computed : List String}
    {frame : Frame} (h : frame ∈ scope.innerFrames aliases computed columns) :
    frame.aliases ⊆ aliases ++ scope.nodesBelow columns := by
  match columns with
  | [] =>
    rw [innerFrames] at h
    exact absurd h List.not_mem_nil
  | (field, aggregate) :: columns =>
    rw [innerFrames] at h
    rw [nodesBelow]
    intro x hx
    simp only [List.mem_append]
    rcases List.mem_append.mp h with h | h
    · have hinside := columnFrames_aliases aggregate h hx
      simp only [List.mem_append] at hinside
      tauto
    · have hothers := innerFrames_aliases columns h hx
      rw [List.mem_append] at hothers
      tauto

theorem columnFrames_aliases (aggregate : Aggregate) {aliases computed : List String}
    {frame : Frame} (h : frame ∈ scope.columnFrames aliases computed aggregate) :
    frame.aliases ⊆ aliases ++ scope.nodesInside aggregate := by
  match aggregate with
  | .rollUp _ inner =>
    rw [columnFrames] at h
    rw [nodesInside]
    rcases List.mem_append.mp h with h | h
    · intro x hx
      have hinner := innerFrames_aliases inner h hx
      simp only [List.mem_append] at hinner ⊢
      rcases hinner with (hx | hx) | hx
      · exact Or.inl hx
      · exact Or.inr (nodesOf_subset_nodesBelow inner hx)
      · exact Or.inr hx
    · rw [List.mem_singleton] at h
      rw [h]
      exact List.subset_append_left _ _
  | .collect _ | .accumulate _ =>
    rw [columnFrames] at h
    exact absurd h List.not_mem_nil

end

/-- The aliases of a frame are the root's or read by a column of the aggregation. -/
theorem frames_aliases {columns : Aggregation} {frame : Frame} (h : frame ∈ scope.frames columns) :
    frame.aliases ⊆ scope.options.rootAlias :: scope.nodesBelow columns := by
  rw [frames] at h
  rcases List.mem_append.mp h with h | h
  · intro x hx
    have hinner := innerFrames_aliases columns h hx
    simp only [List.mem_append, List.mem_singleton] at hinner
    rcases hinner with (rfl | hx) | hx
    · exact List.mem_cons_self
    · exact List.mem_cons_of_mem _ (nodesOf_subset_nodesBelow columns hx)
    · exact List.mem_cons_of_mem _ hx
  · rw [List.mem_singleton] at h
    rw [h]
    exact List.cons_subset_cons _ (List.nil_subset _)

/-- The columns that a frame carries are among `earlier` or columns of frames before it. -/
def Traced (earlier : List String) : List Frame → Prop
  | [] => True
  | frame :: frames =>
    frame.computed ⊆ earlier ∧ Traced (earlier ++ fieldsOf frame.columns) frames

/-- The columns of the frames of a list. -/
def columnsOf (frames : List Frame) : List String :=
  frames.flatMap fun frame => fieldsOf frame.columns

theorem Traced.append {earlier : List String} {frames others : List Frame}
    (h : Traced earlier frames) (hothers : Traced (earlier ++ columnsOf frames) others) :
    Traced earlier (frames ++ others) := by
  induction frames generalizing earlier with
  | nil => simpa [columnsOf] using hothers
  | cons frame frames ih =>
    refine ⟨h.1, ih h.2 ?_⟩
    rw [List.append_assoc]
    exact hothers

mutual

/-- The columns carried inside a level were computed inside it when those carried to it were. -/
theorem innerFrames_traced (columns : Aggregation) {aliases computed earlier : List String}
    (hcomputed : computed ⊆ earlier) :
    Traced earlier (scope.innerFrames aliases computed columns) := by
  match columns with
  | [] =>
    rw [innerFrames]
    trivial
  | (field, aggregate) :: columns =>
    rw [innerFrames]
    obtain ⟨htraced, hinside⟩ := columnFrames_traced aggregate hcomputed
    refine htraced.append (innerFrames_traced columns ?_)
    exact List.append_subset.mpr
      ⟨List.Subset.trans hcomputed (List.subset_append_left _ _),
        List.Subset.trans hinside (List.subset_append_right _ _)⟩

/-- So were those inside a column, whose own inner columns are then computed too. -/
theorem columnFrames_traced (aggregate : Aggregate) {aliases computed earlier : List String}
    (hcomputed : computed ⊆ earlier) :
    Traced earlier (scope.columnFrames aliases computed aggregate) ∧
      fieldsInside aggregate ⊆ columnsOf (scope.columnFrames aliases computed aggregate) := by
  match aggregate with
  | .rollUp _ inner =>
    rw [columnFrames]
    refine ⟨(innerFrames_traced inner hcomputed).append ⟨?_, trivial⟩, ?_⟩
    · exact List.Subset.trans hcomputed (List.subset_append_left _ _)
    · rw [columnsOf, List.flatMap_append, List.flatMap_singleton]
      exact List.subset_append_right _ _
  | .collect _ | .accumulate _ =>
    rw [columnFrames]
    exact ⟨trivial, List.nil_subset _⟩

end

/-- What frames carry besides aliases are columns of frames before them. -/
theorem frames_traced (columns : Aggregation) : Traced [] (scope.frames columns) := by
  rw [frames]
  exact (innerFrames_traced columns (List.nil_subset _)).append ⟨List.nil_subset _, trivial⟩

/-- The frame of a stage, when the stages are those of the frames in their places. -/
theorem Traced.frame_of_stage {earlier : List String} {frames : List Frame} {stages : List Stage}
    (htraced : Traced earlier frames)
    (h : List.Forall₂ (fun frame stage => Frame.IsComputedBy frame scope stage) frames stages)
    {before after : List Stage} {stage : Stage} (hstages : stages = before ++ stage :: after) :
    ∃ frame ∈ frames, frame.IsComputedBy scope stage ∧
      frame.computed ⊆ earlier ++ before.flatMap Stage.fields := by
  induction h generalizing earlier before with
  | nil => simp at hstages
  | @cons frame first frames stages hfirst _ ih =>
    cases before with
    | nil =>
      rw [List.nil_append, List.cons.injEq] at hstages
      obtain ⟨rfl, -⟩ := hstages
      refine ⟨frame, List.mem_cons_self, hfirst, ?_⟩
      exact List.Subset.trans htraced.1 (List.subset_append_left _ _)
    | cons _ before =>
      rw [List.cons_append, List.cons.injEq] at hstages
      obtain ⟨rfl, hstages⟩ := hstages
      obtain ⟨found, hfound, hstage, hcomputed⟩ := ih htraced.2 hstages
      refine ⟨found, List.mem_cons_of_mem _ hfound, hstage, ?_⟩
      rw [List.flatMap_cons, hfirst.fields, ← List.append_assoc]
      exact hcomputed

end Scope
end GraphSearch.Aggregate
