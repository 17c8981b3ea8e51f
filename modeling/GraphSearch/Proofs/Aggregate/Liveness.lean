import Mathlib.Data.List.Forall2
import GraphSearch.Aggregate.Plan
import GraphSearch.Proofs.FirstOccurrences
import GraphSearch.Proofs.Results
/-!
# Variables are there when they are read

The stages of a nested aggregation are run one after the other on a scope, the set of variables
that are there.  A stage reads variables of the scope it is run in and leaves one that consists
of what it carries and of its own columns, and nothing else.

`Live` runs stages in that way against the levels they belong to (`Scope.levels`) and asks of
each that it finds what it reads, is grouped by the aliases on the way down to its level, and
carries nothing twice and nothing that is of no further use.  The main result is that a plan is
live in the scope of all aliases the aggregation reads (`nestedPlan_live`).

The invariant of the recursion is `Scope.Ready`.  Between two inner stages of a level the scope
holds the way down to it, what is needed after it, the columns its inner stages computed so far
and the aliases of its columns still to come; and what the stages carry is there for a reason,
computed earlier or read later (`Scope.Held`).  That an alias of a later column is read later
needs the stages after the present one, so they are fixed before it is looked at
(`nodesBelow_subset`).
-/

namespace GraphSearch.Aggregate

/-! ## 1.  Running stages -/

namespace Stage

/-- The aliases a stage aggregates over. -/
def nodes (stage : Stage) : List String := stage.columns.map fun column => column.expr.node

/-- The inner columns a stage hands on. -/
def inner (stage : Stage) : List String := stage.columns.flatMap fun column => column.expr.inner

/-- The names of the columns of a stage. -/
def fields (stage : Stage) : List String := stage.columns.map Column.field

/-- The variables after a stage. -/
def scopeAfter (stage : Stage) : List String := stage.carried ++ stage.fields

end Stage

/-- The variables after some stages. -/
def runScope : List String → List Stage → List String
  | scope, [] => scope
  | _, stage :: stages => runScope stage.scopeAfter stages

@[simp] theorem runScope_nil (scope : List String) : runScope scope [] = scope := rfl

@[simp] theorem runScope_append (scope : List String) (stages others : List Stage) :
    runScope scope (stages ++ others) = runScope (runScope scope stages) others := by
  induction stages generalizing scope with
  | nil => rfl
  | cons stage stages ih => exact ih stage.scopeAfter

/-- A level of an aggregation: the aliases on the way down to it, the root first, and its
columns. -/
structure Level where
  path : List String
  columns : Aggregation

/-- What is asked of a stage: `produced` are the columns of earlier stages and `pending` the
aliases that later ones aggregate over. -/
structure Stage.IsLive (stage : Stage) (level : Level) (scope produced pending : List String) :
    Prop where
  fields : stage.fields = Scope.fieldsOf level.columns
  carried : stage.carried ⊆ scope
  nodes : stage.nodes ⊆ scope
  inner : stage.inner ⊆ scope
  nodup : stage.carried.Nodup
  path : level.path.eraseDups <+: stage.carried
  warranted : ∀ x ∈ stage.carried, x ∈ level.path ∨ x ∈ produced ∨ x ∈ pending

/-- The stages are run one after the other, each for the level in its place; `pending` are the
aliases that are read after the last of them. -/
def Live (scope produced pending : List String) : List Level → List Stage → Prop
  | [], [] => True
  | level :: levels, stage :: stages =>
    stage.IsLive level scope produced (stages.flatMap Stage.nodes ++ pending) ∧
      Live stage.scopeAfter (produced ++ stage.fields) pending levels stages
  | [], _ :: _ => False
  | _ :: _, [] => False

/-- What is read by the stages after some is pending while these are run. -/
theorem Live.append {scope produced pending : List String} {levels levels' : List Level}
    {stages stages' : List Stage}
    (h : Live scope produced (stages'.flatMap Stage.nodes ++ pending) levels stages)
    (h' : Live (runScope scope stages) (produced ++ stages.flatMap Stage.fields) pending
      levels' stages') :
    Live scope produced pending (levels ++ levels') (stages ++ stages') := by
  induction stages generalizing scope produced levels with
  | nil =>
    cases levels with
    | nil => simpa using h'
    | cons level levels => exact h.elim
  | cons stage stages ih =>
    cases levels with
    | nil => exact h.elim
    | cons level levels =>
      obtain ⟨hstage, hstages⟩ := h
      refine ⟨?_, ih hstages ?_⟩
      · have hpending : (stages ++ stages').flatMap Stage.nodes ++ pending
            = stages.flatMap Stage.nodes ++ (stages'.flatMap Stage.nodes ++ pending) := by
          rw [List.flatMap_append, List.append_assoc]
        show stage.IsLive level scope produced ((stages ++ stages').flatMap Stage.nodes ++ pending)
        rw [hpending]
        exact hstage
      · rw [List.append_assoc]
        exact h'

theorem live_singleton {stage : Stage} {level : Level} {scope produced pending : List String}
    (h : stage.IsLive level scope produced pending) :
    Live scope produced pending [level] [stage] :=
  ⟨h, trivial⟩

/-! ## 2.  Levels -/

namespace Scope

variable (scope : Scope)

/-- The alias a column reads, when its name is declared. -/
def nodeOf? (column : String × Aggregate) : Option String :=
  Table.find? column.2.source scope.bindings

/-- The aliases that the columns of a level read. -/
def nodesOf (columns : Aggregation) : List String := columns.filterMap scope.nodeOf?

mutual

/-- The aliases that columns read, at any depth. -/
def nodesBelow : Aggregation → List String
  | [] => []
  | (field, aggregate) :: columns =>
    (scope.nodeOf? (field, aggregate)).toList ++ nodesInside aggregate ++ nodesBelow columns

/-- The aliases that the inner columns of a column read, at any depth. -/
def nodesInside : Aggregate → List String
  | .rollUp _ inner => nodesBelow inner
  | .collect _ | .accumulate _ => []

end

mutual

/-- The levels inside a level, given the way down to it; what is inside a level comes before
it. -/
def innerLevels (path : List String) : Aggregation → List Level
  | [] => []
  | (field, aggregate) :: columns =>
    columnLevels (path ++ (scope.nodeOf? (field, aggregate)).toList) aggregate
      ++ innerLevels path columns

/-- The levels inside a column, given the way down to its inner columns. -/
def columnLevels (down : List String) : Aggregate → List Level
  | .rollUp _ inner => innerLevels down inner ++ [⟨down, inner⟩]
  | .collect _ | .accumulate _ => []

end

/-- The levels of an aggregation, the outermost last. -/
def levels (columns : Aggregation) : List Level :=
  scope.innerLevels [scope.options.rootAlias] columns
    ++ [⟨[scope.options.rootAlias], columns⟩]

/-- The columns of the levels right inside a level. -/
def innerFields (columns : Aggregation) : List String :=
  columns.flatMap fun column => fieldsInside column.2

/-! ## 3.  What compiles -/

variable {scope} {columns : Aggregation}

theorem resolve_eq_ok {column : String × Aggregate} {node : String} :
    scope.resolve column = .ok node ↔ scope.nodeOf? column = some node := by
  rw [resolve, nodeOf?]
  cases Table.find? column.2.source scope.bindings with
  | none => simp
  | some found => simp

theorem nodesOf_cons (column : String × Aggregate) (columns : Aggregation) :
    scope.nodesOf (column :: columns) = (scope.nodeOf? column).toList ++ scope.nodesOf columns := by
  rw [nodesOf, nodesOf, List.filterMap_cons]
  cases scope.nodeOf? column <;> rfl

theorem nodesOf_eq {aliases : List String} (h : columns.mapM scope.resolve = .ok aliases) :
    aliases = scope.nodesOf columns := by
  rw [Results.mapM_eq_ok] at h
  induction h with
  | nil => rfl
  | cons hnode _ ih =>
    rw [nodesOf_cons, resolve_eq_ok.mp hnode, ← ih]
    rfl

mutual

theorem aliasesBelow_eq (columns : Aggregation) {below : List String}
    (h : scope.aliasesBelow columns = .ok below) : below = scope.nodesBelow columns := by
  match columns with
  | [] =>
    rw [aliasesBelow] at h
    cases h
    rw [nodesBelow]
  | (field, aggregate) :: columns =>
    simp only [aliasesBelow, Results.bind_eq_ok, Results.pure_eq_ok, resolve_eq_ok] at h
    obtain ⟨node, hnode, below, hbelow, others, hothers, rfl⟩ := h
    rw [nodesBelow, hnode, aliasesInside_eq aggregate hbelow, aliasesBelow_eq columns hothers]
    rfl

theorem aliasesInside_eq (aggregate : Aggregate) {below : List String}
    (h : scope.aliasesInside aggregate = .ok below) : below = scope.nodesInside aggregate := by
  match aggregate with
  | .rollUp _ inner =>
    rw [aliasesInside] at h
    rw [nodesInside]
    exact aliasesBelow_eq inner h
  | .collect _ | .accumulate _ =>
    rw [aliasesInside] at h
    cases h
    rw [nodesInside]

end

theorem collected_eq_ok {column node : String} {collection : Collection} {inner : List String}
    {expr : ColumnExpr} (h : scope.collected column node collection inner = .ok expr) :
    expr.node = node ∧ expr.inner ⊆ inner := by
  simp only [collected, Results.bind_eq_ok] at h
  obtain ⟨window, -, h⟩ := h
  split at h
  · obtain rfl := Results.pure_eq_ok.mp h
    exact ⟨rfl, List.nil_subset _⟩
  · obtain rfl := Results.pure_eq_ok.mp h
    exact ⟨rfl, List.Subset.refl _⟩

/-- A column that compiles has its name, aggregates over the alias it reads, and hands on inner
columns of its own. -/
theorem columnOf_eq_ok {column : String × Aggregate} {compiled : Column}
    (h : scope.columnOf column = .ok compiled) :
    compiled.field = column.1 ∧ scope.nodeOf? column = some compiled.expr.node ∧
      compiled.expr.inner ⊆ fieldsInside column.2 := by
  obtain ⟨field, aggregate⟩ := column
  rw [columnOf, Results.bind_eq_ok] at h
  obtain ⟨node, hnode, h⟩ := h
  rw [resolve_eq_ok] at hnode
  cases aggregate with
  | accumulate accumulation =>
    obtain ⟨expr, hexpr, hcolumn⟩ := Results.bind_eq_ok.mp h
    obtain rfl := Results.pure_eq_ok.mp hexpr
    obtain rfl := Results.pure_eq_ok.mp hcolumn
    exact ⟨rfl, hnode, List.nil_subset _⟩
  | collect collection =>
    obtain ⟨expr, hexpr, hcolumn⟩ := Results.bind_eq_ok.mp h
    obtain ⟨rfl, hinner⟩ := collected_eq_ok hexpr
    obtain rfl := Results.pure_eq_ok.mp hcolumn
    exact ⟨rfl, hnode, hinner⟩
  | rollUp collection inner =>
    obtain ⟨expr, hexpr, hcolumn⟩ := Results.bind_eq_ok.mp h
    obtain ⟨rfl, hinner⟩ := collected_eq_ok hexpr
    obtain rfl := Results.pure_eq_ok.mp hcolumn
    exact ⟨rfl, hnode, hinner⟩

theorem nodesOf_subset_nodesBelow (columns : Aggregation) :
    scope.nodesOf columns ⊆ scope.nodesBelow columns := by
  induction columns with
  | nil => exact List.nil_subset _
  | cons column columns ih =>
    obtain ⟨field, aggregate⟩ := column
    rw [nodesOf_cons, nodesBelow, List.append_assoc]
    exact List.append_subset.mpr ⟨List.subset_append_left _ _,
      List.Subset.trans ih (List.Subset.trans (List.subset_append_right _ _)
        (List.subset_append_right _ _))⟩

/-- The stage of a level computes its columns, over the aliases they read. -/
theorem stage_of_columns (carried : List String) {own : List Column}
    (h : columns.mapM scope.columnOf = .ok own) :
    (Stage.mk carried own).fields = fieldsOf columns ∧
      (Stage.mk carried own).nodes = scope.nodesOf columns ∧
      (Stage.mk carried own).inner ⊆ innerFields columns := by
  rw [Results.mapM_eq_ok] at h
  induction h with
  | nil => exact ⟨rfl, rfl, List.nil_subset _⟩
  | @cons column compiled columns own hcolumn _ ih =>
    obtain ⟨hfield, hnode, hinner⟩ := columnOf_eq_ok hcolumn
    obtain ⟨hfields, hnodes, hinners⟩ := ih
    refine ⟨?_, ?_, ?_⟩
    · show compiled.field :: (Stage.mk carried own).fields = column.1 :: fieldsOf columns
      rw [hfield, hfields]
    · rw [nodesOf_cons, hnode, ← hnodes]
      rfl
    · show compiled.expr.inner ++ (Stage.mk carried own).inner
        ⊆ fieldsInside column.2 ++ innerFields columns
      exact List.append_subset.mpr ⟨List.Subset.trans hinner (List.subset_append_left _ _),
        List.Subset.trans hinners (List.subset_append_right _ _)⟩

theorem levelStages_eq_ok {grouping carry : List String}
    {inside : List String → Except Rejection (List Stage)} {stages : List Stage} :
    scope.levelStages columns grouping carry inside = .ok stages ↔
      ∃ aliases before own, columns.mapM scope.resolve = .ok aliases ∧
        inside aliases = .ok before ∧ columns.mapM scope.columnOf = .ok own ∧
        stages = before ++ [{ carried := (grouping ++ carry).eraseDups, columns := own }] := by
  simp only [levelStages, Results.bind_eq_ok, Results.pure_eq_ok]
  constructor
  · rintro ⟨aliases, haliases, before, hbefore, own, hown, rfl⟩
    exact ⟨aliases, before, own, haliases, hbefore, hown, rfl⟩
  · rintro ⟨aliases, before, own, haliases, hbefore, hown, rfl⟩
    exact ⟨aliases, haliases, before, hbefore, own, hown, rfl⟩

end Scope

/-! ## 4.  The recursion over levels -/

namespace Scope

variable {scope : Scope}

theorem innerStages_cons_eq_ok {grouping needed produced : List String} {field : String}
    {aggregate : Aggregate} {columns : Aggregation} {stages : List Stage} :
    scope.innerStages grouping needed produced ((field, aggregate) :: columns) = .ok stages ↔
      ∃ inside others,
        scope.columnStages field grouping (needed ++ produced) (scope.aliasesBelow columns)
          aggregate = .ok inside ∧
        scope.innerStages grouping needed (produced ++ fieldsInside aggregate) columns
          = .ok others ∧
        stages = inside ++ others := by
  simp only [innerStages, Results.bind_eq_ok, Results.pure_eq_ok]
  constructor
  · rintro ⟨inside, hinside, others, hothers, rfl⟩
    exact ⟨inside, others, hinside, hothers, rfl⟩
  · rintro ⟨inside, others, hinside, hothers, rfl⟩
    exact ⟨inside, hinside, others, hothers, rfl⟩

theorem columnStages_rollUp_eq_ok {grouping needed : List String} {field : String}
    {later : Except Rejection (List String)} {collection : Collection} {inner : Aggregation}
    {stages : List Stage} :
    scope.columnStages field grouping needed later (.rollUp collection inner) = .ok stages ↔
      ∃ node below, scope.nodeOf? (field, .rollUp collection inner) = some node ∧
        later = .ok below ∧
        scope.levelStages inner (grouping ++ [node]).eraseDups (needed ++ below).eraseDups
          (fun aliases => scope.innerStages (grouping ++ [node]).eraseDups
            ((needed ++ below).eraseDups ++ aliases) [] inner) = .ok stages := by
  simp only [columnStages, Results.bind_eq_ok, resolve_eq_ok]
  constructor
  · rintro ⟨node, hnode, below, hbelow, hstages⟩
    exact ⟨node, below, hnode, hbelow, hstages⟩
  · rintro ⟨node, below, hnode, hbelow, hstages⟩
    exact ⟨node, hnode, below, hbelow, hstages⟩

mutual

/-- Every alias that is read below a level is read by the level or by a stage inside it. -/
theorem nodesBelow_subset (columns : Aggregation) {grouping needed produced : List String}
    {stages : List Stage}
    (h : scope.innerStages grouping needed produced columns = .ok stages) :
    scope.nodesBelow columns ⊆ scope.nodesOf columns ++ stages.flatMap Stage.nodes := by
  match columns with
  | [] =>
    rw [nodesBelow]
    exact List.nil_subset _
  | (field, aggregate) :: columns =>
    obtain ⟨inside, others, hinside, hothers, rfl⟩ := innerStages_cons_eq_ok.mp h
    have hcolumn := nodesInside_subset aggregate hinside
    have hrest := nodesBelow_subset columns hothers
    rw [nodesBelow, nodesOf_cons, List.flatMap_append]
    intro x hx
    simp only [List.mem_append] at hx ⊢
    rcases hx with (hx | hx) | hx
    · exact Or.inl (Or.inl hx)
    · exact Or.inr (Or.inl (hcolumn hx))
    · rcases List.mem_append.mp (hrest hx) with hx | hx
      · exact Or.inl (Or.inr hx)
      · exact Or.inr (Or.inr hx)

theorem nodesInside_subset (aggregate : Aggregate) {field : String}
    {grouping needed : List String} {later : Except Rejection (List String)}
    {stages : List Stage}
    (h : scope.columnStages field grouping needed later aggregate = .ok stages) :
    scope.nodesInside aggregate ⊆ stages.flatMap Stage.nodes := by
  match aggregate with
  | .rollUp collection inner =>
    obtain ⟨node, below, -, -, hlevel⟩ := columnStages_rollUp_eq_ok.mp h
    obtain ⟨aliases, before, own, -, hbefore, hown, rfl⟩ := levelStages_eq_ok.mp hlevel
    have hinner := nodesBelow_subset inner hbefore
    obtain ⟨-, hnodes, -⟩ := stage_of_columns
      ((grouping ++ [node]).eraseDups ++ (needed ++ below).eraseDups).eraseDups hown
    rw [nodesInside, List.flatMap_append, List.flatMap_singleton, hnodes]
    intro x hx
    exact List.mem_append.mpr (List.mem_append.mp (hinner hx)).symm
  | .collect _ | .accumulate _ =>
    rw [nodesInside]
    exact List.nil_subset _

end

/-- The variables of a list are in the scope `here`, each for a reason: it was computed before,
or it is read later. -/
def Held (here earlier pending held : List String) : Prop :=
  ∀ x ∈ held, x ∈ here ∧ (x ∈ earlier ∨ x ∈ pending)

/-- What holds before the stages inside a level are run, `held` being what they carry besides
the way down to the level and `columns` those of its columns that are still to come. -/
structure Ready (scope : Scope) (path held : List String) (columns : Aggregation)
    (here earlier pending : List String) : Prop where
  pathHere : path ⊆ here
  heldHere : Held here earlier pending held
  belowHere : scope.nodesBelow columns ⊆ here
  nodesPending : scope.nodesOf columns ⊆ pending

/-- The stage of a level is live after stages inside it that are, and leaves what the stages
after it need. -/
theorem levelStages_live {columns : Aggregation}
    {path carry here earlier pending : List String} {levels : List Level} {stages : List Stage}
    {inside : List String → Except Rejection (List Stage)}
    (h : scope.levelStages columns path.eraseDups carry inside = .ok stages)
    (hcarry : ∀ x ∈ carry, x ∈ earlier ∨ x ∈ pending)
    (hinside : ∀ {before}, inside (scope.nodesOf columns) = .ok before →
      Live here earlier (scope.nodesOf columns ++ pending) levels before ∧
        path ++ carry ++ scope.nodesOf columns ++ innerFields columns ⊆ runScope here before) :
    Live here earlier pending (levels ++ [⟨path, columns⟩]) stages ∧
      path ++ carry ++ fieldsOf columns ⊆ runScope here stages ∧
      fieldsOf columns ⊆ stages.flatMap Stage.fields := by
  obtain ⟨aliases, before, own, haliases, hbefore, hown, rfl⟩ := levelStages_eq_ok.mp h
  rw [nodesOf_eq haliases] at hbefore
  obtain ⟨hlive, hthere⟩ := hinside hbefore
  simp only [List.append_subset] at hthere
  obtain ⟨⟨⟨hpath, hcarryThere⟩, hnodesThere⟩, hinnerThere⟩ := hthere
  obtain ⟨hfields, hnodes, hinner⟩ :=
    stage_of_columns (path.eraseDups ++ carry).eraseDups hown
  have hmem : ∀ x, x ∈ (path.eraseDups ++ carry).eraseDups ↔ x ∈ path ∨ x ∈ carry := by
    intro x
    rw [List.mem_eraseDups, List.mem_append, List.mem_eraseDups]
  refine ⟨Live.append ?_ (live_singleton ?_), ?_, ?_⟩
  · rw [List.flatMap_singleton, hnodes]
    exact hlive
  · refine ⟨hfields, fun x hx => ?_, ?_, List.Subset.trans hinner hinnerThere, nodup_eraseDups _,
      eraseDups_prefix_append path carry, fun x hx => ?_⟩
    · rcases (hmem x).mp hx with hx | hx
      · exact hpath hx
      · exact hcarryThere hx
    · rw [hnodes]
      exact hnodesThere
    · rcases (hmem x).mp hx with hx | hx
      · exact Or.inl hx
      · rcases hcarry x hx with hx | hx
        · exact Or.inr (Or.inl (List.mem_append_left _ hx))
        · exact Or.inr (Or.inr hx)
  · intro x hx
    rw [runScope_append]
    show x ∈ (path.eraseDups ++ carry).eraseDups ++ Stage.fields _
    rw [hfields]
    rcases List.mem_append.mp hx with hx | hx
    · exact List.mem_append_left _ ((hmem x).mpr (List.mem_append.mp hx))
    · exact List.mem_append_right _ hx
  · rw [List.flatMap_append, List.flatMap_singleton, hfields]
    exact List.subset_append_right _ _

mutual

/-- The stages inside a level are live, and leave what they found and the columns they
computed. -/
theorem innerStages_live (columns : Aggregation)
    {path needed produced here earlier pending : List String} {stages : List Stage}
    (hready : scope.Ready path (needed ++ produced) columns here earlier pending)
    (h : scope.innerStages path.eraseDups needed produced columns = .ok stages) :
    Live here earlier pending (scope.innerLevels path columns) stages ∧
      path ++ (needed ++ produced) ++ innerFields columns ⊆ runScope here stages := by
  match columns with
  | [] =>
    rw [innerStages] at h
    cases h
    rw [innerLevels]
    refine ⟨trivial, ?_⟩
    show path ++ (needed ++ produced) ++ [] ⊆ here
    rw [List.append_nil]
    exact List.append_subset.mpr ⟨hready.pathHere, fun x hx => (hready.heldHere x hx).1⟩
  | (field, aggregate) :: columns =>
    obtain ⟨inside, others, hinside, hothers, rfl⟩ := innerStages_cons_eq_ok.mp h
    obtain ⟨hpath, hheld, hbelow, hnodes⟩ := hready
    rw [nodesBelow, List.append_subset, List.append_subset] at hbelow
    rw [nodesOf_cons, List.append_subset] at hnodes
    have hlater : ∀ below, scope.aliasesBelow columns = .ok below →
        below = scope.nodesBelow columns := fun below => aliasesBelow_eq columns
    -- an alias of the columns to come is read by the level or by their stages
    have hcarry : Held here earlier (others.flatMap Stage.nodes ++ pending)
        (needed ++ produced ++ scope.nodesBelow columns) := by
      intro x hx
      rcases List.mem_append.mp hx with hx | hx
      · exact ⟨(hheld x hx).1, (hheld x hx).2.imp_right (List.mem_append_right _)⟩
      · refine ⟨hbelow.2 hx, Or.inr (List.mem_append.mpr ?_)⟩
        rcases List.mem_append.mp (nodesBelow_subset columns hothers hx) with hx | hx
        · exact Or.inr (hnodes.2 hx)
        · exact Or.inl hx
    obtain ⟨hlive, hleft, hcomputed⟩ := columnStages_live aggregate
      (List.append_subset.mpr ⟨hpath, hbelow.1.1⟩) hcarry hbelow.1.2 hlater hinside
    rw [List.append_subset, ← List.append_assoc, List.append_subset, List.append_subset] at hleft
    obtain ⟨⟨⟨hpathLeft, hheldLeft⟩, hbelowLeft⟩, hfieldsLeft⟩ := hleft
    -- the columns to come find the inner columns too
    have hreadyRest : scope.Ready path (needed ++ (produced ++ fieldsInside aggregate)) columns
        (runScope here inside) (earlier ++ inside.flatMap Stage.fields) pending := by
      refine ⟨hpathLeft, fun x hx => ?_, hbelowLeft, hnodes.2⟩
      rw [← List.append_assoc] at hx
      rcases List.mem_append.mp hx with hx | hx
      · exact ⟨hheldLeft hx, (hheld x hx).2.imp_left (List.mem_append_left _)⟩
      · exact ⟨hfieldsLeft hx, Or.inl (List.mem_append_right _ (hcomputed hx))⟩
    obtain ⟨hliveRest, hleftRest⟩ := innerStages_live columns hreadyRest hothers
    rw [innerLevels, runScope_append]
    refine ⟨Live.append hlive hliveRest, ?_⟩
    simpa only [innerFields, List.flatMap_cons, List.append_assoc] using hleftRest

/-- The stages of the level inside a column are live; `below` are the aliases of the columns
after it. -/
theorem columnStages_live (aggregate : Aggregate)
    {path needed below here earlier pending : List String} {field : String}
    {later : Except Rejection (List String)} {stages : List Stage}
    (hpath : path ++ (scope.nodeOf? (field, aggregate)).toList ⊆ here)
    (hheld : Held here earlier pending (needed ++ below))
    (hinside : scope.nodesInside aggregate ⊆ here)
    (hlater : ∀ l, later = .ok l → l = below)
    (h : scope.columnStages field path.eraseDups needed later aggregate = .ok stages) :
    Live here earlier pending
        (scope.columnLevels (path ++ (scope.nodeOf? (field, aggregate)).toList) aggregate)
        stages ∧
      path ++ (needed ++ below) ++ fieldsInside aggregate ⊆ runScope here stages ∧
      fieldsInside aggregate ⊆ stages.flatMap Stage.fields := by
  match aggregate with
  | .rollUp collection inner =>
    obtain ⟨node, found, hnode, hfound, hlevel⟩ := columnStages_rollUp_eq_ok.mp h
    obtain rfl := hlater found hfound
    rw [hnode, Option.toList_some] at hpath ⊢
    rw [nodesInside] at hinside
    rw [eraseDups_eraseDups_append] at hlevel
    have hcarry : Held here earlier pending (needed ++ found).eraseDups :=
      fun x hx => hheld x (List.mem_eraseDups.mp hx)
    have hreadyInner : scope.Ready (path ++ [node])
        ((needed ++ found).eraseDups ++ scope.nodesOf inner ++ []) inner here earlier
        (scope.nodesOf inner ++ pending) := by
      refine ⟨hpath, fun x hx => ?_, hinside, List.subset_append_left _ _⟩
      rw [List.append_nil] at hx
      rcases List.mem_append.mp hx with hx | hx
      · exact ⟨(hcarry x hx).1, (hcarry x hx).2.imp_right (List.mem_append_right _)⟩
      · exact ⟨hinside (nodesOf_subset_nodesBelow inner hx), Or.inr (List.mem_append_left _ hx)⟩
    obtain ⟨hlive, hleft, hcomputed⟩ := levelStages_live hlevel (fun x hx => (hcarry x hx).2)
      fun {before} hbefore => by
        obtain ⟨hliveInner, hleftInner⟩ := innerStages_live inner hreadyInner hbefore
        rw [List.append_nil, ← List.append_assoc] at hleftInner
        exact ⟨hliveInner, hleftInner⟩
    rw [columnLevels]
    refine ⟨hlive, ?_, hcomputed⟩
    intro x hx
    refine hleft ?_
    simp only [List.mem_append, List.mem_eraseDups] at hx ⊢
    tauto
  | .collect _ | .accumulate _ =>
    rw [columnStages] at h
    cases h
    rw [columnLevels]
    refine ⟨trivial, ?_, List.nil_subset _⟩
    show path ++ (needed ++ below) ++ [] ⊆ here
    rw [List.append_nil]
    exact List.append_subset.mpr
      ⟨(List.append_subset.mp hpath).1, fun x hx => (hheld x hx).1⟩

end

/-! ## 5.  Plans -/

/-- **Variables are there when they are read.**  The stages of a nested plan, run in order from
the scope of the root and every alias the aggregation reads, find every variable they carry,
every alias they aggregate over and every inner column they hand on; they are grouped by the
way down to their level, which they carry first, and carry nothing twice and nothing else than
columns computed before and aliases read later. -/
theorem nestedPlan_live {columns : Aggregation} {plan : Plan}
    (h : scope.nestedPlan columns = .ok plan) :
    Live (scope.options.rootAlias :: scope.nodesBelow columns) [] [] (scope.levels columns)
      plan.stages := by
  simp only [nestedPlan, Results.bind_eq_ok, Results.pure_eq_ok] at h
  obtain ⟨stages, hstages, rfl⟩ := h
  have hroot : [scope.options.rootAlias] = [scope.options.rootAlias].eraseDups := by
    rw [List.eraseDups_cons]
    rfl
  rw [hroot] at hstages
  have hready : scope.Ready [scope.options.rootAlias] (scope.nodesOf columns ++ []) columns
      (scope.options.rootAlias :: scope.nodesBelow columns) [] (scope.nodesOf columns ++ []) := by
    refine ⟨List.cons_subset_cons _ (List.nil_subset _), fun x hx => ⟨?_, Or.inr hx⟩,
      List.subset_cons_self _ _, List.subset_append_left _ _⟩
    rw [List.append_nil] at hx
    exact List.mem_cons_of_mem _ (nodesOf_subset_nodesBelow columns hx)
  refine (levelStages_live hstages (List.forall_mem_nil _) fun {before} hbefore => ?_).1
  obtain ⟨hlive, hleft⟩ := innerStages_live columns hready hbefore
  refine ⟨hlive, ?_⟩
  simpa only [List.append_nil] using hleft

/-- Two columns with inner columns, the first of them over records below which others are. -/
theorem nestedPlan_live_siblings :
    let scope : Scope := ⟨{}, [("a", "record1"), ("b", "record2"), ("c", "record3")]⟩
    let records := fun source => Collection.mk source none false none none none
    let count := fun source => Aggregate.accumulate ⟨.count, source, none, false, none⟩
    let columns : Aggregation :=
      [("x", .rollUp (records "a") [("y", .rollUp (records "b") [("n", count "c")])]),
        ("z", .rollUp (records "b") [("m", count "c")])]
    ∃ plan, scope.nestedPlan columns = .ok plan ∧
      Live (scope.options.rootAlias :: scope.nodesBelow columns) [] [] (scope.levels columns)
        plan.stages := by
  intro scope records count columns
  obtain ⟨plan, h⟩ := Results.exists_eq_ok
    (show (scope.nestedPlan columns).isOk = true by decide +kernel)
  exact ⟨plan, h, nestedPlan_live h⟩

end Scope
end GraphSearch.Aggregate
