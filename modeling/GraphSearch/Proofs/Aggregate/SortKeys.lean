import GraphSearch.Proofs.Aggregate.Reading
import GraphSearch.Proofs.Json.Text
/-!
# Sort keys

What an entry gives as the order of its records is absent, a direction or an object of directions,
and asks for one ordering: a property, which is the identity or the first one of the object, and a
direction (`SortOrder.ordering?`).  Collected records are sorted by one key that has to say both.
The mark in front of the property stands for the ascending direction, and the property alone for the
descending one (`markedKey`).

Properties are arbitrary texts, and one that begins with the mark itself is not told apart from the
mark and the rest of it.  So the key of a descending ordering by such a property is that of the
ascending ordering by the rest.  Of all other orderings no two have the same key
(`markedKey_eq_iff`).
-/

namespace GraphSearch

/-- A text is read back from its literal. -/
theorem Json.quote_injective : Function.Injective quote := by
  intro text other h
  have hchars := congrArg String.toList h
  rw [toList_quote, toList_quote, List.cons.injEq] at hchars
  have hother : Reads readText _ other [] := reads_quoted other
  rw [← hchars.2] at hother
  exact ((reads_quoted text).unique hother).1

/-- What the order that is given asks for, where records have their identity under `idKey`. -/
def SortOrder.ordering? (idKey : String) : Option Json → Option (String × SortDirection)
  | none => some (idKey, .ascending)
  | some (.string name) => (SortDirection.ofName? name).map (idKey, ·)
  | some (.object (field :: _)) => readKey field
  | some _ => none

namespace Aggregate

/-! ## 1.  Keys and orderings -/

/-- The key of an ordering. -/
def markedKey : String × SortDirection → String
  | (property, .ascending) => Scope.ascendingMark ++ property
  | (property, .descending) => property

/-- The second ordering is descending, by the property of the first one, which is ascending, with
the mark in front. -/
def IsMistakenFor (ordering other : String × SortDirection) : Prop :=
  ordering.2 = .ascending ∧ other = (Scope.ascendingMark ++ ordering.1, .descending)

/-- Orderings have the same key only if they are the same, or one is mistaken for the other. -/
theorem markedKey_eq_iff {ordering other : String × SortDirection} :
    markedKey ordering = markedKey other ↔
      ordering = other ∨ IsMistakenFor ordering other ∨ IsMistakenFor other ordering := by
  obtain ⟨property, direction⟩ := ordering
  obtain ⟨property', direction'⟩ := other
  cases direction <;> cases direction'
  all_goals simp [markedKey, IsMistakenFor]
  case ascending.descending => exact eq_comm

/-! ## 2.  Columns -/

/-- The key of collected records, as it is written. -/
def ColumnExpr.sortText? : ColumnExpr → Option String
  | .accumulated _ _ _ _ _ | .values _ _ _ _ => none
  | .records _ _ _ _ key _ => some (Json.quote key)

/-- Records are collected, sorted by their key, and sliced. -/
theorem ColumnExpr.text_of_sortText? {expr : ColumnExpr} {text : String}
    (h : expr.sortText? = some text) : ∃ list window,
      expr.text = "apoc.coll.sortMaps(collect(" ++ list ++ "), " ++ text ++ ")"
        ++ Window.text window := by
  cases expr with
  | accumulated _ _ _ _ _ | values _ _ _ _ => cases h
  | records distinct node inner label key window =>
    obtain rfl := Option.some.inj h
    have hclose : "\x7d), " = "\x7d" ++ "), " := rfl
    refine ⟨distinctText distinct ++ node ++ " \x7b"
      ++ ", ".intercalate ([".*"] ++ inner.map carryField ++ [label]) ++ "\x7d", window, ?_⟩
    show "apoc.coll.sortMaps(collect(" ++ distinctText distinct ++ node ++ " \x7b"
      ++ ", ".intercalate ([".*"] ++ inner.map carryField ++ [label]) ++ "\x7d), "
      ++ Json.quote key ++ ")" ++ window.text = _
    rw [hclose]
    simp only [String.append_assoc]

namespace Scope

variable {scope : Scope} {value other : Json} {computed computed' : Column} {text text' : String}

/-- The entry of a column, no object of which has a key twice, collects records, and they are sorted
by the key with this text. -/
def SortsBy (scope : Scope) (value : Json) (computed : Column) (text : String) : Prop :=
  ∃ column aggregate, value.isProper = true ∧
    Aggregation.readColumn column value = .ok aggregate ∧
    scope.columnOf (column, aggregate) = .ok computed ∧ computed.expr.sortText? = some text

/-- The key of an order that is read, or of none that is given. -/
theorem sortKey_eq (scope : Scope) {column : String} {given : Option Json}
    {order : Option SortOrder} (h : given.map (SortOrder.ofJson column) = order.map .ok) :
    ∃ ordering, SortOrder.ordering? scope.options.idKey given = some ordering ∧
      scope.sortKey order = markedKey ordering := by
  cases given with
  | none =>
    obtain rfl := Option.map_eq_none_iff.mp h.symm
    exact ⟨_, rfl, rfl⟩
  | some given =>
    obtain ⟨order, rfl, hread⟩ := Option.map_eq_some_iff.mp h.symm
    unfold SortOrder.ofJson at hread
    split at hread
    case h_1 name =>
      split at hread
      case h_1 direction hdirection =>
        cases hread
        refine ⟨(scope.options.idKey, direction), ?_, ?_⟩
        · rw [SortOrder.ordering?, hdirection]
          rfl
        · cases direction <;> rfl
      case h_2 => cases hread
    case h_2 field fields =>
      split at hread
      case h_1 keys hkeys =>
        cases hread
        simp only [List.mapM_cons, Option.bind_eq_bind, Option.bind_eq_some_iff] at hkeys
        obtain ⟨first, hfirst, others, -, hkeys⟩ := hkeys
        obtain rfl := Option.some.inj hkeys
        refine ⟨first, hfirst, ?_⟩
        obtain ⟨property, direction⟩ := first
        cases direction <;> rfl
      case h_2 => cases hread
    case h_3 => cases hread

/-- What collects records is a collection, and their key is that of its order. -/
theorem sortText?_of_columnOf {column : String × Aggregate} {computed : Column}
    (h : scope.columnOf column = .ok computed) (htext : computed.expr.sortText? = some text) :
    ∃ collection ∈ column.2.collection?, text = Json.quote (scope.sortKey collection.order) := by
  obtain ⟨field, aggregate⟩ := column
  rw [columnOf, Results.bind_eq_ok] at h
  obtain ⟨node, -, h⟩ := h
  cases aggregate with
  | accumulate accumulation =>
    obtain ⟨expr, hexpr, hcolumn⟩ := Results.bind_eq_ok.mp h
    obtain rfl := Results.pure_eq_ok.mp hexpr
    obtain rfl := Results.pure_eq_ok.mp hcolumn
    cases htext
  | collect collection | rollUp collection inner =>
    obtain ⟨expr, hexpr, hcolumn⟩ := Results.bind_eq_ok.mp h
    obtain rfl := Results.pure_eq_ok.mp hcolumn
    obtain ⟨window, -, hexpr⟩ := Results.bind_eq_ok.mp hexpr
    refine ⟨collection, rfl, ?_⟩
    split at hexpr
    · obtain rfl := Results.pure_eq_ok.mp hexpr
      cases htext
    · obtain rfl := Results.pure_eq_ok.mp hexpr
      exact (Option.some.inj htext).symm

theorem SortsBy.exists_ordering (h : scope.SortsBy value computed text) :
    ∃ ordering, SortOrder.ordering? scope.options.idKey (Aggregation.given? "orderBy" value) =
      some ordering ∧ text = Json.quote (markedKey ordering) := by
  obtain ⟨column, aggregate, hproper, hread, hcolumn, htext⟩ := h
  obtain ⟨collection, hcollection, rfl⟩ := sortText?_of_columnOf hcolumn htext
  have hread' := Aggregation.isReadFrom_of_readColumn hproper hread
  have horder := hread'.order_eq collection hcollection
  obtain ⟨ordering, hordering, hkey⟩ := sortKey_eq scope horder
  exact ⟨ordering, hordering, congrArg Json.quote hkey⟩

/-- **How far the key of collected records tells their ordering.**  Whatever the options and the
orders of two columns, each order asks for one ordering, and the text of the column has its key; and
the keys are written alike only if the orderings are the same, or one is ascending and the other one
descending by the same property with the mark in front. -/
theorem sortsBy_text_eq_iff (h : scope.SortsBy value computed text)
    (h' : scope.SortsBy other computed' text') :
    (∃ list window, computed.expr.text =
      "apoc.coll.sortMaps(collect(" ++ list ++ "), " ++ text ++ ")" ++ Window.text window) ∧
    ∃ ordering ordering',
      SortOrder.ordering? scope.options.idKey (Aggregation.given? "orderBy" value) =
        some ordering ∧
      SortOrder.ordering? scope.options.idKey (Aggregation.given? "orderBy" other) =
        some ordering' ∧
      (text = text' ↔ ordering = ordering' ∨ IsMistakenFor ordering ordering' ∨
        IsMistakenFor ordering' ordering) := by
  obtain ⟨ordering, hordering, htext⟩ := h.exists_ordering
  obtain ⟨ordering', hordering', htext'⟩ := h'.exists_ordering
  obtain ⟨_, _, _, _, _, hkey⟩ := h
  refine ⟨ColumnExpr.text_of_sortText? hkey, ordering, ordering', hordering, hordering', ?_⟩
  rw [htext, htext']
  exact Json.quote_injective.eq_iff.trans markedKey_eq_iff

/-- One alias, of records that have their identity under a key with a blank. -/
def spacedScope : Scope := ⟨{ idKey := "my id" }, [("$a", "record1")]⟩

/-- An entry that collects the records of the alias in an order. -/
def collecting (order : Json) : Json :=
  .object [("fn", .string "collect"), ("alias", .string "$a"), ("orderBy", order)]

/-- The column of such an entry, with the key the records are sorted by. -/
def collectedBy (key : String) : Column :=
  ⟨"x", .records true "record1" [] (spacedScope.labelEntry "record1") key ⟨0, 100⟩⟩

/-- Records in no order, and in one by their identity, with another property that counts for
nothing. -/
theorem sortsBy_text_eq_iff_identity :
    let order : Json := .object [("my id", .string "asc"), ("name", .string "desc")]
    spacedScope.SortsBy (collecting .null) (collectedBy "^my id") "\"^my id\"" ∧
      spacedScope.SortsBy (collecting order) (collectedBy "^my id") "\"^my id\"" ∧
      (∃ list window, (collectedBy "^my id").expr.text =
        "apoc.coll.sortMaps(collect(" ++ list ++ "), " ++ "\"^my id\"" ++ ")"
          ++ Window.text window) ∧
      ∃ ordering ordering',
        SortOrder.ordering? "my id" (Aggregation.given? "orderBy" (collecting .null)) =
          some ordering ∧
        SortOrder.ordering? "my id" (Aggregation.given? "orderBy" (collecting order)) =
          some ordering' ∧
        ("\"^my id\"" = "\"^my id\"" ↔ ordering = ordering' ∨ IsMistakenFor ordering ordering' ∨
          IsMistakenFor ordering' ordering) := by
  intro order
  have hnone : spacedScope.SortsBy (collecting .null) (collectedBy "^my id") "\"^my id\"" :=
    ⟨"x", _, rfl, rfl, rfl, by decide⟩
  have hfields : spacedScope.SortsBy (collecting order) (collectedBy "^my id") "\"^my id\"" :=
    ⟨"x", _, rfl, rfl, rfl, by decide⟩
  exact ⟨hnone, hfields, sortsBy_text_eq_iff hnone hfields⟩

/-- Ascending by one property, and descending by another one that begins with the mark: the columns
are the same, though the orderings are not. -/
theorem sortsBy_confuses :
    let ascending : Json := .object [("name", .string "asc")]
    let descending : Json := .object [("^name", .string "desc")]
    spacedScope.SortsBy (collecting ascending) (collectedBy "^name") "\"^name\"" ∧
      spacedScope.SortsBy (collecting descending) (collectedBy "^name") "\"^name\"" ∧
      SortOrder.ordering? "my id" (Aggregation.given? "orderBy" (collecting ascending)) =
        some ("name", .ascending) ∧
      SortOrder.ordering? "my id" (Aggregation.given? "orderBy" (collecting descending)) =
        some ("^name", .descending) :=
  ⟨⟨"x", _, rfl, rfl, rfl, by decide⟩, ⟨"x", _, rfl, rfl, rfl, by decide⟩, rfl, rfl⟩

end Scope
end Aggregate
end GraphSearch
