import GraphSearch.Proofs.Matching.Frame
import GraphSearch.Proofs.Matching.Subfilters
/-!
# What the names of a filter stand for

A filter declares names for its records, and an aggregation refers to them by these.  Which alias
a name stands for can be read off the criteria: the declarations are made in the order in which
the relations are followed, and a name that is declared again stands for the later alias.
Inside of negations nothing is matched, and nothing is declared.

* `declarationsOf`: the declarations of relations that are matched one after the other;
* `rootDeclarations`: those of the criteria of a root record;
* `IsDeclaredBy`, `isFollowInvariant_isDeclaredBy`: what compiling a part declares;
* `rootTerms_bindings`: what the names stand for once the criteria of a root record are compiled.
-/

namespace GraphSearch.Matching

open Criteria

/-! ## 1.  Declarations -/

/-- The table after declarations are written to it, in order. -/
def declareAll (declarations table : List (String × String)) : List (String × String) :=
  declarations.foldl (fun table declaration => Table.insert declaration.1 declaration.2 table) table

theorem declareAll_append (first second table : List (String × String)) :
    declareAll (first ++ second) table = declareAll second (declareAll first table) :=
  List.foldl_append

/-- What a criteria object declares when its records are those of the alias with the name given:
at most one name. -/
def declarationOf (fields : List (String × Json)) (name : String) : List (String × String) :=
  (aliasOf fields).toList.map fun declared => (declared, name)

/-- What relations declare that are matched one after the other, the first by the alias with the
number given. -/
def declarationsOf (root : String) (number : Nat) (matched : List Subfilter) :
    List (String × String) :=
  (matched.zipIdx number).flatMap fun entry =>
    declarationOf entry.1.fields (root ++ toString entry.2)

/-- The relations that are matched: those that do not lie inside a negation. -/
def matchedOf (followed : List Subfilter) : List Subfilter :=
  followed.filter fun subfilter => !subfilter.negated

/-- What the criteria of a root record declare, in order: the root alias can always be referred to
by its own name, then the root record may have a name, then the records of each relation. -/
def rootDeclarations (root : String) (fields : List (String × Json)) : List (String × String) :=
  ("$" ++ root, root) :: (declarationOf fields root
    ++ declarationsOf root 1 (matchedOf (subfiltersOf (.object fields))))

section

variable {root : String} {number : Nat}

theorem declarationsOf_cons (subfilter : Subfilter) (matched : List Subfilter) :
    declarationsOf root number (subfilter :: matched) =
      declarationOf subfilter.fields (root ++ toString number)
        ++ declarationsOf root (number + 1) matched := by
  rw [declarationsOf, List.zipIdx_cons, List.flatMap_cons]
  rfl

theorem declarationsOf_append (first second : List Subfilter) :
    declarationsOf root number (first ++ second) =
      declarationsOf root number first ++ declarationsOf root (number + first.length) second := by
  rw [declarationsOf, List.zipIdx_append, List.flatMap_append]
  rfl

end

/-! ## 2.  What a walk declares -/

/-- The names stand for what they stood for before, but for those that the relations declare. -/
structure IsDeclaredBy (context : Context) (followed : List Subfilter) (after : Context) :
    Prop where
  follows : context.Follows after followed
  bindings : after.bindings = declareAll
    (declarationsOf context.options.rootAlias context.matchedCount (matchedOf followed))
    context.bindings

namespace Context

variable {context : Context} {label : String} {fields : List (String × Json)} {parent : AliasId}

/-- Opening a matched alias declares what its fields do. -/
theorem entered_bindings_eq_declareAll : (context.entered label fields parent).bindings =
    declareAll (declarationOf fields
      (context.options.rootAlias ++ toString context.matchedCount)) context.bindings := by
  rw [entered_bindings, declarationOf]
  cases aliasOf fields <;> rfl

theorem rooted_bindings (options : Options) (fields : List (String × Json)) :
    (Context.rooted options fields).bindings = declareAll
      (("$" ++ options.rootAlias, options.rootAlias) :: declarationOf fields options.rootAlias)
      [] := by
  rw [rooted, declarationOf]
  cases aliasOf fields <;> rfl

end Context

theorem isFollowInvariant_isDeclaredBy : IsFollowInvariant IsDeclaredBy where
  nil := ⟨.nil _, rfl⟩
  append {context first middle second after} hext h h' := by
    refine ⟨h.follows.append h'.follows, ?_⟩
    have hcount : middle.matchedCount = context.matchedCount + (matchedOf first).length := by
      rw [h.follows.matchedCount, matchedOf, List.countP_eq_length_filter]
    have hmatched : matchedOf (first ++ second) = matchedOf first ++ matchedOf second :=
      List.filter_append _ _
    rw [h'.bindings, h.bindings, hext.options, hcount, hmatched, declarationsOf_append,
      declareAll_append]
  group {context _ inside} op h := by
    refine ⟨Context.follows_group h.follows, ?_⟩
    have hbindings := h.bindings
    rw [Context.opened_eq] at hbindings
    rw [Context.closed_eq]
    exact hbindings
  addScoped {context label fields _ _} h :=
    ⟨(context.follows_addScoped label fields).append h.follows, h.bindings⟩
  entered {context label fields parent followed _ _ _ _} h := by
    refine ⟨((context.follows_entered label fields parent).append h.follows).congr rfl
      Context.left_aliases, ?_⟩
    have hmatched : matchedOf (⟨label, fields, false⟩ :: followed) =
        ⟨label, fields, false⟩ :: matchedOf followed := rfl
    rw [Context.left_bindings, h.bindings, Context.entered_options, Context.entered_matchedCount,
      Context.entered_bindings_eq_declareAll, hmatched, declarationsOf_cons, declareAll_append]

/-! ## 3.  The root record -/

/-- What the names stand for after the criteria of a root record are compiled is what they
declare, one after the other. -/
theorem rootTerms_bindings {options : Options} {fields : List (String × Json)} {after : Context}
    (h : rootTerms (.object fields) (Context.start options) = .ok () after) :
    after.bindings = declareAll (rootDeclarations options.rootAlias fields) [] := by
  obtain ⟨terms, inside, hwalk, rfl⟩ := rootTerms_object_eq_ok.mp h
  have hdeclared := (hwalk.followInvariant_rooted isFollowInvariant_isDeclaredBy).bindings
  rw [Context.rooted_options, Context.rooted_matchedCount, Context.rooted_bindings] at hdeclared
  rw [keepTerms_bindings, hdeclared, rootDeclarations, ← List.cons_append, declareAll_append]

/-- Criteria that declare one name in a group and, written before it, below a relation, and another
name inside of a negation. -/
def declaredTwice : List (String × Json) :=
  [("B", .object [("$alias", .string "$x"), ("C", .object [("$alias", .string "$c")])]),
    ("$or", .array [.object [("A", .object [("$alias", .string "$x")])]]),
    ("$not", .array [.object [("D", .object [("$alias", .string "$d")])]]),
    ("$alias", .string "$me")]

/-- The group is gone through first, so the relation beside it has the last word. -/
theorem rootTerms_bindings_declaredTwice :
    ∃ after, rootTerms (.object declaredTwice) (Context.start {}) = .ok () after ∧
      after.bindings = [("$record", "record"), ("$me", "record"), ("$x", "record2"),
        ("$c", "record3")] := by
  obtain ⟨_, after, h⟩ := Descent.accepts_iff.mp
    (show Descent.accepts (rootTerms (.object declaredTwice)) (Context.start {}) = true by
      decide +kernel)
  have htable : declareAll (rootDeclarations "record" declaredTwice) [] = [("$record", "record"),
      ("$me", "record"), ("$x", "record2"), ("$c", "record3")] := by rfl
  exact ⟨after, h, (rootTerms_bindings h).trans htable⟩

end GraphSearch.Matching
