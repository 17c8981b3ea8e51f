import GraphSearch.Cypher.Predicate
import GraphSearch.Matching.Context
/-!
# Compiling criteria

A criteria object is compiled against the alias of the records it filters, and comes
out as a list of terms that are to be conjoined: first those of its own entries, in
order, then one term to each entry about related records, in order.

Related records are followed in one of two ways.  Outside of negations a new alias is
matched, and the term says that it was (`Formula.atom (.present _)`); what the nested
criteria ask for is attached to the match, unless further aliases are matched below it:
then it waits for those and is conjoined with the term itself.  Inside a negation
nothing is matched.  There the whole nested criteria become one existential, so that
the negation covers every related record.

A group keeps only those of its members that yield a term, and yields none when no
member does.

The functions are one recursion over the criteria (`entryTerms`, `passTerms`,
`memberTerms`, `memberTerm`, `entryMembers`), which is the same for every way of following
relations and takes it as a parameter (`Following`).  They run in a monad whose context is kept
when a rejection is raised; only the count of open negations is put back, by
`Descent.insideNegation`.
-/

namespace GraphSearch.Matching

open Criteria

/-- A step of the compilation: it may be rejected, and leaves a context either way. -/
abbrev Descent := EStateM Rejection Context

namespace Descent

/-! ## 1.  Steps -/

/-- A step that does not look at the context. -/
def lift {α : Type} (result : Except Rejection α) : Descent α :=
  match result with
  | .ok a => pure a
  | .error rejection => throw rejection

/-- A step inside one more open negation, which is closed again however the step ends. -/
def insideNegation {α : Type} (step : Descent α) : Descent α := fun context =>
  match step { context with negations := context.negations + 1 } with
  | .ok a after => .ok a { after with negations := after.negations - 1 }
  | .error rejection after => .error rejection { after with negations := after.negations - 1 }

/-- A step among the members of a group. -/
def amongMembers {α : Type} (op : GroupOp) (step : Descent α) : Descent α :=
  if op.negates then insideNegation step else step

end Descent

/-! ## 2.  Putting terms together -/

/-- What joins the members of a group; a negated group joins what it negates. -/
def connectiveOf : GroupOp → Connective
  | .and | .not => .and
  | .or | .nor => .or
  | .xor => .xor

/-- The term of an object that is a member of a group. -/
def conjoin : List Formula → Option Formula
  | [] => none
  | [term] => some term
  | term :: terms => some (.group .and term terms)

/-- The term of a group with the members given. -/
def groupTerm (op : GroupOp) (members : List Formula) : Option Formula :=
  match op, members with
  | _, [] => none
  | .and, [member] => some member
  | op, member :: members =>
    if op.negates then some (.negation (connectiveOf op) member members)
    else some (.group (connectiveOf op) member members)

/-- The terms of two passes over an object, the one over its own entries first. -/
def bothPasses (pass : (related : Bool) → Descent (List Formula)) :
    Descent (List Formula) := do
  let own ← pass false
  let related ← pass true
  return own ++ related

/-! ## 3.  Related records -/

/-- A way to follow the relation from the records of the alias `parent` to those with a
label, which `fields` filter; `body` compiles them against the alias it is given. -/
abbrev Following :=
  (label : String) → (fields : List (String × Json)) → (parent : AliasId) →
    (body : AliasId → Descent (List Formula)) → Descent Formula

/-- A new matched alias for the records a relation leads to, bound to the name they are
declared by and with the pattern they are matched by. -/
def openMatched (label : String) (fields : List (String × Json)) (parent : AliasId)
    (context : Context) : AliasId × Context :=
  let (id, context) := context.addMatched
  let context := match aliasOf fields with
    | some declared => context.bind declared id
    | none => context
  (id, context.setPattern id
    (.hop (context.nameOf parent) (relationOf fields) (context.nameOf id) label))

/-- Keeps the terms of an alias: deferred when more than `before` aliases are matched by
now, attached to its pattern otherwise. -/
def keepTerms (id : AliasId) (before : Nat) (terms : List Formula) (context : Context) :
    Context :=
  if before < context.matchedCount then context.defer id terms
  else if terms.isEmpty then context
  else context.attach id terms

/-- The term of a matched relation: its records were matched, and `terms` hold of them. -/
def presence (child : String) : List Formula → Formula
  | [] => .atom (.present child)
  | term :: terms => .group .and (.atom (.present child)) (term :: terms)

/-- Follows a relation with an optional match. -/
def followMatched : Following := fun label fields parent body => do
  let id ← modifyGet (openMatched label fields parent)
  let before := (← get).matchedCount
  let terms ← body id
  modify (keepTerms id before terms)
  let deferred ← modifyGet fun context => context.takeDeferred id
  return presence ((← get).nameOf id) (deferred.getD [])

/-- Follows a relation inside an existential. -/
def followScoped : Following := fun label fields parent body => do
  let id ← modifyGet Context.addScoped
  let context ← get
  let pattern :=
    Pattern.hop (context.nameOf parent) (relationOf fields) (context.nameOf id) label
  let terms ← body id
  return .existential pattern terms

/-- Follows a relation, with an optional match outside of negations. -/
def follow : Following := fun label fields parent body => do
  if (← get).inNegation then followScoped label fields parent body
  else followMatched label fields parent body

/-! ## 4.  The recursion -/

/-- The predicates on an alias as terms. -/
def predicateTerms (node : String) (predicates : List String) : List Formula :=
  predicates.map fun predicate => .atom (.predicate node predicate)

/-- The predicates of an entry that has no criteria inside, on the records of `node`. -/
def leafPredicates (options : Options) (node key : String) (value : Json) :
    Except Rejection (List String) :=
  match kindOf key value with
  | .identity => Cypher.identityPredicates options node value
  | .property => Cypher.propertyPredicates options node key value
  | .declaration | .relation => .ok []
  | .group op => .error (.invalidOperand op.key op.key value)
  | .related => .error (.invalidOperand key key value)

/-- The terms of an entry that has no criteria inside. -/
def leafTerms (id : AliasId) (key : String) (value : Json) : Descent (List Formula) := do
  let context ← get
  let node := context.nameOf id
  let predicates ← Descent.lift (leafPredicates context.options node key value)
  return predicateTerms node predicates

section

variable (following : Following)

mutual

/-- The terms of one entry of a criteria object. -/
def entryTerms (id : AliasId) (key : String) : Json → Descent (List Formula)
  | .object fields =>
    match kindOf key (.object fields) with
    | .group op => do
      let members ← Descent.amongMembers op (entryMembers id fields)
      return (groupTerm op members).toList
    | .related => do
      let term ← following key fields id fun child =>
        bothPasses fun related => passTerms child related fields
      return [term]
    | _ => leafTerms id key (.object fields)
  | .array items =>
    match kindOf key (.array items) with
    | .group op => do
      let members ← Descent.amongMembers op (memberTerms id op items)
      return (groupTerm op members).toList
    | _ => leafTerms id key (.array items)
  | .null => leafTerms id key .null
  | .bool b => leafTerms id key (.bool b)
  | .number n => leafTerms id key (.number n)
  | .string s => leafTerms id key (.string s)

/-- The terms of those entries that are about related records if `related` is set, and
of all others if it is not. -/
def passTerms (id : AliasId) (related : Bool) :
    List (String × Json) → Descent (List Formula)
  | [] => return []
  | (key, value) :: fields => do
    if isRelated (key, value) = related then
      let terms ← entryTerms id key value
      let others ← passTerms id related fields
      return terms ++ others
    else passTerms id related fields

/-- The terms of the members of a group that is written as an array. -/
def memberTerms (id : AliasId) (op : GroupOp) : List Json → Descent (List Formula)
  | [] => return []
  | item :: items => do
    let term ← memberTerm id op item
    let others ← memberTerms id op items
    return term.toList ++ others

/-- The term of a member of a group: an object is a conjunction, an array an inner
conjunction of members, and nothing else is a member. -/
def memberTerm (id : AliasId) (op : GroupOp) : Json → Descent (Option Formula)
  | .object fields => do
    return conjoin (← bothPasses fun related => passTerms id related fields)
  | .array items => do
    return groupTerm .and (← memberTerms id .and items)
  | .null => throw (.invalidOperand op.key op.key .null)
  | .bool b => throw (.invalidOperand op.key op.key (.bool b))
  | .number n => throw (.invalidOperand op.key op.key (.number n))
  | .string s => throw (.invalidOperand op.key op.key (.string s))

/-- The terms of the members of a group that is written as an object, each entry being
a member. -/
def entryMembers (id : AliasId) : List (String × Json) → Descent (List Formula)
  | [] => return []
  | (key, value) :: fields => do
    let terms ← entryTerms id key value
    let others ← entryMembers id fields
    return (conjoin terms).toList ++ others

end

/-- The terms of a criteria object, those about related records last. -/
def fieldTerms (id : AliasId) (fields : List (String × Json)) : Descent (List Formula) :=
  bothPasses fun related => passTerms following id related fields

end

/-! ## 5.  Entry points -/

/-- Compiles a criteria object against an alias. -/
def objectTerms (id : AliasId) (fields : List (String × Json)) : Descent (List Formula) :=
  fieldTerms follow id fields

/-- Compiles a group against an alias; a group that yields no term is left out. -/
def groupTerms (id : AliasId) (op : GroupOp) (value : Json) : Descent (Option Formula) := do
  let members ← Descent.amongMembers op <| match value with
    | .array items => memberTerms follow id op items
    | .object fields => entryMembers follow id fields
    | other => throw (.invalidOperand op.key op.key other)
  return groupTerm op members

/-- Follows the relation to the records with a label, from those of the alias `parent`. -/
def relatedTerm (parent : AliasId) (label : String) (value : Json) : Descent Formula :=
  match value with
  | .object fields => follow label fields parent fun child => objectTerms child fields
  | other => throw (.invalidOperand label label other)

/-- Compiles the criteria of the root record.  Its terms are deferred when relations
were followed, and attached otherwise; without criteria there is nothing to do. -/
def rootTerms (criteria : Json) : Descent Unit :=
  match criteria with
  | .null => return
  | .object fields => do
    if let some declared := aliasOf fields then
      modify fun context => context.bind declared Context.root
    let terms ← objectTerms Context.root fields
    modify (keepTerms Context.root 1 terms)
  | other => throw (.invalidOperand "where" "where" other)

end GraphSearch.Matching
