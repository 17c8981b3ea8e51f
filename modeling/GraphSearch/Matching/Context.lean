import GraphSearch.Matching.Formula
import GraphSearch.Options
import GraphSearch.Table
/-!
# The context of a compilation

Compiling a filter introduces aliases, one to each relation it follows, and what is
known of an alias is kept under its place in the list of aliases, never under its name:

* its pattern, by which its records are matched;
* the terms attached to that pattern, which filter the records as they are matched;
* deferred terms, which have to wait until further aliases are matched.

*Matched* aliases are the root and the targets of optional matches; *scoped* aliases
live inside one existential and are nobody else's business.  The aliases of either kind
are counted as they are added, and a new alias is named by the count: the `n`-th matched
one after the root is the root's name followed by `n`, the `n`-th scoped one the root's
name followed by `_n`.
-/

namespace GraphSearch.Matching

/-- An alias of the query being compiled. -/
structure Alias where
  name : String
  isScoped : Bool
  deriving DecidableEq, Repr, Inhabited

/-- The place of an alias in the list of aliases. -/
abbrev AliasId := Nat

/-- What is known while a filter is compiled. -/
structure Context where
  options : Options
  /-- How many negated groups are open. -/
  negations : Nat
  /-- All aliases, the root first. -/
  aliases : List Alias
  /-- The number of matched aliases, the root included. -/
  matchedCount : Nat
  /-- The number of scoped aliases. -/
  scopedCount : Nat
  /-- What the names declared by the filter stand for. -/
  bindings : List (String × String)
  patterns : List (AliasId × Pattern)
  attached : List (AliasId × List Formula)
  deferred : List (AliasId × List Formula)
  /-- The counts keep up with the list. -/
  matchedCount_eq : matchedCount = (aliases.filter fun a => !a.isScoped).length
  scopedCount_eq : scopedCount = (aliases.filter fun a => a.isScoped).length
  deriving Repr

namespace Context

/-- The root alias. -/
def root : AliasId := 0

/-- The context before anything is compiled: the root alias alone, which can be
referred to by its own name with a dollar sign. -/
def start (options : Options) : Context where
  options
  negations := 0
  aliases := [⟨options.rootAlias, false⟩]
  matchedCount := 1
  scopedCount := 0
  bindings := [("$" ++ options.rootAlias, options.rootAlias)]
  patterns := []
  attached := []
  deferred := []
  matchedCount_eq := rfl
  scopedCount_eq := rfl

/-! ## 1.  Aliases -/

theorem length_filter_concat (p : Alias → Bool) (aliases : List Alias) (a : Alias) :
    ((aliases ++ [a]).filter p).length = (aliases.filter p).length + (p a).toNat := by
  cases h : p a <;> simp [h]

theorem matchedCount_concat (context : Context) (a : Alias) :
    context.matchedCount + (!a.isScoped).toNat =
      ((context.aliases ++ [a]).filter fun a => !a.isScoped).length := by
  rw [length_filter_concat, ← context.matchedCount_eq]

theorem scopedCount_concat (context : Context) (a : Alias) :
    context.scopedCount + a.isScoped.toNat =
      ((context.aliases ++ [a]).filter fun a => a.isScoped).length := by
  rw [length_filter_concat, ← context.scopedCount_eq]

/-- A new matched alias. -/
def addMatched (context : Context) : AliasId × Context :=
  let added : Alias := ⟨context.options.rootAlias ++ toString context.matchedCount, false⟩
  (context.aliases.length, { context with
    aliases := context.aliases ++ [added]
    matchedCount := context.matchedCount + 1
    matchedCount_eq := context.matchedCount_concat added
    scopedCount_eq := context.scopedCount_concat added })

/-- A new scoped alias. -/
def addScoped (context : Context) : AliasId × Context :=
  let added : Alias :=
    ⟨context.options.rootAlias ++ "_" ++ toString (context.scopedCount + 1), true⟩
  (context.aliases.length, { context with
    aliases := context.aliases ++ [added]
    scopedCount := context.scopedCount + 1
    matchedCount_eq := context.matchedCount_concat added
    scopedCount_eq := context.scopedCount_concat added })

/-- The name of an alias; a place without an alias has no name. -/
def nameOf (context : Context) (id : AliasId) : String :=
  match context.aliases[id]? with
  | some a => a.name
  | none => ""

/-- The places of the matched aliases, the root first. -/
def matchedIds (context : Context) : List AliasId :=
  (context.aliases.zipIdx.filter fun entry => !entry.1.isScoped).map Prod.snd

/-- The names of the matched aliases, the root first. -/
def matchedNames (context : Context) : List String :=
  (context.aliases.filter fun a => !a.isScoped).map Alias.name

/-- Lets a name declared by the filter stand for an alias. -/
def bind (context : Context) (declared : String) (id : AliasId) : Context :=
  { context with bindings := Table.insert declared (context.nameOf id) context.bindings }

/-! ## 2.  Patterns and terms -/

/-- The pattern of an alias. -/
def pattern? (context : Context) (id : AliasId) : Option Pattern :=
  Table.find? id context.patterns

/-- Sets the pattern of an alias. -/
def setPattern (context : Context) (id : AliasId) (pattern : Pattern) : Context :=
  { context with patterns := Table.insert id pattern context.patterns }

/-- The terms attached to the pattern of an alias. -/
def attached? (context : Context) (id : AliasId) : Option (List Formula) :=
  Table.find? id context.attached

/-- Attaches terms to the pattern of an alias. -/
def attach (context : Context) (id : AliasId) (terms : List Formula) : Context :=
  { context with attached := Table.insert id terms context.attached }

/-- Adds to the deferred terms of an alias. -/
def defer (context : Context) (id : AliasId) (terms : List Formula) : Context :=
  let pending := (Table.find? id context.deferred).getD []
  { context with deferred := Table.insert id (pending ++ terms) context.deferred }

/-- Takes the deferred terms of an alias away. -/
def takeDeferred (context : Context) (id : AliasId) : Option (List Formula) × Context :=
  (Table.find? id context.deferred,
    { context with deferred := Table.erase id context.deferred })

/-- Terms of some alias are still deferred. -/
def hasDeferred (context : Context) : Bool := !context.deferred.isEmpty

/-! ## 3.  Negation -/

/-- A negated group is open. -/
def inNegation (context : Context) : Bool := 0 < context.negations

end Context
end GraphSearch.Matching
