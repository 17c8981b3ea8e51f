import GraphSearch.Criteria.Directive
import GraphSearch.Cypher.Name
/-!
# Formulas

A filter is compiled to formulas, and only these are written as text.  An atom is a
test the store answers by itself; groups and negations combine formulas; and an
existential asks whether a pattern has a match in which all its terms hold.

Every group is written in parentheses and a negation is written of a group only, so
the text of a formula can stand in any other without changing how either is read.
-/

namespace GraphSearch.Matching

open Criteria (Relation)

/-! ## 1.  Patterns -/

/-- A pattern of records to match. -/
inductive Pattern where
  /-- Records with a label that are related to those of another alias. -/
  | hop (parent : String) (relation : Relation) (child label : String)
  /-- A pattern that is already written. -/
  | verbatim (text : String)
  deriving DecidableEq, Repr, Inhabited

/-- The arrow of a relation between two records. -/
def arrow (relation : Relation) : String :=
  let type := match relation.type with
    | some type => "[:" ++ Cypher.quoted type ++ "]"
    | none => ""
  match relation.direction with
  | .outgoing => "-" ++ type ++ "->"
  | .incoming => "<-" ++ type ++ "-"
  | .undirected => "-" ++ type ++ "-"

/-- The text of a pattern. -/
def Pattern.text : Pattern → String
  | .hop parent relation child label =>
    "(" ++ parent ++ ")" ++ arrow relation ++ "(" ++ child ++ ":" ++ Cypher.quoted label ++ ")"
  | .verbatim text => text

/-! ## 2.  Formulas -/

/-- A test the store answers by itself. -/
inductive Atom where
  /-- A predicate on the records of an alias. -/
  | predicate (node text : String)
  /-- The records of an alias were matched. -/
  | present (node : String)
  /-- A test that is already written. -/
  | verbatim (text : String)
  deriving DecidableEq, Repr, Inhabited

/-- The text of an atom. -/
def Atom.text : Atom → String
  | .predicate _ text => text
  | .present node => node ++ " IS NOT NULL"
  | .verbatim text => text

/-- What joins the members of a group. -/
inductive Connective where
  | and | or | xor
  deriving DecidableEq, Repr, Inhabited

/-- A connective between two members. -/
def Connective.joiner : Connective → String
  | .and => " AND "
  | .or => " OR "
  | .xor => " XOR "

/-- A formula over tests of records.  What is grouped or negated is never empty, so every
formula has a text that can be read back. -/
inductive Formula where
  | atom (atom : Atom)
  | group (connective : Connective) (first : Formula) (others : List Formula)
  | negation (connective : Connective) (first : Formula) (others : List Formula)
  | existential (pattern : Pattern) (terms : List Formula)
  deriving Repr, Inhabited

/-- The text of a conjunction that needs no parentheses. -/
def joinAnd (texts : List String) : String := Connective.and.joiner.intercalate texts

namespace Formula

mutual

/-- The text of a formula. -/
def text : Formula → String
  | .atom test => test.text
  | .group connective first others =>
    "(" ++ connective.joiner.intercalate (text first :: texts others) ++ ")"
  | .negation connective first others =>
    "NOT (" ++ connective.joiner.intercalate (text first :: texts others) ++ ")"
  | .existential pattern [] => "EXISTS \x7b MATCH " ++ pattern.text ++ " \x7d"
  | .existential pattern (term :: terms) =>
    "EXISTS \x7b MATCH " ++ pattern.text ++ " WHERE " ++ joinAnd (text term :: texts terms)
      ++ " \x7d"

/-- The texts of a list of formulas. -/
def texts : List Formula → List String
  | [] => []
  | formula :: formulas => text formula :: texts formulas

end

@[simp] theorem texts_eq_map (formulas : List Formula) : texts formulas = formulas.map text := by
  induction formulas with
  | nil => rfl
  | cons formula formulas ih => simp [texts, ih]

@[simp] theorem text_atom (test : Atom) : text (.atom test) = test.text := rfl

@[simp] theorem text_group (connective : Connective) (first : Formula) (others : List Formula) :
    text (.group connective first others) =
      "(" ++ connective.joiner.intercalate (text first :: texts others) ++ ")" := rfl

@[simp] theorem text_negation (connective : Connective) (first : Formula)
    (others : List Formula) : text (.negation connective first others) =
      "NOT (" ++ connective.joiner.intercalate (text first :: texts others) ++ ")" := rfl

theorem text_existential_nil (pattern : Pattern) : text (.existential pattern []) =
    "EXISTS \x7b MATCH " ++ pattern.text ++ " \x7d" := rfl

theorem text_existential_cons (pattern : Pattern) (term : Formula) (terms : List Formula) :
    text (.existential pattern (term :: terms)) = "EXISTS \x7b MATCH " ++ pattern.text
      ++ " WHERE " ++ joinAnd ((term :: terms).map text) ++ " \x7d" := by
  rw [List.map_cons, ← texts_eq_map]
  rfl

end Formula
end GraphSearch.Matching
