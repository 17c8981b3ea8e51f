import Mathlib.Logic.Function.Basic
import GraphSearch.Matching.Formula
import GraphSearch.Proofs.Cypher.Name
/-!
# Patterns are told apart

A pattern is written with brackets, dashes and colons, and with a type and a label that may have all
of these in them.  It can be read in one way only, from left to right: the first character tells
whether the arrow comes in (`arrow_eq`), a bracket behind the dash whether there is a type, the
backtick that stands alone where the type ends (`Cypher.quoted_append_inj`), and the character
behind the other dash whether the arrow goes out.

* `arrow_append_inj`: an arrow is told apart from the record behind it, whatever that is;
* `hop_text_injective`: between two aliases, a pattern determines its relation and its label;
* `names_survive_quoting`: what holds of quoted names, of names and of patterns, together.
-/

namespace GraphSearch.Matching

open Criteria (Direction Relation)
open Cypher

/-! ## 1.  Arrows -/

/-- The type of a relation in an arrow. -/
def typeText : Option String → String
  | some type => "[:" ++ quoted type ++ "]"
  | none => ""

/-- A mark that stands at one end of some arrows. -/
def optionalMark (mark : Char) (stands : Bool) : String := if stands then mark.toString else ""

theorem arrow_eq (relation : Relation) :
    arrow relation = optionalMark '<' (relation.direction = .incoming) ++ ("-" ++
      (typeText relation.type ++ ("-" ++ optionalMark '>' (relation.direction = .outgoing)))) := by
  obtain ⟨type, direction⟩ := relation
  apply String.toList_injective
  cases direction <;> cases type <;> simp [arrow, optionalMark, typeText, Char.toString]

theorem optionalMark_append_inj {mark : Char} {stands other : Bool} {rest more : String}
    (hrest : rest.toList.head? ≠ some mark) (hmore : more.toList.head? ≠ some mark)
    (h : optionalMark mark stands ++ rest = optionalMark mark other ++ more) :
    stands = other ∧ rest = more := by
  have hhead := congrArg (fun text => text.toList.head?) h
  cases stands <;> cases other
  · exact ⟨rfl, by simpa [optionalMark] using h⟩
  · exact absurd (by simpa [optionalMark, Char.toString] using hhead) hrest
  · exact absurd (by simpa [optionalMark, Char.toString] using hhead.symm) hmore
  · exact ⟨rfl, (String.append_right_inj _).mp h⟩

theorem typeText_append_inj {type other : Option String} {rest more : String}
    (h : typeText type ++ ("-" ++ rest) = typeText other ++ ("-" ++ more)) :
    type = other ∧ rest = more := by
  cases type with
  | none =>
    cases other with
    | none => exact ⟨rfl, by simpa [typeText] using h⟩
    | some type =>
      have hhead := congrArg (fun text => text.toList.head?) h
      simp [typeText] at hhead
  | some type =>
    cases other with
    | none =>
      have hhead := congrArg (fun text => text.toList.head?) h
      simp [typeText] at hhead
    | some other =>
      simp only [typeText, String.append_assoc, String.append_right_inj] at h
      obtain ⟨rfl, h⟩ := quoted_append_inj (by simp) (by simp) h
      exact ⟨rfl, by simpa using h⟩

/-- An arrow and what follows it, the bracket of a record first, are told apart. -/
theorem arrow_append_inj {relation other : Relation} {rest more : String}
    (h : arrow relation ++ ("(" ++ rest) = arrow other ++ ("(" ++ more)) :
    relation = other ∧ rest = more := by
  obtain ⟨type, direction⟩ := relation
  obtain ⟨type', direction'⟩ := other
  simp only [arrow_eq, String.append_assoc] at h
  obtain ⟨htail, h⟩ := optionalMark_append_inj (by simp) (by simp) h
  obtain ⟨rfl, h⟩ := typeText_append_inj ((String.append_right_inj "-").mp h)
  obtain ⟨htip, hnode⟩ := optionalMark_append_inj (by simp) (by simp) h
  have hdirection : direction = direction' := by
    cases direction <;> cases direction' <;> first | rfl | simp at htail htip
  subst hdirection
  exact ⟨rfl, (String.append_right_inj "(").mp hnode⟩

/-! ## 2.  Patterns -/

/-- Between the same two aliases, a pattern determines its relation and its label. -/
theorem hop_text_injective (parent child : String) :
    Function.Injective fun hop : Relation × String => (Pattern.hop parent hop.1 child hop.2).text := by
  rintro ⟨relation, label⟩ ⟨other, label'⟩ h
  simp only [Pattern.text, String.append_assoc, String.append_right_inj] at h
  obtain ⟨rfl, h⟩ := arrow_append_inj h
  simp only [String.append_right_inj, String.append_left_inj] at h
  obtain rfl := quoted_injective h
  rfl

/-- **Names survive quoting.**  A quoted name is read back as it was, whatever follows it; names are
told apart, and a plain one from any quoted one; and patterns between the same aliases are told
apart by their relation, with a type or without one, and by their label. -/
theorem names_survive_quoting :
    (∀ raw rest : String, rest.toList.head? ≠ some '`' →
      readQuoted? (quoted raw ++ rest) = some (raw, rest)) ∧
    Function.Injective name ∧ (∀ raw, isPlain (quoted raw) = false) ∧
    ∀ parent child : String, Function.Injective fun hop : Relation × String =>
      (Pattern.hop parent hop.1 child hop.2).text := by
  refine ⟨fun raw rest hrest => ?_, ?_, isPlain_quoted, hop_text_injective⟩
  · exact readQuoted?_eq_some_iff.mpr ⟨rfl, hrest⟩
  · intro raw other h
    exact name_injective h

/-- Backticks at both ends of a name, and two patterns that would be the same text if the backticks
inside of names were written once. -/
theorem names_survive_quoting_imitated :
    "]->(b)".toList.head? ≠ some '`' ∧ quoted "``a`" = "`````a```" ∧
    readQuoted? (quoted "``a`" ++ "]->(b)") = some ("``a`", "]->(b)") ∧
    name "`a`" ≠ name "a" ∧
    (Pattern.hop "r" { type := some "A`]-(s:`B" } "s" "C").text ≠
      (Pattern.hop "r" { type := some "A" } "s" "B`]-(s:`C").text := by
  obtain ⟨hread, hname, -, hpattern⟩ := names_survive_quoting
  refine ⟨by decide, rfl, hread _ _ (by decide), hname.ne (by decide), ?_⟩
  have hne : (({ type := some "A`]-(s:`B" } : Relation), "C") ≠
      ({ type := some "A" }, "B`]-(s:`C") := by decide
  exact fun heq => hne (hpattern "r" "s" heq)

end GraphSearch.Matching
