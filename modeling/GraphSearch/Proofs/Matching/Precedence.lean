import GraphSearch.Matching.Formula
/-!
# Reading conditions with precedence

A condition is a sequence of tokens: tests that are read as they stand, parentheses, `NOT`, and
the connectives.  Here it is evaluated the way the query language reads it, whatever wrote it:
`NOT` binds tighter than `AND`, this tighter than `XOR`, and this tighter than `OR`.

`read` goes over the tokens once.  What stands between two parentheses is gathered as a flat
sequence of truth values, negations and connectives (a *frame*), the frames around it wait on a
stack, and a frame is evaluated when its parenthesis is closed, by splitting it at the loosest
connective first (`evaluate`).  A sequence that is no condition has no value.

* `tokens`, `spell_tokens`: the tokens of a formula, which spell its text;
* `read_tokens_append`: wherever a formula stands, reading it adds its value to the open frame
  and leaves the frames around it alone;
* `value?_tokens`, `value?_joined_and`: so a formula has the value its structure gives it, and
  so has a conjunction that is written without parentheses.
-/

namespace GraphSearch.Matching

/-! ## 1.  Tokens -/

/-- A piece of a condition. -/
inductive Token where
  /-- A test, which is not looked into. -/
  | atom (text : String)
  | opening
  | closing
  | not
  | op (connective : Connective)
  deriving DecidableEq, Repr

/-- The text of a token. -/
def Token.text : Token → String
  | .atom text => text
  | .opening => "("
  | .closing => ")"
  | .not => "NOT "
  | .op .and => " AND "
  | .op .xor => " XOR "
  | .op .or => " OR "

/-- Formulas are joined by the connectives as they are read. -/
theorem joiner_eq_text (connective : Connective) :
    connective.joiner = (Token.op connective).text := by
  cases connective <;> rfl

/-- The text of a sequence of tokens. -/
def spell : List Token → String
  | [] => ""
  | token :: tokens => token.text ++ spell tokens

@[simp] theorem spell_nil : spell [] = "" := rfl

@[simp] theorem spell_cons (token : Token) (tokens : List Token) :
    spell (token :: tokens) = token.text ++ spell tokens := rfl

@[simp] theorem spell_append (tokens others : List Token) :
    spell (tokens ++ others) = spell tokens ++ spell others := by
  induction tokens with
  | nil => simp
  | cons token tokens ih => rw [List.cons_append, spell_cons, ih, spell_cons, String.append_assoc]

/-- Sequences of tokens with a connective between them. -/
def joined (connective : Connective) (members : List (List Token)) : List Token :=
  [Token.op connective].intercalate members

/-- What comes after the first of several sequences, each of them after a separator. -/
theorem intercalate_singleton_cons {α : Type} (separator : α) (first : List α)
    (others : List (List α)) : [separator].intercalate (first :: others)
      = first ++ others.flatMap fun other => separator :: other := by
  induction others generalizing first with
  | nil => simp
  | cons second others ih =>
    rw [List.intercalate_cons_cons, ih second, List.flatMap_cons, List.append_assoc,
      List.singleton_append, List.cons_append]

@[simp] theorem spell_joined (connective : Connective) (members : List (List Token)) :
    spell (joined connective members) = connective.joiner.intercalate (members.map spell) := by
  induction members with
  | nil => rfl
  | cons first members ih =>
    cases members with
    | nil => simp [joined]
    | cons second members =>
      rw [joined] at ih ⊢
      rw [List.intercalate_cons_cons, spell_append, spell_append, ih]
      simp [String.intercalate_cons_cons, joiner_eq_text]

/-! ## 2.  Reading -/

/-- What is gathered between two parentheses. -/
inductive Symbol where
  | value (b : Bool)
  | not
  | op (connective : Connective)
  deriving DecidableEq, Repr

/-- The truth of members that a connective joins; `XOR` asks for an odd number of them. -/
def Connective.truth : Connective → List Bool → Bool
  | .and, members => members.all id
  | .or, members => members.any id
  | .xor, members => members.count true % 2 == 1

/-- The value of an operand: a truth value after any number of negations. -/
def operand : List Symbol → Option Bool
  | [.value b] => some b
  | .not :: symbols => (operand symbols).map not
  | _ => none

/-- The value of symbols that are split at a connective, given how the pieces are evaluated. -/
def splitAt (connective : Connective) (piece : List Symbol → Option Bool)
    (symbols : List Symbol) : Option Bool :=
  ((symbols.splitOn (.op connective)).mapM piece).map connective.truth

/-- The value of a flat sequence of symbols: the loosest connective is split at first. -/
def evaluate : List Symbol → Option Bool :=
  splitAt .or (splitAt .xor (splitAt .and operand))

/-- The value of the tokens that are left, with the open frame and those around it. -/
def read (v : String → Bool) : List Token → List Symbol → List (List Symbol) → Option Bool
  | [], frame, [] => evaluate frame
  | [], _, _ :: _ => none
  | .atom text :: tokens, frame, outer => read v tokens (frame ++ [.value (v text)]) outer
  | .not :: tokens, frame, outer => read v tokens (frame ++ [.not]) outer
  | .op connective :: tokens, frame, outer => read v tokens (frame ++ [.op connective]) outer
  | .opening :: tokens, frame, outer => read v tokens [] (frame :: outer)
  | .closing :: tokens, frame, around :: outer =>
    (evaluate frame).bind fun b => read v tokens (around ++ [.value b]) outer
  | .closing :: _, _, [] => none

/-- The value of a condition when its tests have the values `v` gives them. -/
def value? (v : String → Bool) (tokens : List Token) : Option Bool := read v tokens [] []

/-- `AND` before `XOR` before `OR`, and `NOT` before all of them. -/
example : value? (fun text => text == "t")
    [.atom "t", .op .or, .atom "t", .op .xor, .not, .atom "f", .op .and, .atom "f"]
      = some true := by decide +kernel

/-! ## 3.  Frames of one connective -/

/-- The symbols of members that a connective joins. -/
def joinedSymbols (connective : Connective) (members : List (List Symbol)) : List Symbol :=
  [Symbol.op connective].intercalate members

/-- A value that may be negated: what a formula adds to the open frame. -/
def IsOperand (symbols : List Symbol) (b : Bool) : Prop :=
  operand symbols = some b ∧ ∀ connective, .op connective ∉ symbols

theorem isOperand_value (b : Bool) : IsOperand [.value b] b := by
  refine ⟨rfl, fun connective h => ?_⟩
  simp at h

theorem IsOperand.not {symbols : List Symbol} {b : Bool} (h : IsOperand symbols b) :
    IsOperand (.not :: symbols) (!b) := by
  obtain ⟨hvalue, hop⟩ := h
  refine ⟨?_, fun connective hmem => ?_⟩
  · rw [operand, hvalue]
    rfl
  · rcases List.mem_cons.mp hmem with heq | hmem
    · exact absurd heq (by simp)
    · exact hop connective hmem

section

variable {connective other : Connective} {piece : List Symbol → Option Bool}

theorem truth_singleton (connective : Connective) (b : Bool) : connective.truth [b] = b := by
  cases connective <;> cases b <;> rfl

/-- Nothing is split where the connective does not occur. -/
theorem splitAt_of_notMem {symbols : List Symbol} (h : .op connective ∉ symbols) :
    splitAt connective piece symbols = piece symbols := by
  rw [splitAt, List.splitOn_eq_singleton h]
  cases hpiece : piece symbols with
  | none => simp [hpiece]
  | some b => simp [hpiece, truth_singleton]

/-- Members without the connective are evaluated one by one. -/
theorem splitAt_joinedSymbols {members : List (List Symbol)} {values : List Bool}
    (hne : members ≠ []) (hop : ∀ member ∈ members, .op connective ∉ member)
    (hpiece : members.mapM piece = some values) :
    splitAt connective piece (joinedSymbols connective members)
      = some (connective.truth values) := by
  rw [splitAt, joinedSymbols, List.splitOn_intercalate _ hop hne, hpiece]
  rfl

theorem op_notMem_joinedSymbols {members : List (List Symbol)} (hne : other ≠ connective)
    (hop : ∀ member ∈ members, .op other ∉ member) :
    .op other ∉ joinedSymbols connective members := by
  induction members with
  | nil => simp [joinedSymbols]
  | cons first members ih =>
    have hfirst := hop first List.mem_cons_self
    have hrest := ih fun member hmem => hop member (List.mem_cons_of_mem first hmem)
    cases members with
    | nil => simpa [joinedSymbols] using hfirst
    | cons second members =>
      rw [joinedSymbols] at hrest ⊢
      rw [List.intercalate_cons_cons]
      simp [hfirst, hrest, hne]

end

section

variable {α : Type} {members : List α} {symbols : α → List Symbol} {value : α → Bool}

theorem mapM_map_eq_some {piece : List Symbol → Option Bool}
    (h : ∀ member ∈ members, piece (symbols member) = some (value member)) :
    (members.map symbols).mapM piece = some (members.map value) := by
  induction members with
  | nil => rfl
  | cons first members ih =>
    have hrest := ih fun member hmem => h member (List.mem_cons_of_mem first hmem)
    rw [List.map_cons, List.mapM_cons, h first List.mem_cons_self, hrest]
    rfl

/-- A frame that one connective joins has the value the connective gives its members. -/
theorem evaluate_joinedSymbols (connective : Connective) (hne : members ≠ [])
    (h : ∀ member ∈ members, IsOperand (symbols member) (value member)) :
    evaluate (joinedSymbols connective (members.map symbols))
      = some (connective.truth (members.map value)) := by
  have hne' : members.map symbols ≠ [] := by simpa using hne
  have hop : ∀ c, ∀ s ∈ members.map symbols, Symbol.op c ∉ s := by
    intro c s hs
    obtain ⟨member, hmem, rfl⟩ := List.mem_map.mp hs
    exact (h member hmem).2 c
  -- a member alone has the same value at every level
  have hand : ∀ member ∈ members,
      splitAt .and operand (symbols member) = some (value member) := by
    intro member hmem
    rw [splitAt_of_notMem ((h member hmem).2 .and)]
    exact (h member hmem).1
  have hxor : ∀ member ∈ members,
      splitAt .xor (splitAt .and operand) (symbols member) = some (value member) := by
    intro member hmem
    rw [splitAt_of_notMem ((h member hmem).2 .xor)]
    exact hand member hmem
  rw [evaluate]
  cases connective with
  | or => exact splitAt_joinedSymbols hne' (hop .or) (mapM_map_eq_some hxor)
  | xor =>
    rw [splitAt_of_notMem (op_notMem_joinedSymbols (by decide) (hop .or))]
    exact splitAt_joinedSymbols hne' (hop .xor) (mapM_map_eq_some hand)
  | and =>
    rw [splitAt_of_notMem (op_notMem_joinedSymbols (by decide) (hop .or)),
      splitAt_of_notMem (op_notMem_joinedSymbols (by decide) (hop .xor))]
    exact splitAt_joinedSymbols hne' (hop .and)
      (mapM_map_eq_some fun member hmem => (h member hmem).1)

end

/-! ## 4.  Formulas as tokens -/

namespace Formula

mutual

/-- The tokens of a formula; an existential is one test. -/
def tokens : Formula → List Token
  | .atom test => [.atom test.text]
  | .group connective first others =>
    .opening :: (joined connective (tokens first :: tokensAll others) ++ [.closing])
  | .negation connective first others =>
    .not :: .opening :: (joined connective (tokens first :: tokensAll others) ++ [.closing])
  | .existential pattern terms => [.atom (text (.existential pattern terms))]

/-- The tokens of each formula of a list. -/
def tokensAll : List Formula → List (List Token)
  | [] => []
  | formula :: formulas => tokens formula :: tokensAll formulas

end

@[simp] theorem tokensAll_eq_map (formulas : List Formula) :
    tokensAll formulas = formulas.map tokens := by
  induction formulas with
  | nil => rfl
  | cons formula formulas ih => simp [tokensAll, ih]

mutual

/-- The truth of a formula when its tests have the values `v` gives them. -/
def holds (v : String → Bool) : Formula → Bool
  | .atom test => v test.text
  | .group connective first others => connective.truth (holds v first :: holdsAll v others)
  | .negation connective first others => !connective.truth (holds v first :: holdsAll v others)
  | .existential pattern terms => v (text (.existential pattern terms))

/-- The truth of each formula of a list. -/
def holdsAll (v : String → Bool) : List Formula → List Bool
  | [] => []
  | formula :: formulas => holds v formula :: holdsAll v formulas

end

@[simp] theorem holdsAll_eq_map (v : String → Bool) (formulas : List Formula) :
    holdsAll v formulas = formulas.map (holds v) := by
  induction formulas with
  | nil => rfl
  | cons formula formulas ih => simp [holdsAll, ih]

/-- What a formula adds to the open frame. -/
def symbols (v : String → Bool) : Formula → List Symbol
  | .negation connective first others =>
    [.not, .value (connective.truth (holds v first :: holdsAll v others))]
  | formula => [.value (holds v formula)]

theorem isOperand_symbols (v : String → Bool) (formula : Formula) :
    IsOperand (formula.symbols v) (formula.holds v) := by
  cases formula with
  | negation connective first others =>
    rw [symbols, holds]
    exact (isOperand_value _).not
  | atom _ | group _ _ _ | existential _ _ => exact isOperand_value _

mutual

/-- The tokens of a formula spell its text. -/
theorem spell_tokens (formula : Formula) : spell formula.tokens = formula.text := by
  match formula with
  | .atom test =>
    show test.text ++ "" = test.text
    rw [String.append_empty]
  | .group connective first others =>
    have hfirst := spell_tokens first
    have hothers := spell_tokensAll others
    rw [tokens, text_group, spell_cons, spell_append, spell_joined, List.map_cons, hfirst,
      hothers, spell_cons, spell_nil, String.append_empty, ← String.append_assoc]
    rfl
  | .negation connective first others =>
    have hfirst := spell_tokens first
    have hothers := spell_tokensAll others
    rw [tokens, text_negation, spell_cons, spell_cons, spell_append, spell_joined, List.map_cons,
      hfirst, hothers, spell_cons, spell_nil, String.append_empty]
    have hnot : "NOT (" = "NOT " ++ "(" := by decide +kernel
    rw [hnot, String.append_assoc, String.append_assoc]
    rfl
  | .existential pattern terms =>
    show text (.existential pattern terms) ++ "" = text (.existential pattern terms)
    rw [String.append_empty]

theorem spell_tokensAll (formulas : List Formula) :
    (tokensAll formulas).map spell = texts formulas := by
  match formulas with
  | [] => rfl
  | formula :: formulas =>
    rw [tokensAll, texts, List.map_cons, spell_tokens formula, spell_tokensAll formulas]

end

/-! ## 5.  Reading formulas back -/

/-- Formulas that a connective joins have, as a frame, the value it gives them. -/
theorem evaluate_members (v : String → Bool) (connective : Connective) (first : Formula)
    (others : List Formula) :
    evaluate (symbols v first ++ (others.map (symbols v)).flatMap
        fun member => .op connective :: member)
      = some (connective.truth (holds v first :: holdsAll v others)) := by
  have h := evaluate_joinedSymbols connective (List.cons_ne_nil first others)
    fun member _ => isOperand_symbols v member
  rw [joinedSymbols, List.map_cons, intercalate_singleton_cons, List.map_cons] at h
  rw [holdsAll_eq_map]
  exact h

mutual

/-- Wherever a formula stands, reading it adds its value to the open frame. -/
theorem read_tokens_append (v : String → Bool) (formula : Formula) (rest : List Token)
    (frame : List Symbol) (outer : List (List Symbol)) :
    read v (formula.tokens ++ rest) frame outer
      = read v rest (frame ++ formula.symbols v) outer := by
  match formula with
  | .atom test => rfl
  | .group connective first others =>
    rw [tokens, List.cons_append, read, List.append_assoc, joined, intercalate_singleton_cons,
      List.append_assoc, read_tokens_append v first, read_tokensAll_append v connective others,
      List.nil_append, List.singleton_append, read, evaluate_members]
    rfl
  | .negation connective first others =>
    rw [tokens, List.cons_append, List.cons_append, read, read, List.append_assoc, joined,
      intercalate_singleton_cons, List.append_assoc, read_tokens_append v first,
      read_tokensAll_append v connective others, List.nil_append, List.singleton_append, read,
      evaluate_members, Option.bind_some, List.append_assoc, List.singleton_append, symbols]
  | .existential pattern terms => rfl

/-- The same for the further members of a group, each after its connective. -/
theorem read_tokensAll_append (v : String → Bool) (connective : Connective)
    (formulas : List Formula) (rest : List Token) (frame : List Symbol)
    (outer : List (List Symbol)) :
    read v (((tokensAll formulas).flatMap fun member => .op connective :: member) ++ rest)
        frame outer
      = read v rest (frame ++ (formulas.map (symbols v)).flatMap
          fun member => .op connective :: member) outer := by
  match formulas with
  | [] => simp [tokensAll]
  | formula :: formulas =>
    rw [tokensAll, List.flatMap_cons, List.cons_append, List.cons_append, read,
      List.append_assoc, read_tokens_append v formula, read_tokensAll_append v connective formulas]
    simp

end

/-- A formula has, as text, the value its structure gives it. -/
theorem value?_tokens (v : String → Bool) (formula : Formula) :
    value? v formula.tokens = some (formula.holds v) := by
  have hread := read_tokens_append v formula [] [] []
  have hvalue := evaluate_members v .and formula []
  rw [List.append_nil, List.nil_append, read] at hread
  rw [List.map_nil, List.flatMap_nil, List.append_nil, holdsAll, truth_singleton] at hvalue
  rw [value?, hread, hvalue]

/-- A conjunction of formulas without parentheses around it has the value of the conjunction. -/
theorem value?_joined_and (v : String → Bool) (first : Formula) (others : List Formula) :
    value? v (joined .and ((first :: others).map tokens))
      = some ((first :: others).all (holds v)) := by
  have hread := read_tokens_append v first
    (((tokensAll others).flatMap fun member => .op .and :: member) ++ []) [] []
  rw [read_tokensAll_append, List.nil_append, read, evaluate_members, List.append_nil,
    tokensAll_eq_map] at hread
  rw [value?, joined, List.map_cons, intercalate_singleton_cons, hread]
  simp [Connective.truth, List.all_map]

end Formula
end GraphSearch.Matching
