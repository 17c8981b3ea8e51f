/-!
# Taking values off a text

What a reader returns is a value and what is left of the text after it.  `Taken`
carries the proof that at least one character is gone, and that proof is what every
loop over readers terminates by.
-/

namespace GraphSearch

/-- A value taken off the front of `text`, and what is left after it. -/
structure Taken (α : Type) (text : List Char) where
  value : α
  rest : List Char
  shorter : rest.length < text.length

namespace Taken

/-- The same value, taken off a longer text that ends in the shorter one. -/
def widen {α : Type} {short long : List Char} (taken : Taken α short)
    (h : short.length ≤ long.length) : Taken α long :=
  ⟨taken.value, taken.rest, Nat.lt_of_lt_of_le taken.shorter h⟩

/-- The same value, taken off a text with one more character in front. -/
def past {α : Type} {text : List Char} (c : Char) (taken : Taken α text) : Taken α (c :: text) :=
  taken.widen (Nat.le_succ text.length)

/-- Another value in the place of the one taken. -/
def map {α β : Type} {text : List Char} (f : α → β) (taken : Taken α text) : Taken β text :=
  ⟨f taken.value, taken.rest, taken.shorter⟩

end Taken
end GraphSearch
