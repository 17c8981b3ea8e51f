import GraphSearch.Unicode.LowerCase.Table
import GraphSearch.Unicode.Ranges
/-!
# Full lower-casing

Every capital becomes its small letter, with two exceptions: `İ` becomes two
characters, and a capital sigma at the end of a word becomes `ς`.  The end of a word is
where a cased letter stands before and none after, characters such as apostrophes and
combining marks being passed over on both sides.
-/

namespace GraphSearch.Unicode

/-- The small letter of a character; one that is in none of the runs of capitals is its
own. -/
def smallLetter (c : Char) : Char :=
  let n := c.toNat
  match lowerRuns.find? fun run =>
      run.first ≤ n && n ≤ run.last && (n - run.first) % run.stride == 0 with
  | some run => Char.ofNat (n + run.offset).toNat
  | none => c

/-- The first character that is not passed over is a cased letter. -/
def startsCased (text : List Char) : Bool :=
  match text.dropWhile (inRanges ignorableRanges) with
  | [] => false
  | c :: _ => inRanges casedRanges c

/-- The lower-case form of `text`, before which stands `before`, read backwards. -/
def lowerAfter (before : List Char) : (text : List Char) → List Char
  | [] => []
  | c :: text =>
    let small :=
      if c = 'Σ' then [if startsCased before && !startsCased text then 'ς' else 'σ']
      else if c = 'İ' then ['i', '\u0307']
      else [smallLetter c]
    small ++ lowerAfter (c :: before) text

/-- The lower-case form of a text. -/
def toLower (text : String) : String := String.ofList (lowerAfter [] text.toList)

end GraphSearch.Unicode
