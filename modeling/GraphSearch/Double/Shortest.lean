import GraphSearch.Double
/-!
# The shortest decimal of a double

Among the decimals that read back as a given double there is a least number of
digits, and `shortest` finds a decimal with that many, the one nearest to the
double, an exact tie going to the even last digit.  It tries one digit, then two,
and so on; on each decimal grid only the two neighbours of the double matter,
because if any point of the grid reads back then one of these does.

`DecimalLayout` holds the decisions about how such a decimal is written, and
`Double.toText` writes it as numbers are written in JSON text.
-/

namespace GraphSearch
namespace Magnitude

/-! ## 1.  The interval that reads back -/

/-- A double together with the two ends of the interval that rounds to it, all in
one unit `1 / unit`. -/
structure Interval where
  value : Nat
  below : Nat
  above : Nat
  unit : Nat
  /-- Whether the ends themselves round to the double. -/
  closed : Bool

/-- The interval of a canonical magnitude.  It reaches half a step to both sides,
save that below a power of two the steps are half as wide. -/
def interval (x : Magnitude) : Interval :=
  let scale := Nat.pow 2 x.exponent.toNat
  let narrow := x.significand = Nat.pow 2 52 ∧ minExponent < x.exponent
  { value := 4 * x.significand * scale
    below := if narrow then scale else 2 * scale
    above := 2 * scale
    unit := 4 * Nat.pow 2 (-x.exponent).toNat
    closed := x.significand % 2 = 0 }

/-- Whether `digits · 10 ^ exponent` lies in the interval. -/
def Interval.contains (i : Interval) (digits : Nat) (exponent : Int) : Bool :=
  let point := digits * Nat.pow 10 exponent.toNat * i.unit
  let low := (i.value - i.below) * Nat.pow 10 (-exponent).toNat
  let high := (i.value + i.above) * Nat.pow 10 (-exponent).toNat
  if i.closed then low ≤ point && point ≤ high else low < point && point < high

/-- How far `digits · 10 ^ exponent` is from the double, in a unit that depends on the
exponent alone. -/
def Interval.distance (i : Interval) (digits : Nat) (exponent : Int) : Nat :=
  let point := digits * Nat.pow 10 exponent.toNat * i.unit
  let value := i.value * Nat.pow 10 (-exponent).toNat
  (point - value) + (value - point)

/-! ## 2.  The search -/

/-- The number of decimal digits of a positive natural. -/
def digitCount (n : Nat) : Nat := (Nat.toDigits 10 n).length

/-- The decimal exponent of the leading digit of a positive double.  All doubles
exceed `10 ^ -400`, so the value is counted in that unit. -/
def leadingExponent (i : Interval) : Int :=
  (digitCount (i.value * Nat.pow 10 400 / i.unit) : Int) - 401

/-- The neighbour of the double on the grid `10 ^ exponent` that reads back, the
nearer of two, the even one on a tie. -/
def onGrid (i : Interval) (exponent : Int) : Option Nat :=
  let down := i.value * Nat.pow 10 (-exponent).toNat / (i.unit * Nat.pow 10 exponent.toNat)
  let up := down + 1
  match i.contains down exponent, i.contains up exponent with
  | true, true =>
    let toDown := i.distance down exponent
    let toUp := i.distance up exponent
    if toDown < toUp ∨ (toDown = toUp ∧ down % 2 = 0) then some down else some up
  | true, false => some down
  | false, true => some up
  | false, false => none

/-- Tries grids that are finer and finer.  With seventeen digits every double reads
back, so the last line is never reached from `shortest`. -/
def search (i : Interval) (leading : Int) : Nat → Nat → Nat × Int
  | _, 0 => (0, 0)
  | count, more + 1 =>
    let exponent := leading - count
    match onGrid i exponent with
    | some digits => (digits, exponent)
    | none => search i leading (count + 1) more

/-- Moves trailing zeros of the digits into the exponent. -/
def trim : Nat → Nat × Int → Nat × Int
  | 0, d => d
  | fuel + 1, (digits, exponent) =>
    if digits % 10 = 0 ∧ digits ≠ 0 then trim fuel (digits / 10, exponent + 1)
    else (digits, exponent)

/-- The digits and the decimal exponent of the shortest decimal that reads back. -/
def shortest (x : Magnitude) : Nat × Int :=
  if x.significand = 0 then (0, 0) else
    let i := x.interval
    trim 20 (search i (leadingExponent i) 0 18)

end Magnitude

/-! ## 3.  Writing -/

/-- The decisions of a number format: from which leading exponent on, and below
which one, a decimal is written out in full. -/
structure DecimalLayout where
  positionalFrom : Int
  positionalBelow : Int

/-- Numbers from `0.00001` up to, not including, `10 ^ 16` are written out in full and
always with a point; all others have one digit before the point and a signed exponent. -/
def DecimalLayout.json : DecimalLayout := ⟨-5, 16⟩

/-- `digits · 10 ^ exponent`, with `digits` nonzero, as the layout writes it. -/
def DecimalLayout.write (layout : DecimalLayout) (digits : Nat) (exponent : Int) : String :=
  let text := toString digits
  let leading : Int := exponent + text.length - 1
  if layout.positionalFrom ≤ leading ∧ leading < layout.positionalBelow then
    if 0 ≤ exponent then
      text ++ "".pushn '0' exponent.toNat ++ ".0"
    else if 0 ≤ leading then
      let whole := leading.toNat + 1
      String.ofList (text.toList.take whole) ++ "." ++ String.ofList (text.toList.drop whole)
    else
      "0." ++ "".pushn '0' (-leading - 1).toNat ++ text
  else
    let fraction := text.toList.drop 1
    let mantissa :=
      String.ofList (text.toList.take 1) ++
        (if fraction.isEmpty then "" else "." ++ String.ofList fraction)
    mantissa ++ "e" ++ (if leading < 0 then "-" else "+") ++ toString leading.natAbs

/-- The shortest text of a double; zero is `0.0`, with its sign. -/
def Double.toText (x : Double) : String :=
  let sign := if x.negative then "-" else ""
  let (digits, exponent) := x.magnitude.shortest
  sign ++ (if digits = 0 then "0.0" else DecimalLayout.json.write digits exponent)

end GraphSearch
