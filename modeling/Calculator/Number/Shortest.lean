import Calculator.Number.Binary64
import Calculator.Text.Basic

/-! # The shortest decimal of a double

Among the decimals that are read back as a given double, the shortest one has the fewest digits, and
of those the one nearest to the double is taken. `Shortest.digits` finds it on the exact values;
`Shortest.text` writes it, with an exponent only outside the range in which plain notation is short.
-/

namespace Calculator.Shortest

/-- The exponent of the power of ten at or just below a positive rational, searched upwards from a
guess within a number of steps. -/
def decadeFrom (x : Rat) (guess : Int) : Nat → Int
  | 0 => guess
  | steps + 1 => if (10 : Rat) ^ (guess + 1) ≤ x then decadeFrom x (guess + 1) steps else guess

/-- The exponent of the power of ten at or just below a positive rational. The guess takes 0.30103 for
the decimal logarithm of two, less one; for doubles it is too small by two at the most. -/
def decade (x : Rat) : Int :=
  decadeFrom x (Int.fdiv (Binary64.binade x * 30103) 100000 - 1) 3

/-- Whether the decimal `significand · 10 ^ exponent` is read back as the double nearest to `x`. -/
def readsBack (x : Rat) (exponent : Int) (significand : Nat) : Bool :=
  Binary64.nearest (significand * (10 : Rat) ^ exponent) == Binary64.nearest x

/-- The multiple of `10 ^ exponent` that is read back as `x`, if one of the two neighbours of `x` is.
If both are, it is the nearer one, and the even one on a tie. -/
def onGrid? (x : Rat) (exponent : Int) : Option Nat :=
  let scaled := x / (10 : Rat) ^ exponent
  let below := scaled.floor.toNat
  match readsBack x exponent below, readsBack x exponent (below + 1) with
  | true, true => some (Rounding.halfEven scaled).toNat
  | true, false => some below
  | false, true => some (below + 1)
  | false, false => none

/-- The first grid, from coarse to fine, that has such a multiple. -/
def digitsFrom (x : Rat) (exponent : Int) : Nat → Nat × Int
  | 0 => ((Rounding.halfEven (x / (10 : Rat) ^ exponent)).toNat, exponent)
  | more + 1 =>
      match onGrid? x exponent with
      | some significand => (significand, exponent)
      | none => digitsFrom x (exponent - 1) more

/-- The significand and the exponent of the shortest decimal of a positive double. Seventeen digits
tell all doubles apart, and the search begins one power of ten above the first digit. -/
def digits (x : Rat) : Nat × Int := digitsFrom x (decade x + 1) 17

/-- The smallest decimal exponent that is written without an exponent. -/
def leastPlain : Int := -4

/-- The first decimal exponent that is too large to be written without an exponent. -/
def firstScientific : Int := 16

/-- An exponent with its sign and at least two digits. -/
def exponentText (exponent : Int) : Text :=
  (if exponent < 0 then '-' else '+') :: (Nat.toDigits 10 exponent.natAbs).leftpad 2 '0'

/-- A point after the first digits, with a zero where no digit follows it. -/
def withPoint (whole fraction : Text) : Text :=
  whole ++ '.' :: if fraction.isEmpty then ['0'] else fraction

/-- The text of a positive decimal `significand · 10 ^ exponent`. -/
def decimalText (significand : Nat) (exponent : Int) : Text :=
  let digits := Nat.toDigits 10 significand
  let leading := exponent + digits.length - 1
  if leading < leastPlain ∨ firstScientific ≤ leading then
    match digits with
    | [] => []
    | first :: rest =>
        first :: (if rest.isEmpty then [] else '.' :: rest) ++ 'e' :: exponentText leading
  else if leading < 0 then
    withPoint ['0'] (List.replicate (-leading - 1).toNat '0' ++ digits)
  else
    let padded := digits.rightpad (leading + 1).toNat '0'
    withPoint (padded.take (leading + 1).toNat) (padded.drop (leading + 1).toNat)

/-- The text of a double. It always shows that it is no integer: by a point, an exponent or a word. -/
def text (x : Float) : Text :=
  match Binary64.meaning x with
  | .notANumber => "nan".toList
  | .infinity negative => if negative then "-inf".toList else "inf".toList
  | .number value =>
      let magnitude := if value = 0 then "0.0".toList else
        let (significand, exponent) := digits value.abs
        decimalText significand exponent
      if Binary64.isNegative x then '-' :: magnitude else magnitude

end Calculator.Shortest
