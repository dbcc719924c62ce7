import Calculator.Error
import Calculator.Number.Binary64
import Calculator.Number.Decimal

/-! # The text of a result

An integer is shown in full. A value closer to an integer than the tolerance is shown as that
integer. Any other value is shown with a number of decimal places, rounded once from the exact value
and half away from zero. There is never an exponent.
-/

namespace Calculator.Result

/-- Whether a distance is below a tolerance. Nothing is below a tolerance that is not a number. -/
def isBelow (distance : Rat) : Binary64.Meaning → Bool
  | .number tolerance => distance < tolerance
  | .infinity negative => !negative
  | .notANumber => false

/-- The significant digits that a decimal may have. -/
def maxDigits : Nat := 60

/-- The exponent of the largest power of ten that a decimal may have. -/
def maxExponent : Int := 999999

/-- The number with `precision` decimal places that is nearest to a value. A negative precision
rounds to tens, hundreds and so on. -/
def roundTo (precision : Int) (value : Rat) : Except Failure Decimal :=
  if 2 * (maxExponent + maxDigits) < precision ∨ precision < -(2 * (maxExponent + maxDigits)) then
    throw .tooManyDigits
  else if precision < -maxExponent then throw .unitTooLarge
  else
    let coefficient := Rounding.halfAway (value * (10 : Rat) ^ precision)
    if Nat.pow 10 maxDigits ≤ coefficient.natAbs then throw .tooManyDigits
    else return ⟨coefficient * Nat.pow 10 (-precision).toNat, precision.toNat⟩

/-- The decimal that is shown for a value. -/
def decimal (value : Rat) (precision : Int) (tolerance : Float) : Except Failure Decimal :=
  if value.den = 1 then return ⟨value.num, 0⟩
  else
    let integer := Rounding.halfEven value
    if isBelow (value - integer).abs (Binary64.meaning tolerance) then return ⟨integer, 0⟩
    else roundTo precision value

/-- The text that is shown for a double. -/
def text (value : Float) (precision : Int) (tolerance : Float) : Except Failure Text :=
  match Binary64.meaning value with
  | .notANumber => throw .integerOfNaN
  | .infinity _ => throw .integerOfInfinity
  | .number value => return (← decimal value precision tolerance).text

end Calculator.Result
