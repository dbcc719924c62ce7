import Calculator.Number.Rounding

/-! # The numbers that doubles stand for

Arithmetic runs on doubles, but what a double stands for is an exact rational. `Binary64.meaning`
reads it, `Binary64.nearest` goes back with one rounding (to nearest, ties to even), and
`Binary64.remainder` is exact in between. Reading literals, factorials and displaying results are
stated on these rationals, so none of them rounds more than once.
-/

namespace Calculator.Binary64

/-- What a double stands for. Both zeros stand for the number zero. -/
inductive Meaning where
  | number (value : Rat)
  | infinity (negative : Bool)
  | notANumber
deriving DecidableEq

/-- The exact reading of a double: a signed significand times a power of two. -/
def meaning (x : Float) : Meaning :=
  match x.toModel.unpack with
  | .finite sign significand exponent _ =>
      .number ((sign.apply significand : Int) * (2 : Rat) ^ exponent)
  | .zero _ => .number 0
  | .infinity sign => .infinity (sign == .negative)
  | .notANumber => .notANumber

/-- The sign bit, which also tells the two zeros apart. -/
def isNegative (x : Float) : Bool :=
  match x.toModel.unpack with
  | .finite sign _ _ _ | .zero sign | .infinity sign => sign == .negative
  | .notANumber => false

/-- The value that is no number. -/
def nan : Float := 0 / 0

/-- The double `± significand · 2 ^ exponent`, for a significand of 53 bits or the least exponent.
Beyond the largest exponent it is an infinity. -/
def ofParts (negative : Bool) (significand : Nat) (exponent : Int) : Float :=
  let sign := if negative then .negative else .positive
  .ofModel <| .pack <|
    if positive : 0 < significand then .finite sign significand exponent positive else .zero sign

/-- The exponent of the power of two at or just below the magnitude of a nonzero rational. -/
def binade (x : Rat) : Int :=
  let guess : Int := (x.num.natAbs.log2 : Int) - x.den.log2
  if x.abs < (2 : Rat) ^ guess then guess - 1 else guess

/-- The exponent of the last significand bit of the doubles around a rational: 52 below the leading
bit, but never below the exponent of the smallest subnormal. -/
def lastBit (x : Rat) : Int := max (binade x - 52) (-1074)

/-- The double nearest to a rational; a tie goes to the even significand, and what rounds beyond the
largest double is an infinity. A significand that rounds up to 2 ^ 53 belongs to the next binade. -/
def nearest (x : Rat) : Float :=
  let exponent := lastBit x
  let significand := (Rounding.halfEven (x.abs / (2 : Rat) ^ exponent)).toNat
  if significand = 9007199254740992 then ofParts (x < 0) 4503599627370496 (exponent + 1)
  else ofParts (x < 0) significand exponent

/-- The exact remainder of the division truncated toward zero. It has the sign of the dividend, and a
division by zero has none. -/
def remainder (x y : Float) : Float :=
  match meaning x, meaning y with
  | .number a, .number b =>
      if b = 0 then nan
      else
        let rest := nearest (a.abs - b.abs * (a.abs / b.abs).floor)
        if isNegative x then -rest else rest
  | .number _, .infinity _ => x
  | _, _ => nan

end Calculator.Binary64
