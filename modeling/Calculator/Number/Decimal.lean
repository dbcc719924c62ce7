import Calculator.Text.Basic

/-! # Fixed-point decimals

A decimal is an integer coefficient over a power of ten. `Decimal.text` writes it without an exponent
and without superfluous zeros, so equal numbers have one text whatever their number of places.
-/

namespace Calculator

/-- The number `coefficient / 10 ^ places`. -/
structure Decimal where
  coefficient : Int
  places : Nat
deriving DecidableEq

namespace Decimal

/-- The number that a decimal denotes. -/
def value (d : Decimal) : Rat := (d.coefficient : Rat) / (10 : Rat) ^ d.places

/-- The text without the zeros at its end. -/
def trimZeros (text : Text) : Text := (text.reverse.dropWhile (· == '0')).reverse

/-- The digits in front of the point. -/
def wholeDigits (d : Decimal) : Text :=
  Nat.toDigits 10 (d.coefficient.natAbs / Nat.pow 10 d.places)

/-- The digits after the point, without the zeros at the end. -/
def fractionDigits (d : Decimal) : Text :=
  trimZeros ((Nat.toDigits 10 (d.coefficient.natAbs % Nat.pow 10 d.places)).leftpad d.places '0')

/-- A minus sign for negative numbers, the digits in front of the point, and a point with further
digits only if one of them is not zero. Zero has no sign. -/
def text (d : Decimal) : Text :=
  let fraction := d.fractionDigits
  let digits := d.wholeDigits ++ if fraction = [] then [] else '.' :: fraction
  if d.coefficient < 0 then '-' :: digits else digits

end Decimal

end Calculator
