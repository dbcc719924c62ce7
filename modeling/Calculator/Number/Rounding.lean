/-! # Rounding a rational to an integer

Both rules choose between the neighbours `⌊x⌋` and `⌊x⌋ + 1` and take the nearer one. They differ on
a tie only: binary arithmetic sends it to the even neighbour, displayed decimals away from zero.
-/

namespace Calculator.Rounding

/-- The nearest integer; a tie goes to the even neighbour. -/
def halfEven (x : Rat) : Int :=
  let below := x.floor
  let excess := x - below
  if excess < 1 / 2 then below
  else if 1 / 2 < excess then below + 1
  else if below % 2 = 0 then below else below + 1

/-- The nearest integer; a tie goes away from zero. -/
def halfAway (x : Rat) : Int :=
  if x < 0 then -(1 / 2 - x).floor else (x + 1 / 2).floor

end Calculator.Rounding
