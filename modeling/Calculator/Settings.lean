import Calculator.Arithmetic

/-! # Settings

What a user may choose: the unit of angles, the decimal places of results, and how close to an
integer a result has to be to be shown as one. Only values in range make up settings, and changing
the unit keeps the rest.
-/

namespace Calculator

/-- Choices that an engine works with. A tolerance that is not a number is allowed: nothing is then
close to an integer. -/
structure Settings where
  mode : AngleMode
  precision : Int
  tolerance : Float
  precision_mem : 1 ≤ precision ∧ precision ≤ 15
  tolerance_nonneg : ¬ tolerance < 0

/-- Why choices are refused. -/
inductive SettingsError where
  | unknownMode
  | precisionOutOfRange
  | negativeTolerance
deriving DecidableEq

/-- The wording of a refusal. -/
def SettingsError.message : SettingsError → String
  | unknownMode => "angle_mode must be one of ('rad', 'deg')"
  | precisionOutOfRange => "precision must be 1..15"
  | negativeTolerance => "integer_tolerance must be >= 0"

namespace Settings

/-- The number of decimal places unless another one is chosen. -/
def defaultPrecision : Int := 10

/-- The tolerance unless another one is chosen. -/
def defaultTolerance : Float := 1e-9

/-- Radians, ten places, and a tolerance of 10 ^ -9. -/
def standard : Settings where
  mode := .radians
  precision := defaultPrecision
  tolerance := defaultTolerance
  precision_mem := by decide
  tolerance_nonneg := by decide

/-- Settings from the name of a unit, a number of places and a tolerance, checked in this order. -/
def ofChoices (mode : String) (precision : Int) (tolerance : Float) : Except SettingsError Settings :=
  match AngleMode.ofName? mode with
  | none => throw .unknownMode
  | some mode =>
      if range : 1 ≤ precision ∧ precision ≤ 15 then
        if negative : tolerance < 0 then throw .negativeTolerance
        else return ⟨mode, precision, tolerance, range, negative⟩
      else throw .precisionOutOfRange

/-- Changes the unit of angles; an unknown name changes nothing. -/
def setMode (name : String) (settings : Settings) : Settings :=
  match AngleMode.ofName? name with
  | none => settings
  | some mode => { settings with mode }

end Settings

end Calculator
