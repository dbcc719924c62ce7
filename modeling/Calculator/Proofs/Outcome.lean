import Calculator.Error

/-! # Outcomes

A computation of the calculator ends with a value or with a failure, and outcomes can be compared.
`FailsWith` and `Avoids` tell whether it fails with an error of a kind, and `Reports` is what holds of a
computation all of whose failures are ones that the user is told about.
-/

namespace Calculator

instance decidableEqOutcome {α : Type} [DecidableEq α] : DecidableEq (Except Failure α)
  | .ok first, .ok second => decidable_of_iff (first = second) (by simp)
  | .error first, .error second => decidable_of_iff (first = second) (by simp)
  | .ok _, .error _ | .error _, .ok _ => isFalse (by simp)

theorem ok_bind {α β : Type} (value : α) (next : α → Except Failure β) :
    Except.ok value >>= next = next value := rfl

/-- Of two computations in a row both have to succeed. -/
theorem bind_eq_ok_iff {α β : Type} {computation : Except Failure α} {next : α → Except Failure β}
    {result : β} :
    computation >>= next = .ok result ↔
      ∃ value, computation = .ok value ∧ next value = .ok result := by
  cases computation <;> simp [bind, Except.bind]

/-- What comes after a computation matters only for the values that it can have. -/
theorem bind_congr_of_ok {α β : Type} {computation : Except Failure α}
    {next later : α → Except Failure β}
    (same : ∀ value, computation = .ok value → next value = later value) :
    computation >>= next = computation >>= later := by
  cases computation with
  | error failure => rfl
  | ok value => exact same value rfl

/-- The kind of a failure that the user is told about. -/
def Failure.kind? : Failure → Option ErrorKind
  | reported error => some error.kind
  | _ => none

/-- A computation that fails with an error of a kind. -/
def FailsWith {α : Type} (kind : ErrorKind) (computation : Except Failure α) : Prop :=
  ∃ failure, computation = .error failure ∧ failure.kind? = some kind

/-- A computation that never fails with an error of a kind. -/
def Avoids {α : Type} (kind : ErrorKind) (computation : Except Failure α) : Prop :=
  ∀ failure, computation = .error failure → failure.kind? ≠ some kind

namespace Avoids

variable {α β : Type} {kind : ErrorKind} {computation : Except Failure α}

theorem ok (value : α) : Avoids kind (.ok value : Except Failure α) := nofun

theorem error {failure : Failure} (other : failure.kind? ≠ some kind) :
    Avoids kind (.error failure : Except Failure α) := by
  rintro _ ⟨⟩
  exact other

/-- A computation in two parts avoids an error that both parts avoid. -/
theorem bind {next : α → Except Failure β} (first : Avoids kind computation)
    (rest : ∀ value, computation = .ok value → Avoids kind (next value)) :
    Avoids kind (computation >>= next) := by
  cases computation with
  | error failure =>
    rintro _ ⟨⟩
    exact first failure rfl
  | ok value => exact rest value rfl

theorem iff_not_failsWith : Avoids kind computation ↔ ¬ FailsWith kind computation := by
  simp [Avoids, FailsWith]

end Avoids

/-- A computation that fails only with reported errors and whose value has a property. -/
def Reports {α : Type} (property : α → Prop) : Except Failure α → Prop
  | .ok value => property value
  | .error failure => ∃ error, failure = .reported error

namespace Reports

variable {α β : Type} {property : α → Prop} {later : β → Prop} {computation : Except Failure α}

/-- A second part that reports for every value with the property reports behind the first. -/
theorem bind {next : α → Except Failure β} (first : Reports property computation)
    (rest : ∀ value, property value → Reports later (next value)) :
    Reports later (computation >>= next) := by
  cases computation with
  | error failure => exact first
  | ok value => exact rest value first

theorem ok_of_eq {value : α} (reports : Reports property computation)
    (success : computation = .ok value) : property value := by
  subst success
  exact reports

/-- The two ways in which such a computation can end. -/
theorem cases_on (reports : Reports property computation) :
    (∃ error, computation = .error (.reported error)) ∨
      ∃ value, computation = .ok value ∧ property value := by
  cases computation with
  | error failure =>
    obtain ⟨error, rfl⟩ := reports
    exact .inl ⟨error, rfl⟩
  | ok value => exact .inr ⟨value, rfl, reports⟩

end Reports

end Calculator
