import Mathlib.Data.List.Infix

/-! # Laws along a run

A run takes steps from a state, one after the other. A law that single steps can break holds throughout
a run exactly if it holds at the start and no step of the run is one that breaks it.
-/

namespace Calculator

variable {State Step : Type} {next : State → Step → State} {law : State → Prop} {start : State}

/-- A law holds at the start of a run and after every step. -/
def Throughout (next : State → Step → State) (law : State → Prop) (start : State)
    (steps : List Step) : Prop :=
  ∀ front, front <+: steps → law (front.foldl next start)

theorem throughout_cons {step : Step} {steps : List Step} :
    Throughout next law start (step :: steps) ↔
      law start ∧ Throughout next law (next start step) steps := by
  constructor
  · intro holds
    refine ⟨holds [] List.nil_prefix, fun front inside => ?_⟩
    exact holds (step :: front) ((List.prefix_cons_inj step).mpr inside)
  · rintro ⟨here, later⟩ front inside
    rcases List.prefix_cons_iff.mp inside with rfl | ⟨rest, rfl, behind⟩
    · exact here
    · exact later rest behind

/-- If it is known which steps break a law where it holds, the law holds throughout a run without such
steps, and throughout no other. -/
theorem throughout_iff {steps : List Step} {breaks : State → Step → Prop}
    (kept : ∀ state, law state → ∀ step ∈ steps, (law (next state step) ↔ ¬ breaks state step)) :
    Throughout next law start steps ↔
      law start ∧ ∀ front step back, steps = front ++ step :: back →
        ¬ breaks (front.foldl next start) step := by
  induction steps generalizing start with
  | nil =>
    constructor
    · intro holds
      exact ⟨holds [] List.nil_prefix, by simp⟩
    · rintro ⟨here, -⟩ front inside
      rw [List.prefix_nil.mp inside]
      exact here
  | cons step steps ih =>
    have later := @ih (next start step) fun state holds other member =>
      kept state holds other (List.mem_cons_of_mem _ member)
    rw [throughout_cons, later]
    constructor
    · rintro ⟨here, after, rest⟩
      refine ⟨here, fun front other back split => ?_⟩
      cases front with
      | nil =>
        obtain ⟨rfl, rfl⟩ := List.cons.inj split
        exact (kept start here step (List.mem_cons_self ..)).mp after
      | cons first front =>
        obtain ⟨rfl, tail⟩ := List.cons.inj split
        exact rest front other back tail
    · rintro ⟨here, rest⟩
      refine ⟨here, ?_, fun front other back split => ?_⟩
      · exact (kept start here step (List.mem_cons_self ..)).mpr (rest [] step steps rfl)
      · exact rest (step :: front) other back (by rw [split, List.cons_append])

section Given

variable {α : Type} {given : State → Step → List α} {kind : State → Step → Bool} {steps : List Step}

/-- All that the steps of a run give out, from the first one on. -/
def along (next : State → Step → State) (given : State → Step → List α) (state : State) :
    List Step → List α
  | [] => []
  | step :: steps => given state step ++ along next given (next state step) steps

/-- The last step of a run that is of a kind, with the state in which it is taken. -/
def lastStep? (next : State → Step → State) (kind : State → Step → Bool) (state : State) :
    List Step → Option (State × Step)
  | [] => none
  | step :: steps =>
      (lastStep? next kind (next state step) steps).or
        (if kind state step then some (state, step) else none)

theorem along_concat (step : Step) :
    along next given start (steps ++ [step]) =
      along next given start steps ++ given (steps.foldl next start) step := by
  induction steps generalizing start with
  | nil => simp [along]
  | cons first steps ih => simp only [List.cons_append, along, ih, List.foldl_cons, List.append_assoc]

theorem lastStep?_concat (step : Step) :
    lastStep? next kind start (steps ++ [step]) =
      if kind (steps.foldl next start) step then some (steps.foldl next start, step)
      else lastStep? next kind start steps := by
  induction steps generalizing start with
  | nil => rfl
  | cons first steps ih =>
    rw [List.cons_append, lastStep?, ih, List.foldl_cons, lastStep?]
    split_ifs <;> rfl

end Given

end Calculator
