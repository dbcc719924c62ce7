import Calculator.Proofs.Evaluation.Stacks
import Calculator.Proofs.Percent

/-! # Folding percent signs changes no evaluation

A number marked as a percentage is put on the values as its hundredth, which is what a percent sign behind
an unmarked number leaves there. A number that is too large is refused before its sign is looked at, and
constants are substituted before anything is put on the values, so errors come in the same order as well.
-/

namespace Calculator

/-- A computation that does the same with a marked number as with a number and a percent sign behind it,
wherever in a sequence they stand. -/
def ReadsMarks {α : Type} (compute : List Token → Except Failure α) : Prop :=
  ∀ front x rest, compute (front ++ .number x true :: rest) =
    compute (front ++ .number x false :: .percentSign :: rest)

/-- What such a computation does behind a token reads marks as well. -/
theorem ReadsMarks.behind {α : Type} {compute : List Token → Except Failure α}
    (marks : ReadsMarks compute) (token : Token) :
    ReadsMarks fun tokens => compute (token :: tokens) := fun front => marks (token :: front)

namespace Stacks

variable {mode : AngleMode}

/-- A marked number is taken as the number and then a percent sign. -/
theorem feed_marked (waiting : Stacks) (x : Float) :
    feed mode waiting (.number x true) =
      feed mode waiting (.number x false) >>= fun next => feed mode next .percentSign := by
  by_cases finite : x.isFinite = true
  · have taken (marked : Bool) : feed mode waiting (.number x marked) =
        .ok ⟨(if marked then Arithmetic.hundredth x else x) :: waiting.values, waiting.operators⟩ := by
      rw [feed, pushNumber, Token.value, if_pos finite]
      rfl
    rw [taken, taken]
    rfl
  · have refused (marked : Bool) : feed mode waiting (.number x marked) =
        .error (.reported .numberTooLarge) := by
      rw [feed, pushNumber, Token.value, if_neg finite]
      rfl
    rw [refused, refused]
    rfl

/-- A run does not tell a marked number from one with a percent sign behind it. -/
theorem readsMarks_feedAll (waiting : Stacks) : ReadsMarks (feedAll mode waiting) := by
  intro front x rest
  rw [feedAll_append, feedAll_append]
  congr 1
  funext middle
  rw [feedAll_cons, feedAll_cons, feed_marked, bind_assoc]
  rfl

end Stacks

/-- Constants are substituted from left to right, before anything is computed. -/
theorem substituteConstants_cons_bind {α : Type} (token : Token) (tokens : List Token)
    (compute : List Token → Except Failure α) :
    substituteConstants (token :: tokens) >>= compute =
      substituteConstant token >>= fun first =>
        substituteConstants tokens >>= fun rest => compute (first :: rest) := by
  rw [substituteConstants, List.mapM_cons, ← substituteConstants]
  simp only [bind_assoc, pure_bind]

/-- A computation that reads marks does not see whether percent signs were folded before constants were
substituted. -/
theorem substituteConstants_fold_bind {α : Type} {compute : List Token → Except Failure α}
    (marks : ReadsMarks compute) (tokens : List Token) :
    substituteConstants (Percent.fold tokens) >>= compute = substituteConstants tokens >>= compute := by
  fun_induction Percent.fold tokens generalizing compute with
  | case1 => rfl
  | case2 x rest ih =>
    have later := ih (marks.behind (.number x true))
    calc substituteConstants (.number x true :: Percent.fold rest) >>= compute
      _ = substituteConstants (Percent.fold rest) >>= fun others =>
            compute (.number x true :: others) := substituteConstants_cons_bind ..
      _ = substituteConstants rest >>= fun others => compute (.number x true :: others) := later
      _ = substituteConstants rest >>= fun others =>
            compute (.number x false :: .percentSign :: others) := by
        congr 1
        funext others
        exact marks [] x others
      _ = substituteConstants (.percentSign :: rest) >>= fun others =>
            compute (.number x false :: others) :=
        (substituteConstants_cons_bind .percentSign rest fun others =>
          compute (.number x false :: others)).symm
      _ = substituteConstants (.number x false :: .percentSign :: rest) >>= compute :=
        (substituteConstants_cons_bind (.number x false) _ compute).symm
  | case3 token rest other ih =>
    rw [substituteConstants_cons_bind, substituteConstants_cons_bind]
    congr 1
    funext first
    exact ih (marks.behind first)

/-- A sequence has the same value, or fails with the same error, whether or not its percent signs were
folded into numbers. -/
theorem evaluateTokens_fold (mode : AngleMode) (tokens : List Token) :
    evaluateTokens mode (Percent.fold tokens) = evaluateTokens mode tokens := by
  by_cases none : tokens = []
  · subst none
    rfl
  · have folded : Percent.fold tokens ≠ [] := mt Percent.fold_eq_nil_iff.mp none
    rw [evaluateTokens_eq folded, evaluateTokens_eq none, Stacks.after, Stacks.after,
      substituteConstants_fold_bind (Stacks.readsMarks_feedAll .empty)]

end Calculator
