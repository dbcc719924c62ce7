import Calculator.Percent
import Calculator.Proofs.Token

/-! # Percent signs at the end of a sequence

Both passes over percent signs look at direct neighbours only, so they work on the two halves of a
sequence separately unless a percent sign and a number meet between them.
-/

namespace Calculator.Percent

variable {first second : List Token}

theorem disambiguateFrom_cons (previous : Option Token) (token : Token) (rest : List Token) :
    disambiguateFrom previous (token :: rest) =
      (if token = .percentSign ∧ (previous.any Token.isNumber && rest.head?.any Token.isNumber) then
        .modulo else token) :: disambiguateFrom (some token) rest := rfl

/-- Percent signs are disambiguated in halves if no percent sign ends the first half or no number
starts the second one. -/
theorem disambiguateFrom_append (previous : Option Token)
    (settled : first.getLast? ≠ some .percentSign ∨ second.head?.any Token.isNumber = false) :
    disambiguateFrom previous (first ++ second) =
      disambiguateFrom previous first ++ disambiguateFrom (first.getLast?.or previous) second := by
  induction first generalizing previous with
  | nil => rfl
  | cons token rest ih =>
    cases rest with
    | nil =>
      rcases settled with ends | starts
      · have other : token ≠ .percentSign := by simpa using ends
        simp [disambiguateFrom, other]
      · simp [disambiguateFrom, starts]
    | cons next rest =>
      have later := ih (some token) (by simpa using settled)
      have last : (token :: next :: rest).getLast?.or previous =
          (next :: rest).getLast?.or (some token) := by simp [List.getLast?_cons]
      rw [List.cons_append, disambiguateFrom_cons, later, disambiguateFrom_cons, last]
      rfl

/-- Of the token before a sequence only one thing matters: whether it is a number. -/
theorem disambiguateFrom_congr {previous other : Option Token}
    (same : previous.any Token.isNumber = other.any Token.isNumber) (tokens : List Token) :
    disambiguateFrom previous tokens = disambiguateFrom other tokens := by
  cases tokens with
  | nil => rfl
  | cons token rest => rw [disambiguateFrom_cons, disambiguateFrom_cons, same]

/-- A percent sign at the end has no number behind it, so the last token stays. -/
theorem getLast?_disambiguateFrom (previous : Option Token) (tokens : List Token) :
    (disambiguateFrom previous tokens).getLast? = tokens.getLast? := by
  induction tokens generalizing previous with
  | nil => rfl
  | cons token rest ih =>
    cases rest with
    | nil => simp [disambiguateFrom]
    | cons next rest =>
      rw [disambiguateFrom, List.getLast?_cons_of_ne_nil (by simp [disambiguateFrom]), ih,
        List.getLast?_cons_cons]

theorem disambiguateFrom_eq_nil_iff {previous : Option Token} {tokens : List Token} :
    disambiguateFrom previous tokens = [] ↔ tokens = [] := by
  cases tokens <;> simp [disambiguateFrom]

theorem fold_eq_nil_iff {tokens : List Token} : fold tokens = [] ↔ tokens = [] := by
  fun_cases fold tokens <;> simp

/-- Disambiguation adds no token but the remainder operator. -/
theorem mem_disambiguateFrom {previous : Option Token} {tokens : List Token} {token : Token}
    (member : token ∈ disambiguateFrom previous tokens) : token ∈ tokens ∨ token = .modulo := by
  induction tokens generalizing previous with
  | nil => exact .inl member
  | cons first rest ih =>
    rw [disambiguateFrom_cons] at member
    rcases List.mem_cons.mp member with same | later
    · split_ifs at same
      · exact .inr same
      · exact .inl (same ▸ List.mem_cons_self ..)
    · exact (ih later).imp_left (List.mem_cons_of_mem _)

/-- Folding adds no token but marked numbers. -/
theorem mem_fold {tokens : List Token} {token : Token} (member : token ∈ fold tokens) :
    token ∈ tokens ∨ ∃ x, token = .number x true ∧ .number x false ∈ tokens := by
  fun_induction fold tokens with
  | case1 => exact .inl member
  | case2 x rest ih =>
    rcases List.mem_cons.mp member with same | later
    · exact .inr ⟨x, same, List.mem_cons_self ..⟩
    · exact (ih later).imp (.tail _ <| .tail _ ·) fun ⟨y, same, earlier⟩ =>
        ⟨y, same, .tail _ (.tail _ earlier)⟩
  | case3 first rest other ih =>
    rcases List.mem_cons.mp member with same | later
    · exact .inl (same ▸ List.mem_cons_self ..)
    · exact (ih later).imp (.tail _ ·) fun ⟨y, same, earlier⟩ => ⟨y, same, .tail _ earlier⟩

private theorem fold_cons {token : Token} {rest : List Token}
    (settled : rest.head? ≠ some .percentSign ∨ token.isNumber = false) :
    fold (token :: rest) = token :: fold rest := by
  refine fold.eq_3 token rest fun value after number percent => ?_
  subst number percent
  rcases settled with starts | other
  · exact starts rfl
  · exact Bool.noConfusion other

/-- Percent signs are folded in halves if no percent sign starts the second half or no number ends
the first one. -/
theorem fold_append
    (settled : second.head? ≠ some .percentSign ∨ first.getLast?.any Token.isNumber = false) :
    fold (first ++ second) = fold first ++ fold second := by
  fun_induction fold first with
  | case1 => rfl
  | case2 value rest ih =>
    have later : second.head? ≠ some .percentSign ∨ rest.getLast?.any Token.isNumber = false := by
      refine settled.imp_right fun ends => ?_
      cases rest with
      | nil => rfl
      | cons next rest => simpa using ends
    simp [fold, ih later]
  | case3 token rest other ih =>
    cases rest with
    | nil =>
      refine fold_cons ?_
      rcases settled with starts | ends
      · exact .inl starts
      · exact .inr ends
    | cons next rest =>
      have joined : fold (token :: (next :: rest ++ second)) =
          token :: fold (next :: rest ++ second) := by
        refine fold.eq_3 token _ fun value after number percent => other value rest number ?_
        obtain ⟨rfl, -⟩ := List.cons.inj percent
        rfl
      rw [List.cons_append, joined, ih (by simpa using settled), List.cons_append]

/-- Unless it is a percent sign, the last token stays. -/
theorem getLast?_fold {tokens : List Token} {last : Token} (ends : tokens.getLast? = some last)
    (other : last ≠ .percentSign) : (fold tokens).getLast? = some last := by
  obtain ⟨init, rfl⟩ := List.getLast?_eq_some_iff.mp ends
  rw [fold_append (.inl (by simpa using other)), fold_cons (.inl (by simp))]
  simp [fold]

theorem disambiguateFrom_eq_self (previous : Option Token) {tokens : List Token}
    (noPercent : .percentSign ∉ tokens) : disambiguateFrom previous tokens = tokens := by
  induction tokens generalizing previous with
  | nil => rfl
  | cons token rest ih =>
    simp only [List.mem_cons, not_or] at noPercent
    rw [disambiguateFrom_cons, ih (some token) noPercent.2,
      if_neg fun percent => noPercent.1 percent.1.symm]

theorem fold_eq_self {tokens : List Token} (noPercent : .percentSign ∉ tokens) :
    fold tokens = tokens := by
  induction tokens with
  | nil => rfl
  | cons token rest ih =>
    simp only [List.mem_cons, not_or] at noPercent
    have starts : rest.head? ≠ some .percentSign := fun head =>
      noPercent.2 (List.mem_of_mem_head? head)
    rw [fold_cons (.inl starts), ih noPercent.2]

/-- Both passes leave tokens without percent signs at the end as they are, unless a number follows a
percent sign. -/
theorem fold_disambiguate_append (noPercent : .percentSign ∉ second)
    (settled : first.getLast? ≠ some .percentSign ∨ second.head?.any Token.isNumber = false) :
    fold (disambiguate (first ++ second)) = fold (disambiguate first) ++ second := by
  have starts : second.head? ≠ some .percentSign := fun head =>
    noPercent (List.mem_of_mem_head? head)
  rw [disambiguate, disambiguateFrom_append none settled, disambiguateFrom_eq_self _ noPercent,
    fold_append (.inl starts), fold_eq_self noPercent, disambiguate]

/-- The last token of a sequence is still the last one afterwards, unless it is a percent sign. -/
theorem getLast?_fold_disambiguate {tokens : List Token} {last : Token}
    (ends : tokens.getLast? = some last) (other : last ≠ .percentSign) :
    (fold (disambiguate tokens)).getLast? = some last :=
  getLast?_fold ((getLast?_disambiguateFrom none tokens).trans ends) other

/-- Around a token that is neither a number nor a percent sign, both passes work on the two sides
separately. -/
theorem fold_disambiguate_append_cons {token : Token} (noNumber : token.isNumber = false)
    (other : token ≠ .percentSign) :
    fold (disambiguate (first ++ token :: second)) =
      fold (disambiguate first) ++ token :: fold (disambiguate second) := by
  have starts : (token :: second).head?.any Token.isNumber = false := noNumber
  have apart : (token :: disambiguateFrom none second).head? ≠ some .percentSign := by
    simpa using other
  have previous : (some token).any Token.isNumber = (none : Option Token).any Token.isNumber := noNumber
  rw [disambiguate, disambiguateFrom_append none (.inr starts), disambiguateFrom_cons,
    if_neg fun percent => other percent.1, disambiguateFrom_congr previous, fold_append (.inl apart),
    fold_cons (.inr noNumber)]
  rfl

/-- Both passes work inside and outside a group separately. -/
theorem fold_disambiguate_append_grouped (tokens : List Token) :
    fold (disambiguate (first ++ Token.grouped tokens ++ second)) =
      fold (disambiguate first) ++ Token.grouped (fold (disambiguate tokens)) ++
        fold (disambiguate second) := by
  have split : first ++ Token.grouped tokens ++ second =
      first ++ .opening :: (tokens ++ .closing :: second) := by simp [Token.grouped]
  rw [split, fold_disambiguate_append_cons rfl (by decide), fold_disambiguate_append_cons rfl (by decide)]
  simp [Token.grouped]

/-- A sequence that does not end with a function does not do so afterwards. -/
theorem isFunction_getLast?_fold_disambiguate {tokens : List Token}
    (ends : tokens.getLast?.any Token.isFunction = false) :
    (fold (disambiguate tokens)).getLast?.any Token.isFunction = false := by
  have settled : (disambiguate tokens).getLast?.any Token.isFunction = false := by
    rw [disambiguate, getLast?_disambiguateFrom, ends]
  generalize disambiguate tokens = settledTokens at settled
  fun_induction fold settledTokens with
  | case1 => rfl
  | case2 value rest ih =>
    cases rest with
    | nil => rfl
    | cons next rest =>
      rw [List.getLast?_cons_of_ne_nil (by simp [fold_eq_nil_iff])]
      exact ih (by simpa using settled)
  | case3 token rest other ih =>
    cases rest with
    | nil => exact settled
    | cons next rest =>
      rw [List.getLast?_cons_of_ne_nil (by simp [fold_eq_nil_iff])]
      exact ih (by simpa using settled)

/-- A percent sign that does not follow a number stays what it is. -/
theorem fold_disambiguate_append_percentSign (noPercent : .percentSign ∉ second)
    (noNumber : first.getLast?.any Token.isNumber = false) :
    fold (disambiguate (first ++ .percentSign :: second)) =
      fold (disambiguate first) ++ .percentSign :: second := by
  have ends : (disambiguateFrom none first).getLast?.any Token.isNumber = false := by
    rw [getLast?_disambiguateFrom, noNumber]
  rw [disambiguate, disambiguateFrom_append none (.inr rfl), disambiguateFrom_cons, Option.or_none,
    noNumber, if_neg (by simp), disambiguateFrom_eq_self _ noPercent, fold_append (.inr ends),
    fold_cons (.inr rfl), fold_eq_self noPercent, disambiguate]

/-- No percent sign behind a number ends the sequence, so what follows decides nothing about it. -/
def Settled (tokens : List Token) : Prop :=
  ∀ front, tokens = front ++ [.percentSign] → front.getLast?.any Token.isNumber = false

/-- Behind a settled sequence tokens without percent signs are left as they are. -/
theorem Settled.fold_disambiguate_append (settled : Settled first) (noPercent : .percentSign ∉ second) :
    fold (disambiguate (first ++ second)) = fold (disambiguate first) ++ second := by
  by_cases percent : first.getLast? = some .percentSign
  · obtain ⟨front, rfl⟩ := List.getLast?_eq_some_iff.mp percent
    have noNumber := settled front rfl
    rw [List.append_assoc, List.singleton_append,
      fold_disambiguate_append_percentSign noPercent noNumber,
      fold_disambiguate_append_percentSign (by simp) noNumber, List.append_assoc, List.singleton_append]
  · exact Percent.fold_disambiguate_append noPercent (.inl percent)

/-- The last token of a settled sequence is still the last one afterwards. -/
theorem Settled.getLast?_fold_disambiguate (settled : Settled first) :
    (fold (disambiguate first)).getLast? = first.getLast? := by
  cases ends : first.getLast? with
  | none =>
    obtain rfl := List.getLast?_eq_none_iff.mp ends
    rfl
  | some last =>
    by_cases percent : last = .percentSign
    · subst percent
      obtain ⟨front, rfl⟩ := List.getLast?_eq_some_iff.mp ends
      rw [fold_disambiguate_append_percentSign (by simp) (settled front rfl), List.getLast?_concat]
    · exact Percent.getLast?_fold_disambiguate ends percent

/-- A percent sign between two numbers is the remainder operator. -/
theorem disambiguate_append_percentSign {number : Token} (isNumber : number.isNumber = true)
    (ends : first.getLast?.any Token.isNumber = true) :
    disambiguate (first ++ .percentSign :: number :: second) =
      disambiguate (first ++ .modulo :: number :: second) := by
  have other : number ≠ .percentSign := by
    rintro rfl
    cases isNumber
  rw [disambiguate, disambiguate, disambiguateFrom_append none (.inr rfl),
    disambiguateFrom_append none (.inr rfl)]
  simp [disambiguateFrom_cons, ends, isNumber, other]

end Calculator.Percent
