import Calculator.Engine
import Calculator.Proofs.Token
import Mathlib.Data.List.Chain

/-! # Missing products at the end of a sequence

Whether a product is missing depends on two direct neighbours only, so products are inserted in the
two halves of a sequence separately, with possibly one more between them.
-/

namespace Calculator.Product

/-- The multiplication sign that is missing between two neighbours, if there is one. -/
def between (left right : Option Token) : List Token :=
  match left, right with
  | some left, some right => if isMissing left right then [.times] else []
  | _, _ => []

/-- Between two tokens at most one product is missing. -/
theorem between_eq (left right : Option Token) :
    between left right = [] ∨ between left right = [.times] := by
  unfold between
  split
  · split
    · exact .inr rfl
    · exact .inl rfl
  · exact .inl rfl

theorem insertMissing_cons (first second : Token) (rest : List Token) :
    insertMissing (first :: second :: rest) =
      first :: between (some first) (some second) ++ insertMissing (second :: rest) := by
  rw [insertMissing, between]
  split <;> rfl

/-- Missing products are inserted in halves. -/
theorem insertMissing_append (first second : List Token) :
    insertMissing (first ++ second) =
      insertMissing first ++ between first.getLast? second.head? ++ insertMissing second := by
  induction first with
  | nil => rfl
  | cons token rest ih =>
    cases rest with
    | nil =>
      cases second with
      | nil => rfl
      | cons next second => exact insertMissing_cons token next second
    | cons next rest =>
      rw [List.cons_append, List.cons_append, insertMissing_cons, ← List.cons_append, ih,
        insertMissing_cons, List.getLast?_cons_cons]
      simp only [List.cons_append, List.append_assoc]

theorem head?_insertMissing (tokens : List Token) : (insertMissing tokens).head? = tokens.head? := by
  fun_cases insertMissing tokens <;> rfl

theorem getLast?_insertMissing (tokens : List Token) :
    (insertMissing tokens).getLast? = tokens.getLast? := by
  fun_induction insertMissing tokens with
  | case1 first second rest missing ih => simp [List.getLast?_cons, ih]
  | case2 first second rest present ih => simp [List.getLast?_cons, ih]
  | case3 => rfl

/-- No token is added but multiplication signs. -/
theorem mem_insertMissing {tokens : List Token} {token : Token} (member : token ∈ insertMissing tokens) :
    token ∈ tokens ∨ token = .times := by
  fun_induction insertMissing tokens with
  | case1 first second rest missing ih =>
    rcases List.mem_cons.mp member with same | later
    · exact .inl (same ▸ List.mem_cons_self ..)
    · rcases List.mem_cons.mp later with same | later
      · exact .inr same
      · exact (ih later).imp_left (List.mem_cons_of_mem _)
  | case2 first second rest present ih =>
    rcases List.mem_cons.mp member with same | later
    · exact .inl (same ▸ List.mem_cons_self ..)
    · exact (ih later).imp_left (List.mem_cons_of_mem _)
  | case3 => exact .inl member

theorem insertMissing_eq_nil_iff {tokens : List Token} : insertMissing tokens = [] ↔ tokens = [] := by
  fun_cases insertMissing tokens <;> simp

/-- Where no product is missing, none is inserted. -/
theorem insertMissing_eq_self {tokens : List Token}
    (present : tokens.IsChain fun left right => isMissing left right = false) :
    insertMissing tokens = tokens := by
  fun_induction insertMissing tokens with
  | case1 first second rest missing ih =>
    have settled : isMissing first second = false := present.rel
    exact absurd (settled.symm.trans missing) Bool.false_ne_true
  | case2 first second rest settled ih => rw [ih present.tail]
  | case3 => rfl

/-- A group has the products that are missing inside it, and possibly one on either side, unless a
function ends it. -/
theorem insertMissing_append_grouped {tokens : List Token}
    (ends : tokens.getLast?.any Token.isFunction = false) (first second : List Token) :
    insertMissing (first ++ Token.grouped tokens ++ second) =
      insertMissing first ++ between first.getLast? (some .opening) ++
        Token.grouped (insertMissing tokens) ++ between (some .closing) second.head? ++
          insertMissing second := by
  have opens : between (some .opening) (tokens ++ [Token.closing]).head? = [] := by
    cases tokens <;> rfl
  have closes : between tokens.getLast? (some .closing) = [] := by
    cases last : tokens.getLast? with
    | none => rfl
    | some token =>
      rw [last] at ends
      cases token <;> first | rfl | cases ends
  have inside : insertMissing (Token.grouped tokens) = Token.grouped (insertMissing tokens) := by
    rw [Token.grouped, ← List.singleton_append, insertMissing_append, insertMissing_append]
    simp only [List.getLast?_singleton, opens, List.head?_cons, closes, List.append_nil]
    rfl
  have last : (first ++ Token.grouped tokens).getLast? = some .closing := by
    rw [Token.grouped, ← List.cons_append, ← List.append_assoc, List.getLast?_concat]
  rw [insertMissing_append, insertMissing_append, last, inside]
  rfl

end Calculator.Product

namespace Calculator

/-- The tokens of a text, with every product written. -/
def writtenTokens (text : Text) : List Token := Product.insertMissing (tokenize text)

theorem evaluate_eq (mode : AngleMode) (text : Text) :
    evaluate mode text = evaluateTokens mode (writtenTokens text) := rfl

end Calculator
