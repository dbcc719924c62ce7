import Calculator.Proofs.Evaluation.Call
import Calculator.Proofs.Scan.Append
import Calculator.Proofs.Written

/-! # Functions of a text

Scanning reads only the functions that evaluation knows, the passes over percent signs add none, and a
product is inserted behind every function that no parenthesis follows. So in the tokens of a text
each function is called by a parenthesis or applied at once.
-/

namespace Calculator

variable {tokens : List Token} {name : String}

/-- The scanner knows the names of all functions that it finds. -/
theorem knowsFunctions_tokenize (text : Text) : KnowsFunctions (tokenize text) := by
  intro name member
  have supported : (Token.function name).isSupported = true :=
    (written_of_mem_tokenize member).isSupported fun _ => isSupported_of_mem_scan
  obtain ⟨f, found⟩ := Option.isSome_iff_exists.mp supported
  exact ⟨f, Function.ofName?_eq_some_iff.mp found⟩

/-- A product applies a function before it waits. -/
theorem bindsFirst_times_function (f : Function) :
    Stacks.bindsFirst .times (.function f.name) = true := by
  cases f <;> decide

/-- Where a function has no parenthesis, a product is inserted that calls it at once. -/
theorem Product.isChain_insertMissing (known : KnowsFunctions tokens) :
    (insertMissing tokens).IsChain CallsAtOnce := by
  fun_induction insertMissing tokens with
  | case1 first second rest missing ih =>
    have later := ih fun name member => known name (List.mem_cons_of_mem _ member)
    have product : (Token.times :: insertMissing (second :: rest)).IsChain CallsAtOnce :=
      later.cons fun next _ function => Bool.noConfusion function
    refine product.cons_cons fun function => ?_
    obtain ⟨name, rfl⟩ := first.isFunction_iff.mp function
    obtain ⟨f, rfl⟩ := known name (List.mem_cons_self ..)
    exact .inr ⟨rfl, bindsFirst_times_function f⟩
  | case2 first second rest present ih =>
    have later := ih fun name member => known name (List.mem_cons_of_mem _ member)
    refine later.cons fun next head function => .inl ?_
    rw [head?_insertMissing] at head
    cases head
    obtain ⟨name, rfl⟩ := first.isFunction_iff.mp function
    cases second <;> first | rfl | exact absurd rfl present
  | case3 tokens short =>
    cases tokens with
    | nil => exact .nil
    | cons token rest =>
      cases rest with
      | nil => exact .singleton token
      | cons next rest => exact absurd rfl (short token next rest)

/-- In the tokens of a text every function is called by a parenthesis or applied at once. -/
theorem isChain_writtenTokens (text : Text) : (writtenTokens text).IsChain CallsAtOnce :=
  Product.isChain_insertMissing (knowsFunctions_tokenize text)

end Calculator
