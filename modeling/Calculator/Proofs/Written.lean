import Calculator.Proofs.Percent
import Calculator.Proofs.Product
import Calculator.Proofs.Scan.Faithful

/-! # Where the tokens of a text come from

Between scanning and evaluation tokens are only rewritten: a percent sign becomes the remainder operator or
the mark of a number, and multiplication signs are put in. Whatever is known of the scanned tokens is
therefore known of the ones that are evaluated.
-/

namespace Calculator

variable {text : Text} {token : Token}

/-- The tokens that scanned ones can become. -/
inductive Written (scanned : List Token) : Token → Prop
  | scanned {token : Token} (member : token ∈ scanned) : Written scanned token
  | percentage {x : Float} (member : .number x false ∈ scanned) : Written scanned (.number x true)
  | modulo : Written scanned .modulo
  | times : Written scanned .times

/-- Tokens are those of the scan, folded percentages and remainders. -/
theorem written_of_mem_tokenize (member : token ∈ tokenize text) :
    Written ((scan text).map Span.token) token := by
  rcases Percent.mem_fold member with kept | ⟨x, rfl, marked⟩
  · rcases Percent.mem_disambiguateFrom kept with scanned | rfl
    · exact .scanned scanned
    · exact .modulo
  · refine .percentage ((Percent.mem_disambiguateFrom marked).resolve_right ?_)
    rintro ⟨⟩

/-- What is evaluated has products besides. -/
theorem written_of_mem (member : token ∈ writtenTokens text) :
    Written ((scan text).map Span.token) token := by
  rcases Product.mem_insertMissing member with kept | rfl
  · exact written_of_mem_tokenize kept
  · exact .times

namespace Written

variable {scanned : List Token}

/-- No function is made out of other tokens. -/
theorem mem_of_function {name : String} (written : Written scanned (.function name)) :
    .function name ∈ scanned := by
  cases written with
  | scanned member => exact member

/-- No number is made out of other tokens, but it may be marked. -/
theorem exists_number {x : Float} {marked : Bool} (written : Written scanned (.number x marked)) :
    ∃ scannedMark, .number x scannedMark ∈ scanned := by
  cases written with
  | scanned member => exact ⟨_, member⟩
  | percentage member => exact ⟨_, member⟩

/-- What is made of tokens that evaluation knows is known. -/
theorem isSupported (written : Written scanned token)
    (supported : ∀ other ∈ scanned, other.isSupported = true) : token.isSupported = true := by
  cases written with
  | scanned member => exact supported _ member
  | percentage => rfl
  | modulo => decide
  | times => decide

end Written

/-- Evaluation knows every token that is scanned. -/
theorem isSupported_of_mem_scan (member : token ∈ (scan text).map Span.token) :
    token.isSupported = true := by
  obtain ⟨span, inside, rfl⟩ := List.mem_map.mp member
  obtain ⟨earlier, later, split⟩ := List.append_of_mem inside
  exact (reads_of_scan split).isSupported

/-- A text has tokens to evaluate exactly if it has tokens at all. -/
theorem writtenTokens_eq_nil_iff : writtenTokens text = [] ↔ scan text = [] := by
  rw [writtenTokens, Product.insertMissing_eq_nil_iff, tokenize, Percent.fold_eq_nil_iff,
    Percent.disambiguate, Percent.disambiguateFrom_eq_nil_iff, List.map_eq_nil_iff]

end Calculator
