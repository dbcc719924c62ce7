import Calculator.Text.Basic

/-! # Commands and keys

Buttons and keys send labels. `Command.ofLabel?` says what each label means, and unknown labels mean
nothing; `Key.label?` says which label a key press stands for.
-/

namespace Calculator

/-- What a button asks for. -/
inductive Command where
  | digit (c : Char)
  | point
  | operator (c : Char)
  | clear
  | backspace
  | toggleSign
  | percent
  | equals
  | togglePanel
  | insert (text : Text)
deriving DecidableEq

namespace Command

/-- The label of the key that takes back the last token. -/
def backspaceLabel : String := "⌫"

/-- The label of the key that clears all. -/
def clearLabel : String := "AC"

/-- The labels of the scientific panel with the texts that they insert. -/
def scientific : List (String × Text) :=
  [("sin", "sin(".toList), ("cos", "cos(".toList), ("tan", "tan(".toList),
    ("asin", "asin(".toList), ("acos", "acos(".toList), ("atan", "atan(".toList),
    ("ln", "ln(".toList), ("exp", "exp(".toList), ("√", "sqrt(".toList),
    ("x²", "^2".toList), ("xʸ", "^".toList), ("n!", "!".toList), ("π", "π".toList),
    ("(", "(".toList), (")", ")".toList)]

/-- Every label with its command. -/
def labels : List (String × Command) :=
  "0123456789".toList.map (fun c => (String.singleton c, digit c)) ++
    "+-x÷".toList.map (fun c => (String.singleton c, operator c)) ++
    [(".", point), (clearLabel, clear), (backspaceLabel, backspace), ("←", backspace),
      ("±", toggleSign), ("%", percent), ("=", equals), ("Sci", togglePanel)] ++
    scientific.map fun (label, text) => (label, insert text)

/-- The command of a label. -/
def ofLabel? (label : String) : Option Command := labels.lookup label

end Command

namespace Key

/-- The name of the key that asks to close the window. -/
def closeRequest : String := "Escape"

/-- Keys, by name or by character, with the labels that they stand for. -/
def labels : List (String × String) :=
  [("*", "x"), ("/", "÷"), ("=", "="), ("Return", "="), ("KP_Enter", "="),
    ("BackSpace", Command.backspaceLabel), ("KP_Multiply", "x"), ("KP_Divide", "÷"),
    ("KP_Add", "+"), ("KP_Subtract", "-")]

/-- The characters that are labels themselves. -/
def passed : Text := "0123456789+-.%".toList

/-- Whether a text occurs in another one without a gap. -/
def occursIn (part : Text) : Text → Bool
  | [] => part.isEmpty
  | c :: rest => part.isPrefixOf (c :: rest) || occursIn part rest

/-- The label of a key press: by the name of the key, else by its text. A text that occurs in the row
of passed characters is a label itself. -/
def label? (text name : String) : Option String :=
  if name = closeRequest then some closeRequest
  else match labels.lookup name with
    | some label => some label
    | none =>
        if !text.isEmpty && occursIn text.toList passed then some text else labels.lookup text

end Key

end Calculator
