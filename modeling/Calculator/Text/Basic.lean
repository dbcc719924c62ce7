/-! # Texts

What the user types is edited, scanned and spliced character by character, so a text is the list of
its characters. Positions and lengths count characters.
-/

namespace Calculator

/-- A text is the list of its characters. -/
abbrev Text := List Char

end Calculator
