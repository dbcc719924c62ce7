import Calculator.Text.Printable

/-! # Quoted texts

A quoted text stands between single quotes, or between double quotes if it holds a single quote and no
double one. The quote and the backslash are escaped, and so is every character that is not printable,
by a letter or by its code point in two, four or eight hexadecimal digits.
-/

namespace Calculator.Quoted

/-- The single quote. -/
def singleQuote : Char := Char.ofNat 39

/-- The double quote. -/
def doubleQuote : Char := Char.ofNat 34

/-- The backslash. -/
def backslash : Char := Char.ofNat 92

/-- The quote that stands on both sides of a text. -/
def quoteOf (text : Text) : Char :=
  if text.contains singleQuote && !text.contains doubleQuote then doubleQuote else singleQuote

/-- A code point in hexadecimal digits, with zeros in front up to a width. -/
def hexadecimal (width : Nat) (c : Char) : Text := (Nat.toDigits 16 c.toNat).leftpad width '0'

/-- The characters that stand for one character between two quotes. -/
def escape (quote c : Char) : Text :=
  if c = quote ∨ c = backslash then [backslash, c]
  else if c = '\n' then [backslash, 'n']
  else if c = '\r' then [backslash, 'r']
  else if c = '\t' then [backslash, 't']
  else if Printable.isPrintable c then [c]
  else if c.toNat < 256 then backslash :: 'x' :: hexadecimal 2 c
  else if c.toNat < 65536 then backslash :: 'u' :: hexadecimal 4 c
  else backslash :: 'U' :: hexadecimal 8 c

/-- The quoted text. -/
def encode (text : Text) : Text :=
  let quote := quoteOf text
  quote :: text.flatMap (escape quote) ++ [quote]

end Calculator.Quoted
