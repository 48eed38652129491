import CallTime.Value.Object

/-!
The tokens of Python sources.
-/

namespace CallTime.Source

/-- A string as it is written, without its prefix and quotes. -/
structure StringToken where
  isBytes : Bool
  isRaw : Bool
  isFormatted : Bool
  /-- Written with the prefix `u`. -/
  isMarked : Bool
  line : Nat
  place : Place
  body : List Char

inductive TokenKind where
  | name (text : String)
  | keyword (text : String)
  | number (value : Value)
  | string (token : StringToken)
  | operator (text : String)
  | newline
  | indent
  | dedent

structure Token where
  kind : TokenKind
  line : Nat
  place : Place

def keywords : List String := [
  "False", "None", "True", "and", "as", "assert", "async", "await", "break", "class", "continue",
  "def", "del", "elif", "else", "except", "finally", "for", "from", "global", "if", "import", "in",
  "is", "lambda", "nonlocal", "not", "or", "pass", "raise", "return", "try", "while", "with", "yield"]

/-- Operators and delimiters, longer ones first. -/
def operators : List (List Char) := [
  "**=", "//=", ">>=", "<<=", "...",
  "!=", "%=", "&=", "**", "*=", "+=", "-=", "->", "//", "/=", ":=", "<<", "<=", "<>", "==", ">=", ">>",
  "@=", "^=", "|=",
  "%", "&", "(", ")", "*", "+", ",", "-", ".", "/", ":", ";", "<", "=", ">", "@", "[", "]", "^", "\x7b",
  "|", "\x7d", "~"].map String.toList

end CallTime.Source
