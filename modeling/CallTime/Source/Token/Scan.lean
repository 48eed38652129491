import CallTime.Source.Token
import CallTime.Source.Token.Number
import CallTime.Text.Identifier
import CallTime.Text.Normal
import CallTime.Text.Utf8

/-!
Splitting a source into tokens. Indentation becomes tokens of its own; inside brackets neither
indentation nor ends of lines count.
-/

namespace CallTime.Source.Scan

/-- An indentation is measured twice, with tabs to multiples of eight and with tabs of width one. The
two measures have to agree on what is deeper. -/
structure Indentation where
  column : Nat
  alternate : Nat
  deriving DecidableEq

def Indentation.zero : Indentation := ⟨0, 0⟩

structure State where
  rest : List Char
  line : Nat
  /-- Where the source stands in another one. -/
  base : Place := []
  /-- The number of tokens so far. -/
  count : Nat := 0
  /-- Open brackets, the innermost first. -/
  brackets : List Char := []
  /-- Open indentations, the innermost first, without the outermost. -/
  indents : List Indentation := []
  /-- The tokens so far, the latest first. -/
  tokens : List Token := []

def maxIndents : Nat := 100

def maxBrackets : Nat := 200

namespace State

def place (s : State) : Place := s.count :: s.base

def emit (s : State) (kind : TokenKind) : State :=
  { s with tokens := ⟨kind, s.line, s.place⟩ :: s.tokens, count := s.count + 1 }

def current (s : State) : Indentation := s.indents.head?.getD .zero

end State

/-- The indentation of a line, and what follows it. After a backslash at the end of a line the
indentation is the one before the first such backslash. -/
def indentation (line : Nat) (now : Indentation) (first : Option Indentation) :
    List Char → Option (Indentation × Nat × List Char)
  | ' ' :: rest => indentation line ⟨now.column + 1, now.alternate + 1⟩ first rest
  | '\t' :: rest => indentation line ⟨(now.column / 8 + 1) * 8, now.alternate + 1⟩ first rest
  | '\x0c' :: rest => indentation line .zero first rest
  | '\\' :: '\n' :: rest =>
    let column := match first with
      | some i => i.column
      | none => now.column
    if rest.isEmpty then none
    else
      let first := if column = 0 then none else some ⟨column, column⟩
      indentation (line + 1) now first rest
  | '\\' :: _ => none
  | rest => some (first.getD now, line, rest)

def dedent (new : Indentation) (s : State) : List Indentation → Option State
  | [] => if new = .zero then some { s with indents := [] } else none
  | i :: is =>
    if new.column < i.column then dedent new (s.emit .dedent) is
    else if new = i then some { s with indents := i :: is }
    else none

def indent (new : Indentation) (s : State) : Option State :=
  if new.column = s.current.column then if new = s.current then some s else none
  else if s.current.column < new.column then
    if s.current.alternate < new.alternate && s.indents.length + 1 < maxIndents then
      some { s.emit .indent with indents := new :: s.indents }
    else none
  else dedent new s s.indents

def stringBody (quote : Char) (triple : Bool) : List Char → Option (List Char × List Char)
  | [] => none
  | '\\' :: c :: rest => do
    let (body, rest) ← stringBody quote triple rest
    return ('\\' :: c :: body, rest)
  | c :: rest =>
    let closed : Option (List Char) :=
      if c = quote then
        if !triple then some rest
        else match rest with
          | c1 :: c2 :: rest => if c1 = quote && c2 = quote then some rest else none
          | _ => none
      else none
    match closed with
    | some rest => some ([], rest)
    | none =>
      if c = '\n' && !triple then none
      else do
        let (body, rest) ← stringBody quote triple rest
        return (c :: body, rest)

def quoted (quote : Char) (rest : List Char) : Option (List Char × List Char) :=
  match rest with
  | c1 :: c2 :: rest' =>
    if c1 = quote && c2 = quote then stringBody quote true rest'
    else if c1 = quote then some ([], c2 :: rest')
    else stringBody quote false rest
  | [c1] => if c1 = quote then some ([], []) else none
  | [] => none

structure Letters where
  b : Bool := false
  r : Bool := false
  u : Bool := false
  f : Bool := false

def Letters.read (l : Letters) : List Char → Letters × List Char
  | [] => (l, [])
  | c :: rest =>
    let d := c.toLower
    if d = 'b' && !(l.b || l.u || l.f) then { l with b := true }.read rest
    else if d = 'u' && !(l.b || l.u || l.r || l.f) then { l with u := true }.read rest
    else if d = 'r' && !(l.r || l.u) then { l with r := true }.read rest
    else if d = 'f' && !(l.f || l.b || l.u) then { l with f := true }.read rest
    else (l, c :: rest)

def countLines (cs : List Char) : Nat := cs.count '\n'

/-- A string that starts here, with or without a prefix. `none` if there is none, or `some none` if it
does not end. -/
def stringToken (line : Nat) (place : Place) (cs : List Char) :
    Option (Option (StringToken × List Char)) :=
  let (l, rest) := Letters.read {} cs
  match rest with
  | q :: rest =>
    if q = '\'' || q = '"' then
      some do
        let (body, rest) ← quoted q rest
        return (⟨l.b, l.r, l.f, cs.head? = some 'u', line, place, body⟩, rest)
    else none
  | [] => none

def isNameChar (c : Char) : Bool := c.isAlphanum || c = '_' || 128 ≤ c.toNat

def nameToken (cs : List Char) : Option TokenKind :=
  let text := String.ofList cs
  if keywords.contains text then some (.keyword text)
  else if isIdentifier cs then some (.name (normalForm text))
  else none

def closing : Char → Option Char
  | ')' => some '('
  | ']' => some '['
  | '}' => some '{'
  | _ => none

def bracket (c : Char) (open_ : List Char) : Option (List Char) :=
  if c = '(' || c = '[' || c = '{' then
    if open_.length < maxBrackets then some (c :: open_) else none
  else match closing c with
    | none => some open_
    | some o => match open_ with
      | b :: bs => if b = o then some bs else none
      | [] => none

def operatorToken (s : State) : Option State := do
  let op ← operators.find? (·.isPrefixOf s.rest)
  let brackets ← match op with
    | [c] => bracket c s.brackets
    | _ => some s.brackets
  return { s.emit (.operator (String.ofList op)) with brackets, rest := s.rest.drop op.length }

def token (s : State) : Option State :=
  match s.rest with
  | [] => none
  | c :: _ =>
    match stringToken s.line s.place s.rest with
    | some none => none
    | some (some (t, rest)) =>
      some { s.emit (.string t) with rest, line := s.line + countLines t.body }
    | none =>
      if c.isAlpha || c = '_' || 128 ≤ c.toNat then do
        let kind ← nameToken (s.rest.takeWhile isNameChar)
        return { s.emit kind with rest := s.rest.dropWhile isNameChar }
      else if isDigit c || (c = '.' && (s.rest.drop 1).head?.any isDigit) then do
        let (v, rest) ← Number.scan s.rest
        return { s.emit (.number v) with rest }
      else operatorToken s

def isBlankChar (c : Char) : Bool := c = ' ' || c = '\t' || c = '\x0c'

/-- Scans the lines from here on. `atStart` says whether a new line begins. -/
def run : (fuel : Nat) → (atStart : Bool) → State → Option State
  | 0, _, _ => none
  | fuel + 1, true, s => do
    let (new, line, rest) ← indentation s.line .zero none s.rest
    let s := { s with line, rest }
    match rest with
    | '#' :: _ => match rest.dropWhile (· ≠ '\n') with
      | _ :: rest => run fuel true { s with rest, line := s.line + 1 }
      | [] => none
    | '\n' :: rest => run fuel true { s with rest, line := s.line + 1 }
    | [] => dedent .zero s s.indents
    | _ => run fuel false (← indent new s)
  | fuel + 1, false, s =>
    match s.rest.dropWhile isBlankChar with
    | [] => none
    | '#' :: rest => run fuel false { s with rest := rest.dropWhile (· ≠ '\n') }
    | '\n' :: rest =>
      if s.brackets.isEmpty then run fuel true { s.emit .newline with rest, line := s.line + 1 }
      else run fuel false { s with rest, line := s.line + 1 }
    | '\\' :: '\n' :: rest =>
      if rest.isEmpty then none else run fuel false { s with rest, line := s.line + 1 }
    | '\\' :: _ => none
    | rest => do run fuel false (← token { s with rest })

end Scan

/-- The tokens of a source that starts on a line and at a place; `none` if it cannot be split into
tokens. -/
def Token.scan (line : Nat) (base : Place) (source : List Char) : Option (List Token) := do
  let cs := unifyLineEnds source
  let cs := if cs.getLast? = some '\n' then cs else cs ++ ['\n']
  let s ← Scan.run (2 * cs.length + 2) true { rest := cs, line, base }
  return s.tokens.reverse

end CallTime.Source
