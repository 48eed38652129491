import CallTime.Source.Token

/-!
Parsers over tokens. A parser that fails consumes nothing.
-/

namespace CallTime.Source

abbrev Parser := StateT (List Token) Option

namespace Parser

variable {α β : Type}

def line : Parser Nat := do
  match ← get with
  | t :: _ => return t.line
  | [] => return 0

def place : Parser Place := do
  match ← get with
  | t :: _ => return t.place
  | [] => return []

/-- Fails without consuming when `p` does not succeed. -/
def attempt (p : Parser α) : Parser (Option α) := fun ts =>
  match p ts with
  | some (a, rest) => some (some a, rest)
  | none => some (none, ts)

def isWord (s : String) (t : Token) : Bool :=
  match t.kind with
  | .operator x | .keyword x => x == s
  | _ => false

def sees (s : String) : Parser Bool := return (← get).head?.any (isWord s)

def seesNext (s : String) : Parser Bool := return ((← get).drop 1).head?.any (isWord s)

def skip : Parser Unit := modify (·.drop 1)

def accept (s : String) : Parser Bool := do
  if ← sees s then
    skip
    return true
  else return false

def expect (s : String) : Parser Unit := do
  if !(← accept s) then failure

def oneOf {γ : Type} (words : List (String × γ)) : Parser (Option γ) := do
  match (← get).head? with
  | some t => match words.find? fun w => isWord w.1 t with
    | some (_, g) => do
      skip
      return some g
    | none => return none
  | none => return none

def name? : Parser (Option String) := do
  match (← get).head? with
  | some ⟨.name s, _, _⟩ => return some s
  | _ => return none

def name : Parser String := do
  match ← name? with
  | some s => do
    skip
    return s
  | none => failure

def softKeyword (s : String) : Parser Unit := do
  if (← name) ≠ s then failure

def newline : Parser Unit := do
  match ← get with
  | ⟨.newline, _, _⟩ :: rest => set rest
  | _ => failure

def indent : Parser Unit := do
  match ← get with
  | ⟨.indent, _, _⟩ :: rest => set rest
  | _ => failure

def dedent : Parser Unit := do
  match ← get with
  | ⟨.dedent, _, _⟩ :: rest => set rest
  | _ => failure

def many : (bound : Nat) → Parser α → Parser (List α)
  | 0, _ => return []
  | bound + 1, p => do
    match ← attempt p with
    | some a => return a :: (← many bound p)
    | none => return []

def many1 (bound : Nat) (p : Parser α) : Parser (List α) := do
  let a ← p
  return a :: (← many bound p)

/-- Goes on from a value as long as `step` finds a next one. -/
def chain : (bound : Nat) → (step : α → Parser (Option α)) → α → Parser α
  | 0, _, a => return a
  | bound + 1, step, a => do
    match ← step a with
    | some b => chain bound step b
    | none => return a

def commaRest : (bound : Nat) → Parser α → Parser (List α × Bool)
  | 0, _ => return ([], false)
  | bound + 1, p => do
    if ← accept "," then
      match ← attempt p with
      | some a =>
        let (as, trailing) ← commaRest bound p
        return (a :: as, trailing)
      | none => return ([], true)
    else return ([], false)

/-- At least one item; says whether the list ends with a comma. -/
def commaList (bound : Nat) (p : Parser α) : Parser (List α × Bool) := do
  let a ← p
  let (as, trailing) ← commaRest bound p
  return (a :: as, trailing)

end Parser

end CallTime.Source
