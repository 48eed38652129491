import CallTime.Fault
import CallTime.Number.Shortest
import CallTime.Text.Digit
import CallTime.Text.Quoted

/-!
The text of a value, as a literal and for display. A whole number with too many digits has none.
-/

namespace CallTime

def decimalText (n : Int) : Except Fault String :=
  if isLong n then .error .wrongValue else .ok (toString n)

def commaSeparated (parts : List String) : String := ", ".intercalate parts

/-- A complex number whose real part is a positive zero is written by its imaginary part alone. -/
def complexText (re im : Binary64) : String :=
  let imaginary := NumberFormat.bare.text im
  if re.isZero && !re.negative then imaginary ++ "j"
  else
    let sign := if imaginary.startsWith "-" then "" else "+"
    "(" ++ NumberFormat.bare.text re ++ sign ++ imaginary ++ "j)"

namespace Value

mutual

def literal : Value → Except Fault String
  | .null => .ok "None"
  | .ellipsis => .ok "Ellipsis"
  | .bool b => .ok (if b then "True" else "False")
  | .int n => decimalText n
  | .float x => .ok (NumberFormat.literal.text x)
  | .complex re im => .ok (complexText re im)
  | .str s => .ok (Quoted.text s)
  | .bytes b => .ok (Quoted.bytes b)
  | .list items => do return "[" ++ commaSeparated (← literals items) ++ "]"
  | .tuple items => do
    match ← literals items with
    | [one] => return "(" ++ one ++ ",)"
    | many => return "(" ++ commaSeparated many ++ ")"
  | .table entries => do return "\x7b" ++ commaSeparated (← entryLiterals entries) ++ "\x7d"
  | .stubborn .wrongKind _ => .ok "BadBool(TypeError)"
  | .stubborn .wrongValue _ => .ok "BadBool(ValueError)"
  | .moment text => .ok text
termination_by structural v => v

def literals : List Value → Except Fault (List String)
  | [] => .ok []
  | v :: vs => do return (← v.literal) :: (← literals vs)
termination_by structural vs => vs

def entryLiterals : List (Text × Value) → Except Fault (List String)
  | [] => .ok []
  | e :: es => do return (← entryLiteral e) :: (← entryLiterals es)
termination_by structural es => es

def entryLiteral : Text × Value → Except Fault String
  | (k, v) => do return Quoted.text k ++ ": " ++ (← v.literal)
termination_by structural e => e

end

/-- The text of a value for display: a text stands for itself. -/
def display : Value → Except Fault Text
  | .str s => .ok s
  | v => do return .ofString (← v.literal)

def shown (v : Value) : String :=
  match v.display with
  | .ok t => t.shown
  | .error _ => "..."

end Value

end CallTime
