import CallTime.Text.Digit
import CallTime.Text.Name.Table
import Std.Data.HashMap

/-!
Characters by name. Names are read without regard to case.
-/

namespace CallTime

namespace CharName

def expand (name : String) : String :=
  String.join (name.toList.map fun c => (phrases.lookup c).getD (String.singleton c))

def row (text : String) : List (String × Nat) :=
  match text.splitOn ":" with
  | [first, names] =>
    (names.splitOn ";").mapIdx fun i name => (expand name, (hexNumber? first.toList).getD 0 + i)
  | _ => []

def table : Std.HashMap String Nat := Std.HashMap.ofList ((nameRows ++ aliasRows).flatMap row)

/-- The ranges of the unified ideographs of East Asia, which are named by their numbers. -/
def ideographs : List (Nat × Nat) := [
  (0x3400, 0x4DBF), (0x4E00, 0x9FFF), (0x20000, 0x2A6DF), (0x2A700, 0x2B738), (0x2B740, 0x2B81D),
  (0x2B820, 0x2CEA1), (0x2CEB0, 0x2EBE0), (0x30000, 0x3134A)]

def ideograph? (digits : List Char) : Option Nat := do
  if digits.length ≠ 4 && digits.length ≠ 5 then none
  let n ← hexNumber? digits
  if ideographs.any fun (first, last) => first ≤ n && n ≤ last then
    if digits.length = 5 && n < 0x10000 then none else some n
  else none

def ideographName : List Char := "CJK UNIFIED IDEOGRAPH-".toList

end CharName

def codeOfName? (name : List Char) : Option Nat :=
  let name := name.map Char.toUpper
  if CharName.ideographName.isPrefixOf name then
    CharName.ideograph? (name.drop CharName.ideographName.length)
  else CharName.table[String.ofList name]?

end CallTime
