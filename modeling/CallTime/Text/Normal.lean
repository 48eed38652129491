import CallTime.Text.Digit
import CallTime.Text.Normal.Table
import Std.Data.HashMap

/-!
The normal form of identifiers: every character is replaced by what it stands for, marks are put in
order, and letters are composed with the marks that follow them as far as possible.
-/

namespace CallTime

namespace Normal

def hex (s : String) : Nat := (hexNumber? s.toList).getD 0

/-- A word `key:target`. -/
def splitWord (word : String) : String × String :=
  match word.splitOn ":" with
  | [key, target] => (key, target)
  | _ => (word, "")

/-- The code points of `first-last` or of a single one. -/
def span (key : String) : List Nat :=
  match key.splitOn "-" with
  | [first, last] => (List.range (hex last + 1 - hex first)).map (hex first + ·)
  | _ => [hex key]

def words (lines : List String) : List (String × String) :=
  lines.flatMap fun line => (line.splitOn " ").map splitWord

/-- Each of the targets after a key, with how far it is from the first. -/
def rows (lines : List String) : List (String × Nat × String) :=
  (words lines).flatMap fun (key, targets) => (targets.splitOn ",").mapIdx fun i t => (key, i, t)

def singles : List (Nat × List Nat) :=
  (rows singleWords).flatMap fun (key, i, target) =>
    (span key).mapIdx fun j n => (n + i, [hex target + j])

def parts (lines : List String) : List (Nat × List Nat) :=
  (rows lines).map fun (key, i, target) => (hex key + i, (target.splitOn "+").map hex)

def pairs : List (Nat × List Nat) := parts pairWords

def sequences : List (Nat × List Nat) := parts sequenceWords

def expansions : Std.HashMap Nat (List Nat) := Std.HashMap.ofList (singles ++ pairs ++ sequences)

def compositions : Std.HashMap (List Nat) Nat :=
  Std.HashMap.ofList (pairs.map fun (whole, parts) => (parts, whole))

def classes : Std.HashMap Nat Nat :=
  Std.HashMap.ofList ((words classWords).flatMap fun (key, k) => (span key).map (·, hex k))

/-- Zero for a character that stands for itself; marks have a class above zero. -/
def classOf (n : Nat) : Nat := classes.getD n 0

def syllables : Nat := 0xAC00

def syllableParts? (n : Nat) : Option (List Nat) :=
  if syllables ≤ n && n < syllables + 19 * 21 * 28 then
    let i := n - syllables
    let opened := [0x1100 + i / (21 * 28), 0x1161 + i % (21 * 28) / 28]
    some (if i % 28 = 0 then opened else opened ++ [0x11A7 + i % 28])
  else none

def syllable? (a b : Nat) : Option Nat :=
  if 0x1100 ≤ a && a < 0x1100 + 19 && 0x1161 ≤ b && b < 0x1161 + 21 then
    some (syllables + ((a - 0x1100) * 21 + (b - 0x1161)) * 28)
  else if syllables ≤ a && a < syllables + 19 * 21 * 28 && (a - syllables) % 28 = 0
      && 0x11A7 < b && b < 0x11A7 + 28 then
    some (a + (b - 0x11A7))
  else none

/-- What a character stands for. Parts of parts nest three deep at most. -/
def expand : (depth : Nat) → Nat → List Nat
  | 0, n => [n]
  | depth + 1, n => match syllableParts? n with
    | some parts => parts
    | none => match expansions[n]? with
      | some parts => parts.flatMap (expand depth)
      | none => [n]

/-- Puts a character before marks that are in order: a mark goes behind the marks of lower classes. -/
def insertMark (n : Nat) : List Nat → List Nat
  | [] => [n]
  | m :: rest => if 0 < classOf m && classOf m < classOf n then m :: insertMark n rest else n :: m :: rest

def sortMarks (ns : List Nat) : List Nat := ns.foldr insertMark []

def compose? (a b : Nat) : Option Nat :=
  match syllable? a b with
  | some n => some n
  | none => compositions[[a, b]]?

/-- Composes a character with the marks after it; `passed` are those that did not fit, the last one
first. A mark cannot go past one of its own class or a higher one. -/
def composeFrom : (starter : Nat) → (passed : List Nat) → List Nat → List Nat
  | starter, passed, [] => starter :: passed.reverse
  | starter, passed, n :: rest =>
    let free := match passed with
      | [] => true
      | p :: _ => classOf p < classOf n
    match if free then compose? starter n else none with
    | some whole => composeFrom whole passed rest
    | none =>
      if classOf n = 0 then starter :: passed.reverse ++ composeFrom n [] rest
      else composeFrom starter (n :: passed) rest

def composeAll : List Nat → List Nat
  | [] => []
  | n :: rest => if classOf n = 0 then composeFrom n [] rest else n :: composeAll rest

end Normal

def normalForm (s : String) : String :=
  if s.toList.all (·.toNat < 128) then s
  else
    let ns := s.toList.flatMap fun c => Normal.expand 4 c.toNat
    String.ofList ((Normal.composeAll (Normal.sortMarks ns)).map Char.ofNat)

end CallTime
