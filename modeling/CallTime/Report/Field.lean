import CallTime.Text.Utf8
import CallTime.Value.Convert

/-!
Reading the fields of a report leniently: a number may be spelled out in a text, a whole number may be
a floating-point number without a fraction, a flag may be a word.
-/

namespace CallTime.Field

def text? : Value → Option String
  | .str s => s.string?
  | .bytes b => decodeUtf8? b
  | _ => none

def dropZeroFraction (cs : List Char) : List Char :=
  match cs.dropWhile (· ≠ '.') with
  | '.' :: places => if places.all (· = '0') then cs.takeWhile (· ≠ '.') else cs
  | _ => cs

def spelledInteger? (s : String) : Option Int :=
  let cs := trimBlank s.toList
  if cs.all (·.toNat < 128) then readInt? (dropZeroFraction cs) else none

/-- A floating-point number without a fraction, in the range of 64 bits. -/
def wholeNumber? (x : Binary64) : Option Int :=
  match x with
  | .finite _ _ _ =>
    let n := x.truncate
    if x.units = n * Binary64.unitsPerOne && n.natAbs < Nat.pow 2 63 then some n else none
  | _ => none

def integer? : Value → Option Int
  | .bool b => some (if b then 1 else 0)
  | .int n => some n
  | .float x => wholeNumber? x
  | .str s => s.string?.bind spelledInteger?
  | _ => none

def falseWords : List String := ["0", "off", "f", "false", "n", "no"]

def trueWords : List String := ["1", "on", "t", "true", "y", "yes"]

def flagOfWord? (s : String) : Option Bool :=
  let word := String.ofList (s.toList.map Char.toLower)
  if falseWords.contains word then some false
  else if trueWords.contains word then some true
  else none

def flag? : Value → Option Bool
  | .bool b => some b
  | .int 0 => some false
  | .int 1 => some true
  | .float x => match wholeNumber? x with
    | some 0 => some false
    | some 1 => some true
    | _ => none
  | .str s => s.string?.bind flagOfWord?
  | _ => none

def list? {α : Type} (read : Value → Option α) : Value → Option (List α)
  | .list vs => vs.mapM read
  | _ => none

def nullable? {α : Type} (read : Value → Option α) : Value → Option (Option α)
  | .null => some none
  | v => (read v).map some

def entries? : Value → Option (List (Text × Value))
  | .table es => some es
  | _ => none

def required {α : Type} (es : List (Text × Value)) (name : Text) (read : Value → Option α) :
    Option α :=
  (es.lookup name).bind read

def withDefault {α : Type} (es : List (Text × Value)) (name : Text) (read : Value → Option α)
    (default : α) : Option α :=
  match es.lookup name with
  | some v => read v
  | none => some default

end CallTime.Field
