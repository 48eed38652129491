import CallTime.Value.Basic

/-!
The ways in which an operation can fail, and the words for them.
-/

namespace CallTime

inductive Fault where
  /-- An operation met a value of a kind it does not take. -/
  | wrongKind
  /-- The kind is right, the value is not. -/
  | wrongValue
  | outOfRange
  /-- A table has no entry for a key. -/
  | missingKey
  | divisionByZero
  /-- An infinity has no whole part. -/
  | infinite
  /-- The quotient of two integers lies outside the binary64 range. -/
  | quotientTooLarge
  /-- An integer is too large for a binary64 number or for a length. -/
  | tooLarge
  /-- The tree or a path of it is corrupt. -/
  | broken (reason : String) (context : List (String × String))
  | exhausted (mark limit : Int)
  | unimplemented
  | undecodable
  /-- A report does not have the fields it needs. -/
  | invalid
  /-- A text does not have the form it should. -/
  | malformed
  /-- Default values call each other without end. -/
  | endless
  deriving DecidableEq

namespace Fault

def message? : Fault → Option String
  | .infinite => some "cannot convert float infinity to integer"
  | .quotientTooLarge => some "integer division result too large for a float"
  | .tooLarge => some "int too large to convert to float"
  | .broken reason _ => some reason
  | .exhausted mark limit => some ("Gas exhausted: " ++ toString mark ++ "/" ++ toString limit)
  | _ => none

/-- Marks a state that a sound tree never reaches. -/
def never (reason : String) (context : List (String × String)) : Fault :=
  .broken (if reason.isEmpty then "never() marker reached" else reason) context

/-- Passes a value on; a strict requirement refuses a missing one. -/
def requireValue (strict : Bool) (reason : String) (context : List (String × String)) (v : Value) :
    Except Fault Value :=
  if v.isNull && strict then
    .error (never (if reason.isEmpty then "required value is None" else reason) context)
  else .ok v

end Fault

end CallTime
