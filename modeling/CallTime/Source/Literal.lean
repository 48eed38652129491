import CallTime.Source.Expr
import CallTime.Source.Token
import CallTime.Text.Digit
import CallTime.Text.Name

/-!
The contents of string literals: escapes in texts and in byte strings.
-/

namespace CallTime.Source

def octalDigit? (c : Char) : Option Nat :=
  if '0' ≤ c && c ≤ '7' then some (c.toNat - '0'.toNat) else none

/-- Escapes of one letter; a line end after a backslash is left out separately. -/
def simpleEscapes : List (Char × Nat) := [
  ('\\', 92), ('\'', 39), ('"', 34), ('a', 7), ('b', 8), ('f', 12), ('n', 10), ('r', 13), ('t', 9),
  ('v', 11)]

/-- What an escape stands for and how many characters after the backslash it takes. `none` if it is
malformed; an unknown escape stands for itself. -/
inductive Escape where
  | code (n : Nat) (length : Nat)
  | nothing (length : Nat)
  | plain
  | malformed

def octal (cs : List Char) : Nat × Nat :=
  let ds := (cs.take 3).map octalDigit? |>.takeWhile Option.isSome |>.filterMap (fun d => d)
  (ds.foldl (fun n d => 8 * n + d) 0, ds.length)

def hexEscape (width : Nat) (cs : List Char) : Escape :=
  match hexNumber? (cs.take width) with
  | some n => if width ≤ cs.length then .code n (width + 1) else .malformed
  | none => .malformed

def nameEscape (cs : List Char) : Escape :=
  match cs with
  | '{' :: rest =>
    let name := rest.takeWhile (· ≠ '}')
    match codeOfName? name with
    | some n => if name.length < rest.length then .code n (name.length + 3) else .malformed
    | none => .malformed
  | _ => .malformed

/-- Reads the escape after a backslash; `wide` tells texts from byte strings. -/
def Escape.read (wide : Bool) (cs : List Char) : Escape :=
  match cs with
  | [] => .plain
  | c :: rest =>
    if c = '\n' then .nothing 1
    else match simpleEscapes.lookup c with
      | some n => .code n 1
      | none =>
        let (n, digits) := octal cs
        if digits ≠ 0 then .code n digits
        else if c = 'x' then hexEscape 2 rest
        else if wide && c = 'u' then hexEscape 4 rest
        else if wide && c = 'U' then hexEscape 8 rest
        else if wide && c = 'N' then nameEscape rest
        else .plain

/-- Replaces escapes; `skip` characters belong to an escape that was read already. -/
def unescapeFrom (wide : Bool) : (skip : Nat) → List Char → Option (List Nat)
  | _, [] => some []
  | skip + 1, _ :: rest => unescapeFrom wide skip rest
  | 0, c :: rest =>
    if c = '\\' then
      match Escape.read wide rest with
      | .code n length => do return n :: (← unescapeFrom wide length rest)
      | .nothing length => unescapeFrom wide length rest
      | .plain => do return c.toNat :: (← unescapeFrom wide 0 rest)
      | .malformed => none
    else do return c.toNat :: (← unescapeFrom wide 0 rest)

def textOf? (isRaw : Bool) (body : List Char) : Option (List Nat) :=
  if isRaw then some (codesOf body)
  else (unescapeFrom true 0 body).filter (·.all (· < 0x110000))

def bytesOf? (t : StringToken) : Option (List UInt8) :=
  if t.body.any (128 ≤ ·.toNat) then none
  else do
    let codes ← if t.isRaw then some (t.body.map Char.toNat) else unescapeFrom false 0 t.body
    return codes.map fun n => n.toUInt8

end CallTime.Source
