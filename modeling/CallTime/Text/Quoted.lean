import CallTime.Text.Basic
import CallTime.Text.Printable

/-!
Quoted text: between single quotes, or between double quotes when the text holds a single quote and
no double one.
-/

namespace CallTime

/-- At least `width` hexadecimal digits. -/
def hexDigits (width n : Nat) : List Char :=
  let ds := Nat.toDigits 16 n
  List.replicate (width - ds.length) '0' ++ ds

namespace Quoted

def quoteFor (codes : List Nat) : Char :=
  if codes.contains '\''.toNat && !codes.contains '"'.toNat then '"' else '\''

def escapeCode (n : Nat) : List Char :=
  if n = 9 then ['\\', 't']
  else if n = 10 then ['\\', 'n']
  else if n = 13 then ['\\', 'r']
  else if n = 92 then ['\\', '\\']
  else if n < 0x100 then '\\' :: 'x' :: hexDigits 2 n
  else if n < 0x10000 then '\\' :: 'u' :: hexDigits 4 n
  else '\\' :: 'U' :: hexDigits 8 n

def escape (quote : Char) (n : Nat) : List Char :=
  if n = quote.toNat then ['\\', quote]
  else if n ≠ 92 && isPrintable n then [Char.ofNat n]
  else escapeCode n

def body (quote : Char) (codes : List Nat) : List Char := codes.flatMap (escape quote)

def text (t : Text) : String :=
  let q := quoteFor t.codes
  String.ofList (q :: body q t.codes ++ [q])

def escapeByte (quote : Char) (b : UInt8) : List Char :=
  let c := Char.ofNat b.toNat
  if c = quote then ['\\', c]
  else if b.toNat = 92 then escapeCode 92
  else if 32 ≤ b.toNat && b.toNat < 127 then [c]
  else escapeCode b.toNat

def bytes (bs : List UInt8) : String :=
  let q := quoteFor (bs.map UInt8.toNat)
  String.ofList ('b' :: q :: bs.flatMap (escapeByte q) ++ [q])

def ascii (s : String) : String :=
  String.ofList (s.toList.flatMap fun c => if c.toNat < 128 then [c] else escapeCode c.toNat)

end Quoted

end CallTime
