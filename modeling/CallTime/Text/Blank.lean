import CallTime.Text.CharSet

/-!
White space in the sense of Unicode, and trimming it from both ends of a text.
-/

namespace CallTime

def blank : CharSet where
  steps := #[
    9, 5, 14, 5, 100, 1, 26, 1, 5599, 1, 2431, 11, 29, 2, 5, 1, 47, 1, 4000, 1]

def isBlank (c : Char) : Bool := blank.contains c.toNat

def trimBlank (cs : List Char) : List Char :=
  ((cs.dropWhile isBlank).reverse.dropWhile isBlank).reverse

end CallTime
