/-!
Sets of characters given by where membership changes.
-/

namespace CallTime

/-- The distances from each code point at which membership changes to the next: at the first one the set
is entered, at the next it is left, and so on. -/
structure CharSet where
  steps : Array Nat

namespace CharSet

def contains (s : CharSet) (code : Nat) : Bool :=
  (s.steps.foldl (fun (bound, inside) step =>
    (bound + step, if bound + step ≤ code then !inside else inside)) (0, false)).2

end CharSet

end CallTime
