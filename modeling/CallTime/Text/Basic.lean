/-!
Texts as sequences of code points. A text may hold surrogates that stand alone, a string of characters
does not.
-/

namespace CallTime

def codesOf (cs : List Char) : List Nat := cs.map Char.toNat

structure Text where
  codes : List Nat
  deriving DecidableEq

namespace Text

def ofChars (cs : List Char) : Text := ⟨codesOf cs⟩

def ofString (s : String) : Text := ofChars s.toList

instance : Coe String Text := ⟨ofString⟩

def char? (n : Nat) : Option Char := if h : n.isValidChar then some (Char.ofNatAux n h) else none

def chars? (t : Text) : Option (List Char) := t.codes.mapM char?

def string? (t : Text) : Option String := t.chars?.map String.ofList

def shown (t : Text) : String :=
  String.ofList (t.codes.map fun n => (char? n).getD (Char.ofNat 0xFFFD))

def isEmpty (t : Text) : Bool := t.codes.isEmpty

def length (t : Text) : Nat := t.codes.length

def append (a b : Text) : Text := ⟨a.codes ++ b.codes⟩

instance : Append Text := ⟨append⟩

theorem char?_toNat (c : Char) : char? c.toNat = some c := by
  have h : c.toNat.isValidChar := c.valid
  rw [char?, dif_pos h]
  rfl

@[simp] theorem chars?_ofChars (cs : List Char) : (ofChars cs).chars? = some cs := by
  induction cs with
  | nil => rfl
  | cons c cs ih =>
    simp only [chars?, ofChars, codesOf] at ih
    simp [chars?, ofChars, codesOf, List.mapM_cons, char?_toNat, ih]

@[simp] theorem string?_ofString (s : String) : (ofString s).string? = some s := by
  rw [string?, ofString, chars?_ofChars]
  exact congrArg some String.ofList_toList

theorem ofString_injective {s t : String} (h : ofString s = ofString t) : s = t :=
  Option.some.inj ((string?_ofString s).symm.trans ((congrArg string? h).trans (string?_ofString t)))

end Text

end CallTime
