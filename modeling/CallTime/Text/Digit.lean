/-!
Decimal digits of every script, where each script has its ten digits in a row, and hexadecimal ones.
-/

namespace CallTime

def digitZeros : Array Nat := #[
    48, 1632, 1776, 1984, 2406, 2534, 2662, 2790, 2918, 3046, 3174, 3302, 3430, 3558, 3664, 3792,
    3872, 4160, 4240, 6112, 6160, 6470, 6608, 6784, 6800, 6992, 7088, 7232, 7248, 42528, 43216,
    43264, 43472, 43504, 43600, 44016, 65296, 66720, 68912, 69734, 69872, 69942, 70096, 70384,
    70736, 70864, 71248, 71360, 71472, 71904, 72016, 72784, 73040, 73120, 92768, 92864, 93008,
    120782, 120792, 120802, 120812, 120822, 123200, 123632, 125264, 130032]

def digitValue? (c : Char) : Option Nat :=
  if c.toNat < 128 then
    if '0' ≤ c ∧ c ≤ '9' then some (c.toNat - 48) else none
  else
    (digitZeros.find? fun z => z ≤ c.toNat && c.toNat < z + 10).map (c.toNat - ·)

def maxDigits : Nat := 4300

def isLong (n : Int) : Bool := maxDigits < (Nat.toDigits 10 n.natAbs).length

theorem isLong_iff {n : Int} : isLong n = true ↔ Nat.pow 10 maxDigits ≤ n.natAbs := by
  have hpos : 0 < maxDigits := by decide
  rw [isLong]
  -- Otherwise the power would be computed.
  generalize maxDigits = d at hpos ⊢
  rw [decide_eq_true_iff, ← Nat.not_le, Nat.length_toDigits_le_iff (by decide) hpos, Nat.not_lt]
  rfl

theorem isLong_eq_false {m n : Int} (hn : isLong n = false) (h : m.natAbs ≤ n.natAbs) :
    isLong m = false := by
  rw [Bool.eq_false_iff, Ne, isLong_iff] at hn ⊢
  exact fun hm => hn (Nat.le_trans hm h)

/-- One of the digits from `0` to `9`. -/
def isDigit (c : Char) : Bool := '0' ≤ c && c ≤ '9'

def decimal (ds : List Char) : Nat := ds.foldl (fun n d => 10 * n + (d.toNat - '0'.toNat)) 0

def hexDigit? (c : Char) : Option Nat :=
  if isDigit c then some (c.toNat - '0'.toNat)
  else if 'a' ≤ c && c ≤ 'f' then some (c.toNat - 'a'.toNat + 10)
  else if 'A' ≤ c && c ≤ 'F' then some (c.toNat - 'A'.toNat + 10)
  else none

def hexNumber? (cs : List Char) : Option Nat :=
  cs.foldl (fun n? c => do return 16 * (← n?) + (← hexDigit? c)) (some 0)

end CallTime
