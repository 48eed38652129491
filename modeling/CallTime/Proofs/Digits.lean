import Mathlib
import CallTime.Duration.Load
import CallTime.Proofs.Defaults
import CallTime.Proofs.Mean
import CallTime.Proofs.Operators

/-!
How many digits durations have.

A rounded quotient is below `2^1024`, so its whole part can be written, however long the numbers that
were divided are. Main statements: so can every mean of whole durations, and the whole part of every
number that a JSON text holds.
-/

namespace CallTime

theorem isLong_of_lt {n : Int} (h : n.natAbs < 10 ^ maxDigits) : isLong n = false := by
  rw [Bool.eq_false_iff, Ne, isLong_iff]
  generalize maxDigits = d at h ⊢
  exact Nat.not_le.mpr h

theorem roundDiv_le {num den b : Nat} (h : num < den * b) : roundDiv num den ≤ b := by
  have hq : num / den < b := Nat.div_lt_of_lt_mul h
  obtain hr | ⟨hr, -⟩ := roundDiv_cases num den <;> omega

namespace Binary64

theorem scaleRatio_eq (num den : Nat) (e : Int) :
    scaleRatio num den e = (num * 2 ^ (-e).toNat, den * 2 ^ e.toNat) := by
  unfold scaleRatio
  split
  · have h : (-e).toNat = 0 := by omega
    rw [h, Nat.pow_zero, Nat.mul_one, Nat.shiftLeft_eq]
  · have h : e.toNat = 0 := by omega
    rw [h, Nat.pow_zero, Nat.mul_one, Nat.shiftLeft_eq]

/-- In units of `2^e` the ratio has at most so many bits. -/
def FitsAt (num den bits : Nat) (e : Int) : Prop :=
  num * 2 ^ (-e).toNat < den * 2 ^ e.toNat * 2 ^ bits

section

variable {num den bits : Nat} {e e' : Int}

theorem FitsAt.mono (h : FitsAt num den bits e) (he : e ≤ e') : FitsAt num den bits e' :=
  calc
    num * 2 ^ (-e').toNat ≤ num * 2 ^ (-e).toNat := by
      gcongr
      · exact one_le_two
      · omega
    _ < den * 2 ^ e.toNat * 2 ^ bits := h
    _ ≤ den * 2 ^ e'.toNat * 2 ^ bits := by
      gcongr
      · exact one_le_two
      · omega

theorem FitsAt.pred (h : FitsAt num den bits e) : FitsAt num den (bits + 1) (e - 1) := by
  unfold FitsAt at *
  by_cases he : 1 ≤ e
  · have hnum : (-(e - 1)).toNat = (-e).toNat := by omega
    have hden : e.toNat = (e - 1).toNat + 1 := by omega
    rw [hden] at h
    rw [hnum]
    calc
      num * 2 ^ (-e).toNat < den * 2 ^ ((e - 1).toNat + 1) * 2 ^ bits := h
      _ = den * 2 ^ (e - 1).toNat * 2 ^ (bits + 1) := by ring
  · have hnum : (-(e - 1)).toNat = (-e).toNat + 1 := by omega
    have hden : (e - 1).toNat = e.toNat := by omega
    rw [hnum, hden]
    calc
      num * 2 ^ ((-e).toNat + 1) = 2 * (num * 2 ^ (-e).toNat) := by ring
      _ < 2 * (den * 2 ^ e.toNat * 2 ^ bits) := by omega
      _ = den * 2 ^ e.toNat * 2 ^ (bits + 1) := by ring

theorem fitsAt_log2 (hd : den ≠ 0) : FitsAt num den 53 ((num.log2 : Int) - den.log2 - 52) := by
  have hnum : num < 2 ^ (num.log2 + 1) := Nat.lt_log2_self
  have hden : 2 ^ den.log2 ≤ den := Nat.log2_self_le hd
  unfold FitsAt
  generalize ha : (-((num.log2 : Int) - den.log2 - 52)).toNat = a
  generalize hb : ((num.log2 : Int) - den.log2 - 52).toNat = b
  have hbits : num.log2 + 1 + a = den.log2 + b + 53 := by omega
  calc
    num * 2 ^ a < 2 ^ (num.log2 + 1) * 2 ^ a := Nat.mul_lt_mul_of_pos_right hnum (Nat.two_pow_pos a)
    _ = 2 ^ den.log2 * 2 ^ b * 2 ^ 53 := by rw [← pow_add, ← pow_add, ← pow_add, hbits]
    _ ≤ den * 2 ^ b * 2 ^ 53 := by gcongr

theorem fitsAt_exponentOf (num : Nat) (hd : den ≠ 0) : FitsAt num den 53 (exponentOf num den) := by
  unfold exponentOf
  dsimp only
  refine FitsAt.mono ?_ (le_max_left _ _)
  split
  · next h =>
    rw [scaleRatio_eq, Nat.shiftLeft_eq] at h
    exact FitsAt.pred h
  · exact fitsAt_log2 hd

end

/-- A finite number lies within the range of the format. -/
inductive Bounded : Binary64 → Prop
  | nan (mark : Option Nat) : Bounded (.nan mark)
  | infinite (negative : Bool) : Bounded (.infinite negative)
  | finite (negative : Bool) {m : Nat} {e : Int} (hm : m ≤ 2 ^ 53) (he : e ≤ maxExponent) :
    Bounded (.finite negative m e)

theorem bounded_zero (negative : Bool) : (zero negative).Bounded :=
  .finite negative (Nat.zero_le _) (by decide)

theorem bounded_pack (negative : Bool) {m : Nat} (hm : m ≤ 2 ^ 53) (e : Int) :
    (pack negative m e).Bounded := by
  have hrange {m : Nat} {e : Int} (hm : m ≤ 2 ^ 53) :
      (if maxExponent < e then infinite negative else finite negative m e).Bounded := by
    split
    · exact .infinite negative
    · exact .finite negative hm (by omega)
  unfold pack
  by_cases h : m = 1 <<< 53
  · rw [if_pos h]
    exact hrange (by decide)
  · rw [if_neg h]
    exact hrange hm

theorem bounded_ofRatio (negative : Bool) (num : Nat) {den : Nat} (hd : den ≠ 0) :
    (ofRatio negative num den).Bounded := by
  unfold ofRatio
  split
  · exact bounded_zero negative
  · have h := fitsAt_exponentOf num hd
    rw [FitsAt] at h
    simp only [scaleRatio_eq]
    exact bounded_pack negative (roundDiv_le h) _

theorem bounded_ofDecimal (negative : Bool) (digits : Nat) (exponent : Int) :
    (ofDecimal negative digits exponent).Bounded := by
  unfold ofDecimal
  dsimp only
  split
  · exact bounded_zero negative
  · split
    · split
      · exact .infinite negative
      · exact bounded_ofRatio _ _ Nat.one_ne_zero
    · split
      · exact bounded_zero negative
      · exact bounded_ofRatio _ _ (Nat.ne_of_gt (Nat.pow_pos (by decide)))

theorem natAbs_truncate_le (negative : Bool) {m k : Nat} {e : Int} (hm : m ≤ 2 ^ 53) (he : e ≤ k) :
    (finite negative m e).truncate.natAbs ≤ 2 ^ (53 + k) := by
  obtain ⟨places, hmin, hone⟩ : ∃ places : Nat, minExponent = -places ∧ unitsPerOne = 1 <<< places :=
    ⟨1074, rfl, rfl⟩
  have hunits : (finite negative m e).units.natAbs = m * 2 ^ (e + places).toNat := by
    rw [units, hmin, Int.sub_neg, Nat.shiftLeft_eq]
    cases negative <;> simp [Int.natAbs_mul, Int.natAbs_pow]
  rw [truncate, Int.natAbs_tdiv, hunits, Int.natAbs_natCast, hone, Nat.one_shiftLeft]
  apply Nat.div_le_of_le_mul
  calc
    m * 2 ^ (e + places).toNat ≤ 2 ^ 53 * 2 ^ (k + places) := by
      gcongr
      · exact one_le_two
      · omega
    _ = 2 ^ places * 2 ^ (53 + k) := by ring

theorem Bounded.isLong_truncate {x : Binary64} (h : x.Bounded) : isLong x.truncate = false := by
  cases h with
  | nan mark => exact isLong_of_lt (by simp [truncate, units])
  | infinite negative => exact isLong_of_lt (by simp [truncate, units])
  | finite negative hm he =>
    obtain ⟨k, hk, hdigits⟩ : ∃ k : Nat, maxExponent = k ∧ 53 + k < maxDigits :=
      ⟨971, rfl, by decide⟩
    refine isLong_of_lt ((natAbs_truncate_le negative hm (hk ▸ he)).trans_lt ?_)
    calc
      2 ^ (53 + k) ≤ 10 ^ (53 + k) := Nat.pow_le_pow_left (by decide) _
      _ < 10 ^ maxDigits := Nat.pow_lt_pow_right (by decide) hdigits

end Binary64

namespace Path

theorem isLong_toInt_div_int {a : Int} {b : Nat} (hb : b ≠ 0) {n : Int}
    (h : (do return some (← (← (Value.int a).div (.int b)).toInt) : Except Fault (Option Int)) =
      .ok (some n)) : isLong n = false := by
  have hdiv : (Value.int a).div (.int b) = do return .float (← Number.intDiv a b) := rfl
  have hbounded := Binary64.bounded_ofRatio ((a < 0) != ((b : Int) < 0)) a.natAbs
    (Int.natAbs_ne_zero.mpr (Int.natCast_ne_zero.mpr hb))
  rw [hdiv, Number.intDiv, if_neg (Int.natCast_ne_zero.mpr hb)] at h
  rcases hr : Binary64.ofRatio ((a < 0) != ((b : Int) < 0)) a.natAbs (b : Int).natAbs
    with m | negative | ⟨negative, m, x⟩
  · exact absurd hr (ofRatio_ne_nan _ _ _ _)
  · rw [hr] at h
    cases h
  · rw [hr] at h hbounded
    cases h
    exact hbounded.isLong_truncate

theorem isLong_of_average {paths : List Path} (h : ∀ q ∈ paths, ∃ p d, q = timed p d) {n : Int}
    (ha : average paths = .ok (some n)) : isLong n = false := by
  obtain ⟨ns, hns⟩ := filterMap_duration? h
  rw [average, hns] at ha
  cases ns with
  | nil => cases ha
  | cons m ns =>
    have hsum := foldlM_add_int (m :: ns) 0
    rw [List.map_cons] at hsum ha
    simp only [hsum] at ha
    exact isLong_toInt_div_int (Nat.succ_ne_zero _) ha

end Path

theorem decimal_lt {ds : List Char} (h : ∀ c ∈ ds, isDigit c = true) :
    decimal ds < 10 ^ ds.length := by
  have hfold (n : Nat) :
      ds.foldl (fun n d => 10 * n + (d.toNat - '0'.toNat)) n < (n + 1) * 10 ^ ds.length := by
    induction ds generalizing n with
    | nil => simp
    | cons c ds ih =>
      obtain ⟨hc, hds⟩ := List.forall_mem_cons.mp h
      have hdigit : c.toNat - '0'.toNat ≤ 9 := by
        have hle : c ≤ '9' := of_decide_eq_true (Bool.and_eq_true_iff.mp hc).2
        have hnat : c.toNat ≤ '9'.toNat := hle
        have hnine : '9'.toNat = '0'.toNat + 9 := rfl
        omega
      calc
        _ < (10 * n + (c.toNat - '0'.toNat) + 1) * 10 ^ ds.length := ih hds _
        _ ≤ (10 * (n + 1)) * 10 ^ ds.length := Nat.mul_le_mul_right _ (by omega)
        _ = (n + 1) * 10 ^ (c :: ds).length := by rw [List.length_cons, pow_succ]; ring
  have h0 := hfold 0
  rwa [Nat.zero_add, Nat.one_mul] at h0

namespace JsonText

/-- A value that a text can hold, where the whole part of each number can be written. -/
inductive Short : Value → Prop
  | null : Short .null
  | bool (b : Bool) : Short (.bool b)
  | int {n : Int} (h : isLong n = false) : Short (.int n)
  | float {x : Binary64} (h : isLong x.truncate = false) : Short (.float x)
  | str (s : Text) : Short (.str s)
  | list {vs : List Value} (h : ∀ v ∈ vs, Short v) : Short (.list vs)
  | table {es : List (Text × Value)} (h : ∀ e ∈ es, Short e.2) : Short (.table es)

theorem short_number (negative : Bool) (cs : List Char) :
    Meets (fun _ => True) (number negative cs) fun r => Short r.1 := by
  have hfloat (digits : Nat) (e : Int) : Short (.float (.ofDecimal negative digits e)) :=
    .float (Binary64.bounded_ofDecimal negative digits e).isLong_truncate
  unfold number
  extract_lets whole
  have hdigits : ∀ c ∈ whole, isDigit c = true := by
    unfold whole
    split
    · exact fun c hc => List.mem_singleton.mp hc ▸ (by decide)
    · exact List.all_eq_true.mp List.all_takeWhile
  clear_value whole
  dsimp only
  split
  · exact meets_error trivial
  · split
    · exact meets_ok (hfloat _ _)
    · split
      · exact meets_ok (hfloat _ _)
      · split
        · exact meets_error trivial
        · next hlong =>
          have hlt : decimal whole < 10 ^ maxDigits :=
            (decimal_lt hdigits).trans_le (Nat.pow_le_pow_right (by decide) (by omega))
          refine meets_ok (.int (isLong_of_lt ?_))
          split
          · rwa [Int.natAbs_neg, Int.natAbs_natCast]
          · rwa [Int.natAbs_natCast]

theorem short_scalar (cs : List Char) :
    Meets (fun _ => True) (scalar cs) fun r => Short r.1 := by
  have hspecial {x : Binary64} (h : x.Bounded) : Short (.float x) := .float h.isLong_truncate
  have hwords : ∀ w ∈ words, Short w.2 := by
    simp [words, Short.null, Short.bool, hspecial, Binary64.Bounded.nan, Binary64.Bounded.infinite]
  unfold scalar
  split
  · next h => exact meets_ok (hwords _ (List.mem_of_find?_eq_some h))
  · split
    · exact short_number true _
    · exact short_number false cs

/-- By induction on the fuel, for values, items and members together. -/
theorem short_value (fuel : Nat) :
    (∀ cs, Meets (fun _ => True) (value fuel cs) fun r => Short r.1) ∧
    (∀ cs, Meets (fun _ => True) (items fuel cs) fun r => ∀ v ∈ r.1, Short v) ∧
    ∀ cs, Meets (fun _ => True) (members fuel cs) fun r => ∀ e ∈ r.1, Short e.2 := by
  induction fuel with
  | zero =>
    exact ⟨fun _ => meets_error trivial, fun _ => meets_error trivial, fun _ => meets_error trivial⟩
  | succ fuel ih =>
    obtain ⟨ihv, ihi, ihm⟩ := ih
    refine ⟨fun cs => ?_, fun cs => ?_, fun cs => ?_⟩
    · unfold value
      split
      · split
        · exact meets_ok (.str _)
        · exact meets_error trivial
      · split
        · exact meets_ok (.list (List.forall_mem_nil _))
        · exact meets_bind (ihi _) fun r hr => meets_pure (.list hr)
      · split
        · exact meets_ok (.table (List.forall_mem_nil _))
        · refine meets_bind (ihm _) fun r hr => meets_pure (.table fun e he => ?_)
          obtain ⟨e', he', hv⟩ := OrderedMap.mem_values_ofList (List.mem_map_of_mem he)
          exact hv ▸ hr e' he'
      · exact short_scalar cs
    · refine meets_bind (ihv cs) fun r hr => ?_
      dsimp only
      split
      · exact meets_pure (List.forall_mem_singleton.mpr hr)
      · exact meets_bind (ihi _) fun r' hr' => meets_pure (List.forall_mem_cons.mpr ⟨hr, hr'⟩)
      · exact meets_error trivial
    · unfold members
      split
      · split
        · split
          · refine meets_bind (ihv _) fun r hr => ?_
            dsimp only
            split
            · exact meets_pure (List.forall_mem_singleton.mpr hr)
            · exact meets_bind (ihm _) fun r' hr' => meets_pure (List.forall_mem_cons.mpr ⟨hr, hr'⟩)
            · exact meets_error trivial
          · exact meets_error trivial
        · exact meets_error trivial
      · exact meets_error trivial

theorem short_read {text : String} {v : Value} (h : read text = .ok v) : Short v := by
  have hread : Meets (fun _ => True) (read text) Short := by
    refine meets_bind ((short_value _).1 _) fun r hr => ?_
    dsimp only
    split
    · exact meets_pure hr
    · exact meets_error trivial
  exact (meets_iff.mp hread).2 v h

theorem Short.toInt {v : Value} (h : Short v) {n : Int} (hn : v.toInt = .ok n)
    (hv : Durations.isNumeric v = true) : isLong n = false := by
  cases h with
  | int h =>
    cases hn
    exact h
  | @float x h =>
    cases x <;> cases hn
    exact h
  | _ => cases hv

end JsonText

end CallTime
