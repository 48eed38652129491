import Mathlib
import CallTime.Proofs.Durations

/-!
The mean of path durations.

The mean goes through a rounded quotient, and a quotient just below a whole number could be rounded up to
it. Main statement: as long as the sum stays below `2^53` this does not happen, and the whole part of the
rounded quotient is that of the exact one.
-/

namespace CallTime

theorem roundDiv_cases (num den : Nat) :
    roundDiv num den = num / den ∨
      roundDiv num den = num / den + 1 ∧ den ≤ 2 * (num % den) := by
  unfold roundDiv
  dsimp only
  split
  · exact .inl rfl
  · split
    · exact .inr ⟨rfl, by omega⟩
    · split
      · exact .inl rfl
      · exact .inr ⟨rfl, by omega⟩

/-- A quotient that is rounded up to a whole number lies within half a unit of it, while it differs from
it by at least one part in `n`. So `n` is large. -/
theorem le_of_round_up {s n k : Nat} (hn : 0 < n) (hr : n ≤ 2 * (s * 2 ^ k % n))
    (hdvd : 2 ^ k ∣ s * 2 ^ k / n + 1) : 2 ^ (k + 1) ≤ n := by
  obtain ⟨t, ht⟩ := hdvd
  have hlt : s * 2 ^ k % n < n := Nat.mod_lt _ hn
  have hsplit : n * (s * 2 ^ k / n) + s * 2 ^ k % n = s * 2 ^ k := Nat.div_add_mod _ _
  have hgap : s * 2 ^ k + (n - s * 2 ^ k % n) = n * t * 2 ^ k := by
    calc s * 2 ^ k + (n - s * 2 ^ k % n)
        = n * (s * 2 ^ k / n + 1) := by rw [Nat.mul_add]; omega
      _ = n * t * 2 ^ k := by rw [ht]; ring
  have hdiv : 2 ^ k ∣ n - s * 2 ^ k % n :=
    (Nat.dvd_add_right (Nat.dvd_mul_left _ s)).mp (hgap ▸ Nat.dvd_mul_left _ _)
  have hle : 2 ^ k ≤ n - s * 2 ^ k % n := Nat.le_of_dvd (by omega) hdiv
  rw [Nat.pow_succ]
  omega

theorem roundDiv_shift_div {s n k : Nat} (hn : 0 < n)
    (h : n < 2 ^ (k + 1) ∨ s * 2 ^ k / n + 1 < 2 ^ k) : roundDiv (s * 2 ^ k) n / 2 ^ k = s / n := by
  have hdown : s * 2 ^ k / n / 2 ^ k = s / n := by
    rw [Nat.div_div_eq_div_mul, Nat.mul_div_mul_right _ _ (Nat.two_pow_pos k)]
  obtain heq | ⟨heq, hr⟩ := roundDiv_cases (s * 2 ^ k) n
  · rw [heq, hdown]
  · have hdvd : ¬2 ^ k ∣ s * 2 ^ k / n + 1 := by
      intro hdvd
      obtain h | h := h
      · exact absurd (le_of_round_up hn hr hdvd) (Nat.not_le.mpr h)
      · exact absurd (Nat.le_of_dvd (Nat.succ_pos _) hdvd) (Nat.not_le.mpr h)
    rw [heq, Nat.succ_div, if_neg hdvd, Nat.add_zero, hdown]

theorem shift_div_lt {s n k : Nat} (hs : s < 2 ^ 53) (hk : 54 ≤ k) (hn : 2 ^ k ≤ n) :
    s * 2 ^ k / n + 1 < 2 ^ k := by
  have hle : s * 2 ^ k / n ≤ s := by
    apply Nat.div_le_of_le_mul
    rw [Nat.mul_comm n]
    exact Nat.mul_le_mul_left s hn
  have hpow : 2 ^ 54 ≤ 2 ^ k := Nat.pow_le_pow_right (by omega) hk
  omega

namespace Binary64

theorem scaleRatio_neg (num den k : Nat) : scaleRatio num den (-k) = (num * 2 ^ k, den) := by
  unfold scaleRatio
  split
  · have hk : k = 0 := by omega
    simp [hk]
  · simp [Nat.shiftLeft_eq]

/-- Below `2^53` the significand takes in all of the whole part, so the unit in the last place is at most
one. Unless it is the least unit there is, the divisor is below twice its inverse. -/
theorem exponentOf_eq {s n : Nat} (hs : s < 2 ^ 53) (hpos : 0 < s) :
    ∃ k : Nat, k ≤ 1074 ∧ exponentOf s n = -k ∧ (n < 2 ^ (k + 1) ∨ k = 1074) := by
  have hbits : s.log2 ≤ 52 := Nat.le_of_lt_succ ((Nat.log2_lt (by omega)).mpr hs)
  have hn : n < 2 ^ (n.log2 + 1) := Nat.lt_log2_self
  -- Either way there are at least as many binary places as the divisor has bits.
  obtain ⟨j, hj, he⟩ : ∃ j : Nat, n.log2 ≤ j ∧ exponentOf s n = max (-(j : Int)) minExponent := by
    unfold exponentOf
    dsimp only
    split
    · exact ⟨53 + n.log2 - s.log2, by omega, by congr 1; omega⟩
    · exact ⟨52 + n.log2 - s.log2, by omega, by congr 1; omega⟩
  have hlt : n < 2 ^ (j + 1) := hn.trans_le (Nat.pow_le_pow_right (by omega) (by omega))
  by_cases hmin : j ≤ 1074
  · exact ⟨j, hmin, by rw [he, minExponent]; omega, .inl hlt⟩
  · exact ⟨1074, le_rfl, by rw [he, minExponent]; omega, .inr rfl⟩

theorem exists_pack (negative : Bool) (m : Nat) {k : Nat} (hk : k ≤ 1074) :
    ∃ m' e, pack negative m (-k) = .finite negative m' e ∧
      m' <<< (e - minExponent).toNat = m * 2 ^ (1074 - k) := by
  have hunit : (-(k : Int) - minExponent).toNat = 1074 - k := by
    rw [minExponent]
    omega
  have hnext : (-(k : Int) + 1 - minExponent).toNat = 1074 - k + 1 := by
    rw [minExponent]
    omega
  unfold pack
  by_cases hm : m = 1 <<< 53
  · refine ⟨1 <<< 52, -k + 1, ?_, ?_⟩
    · rw [if_pos hm]
      exact if_neg (by rw [maxExponent]; omega)
    · rw [hnext, hm, Nat.shiftLeft_eq, Nat.one_shiftLeft, Nat.one_shiftLeft, Nat.pow_succ 2 (1074 - k)]
      ring
  · refine ⟨m, -k, ?_, ?_⟩
    · rw [if_neg hm]
      exact if_neg (by rw [maxExponent]; omega)
    · rw [hunit, Nat.shiftLeft_eq]

theorem truncate_finite {negative : Bool} {m k : Nat} {e : Int} (hk : k ≤ 1074) {m' : Nat}
    (h : m' <<< (e - minExponent).toNat = m * 2 ^ (1074 - k)) :
    (finite negative m' e).truncate =
      if negative then -((m / 2 ^ k : Nat) : Int) else (m / 2 ^ k : Nat) := by
  have hsplit : unitsPerOne = 2 ^ k * 2 ^ (1074 - k) := by
    rw [← Nat.pow_add, ← Nat.one_shiftLeft, Nat.add_sub_cancel' hk]
    rfl
  have hquot : m * 2 ^ (1074 - k) / unitsPerOne = m / 2 ^ k := by
    rw [hsplit, Nat.mul_div_mul_right _ _ (Nat.two_pow_pos _)]
  rw [truncate, units, h]
  cases negative with
  | false =>
    rw [if_neg Bool.false_ne_true, if_neg Bool.false_ne_true, ← Int.ofNat_tdiv, hquot]
  | true => rw [if_pos rfl, if_pos rfl, Int.neg_tdiv, ← Int.ofNat_tdiv, hquot]

/-- The whole part of the rounded quotient is the whole part of the quotient. -/
theorem truncate_ofRatio (negative : Bool) {s n : Nat} (hs : s < 2 ^ 53) (hn : 0 < n) :
    ∃ m e, ofRatio negative s n = .finite negative m e ∧
      (finite negative m e).truncate =
        if negative then -((s / n : Nat) : Int) else (s / n : Nat) := by
  by_cases hzero : s = 0
  · refine ⟨0, minExponent, ?_, ?_⟩
    · rw [ofRatio, if_pos hzero, zero]
    · cases negative <;> simp [truncate, units, hzero]
  obtain ⟨k, hk, he, hsmall⟩ := exponentOf_eq (n := n) hs (Nat.pos_of_ne_zero hzero)
  obtain ⟨m, e, hpack, hunits⟩ := exists_pack negative (roundDiv (s * 2 ^ k) n) hk
  refine ⟨m, e, ?_, ?_⟩
  · rw [ofRatio, if_neg hzero, he]
    dsimp only
    rw [scaleRatio_neg]
    exact hpack
  · rw [truncate_finite hk hunits, roundDiv_shift_div hn]
    obtain hlt | hleast := hsmall
    · exact .inl hlt
    -- With the least unit of all a larger divisor makes the quotient tiny.
    · by_cases hlarge : n < 2 ^ (k + 1)
      · exact .inl hlarge
      · have hpow : 2 ^ k ≤ 2 ^ (k + 1) := Nat.pow_le_pow_right (by omega) (by omega)
        exact .inr (shift_div_lt hs (by omega) (by omega))

end Binary64

theorem tdiv_le_of_le_mul {a b c : Int} (hc : 0 < c) (h : b ≤ a * c) : b.tdiv c ≤ a := by
  have hneg : -a ≤ (-b).tdiv c := Int.le_tdiv_of_mul_le hc (by rw [Int.neg_mul]; omega)
  rw [Int.neg_tdiv] at hneg
  omega

theorem mean_mem_bounds {ns : List Int} (hne : ns ≠ []) : ∃ least greatest, ns.min? = some least ∧
    ns.max? = some greatest ∧ least ≤ ns.sum.tdiv ns.length ∧ ns.sum.tdiv ns.length ≤ greatest := by
  have hpos : (0 : Int) < ns.length := Int.natCast_pos.mpr (List.length_pos_of_ne_nil hne)
  obtain ⟨least, hleast⟩ := Option.isSome_iff_exists.mp (List.isSome_min?_of_ne_nil hne)
  obtain ⟨greatest, hgreatest⟩ := Option.isSome_iff_exists.mp (List.isSome_max?_of_ne_nil hne)
  refine ⟨least, greatest, hleast, hgreatest, ?_, ?_⟩
  · apply Int.le_tdiv_of_mul_le hpos
    have hsum := List.card_nsmul_le_sum ns least (List.min?_eq_some_iff.mp hleast).2
    rwa [nsmul_eq_mul, mul_comm] at hsum
  · apply tdiv_le_of_le_mul hpos
    have hsum := List.sum_le_card_nsmul ns greatest (List.max?_eq_some_iff.mp hgreatest).2
    rwa [nsmul_eq_mul, mul_comm] at hsum

/-- The whole number that a value is; a truth value counts as zero or one. -/
def Value.whole? (v : Value) : Option Int :=
  match Number.ofValue? v with
  | some (.int n) => some n
  | _ => none

namespace Value

theorem add_whole {v : Value} {n : Int} (h : v.whole? = some n) (m : Int) :
    Value.add (.int m) v = .ok (.int (m + n)) := by
  cases v with
  | bool b => cases h; rfl
  | int k => cases h; rfl
  | _ => cases h

theorem foldlM_add_whole {vs : List Value} {ns : List Int} (h : vs.map whole? = ns.map some) (m : Int) :
    vs.foldlM Value.add (.int m) = .ok (.int (m + ns.sum)) := by
  induction vs generalizing ns m with
  | nil =>
    have hns : ns = [] := by simpa using h.symm
    rw [hns, List.sum_nil, Int.add_zero]
    rfl
  | cons v vs ih =>
    cases ns with
    | nil => cases h
    | cons n ns =>
      obtain ⟨hv, hvs⟩ := List.cons.inj h
      rw [List.foldlM_cons, add_whole hv, List.sum_cons, ← Int.add_assoc]
      exact ih hvs (m + n)

theorem toInt_div_whole {s : Int} {n : Nat} (hs : s.natAbs < 2 ^ 53) (hn : 0 < n) :
    ((Value.int s).div (.int n) >>= toInt) = .ok (s.tdiv n) := by
  obtain ⟨m, e, hratio, htrunc⟩ := Binary64.truncate_ofRatio (decide (s < 0)) hs hn
  have hsign : (decide (s < 0) != decide ((n : Int) < 0)) = decide (s < 0) := by
    rw [decide_eq_false (by omega : ¬(n : Int) < 0), Bool.bne_false]
  have hdiv : (Value.int s).div (.int n) = .ok (.float (.finite (decide (s < 0)) m e)) := by
    change (do return Value.float (← Number.intDiv s n)) = _
    rw [Number.intDiv, if_neg (by omega), hsign, Int.natAbs_natCast, hratio]
    rfl
  rw [hdiv]
  change Except.ok _ = _
  rw [htrunc]
  congr 1
  by_cases hneg : s < 0
  · have habs : s = -(s.natAbs : Int) := by omega
    rw [if_pos (decide_eq_true hneg), Int.ofNat_tdiv]
    conv_rhs => rw [habs, Int.neg_tdiv]
  · have habs : s = s.natAbs := by omega
    rw [if_neg (by simpa using hneg), Int.ofNat_tdiv, ← habs]

end Value

namespace Path

def wholeDuration? (p : Path) : Option Int := p.duration?.bind Value.whole?

def wholeDurations (paths : List Path) : List Int := paths.filterMap wholeDuration?

def Timely (paths : List Path) : Prop := ∀ v ∈ paths.filterMap duration?, v.whole?.isSome

instance (paths : List Path) : Decidable (Timely paths) :=
  inferInstanceAs (Decidable (∀ v ∈ paths.filterMap duration?, v.whole?.isSome))

variable {paths : List Path}

theorem wholeDurations_eq (paths : List Path) :
    wholeDurations paths = (paths.filterMap duration?).filterMap Value.whole? := by
  rw [List.filterMap_filterMap]
  rfl

theorem Timely.map_whole? (h : Timely paths) :
    (paths.filterMap duration?).map Value.whole? = (wholeDurations paths).map some := by
  rw [wholeDurations_eq]
  unfold Timely at h
  generalize paths.filterMap duration? = vs at h
  induction vs with
  | nil => rfl
  | cons v vs ih =>
    obtain ⟨hv, hvs⟩ := List.forall_mem_cons.mp h
    obtain ⟨n, hn⟩ := Option.isSome_iff_exists.mp hv
    rw [List.map_cons, List.filterMap_cons_some hn, List.map_cons, hn, ih hvs]

theorem Timely.wholeDurations_ne_nil (h : Timely paths) (hsome : ∃ p ∈ paths, p.duration?.isSome) :
    wholeDurations paths ≠ [] := by
  obtain ⟨p, hp, hd⟩ := hsome
  obtain ⟨v, hv⟩ := Option.isSome_iff_exists.mp hd
  obtain ⟨n, hn⟩ := Option.isSome_iff_exists.mp (h v (List.mem_filterMap.mpr ⟨p, hp, hv⟩))
  have hm : n ∈ wholeDurations paths := List.mem_filterMap.mpr ⟨p, hp, by simp [wholeDuration?, hv, hn]⟩
  exact List.ne_nil_of_mem hm

theorem average_eq_tdiv (h : Timely paths) (hne : wholeDurations paths ≠ [])
    (hs : (wholeDurations paths).sum.natAbs < 2 ^ 53) :
    average paths = .ok (some ((wholeDurations paths).sum.tdiv (wholeDurations paths).length)) := by
  have hwhole := h.map_whole?
  have hlength : (paths.filterMap duration?).length = (wholeDurations paths).length := by
    simpa using congrArg List.length hwhole
  have hpos : 0 < (wholeDurations paths).length := List.length_pos_of_ne_nil hne
  have hsum := Value.foldlM_add_whole hwhole 0
  have hmean := Value.toInt_div_whole hs hpos
  unfold average
  split
  · next hnil =>
    rw [hnil] at hlength
    exact absurd hlength.symm (Nat.ne_of_gt hpos)
  · rw [hsum, hlength, Int.zero_add]
    change ((Value.int _).div _ >>= fun mean => mean.toInt >>= fun n => .ok (some n)) = _
    rw [← bind_assoc, hmean]
    rfl

/-- The mean of whole durations of either sign whose sum is below `2^53` is their exact mean toward zero.
It is the same for all paths with these durations, in whatever order and among whatever paths without a
duration, and it lies between the least and the greatest of them. -/
theorem average_exact (h : Timely paths) (hsome : ∃ p ∈ paths, p.duration?.isSome)
    (hs : |(wholeDurations paths).sum| < 2 ^ 53) :
    average paths = .ok (some ((wholeDurations paths).sum.tdiv (wholeDurations paths).length)) ∧
    (∀ others : List Path, (others.filterMap duration?).Perm (paths.filterMap duration?) →
      average others = average paths) ∧
    ∃ least greatest, (wholeDurations paths).min? = some least ∧
      (wholeDurations paths).max? = some greatest ∧
      least ≤ (wholeDurations paths).sum.tdiv (wholeDurations paths).length ∧
      (wholeDurations paths).sum.tdiv (wholeDurations paths).length ≤ greatest := by
  have hne := h.wholeDurations_ne_nil hsome
  have habs : (wholeDurations paths).sum.natAbs < 2 ^ 53 := by
    rw [Int.abs_eq_natAbs] at hs
    omega
  have hmean := average_eq_tdiv h hne habs
  refine ⟨hmean, ?_, mean_mem_bounds hne⟩
  intro others hperm
  have hdurations : (wholeDurations others).Perm (wholeDurations paths) := by
    rw [wholeDurations_eq, wholeDurations_eq]
    exact hperm.filterMap _
  have htimely : Timely others := fun v hv => h v (hperm.mem_iff.mp hv)
  rw [hmean, average_eq_tdiv htimely, hdurations.sum_eq, hdurations.length_eq]
  · intro hnil
    rw [hnil] at hdurations
    exact hne hdurations.nil_eq.symm
  · rwa [hdurations.sum_eq]

def uneven : List Path :=
  [some 9007199254740992, none, some (-3), some 0].map ({ function := default : Path }).timed

/-- The quotient is a third below the next whole number, and half a unit in its last place is a quarter. -/
theorem average_exact_uneven :
    |(wholeDurations uneven).sum| < 2 ^ 53 ∧ average uneven = .ok (some 3002399751580329) ∧
      average uneven.reverse = .ok (some 3002399751580329) := by
  have hs : |(wholeDurations uneven).sum| < 2 ^ 53 := by decide
  obtain ⟨hmean, hothers, -⟩ := average_exact (by decide) (by decide) hs
  refine ⟨hs, hmean, ?_⟩
  rw [hothers _ (List.reverse_perm uneven |>.filterMap _)]
  exact hmean

end Path

end CallTime
