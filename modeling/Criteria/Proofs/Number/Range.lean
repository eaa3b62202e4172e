import Mathlib
import Criteria.Proofs.Number.Rounding

/-!
# Criteria.Proofs.Number.Range

Which quotients there are numbers for.

* `exists_scale`: the scale at which a quotient has 53 binary digits.
* `exists_holds` and `Interval.Holds.lt_overflow`: a quotient lies in the interval of some number up
  to `overflow`, half a step past the largest one, and from there on in none.
* `round_cases`: rounding finds the number or goes past all of them.
-/

namespace Criteria
namespace Binary64

/-- One, in units. -/
@[irreducible] def unitsPerOne : Nat := 2 ^ 1074

/-- Magnitudes from here on round past the finite numbers. -/
@[irreducible] def overflow : Nat := 2 ^ 1024 - 2 ^ 970

/-! ## Limits -/

/-- What is known of half a step of the largest numbers. Powers this large are not computed with. -/
structure HalfStep (h : Nat) : Prop where
  pos : 0 < h
  overflow : overflow * unitsPerOne = (2 ^ 54 - 1) * h
  limit : unitsLimit = 2 ^ 54 * h
  upper : ∀ k ≤ 2045, 2 ^ k ≤ 2 * h
  lower : ∀ k > 2045, 4 * h ≤ 2 ^ k

theorem two_pow_eq {a b c : Nat} (h : c = a + b) : 2 ^ c = 2 ^ a * 2 ^ b := by
  rw [h, Nat.pow_add]

theorem scaled_gap {a b c d : Nat} (hc : c = a + 54) (hd : d = a + b) :
    (2 ^ c - 2 ^ a) * 2 ^ b = (2 ^ 54 - 1) * 2 ^ d := by
  have hgap : 2 ^ (a + 54) - 2 ^ a = (2 ^ 54 - 1) * 2 ^ a := by
    rw [Nat.pow_add]
    omega
  rw [hc, hd, hgap, Nat.mul_assoc, ← Nat.pow_add]

theorem exists_halfStep : ∃ h, HalfStep h := by
  obtain ⟨j, hj⟩ : ∃ j, j = 2044 := ⟨_, rfl⟩
  refine ⟨2 ^ j, Nat.two_pow_pos j, ?_, ?_, ?_, ?_⟩
  · unfold Binary64.overflow unitsPerOne
    exact @scaled_gap 970 1074 1024 j rfl hj
  · obtain ⟨n, hn⟩ : ∃ n, n = 2098 := ⟨_, rfl⟩
    rw [unitsLimit, ← hn]
    exact two_pow_eq (by omega)
  · intro k hk
    rw [← Nat.pow_succ']
    exact Nat.pow_le_pow_right (by decide) (by omega)
  · intro k hk
    have hle : 2 ^ (2 + j) ≤ 2 ^ k := Nat.pow_le_pow_right (by decide) (by omega)
    rwa [Nat.pow_add] at hle

/-! ## Scales -/

theorem roundDiv_spec (num : Nat) {den : Nat} (hd : 0 < den) :
    2 * (roundDiv num den * den) ≤ 2 * num + den ∧
      2 * num ≤ 2 * (roundDiv num den * den) + den ∧
      (roundDiv num den % 2 = 0 ∨
        2 * (roundDiv num den * den) < 2 * num + den ∧
          2 * num < 2 * (roundDiv num den * den) + den) := by
  have hnum := Nat.div_add_mod num den
  have hr := Nat.mod_lt num hd
  rw [Nat.mul_comm] at hnum
  unfold roundDiv
  dsimp only
  split
  · omega
  · split
    · rw [Nat.add_mul]
      omega
    · have hparity := Nat.mod_two_eq_zero_or_one (num / den)
      rcases hparity with h | h
      · rw [h, Nat.add_zero]
        omega
      · rw [h, Nat.add_mul]
        omega

theorem exists_scale (n : Nat) {den : Nat} (hd : 0 < den) :
    ∃ k, (k = 0 ∨ 2 ^ 52 * (den * 2 ^ k) ≤ n) ∧ n < 2 ^ 53 * (den * 2 ^ k) := by
  by_cases hsmall : n < 2 ^ 53 * den
  · exact ⟨0, .inl rfl, by simpa using hsmall⟩
  · have hne : n / den ≠ 0 := by
      have := (Nat.le_div_iff_mul_le hd).mpr (Nat.le_of_not_lt hsmall)
      omega
    have hlog : 52 ≤ (n / den).log2 := by
      rw [Nat.le_log2 hne, Nat.le_div_iff_mul_le hd]
      omega
    obtain ⟨k, hk⟩ := Nat.exists_eq_add_of_le hlog
    have hlower := Nat.log2_self_le hne
    have hupper := @Nat.lt_log2_self (n / den)
    rw [Nat.le_div_iff_mul_le hd, hk, Nat.pow_add] at hlower
    rw [Nat.div_lt_iff_lt_mul hd, hk, Nat.pow_succ, Nat.pow_add] at hupper
    refine ⟨k, .inr ?_, ?_⟩
    · rwa [Nat.mul_comm den, ← Nat.mul_assoc]
    · rw [Nat.mul_comm den, ← Nat.mul_assoc]
      calc n < 2 ^ 52 * 2 ^ k * 2 * den := hupper
        _ = 2 ^ 53 * 2 ^ k * den := by rw [Nat.mul_right_comm _ _ 2, ← Nat.pow_succ]

/-- Whole numbers of 53 binary digits, scaled, are numbers of the format up to its limit. -/
theorem exists_units (negative : Bool) {q k : Nat} (hq : q < 2 ^ 53) (hk : k = 0 ∨ 2 ^ 52 ≤ q)
    (h : q * 2 ^ k < unitsLimit) :
    ∃ x : Binary64, x.isFinite ∧ x.negative = negative ∧ x.significand = q ∧ x.step = 2 ^ k := by
  by_cases hsub : q < 2 ^ 52
  · have hk0 : k = 0 := hk.resolve_right (by omega)
    subst hk0
    refine ⟨⟨negative, 0, ⟨q, hsub⟩⟩, rfl, rfl, by simp [significand], by simp [step]⟩
  · have hexp : k < 2046 := by
      obtain ⟨s, hs⟩ := exists_halfStep
      by_contra hge
      have hle := Nat.mul_le_mul (Nat.le_of_not_lt hsub) (hs.lower k (by omega))
      rw [hs.limit] at h
      omega
    refine ⟨⟨negative, ⟨k + 1, by omega⟩, ⟨q - 2 ^ 52, by omega⟩⟩, ?_, rfl, ?_, by simp [step]⟩
    · simp [isFinite, Fin.ext_iff]
      omega
    · simp [significand]
      omega

/-- Quotients near a number, where the steps below it are as large as its own. -/
theorem holds_of_steps {x : Binary64} {num den : Nat}
    (hlo : 2 * (x.significand * (den * x.step)) ≤ 2 * (num * 2 ^ 1074) + den * x.step)
    (hhi : 2 * (num * 2 ^ 1074) ≤ 2 * (x.significand * (den * x.step)) + den * x.step)
    (hodd : x.significand % 2 = 0 ∨
      2 * (x.significand * (den * x.step)) < 2 * (num * 2 ^ 1074) + den * x.step ∧
        2 * (num * 2 ^ 1074) < 2 * (x.significand * (den * x.step)) + den * x.step)
    (hpower : x.fraction.val = 0 → 1 < x.exponent.val →
      2 * (x.significand * (den * x.step)) ≤ 2 * (num * 2 ^ 1074) + den * (x.step / 2)) :
    x.interval.Holds num den := by
  have hunits : x.units * den = x.significand * (den * x.step) := by
    rw [units, Nat.mul_assoc, Nat.mul_comm x.step]
  have hhigh : x.interval.high * den = 2 * (x.significand * (den * x.step)) + den * x.step := by
    rw [interval, Nat.add_mul, Nat.mul_assoc, hunits, Nat.mul_comm x.step]
  rw [Interval.Holds, mul_halvesPerOne, hhigh]
  generalize num * 2 ^ 1074 = n at *
  by_cases hp : x.fraction.val = 0 ∧ 1 < x.exponent.val
  · have hsig : x.significand = 2 ^ 52 := by
      rw [significand, if_neg (by omega), hp.1, Nat.add_zero]
    have hclosed : x.interval.closed := by
      simp [interval, hsig]
    have hlow := hpower hp.1 hp.2
    rw [if_pos hclosed, low_of_eq hp, Nat.sub_mul, Nat.mul_assoc, hunits, Nat.mul_comm (_ / 2)]
    omega
  · rw [low_of_ne hp, Nat.sub_mul, Nat.mul_assoc, hunits, Nat.mul_comm x.step]
    split
    · omega
    · rename_i hclosed
      have hsig := closed_eq_false.mp (Bool.eq_false_iff.mpr hclosed)
      have hstrict := hodd.resolve_left hsig
      have hle := Nat.mul_le_mul_right (den * x.step) (show 1 ≤ x.significand by omega)
      omega

/-- At its scale a quotient is rounded to a whole number of 53 binary digits, or to the next power
of two. -/
theorem roundDiv_bounds {n den k : Nat} (hd : 0 < den)
    (hlo : k = 0 ∨ 2 ^ 52 * (den * 2 ^ k) ≤ n) (hhi : n < 2 ^ 53 * (den * 2 ^ k)) :
    (k = 0 ∨ 2 ^ 52 ≤ roundDiv n (den * 2 ^ k)) ∧ roundDiv n (den * 2 ^ k) ≤ 2 ^ 53 := by
  have hD : 0 < den * 2 ^ k := Nat.mul_pos hd (Nat.two_pow_pos k)
  obtain ⟨hqlo, hqhi, -⟩ := roundDiv_spec n hD
  generalize roundDiv n (den * 2 ^ k) = q at *
  constructor
  · refine hlo.imp_right ?_
    intro hlo
    by_contra hlt
    have := Nat.mul_le_mul_right (den * 2 ^ k) (show q + 1 ≤ 2 ^ 52 by omega)
    rw [Nat.succ_mul] at this
    omega
  · by_contra hlt
    have := Nat.mul_le_mul_right (den * 2 ^ k) (show 2 ^ 53 + 1 ≤ q by omega)
    rw [Nat.succ_mul] at this
    omega

/-- Rounding to a multiple of a power of two is rounding to a number, up to the limit. -/
theorem exists_holds (negative : Bool) {num den k : Nat} (hd : 0 < den)
    (hlo : k = 0 ∨ 2 ^ 52 * (den * 2 ^ k) ≤ num * 2 ^ 1074)
    (hhi : num * 2 ^ 1074 < 2 ^ 53 * (den * 2 ^ k))
    (h : roundDiv (num * 2 ^ 1074) (den * 2 ^ k) * 2 ^ k < unitsLimit) :
    ∃ x : Binary64, x.isFinite ∧ x.negative = negative ∧ x.interval.Holds num den := by
  have hD : 0 < den * 2 ^ k := Nat.mul_pos hd (Nat.two_pow_pos k)
  obtain ⟨hqlo, hqhi, htie⟩ := roundDiv_spec (num * 2 ^ 1074) hD
  obtain ⟨hbig, hsmall⟩ := roundDiv_bounds hd hlo hhi
  generalize roundDiv (num * 2 ^ 1074) (den * 2 ^ k) = q at *
  rcases Nat.lt_or_eq_of_le hsmall with hq | rfl
  · obtain ⟨x, hx, hneg, hsig, hstep⟩ := exists_units negative hq hbig h
    refine ⟨x, hx, hneg, holds_of_steps ?_ ?_ ?_ ?_⟩
    · rw [hsig, hstep]; exact hqlo
    · rw [hsig, hstep]; exact hqhi
    · rw [hsig, hstep]; exact htie
    · -- a power of two has a smaller step below, but then the quotient is not below it
      intro hf he
      have hq' : q = 2 ^ 52 := by rw [← hsig, significand, if_neg (by omega), hf, Nat.add_zero]
      have hk : k ≠ 0 := by
        rintro rfl
        have hle : 2 ^ 1 ≤ x.step := Nat.pow_le_pow_right (by omega) (by omega)
        omega
      have hlo := hlo.resolve_left hk
      rw [hsig, hstep, hq']
      generalize num * 2 ^ 1074 = n at *
      omega
  · -- a carry leads to the next power of two
    rw [two_pow_eq (show 53 = 52 + 1 from rfl), Nat.mul_assoc, ← Nat.pow_add, Nat.add_comm 1] at h
    obtain ⟨x, hx, hneg, hsig, hstep⟩ := exists_units negative (by omega) (.inr (Nat.le_refl _)) h
    have hdouble : den * x.step = 2 * (den * 2 ^ k) := by
      rw [hstep, Nat.pow_succ', Nat.mul_left_comm]
    have hhalf : x.step / 2 = 2 ^ k := by
      rw [hstep, Nat.pow_succ', Nat.mul_div_cancel_left _ (by omega)]
    refine ⟨x, hx, hneg, holds_of_steps ?_ ?_ (.inl (by omega)) ?_⟩
    · rw [hsig, hdouble]
      generalize num * 2 ^ 1074 = n at *
      omega
    · rw [hsig, hdouble]
      generalize num * 2 ^ 1074 = n at *
      omega
    · intro _ _
      rw [hsig, hdouble, hhalf]
      generalize num * 2 ^ 1074 = n at *
      omega

theorem Interval.Holds.lt_overflow {x : Binary64} {num den : Nat} (hx : x.isFinite)
    (hd : 0 < den) (h : x.interval.Holds num den) : num < overflow * den := by
  obtain ⟨s, hs⟩ := exists_halfStep
  have hstep : x.step ≤ 2 * s := hs.upper _ (by have := exponent_lt hx; omega)
  have hle : den * x.step ≤ 2 * (den * s) := by
    rw [Nat.mul_left_comm]
    exact Nat.mul_le_mul_left den hstep
  have hD : 0 < den * x.step := Nat.mul_pos hd (step_pos x)
  have hsig := significand_lt x
  obtain ⟨-, hhi, hodd⟩ := h.steps
  generalize hn : num * 2 ^ 1074 = n at *
  have hsum : 2 * n < (2 ^ 54 - 1) * (den * x.step) := by
    by_cases hp : x.significand % 2 = 0
    · have := Nat.mul_le_mul_right (den * x.step) (show x.significand ≤ 2 ^ 53 - 2 by omega)
      omega
    · have := Nat.mul_le_mul_right (den * x.step) (show x.significand ≤ 2 ^ 53 - 1 by omega)
      have := (hodd hp).2
      omega
  have hlt : num * unitsPerOne < overflow * den * unitsPerOne := by
    rw [Nat.mul_right_comm, hs.overflow, Nat.mul_assoc, Nat.mul_comm s]
    unfold unitsPerOne
    rewrite [hn]
    omega
  exact Nat.lt_of_mul_lt_mul_right hlt

/-- Quotients past the limit of the format are past the bound. -/
theorem overflow_le {num den k q : Nat} (hlo : k = 0 ∨ 2 ^ 52 * (den * 2 ^ k) ≤ num * 2 ^ 1074)
    (hq : 2 * (q * (den * 2 ^ k)) ≤ 2 * (num * 2 ^ 1074) + den * 2 ^ k)
    (hsmall : q ≤ 2 ^ 53) (h : unitsLimit ≤ q * 2 ^ k) : overflow * den ≤ num := by
  obtain ⟨s, hs⟩ := exists_halfStep
  have hpos := hs.pos
  rw [hs.limit] at h
  have hk : 2 * s ≤ 2 ^ k := by
    have := Nat.mul_le_mul_right (2 ^ k) hsmall
    omega
  generalize hn : num * 2 ^ 1074 = n at *
  have hle : (2 ^ 54 - 1) * (den * s) ≤ n := by
    by_cases hlast : k ≤ 2045
    · -- the largest scale, where rounding went up to the limit
      have hpow : 2 ^ k = 2 * s := Nat.le_antisymm (hs.upper k hlast) hk
      rw [hpow] at h hq
      have hq53 : 2 ^ 53 ≤ q := by
        by_contra hlt
        have := Nat.mul_le_mul_right (2 * s) (show q + 1 ≤ 2 ^ 53 by omega)
        rw [Nat.succ_mul] at this
        omega
      have := Nat.mul_le_mul_right (den * (2 * s)) hq53
      rw [Nat.mul_left_comm den] at *
      omega
    · have := Nat.mul_le_mul_left den (hs.lower k (by omega))
      have := hlo.resolve_left (by omega)
      rw [Nat.mul_left_comm den] at *
      omega
  have hbound : overflow * den * unitsPerOne ≤ num * unitsPerOne := by
    rw [Nat.mul_right_comm, hs.overflow, Nat.mul_assoc, Nat.mul_comm s]
    unfold unitsPerOne
    rewrite [hn]
    exact hle
  refine Nat.le_of_mul_le_mul_right hbound ?_
  unfold unitsPerOne
  exact pow_pos Nat.two_pos 1074

theorem ofUnits_of_le (negative : Bool) {u : Nat} (h : unitsLimit ≤ u) :
    ofUnits negative u = infinity negative := by
  obtain ⟨s, hs⟩ := exists_halfStep
  have hpos := hs.pos
  have hlimit := hs.limit
  rw [ofUnits, if_neg (by omega), if_neg (by omega)]

/-- A quotient lies in the interval of a number, which it is rounded to, or it is past the bound. -/
theorem round_cases (negative : Bool) {num den : Nat} (hd : 0 < den) :
    (∃ x : Binary64, x.isFinite ∧ x.negative = negative ∧ x.interval.Holds num den ∧
      num < overflow * den ∧ round negative num den = x) ∨
    (overflow * den ≤ num ∧ round negative num den = infinity negative) := by
  obtain ⟨k, hlo, hhi⟩ := exists_scale (num * 2 ^ 1074) hd
  have hround := @round_of_scale negative num den k _ hd hlo hhi rfl
  by_cases hlimit : roundDiv (num * 2 ^ 1074) (den * 2 ^ k) * 2 ^ k < unitsLimit
  · obtain ⟨x, hx, hneg, hholds⟩ := exists_holds negative hd hlo hhi hlimit
    refine .inl ⟨x, hx, hneg, hholds, hholds.lt_overflow hx hd, ?_⟩
    rw [← hneg]
    exact round_of_holds hx hd hholds
  · have hlimit := Nat.le_of_not_lt hlimit
    have hD : 0 < den * 2 ^ k := Nat.mul_pos hd (Nat.two_pow_pos k)
    have hnear := (roundDiv_spec (num * 2 ^ 1074) hD).1
    have hsmall := (roundDiv_bounds hd hlo hhi).2
    exact .inr ⟨overflow_le hlo hnear hsmall hlimit, hround.trans (ofUnits_of_le negative hlimit)⟩

end Binary64
end Criteria
