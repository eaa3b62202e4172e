import Mathlib
import Criteria.Proofs.Number.Nearest

/-!
# Criteria.Proofs.Number.Order

The order of numbers, the infinite ones among them, and where whole numbers come to stand in it.

* `value`: the number on the line of the rationals with its two ends.
* `less_iff` and `same_iff`: comparing numbers is comparing their values.
* `Nearest.value_le` and `Nearest.le_value`: rounding does not move past a number.
* `isSome_ofInt` and `nearest_ofInt`: which whole numbers are rounded, and to what.
-/

namespace Criteria
namespace Binary64

/-- The rational numbers with an end on either side. -/
abbrev Extended := WithBot (WithTop ℚ)

/-- What a number stands for in the order. A NaN stands for nothing, whatever this says of it. -/
def value (x : Binary64) : Extended :=
  if x.isFinite then (x.toRat : WithTop ℚ) else if x.negative then ⊥ else ⊤

@[simp] theorem Extended.coe_lt_top (q : ℚ) : ((q : WithTop ℚ) : Extended) < ⊤ :=
  WithBot.coe_lt_coe.mpr (WithTop.coe_lt_top q)

theorem value_of_finite {x : Binary64} (h : x.isFinite) : x.value = (x.toRat : WithTop ℚ) := by
  rw [value, if_pos h]

theorem isNaN_of_finite {x : Binary64} (h : x.isFinite) : x.isNaN = false := by
  simp_all [isFinite, isNaN]

/-! ## Keys -/

theorem units_lt_of_exponent {x y : Binary64} (h : x.exponent.val < y.exponent.val) :
    x.units < y.units := by
  have hy : 2 ^ 52 ≤ y.significand := le_significand (by omega)
  by_cases hx : x.exponent.val = 0
  · have hsig : x.significand < 2 ^ 52 := by
      rw [significand, if_pos hx]
      exact x.fraction.isLt
    have hone : x.step = 1 := by rw [step, show x.exponent.val - 1 = 0 by omega, Nat.pow_zero]
    rw [units, hone, Nat.mul_one]
    exact Nat.lt_of_lt_of_le hsig (Nat.le_trans hy (Nat.le_mul_of_pos_right _ (step_pos y)))
  · have hlt : x.exponent.val - 1 < y.exponent.val - 1 := by omega
    obtain ⟨k, hstep⟩ := exists_step_eq hlt
    obtain ⟨hle, hge⟩ := units_le_of_step hstep hy
    have hpos := Nat.mul_pos (step_pos x) (Nat.two_pow_pos k)
    omega

theorem exponent_eq {x : Binary64} (h : x.isFinite = false) : x.exponent.val = 2047 := by
  have hexp : x.exponent = 2047 := by simpa [isFinite] using h
  rw [hexp]
  rfl

theorem units_lt_of_finite {x y : Binary64} (hx : x.isFinite) (hy : y.isFinite = false) :
    x.units < y.units :=
  units_lt_of_exponent (by rw [exponent_eq hy]; exact exponent_lt hx)

theorem units_eq_of_infinite {x y : Binary64} (hx : x.isFinite = false) (hy : y.isFinite = false)
    (hxn : x.isNaN = false) (hyn : y.isNaN = false) : x.units = y.units := by
  have hfraction : ∀ z : Binary64, z.isFinite = false → z.isNaN = false → z.fraction = 0 := by
    intro z hz hzn
    simp_all [isFinite, isNaN]
  rw [units, units, significand, significand, step, step, exponent_eq hx, exponent_eq hy,
    hfraction x hx hxn, hfraction y hy hyn]

variable {x y : Binary64}

theorem key_lt_iff (hx : x.isNaN = false) (hy : y.isNaN = false) :
    x.key < y.key ↔ x.value < y.value := by
  cases hxf : x.isFinite <;> cases hyf : y.isFinite
  case true.true =>
    rw [value_of_finite hxf, value_of_finite hyf, WithBot.coe_lt_coe, WithTop.coe_lt_coe,
      toRat_lt_iff]
  case true.false =>
    have hunits := units_lt_of_finite hxf hyf
    cases hxs : x.negative <;> cases hys : y.negative <;>
      simp [value, key, hxf, hyf, hxs, hys] <;> omega
  case false.true =>
    have hunits := units_lt_of_finite hyf hxf
    cases hxs : x.negative <;> cases hys : y.negative <;>
      simp [value, key, hxf, hyf, hxs, hys] <;> omega
  case false.false =>
    have hunits := units_eq_of_infinite hxf hyf hx hy
    have hzero := units_lt_of_finite (show zero.isFinite from rfl) hxf
    cases hxs : x.negative <;> cases hys : y.negative <;>
      simp [value, key, hxf, hyf, hxs, hys] <;> omega

theorem key_eq_iff (hx : x.isNaN = false) (hy : y.isNaN = false) :
    x.key = y.key ↔ x.value = y.value := by
  rw [le_antisymm_iff, le_antisymm_iff, ← not_lt, ← not_lt, ← not_lt, ← not_lt, key_lt_iff hx hy,
    key_lt_iff hy hx]

theorem less_iff (hx : x.isNaN = false) (hy : y.isNaN = false) :
    x.less y ↔ x.value < y.value := by
  rw [less, hx, hy, ← key_lt_iff hx hy]
  simp

theorem same_iff (hx : x.isNaN = false) (hy : y.isNaN = false) :
    x.same y ↔ x.value = y.value := by
  rw [same, hx, hy, ← key_eq_iff hx hy]
  simp

/-! ## Rounding -/

theorem Nearest.value_mono {r s : ℚ} (hx : x.Nearest r) (hy : y.Nearest s) (h : r ≤ s) :
    x.value ≤ y.value := by
  rw [value_of_finite hx.finite, value_of_finite hy.finite, WithBot.coe_le_coe, WithTop.coe_le_coe]
  exact hx.mono hy h

theorem Nearest.value_le {r : ℚ} (hy : y.Nearest r) (h : x.value ≤ (r : WithTop ℚ)) :
    x.value ≤ y.value := by
  rw [value_of_finite hy.finite]
  cases hx : x.isFinite with
  | true =>
    rw [value_of_finite hx, WithBot.coe_le_coe, WithTop.coe_le_coe] at h ⊢
    exact (nearest_self hx).mono hy h
  | false =>
    cases hs : x.negative with
    | true => simp [value, hx, hs]
    | false => simp [value, hx, hs] at h

theorem Nearest.le_value {r : ℚ} (hy : y.Nearest r) (h : (r : WithTop ℚ) ≤ x.value) :
    y.value ≤ x.value := by
  rw [value_of_finite hy.finite]
  cases hx : x.isFinite with
  | true =>
    rw [value_of_finite hx, WithBot.coe_le_coe, WithTop.coe_le_coe] at h ⊢
    exact hy.mono (nearest_self hx) h
  | false =>
    cases hs : x.negative with
    | true => simp [value, hx, hs] at h
    | false => simp [value, hx, hs]

/-! ## Whole numbers -/

theorem sign_natAbs (n : ℤ) : sign (n < 0) * (n.natAbs / (1 : ℕ) : ℚ) = n := by
  rw [Nat.cast_one, div_one, Nat.cast_natAbs, Int.cast_abs]
  by_cases h : n < 0
  · rw [sign, if_pos (by simpa using h), abs_of_neg (by exact_mod_cast h)]
    ring
  · rw [sign, if_neg (by simpa using h), abs_of_nonneg (by exact_mod_cast not_lt.mp h), one_mul]

theorem natAbs_lt_overflow {n : ℤ} : n.natAbs < overflow * 1 ↔ |n| < 2 ^ 1024 - 2 ^ 970 := by
  rewrite [← @cast_overflow ℤ _, mul_one, ← Int.natCast_natAbs]
  exact_mod_cast Iff.rfl

theorem nearest_ofInt {n : ℤ} (h : ofInt? n = some y) : y.Nearest n := by
  simp only [ofInt?] at h
  split at h
  · rename_i hfinite
    cases h
    have hlt := (isFinite_round _ Nat.one_pos).mp hfinite
    have hnear := nearest_round (n < 0) Nat.one_pos hlt
    rwa [sign_natAbs] at hnear
  · cases h

theorem isSome_ofInt {n : ℤ} : (ofInt? n).isSome ↔ |n| < 2 ^ 1024 - 2 ^ 970 := by
  rw [← natAbs_lt_overflow, ← isFinite_round (n < 0) Nat.one_pos]
  simp only [ofInt?]
  split <;> simp_all

theorem toRat_ofInt {n : ℤ} (hn : |n| ≤ 2 ^ 53) (h : ofInt? n = some y) : y.toRat = n := by
  rw [Int.abs_eq_natAbs] at hn
  obtain ⟨x, hx, hvalue⟩ := exists_whole (n < 0) (show n.natAbs ≤ 2 ^ 53 by omega)
  have heq := sign_natAbs n
  rw [Nat.cast_one, div_one, ← hvalue] at heq
  have hself := nearest_self hx
  rw [heq] at hself
  rw [(nearest_ofInt h).toRat_unique hself, heq]

theorem exists_overflow : ∃ p, 2 ^ 54 ≤ p ∧ overflow = 2 ^ 54 * p - p := by
  obtain ⟨k, hk⟩ : ∃ k, k = 970 := ⟨_, rfl⟩
  refine ⟨2 ^ k, Nat.pow_le_pow_right (by decide) (by omega), ?_⟩
  unfold overflow
  rw [hk, @two_pow_eq 54 970 1024 rfl]

theorem lt_overflow_of_le {n : ℤ} (hn : |n| ≤ 2 ^ 53) : |n| < 2 ^ 1024 - 2 ^ 970 := by
  obtain ⟨p, hp, hoverflow⟩ := exists_overflow
  rw [Int.abs_eq_natAbs] at hn
  rw [← natAbs_lt_overflow, hoverflow]
  omega

end Binary64
end Criteria
