import Mathlib
import Criteria.Proofs.Number.Range

/-!
# Criteria.Proofs.Number.Nearest

Rounding is rounding to the nearest number, and to the even one where two are equally near.

* `toRat`: the rational number that a finite number is.
* `Nearest`: no finite number is closer to a rational one.
* `units_closest` and `nearest_of_holds`: the interval of a number holds what it is nearest to.
* `nearest_round` and `isFinite_round`: rounding finds the nearest number below `overflow`.
* `Nearest.eq` and `Nearest.mono`: there is no other of that sign, and order is kept.
* `exists_whole`: whole numbers up to `2 ^ 53` are numbers of the format.
-/

namespace Criteria
namespace Binary64

/-! ## Values -/

/-- One, or minus one for a negative number. -/
def sign (negative : Bool) : ℚ := if negative then -1 else 1

/-- The rational number that a finite number is: its significand, scaled by its exponent. -/
def toRat (x : Binary64) : ℚ :=
  sign x.negative * x.significand * 2 ^ ((max x.exponent.val 1 : ℤ) - 1075)

/-- No finite number is closer to `r`, and where another one is as close this one is even. -/
structure Nearest (x : Binary64) (r : ℚ) : Prop where
  finite : x.isFinite
  closest : ∀ y : Binary64, y.isFinite → |x.toRat - r| ≤ |y.toRat - r|
  even : ∀ y : Binary64, y.isFinite → y.toRat ≠ x.toRat → |y.toRat - r| = |x.toRat - r| →
    x.significand % 2 = 0

theorem abs_sign (negative : Bool) : |sign negative| = 1 := by
  cases negative <;> simp [sign]

-- the exponent stays a variable, so that the power is not computed with
theorem unitsPerOne_eq : ∃ k, k = 1074 ∧ unitsPerOne = 2 ^ k :=
  ⟨1074, rfl, by unfold unitsPerOne; exact rfl⟩

theorem unitsPerOne_pos : (0 : ℚ) < unitsPerOne := by
  obtain ⟨k, -, hk⟩ := unitsPerOne_eq
  rw [hk]
  positivity

theorem toRat_eq (x : Binary64) : x.toRat = sign x.negative * x.units / unitsPerOne := by
  obtain ⟨k, hk', hk⟩ := unitsPerOne_eq
  have hexp : (max x.exponent.val 1 : ℤ) - 1075 = ((x.exponent.val - 1 : ℕ) : ℤ) - (k : ℕ) := by
    omega
  rw [toRat, hexp, zpow_sub₀ (by norm_num), zpow_natCast, zpow_natCast, units, step, hk]
  push_cast
  ring

theorem toRat_eq_key (x : Binary64) : x.toRat = x.key / unitsPerOne := by
  rw [toRat_eq, sign, key]
  cases x.negative <;> simp

theorem toRat_lt_iff {x y : Binary64} : x.toRat < y.toRat ↔ x.key < y.key := by
  rw [toRat_eq_key, toRat_eq_key, div_lt_div_iff_of_pos_right unitsPerOne_pos, Int.cast_lt]

theorem toRat_inj {x y : Binary64} : x.toRat = y.toRat ↔ x.key = y.key := by
  rw [toRat_eq_key, toRat_eq_key, div_left_inj' unitsPerOne_pos.ne', Int.cast_inj]

/-! ## Distances -/

section

variable {a b r s : ℚ}

theorem closer_left (h : a < b) : |a - r| ≤ |b - r| ↔ 2 * r ≤ a + b := by
  constructor
  · intro hle
    rcases abs_cases (a - r) with ha | ha <;> rcases abs_cases (b - r) with hb | hb <;> linarith
  · intro hle
    rcases abs_cases (a - r) with ha | ha <;> rcases abs_cases (b - r) with hb | hb <;> linarith

theorem closer_right (h : a < b) : |b - r| ≤ |a - r| ↔ a + b ≤ 2 * r := by
  have hopposite := @closer_left (-b) (-a) (-r) (neg_lt_neg h)
  rw [neg_sub_neg, neg_sub_neg, abs_sub_comm r, abs_sub_comm r] at hopposite
  rw [hopposite]
  constructor <;> intro hle <;> linarith

end

theorem Nearest.le_of_lt {x y : Binary64} {r s : ℚ} (hx : x.Nearest r) (hy : y.Nearest s)
    (h : r < s) : x.toRat ≤ y.toRat := by
  by_contra hlt
  rw [not_le] at hlt
  have hr := (closer_right hlt).mp (hx.closest y hy.finite)
  have hs := (closer_left hlt).mp (hy.closest x hx.finite)
  linarith

/-! ## Gaps -/

theorem exists_step_eq {x y : Binary64} (h : x.exponent.val - 1 < y.exponent.val - 1) :
    ∃ k, y.step = 2 * (x.step * 2 ^ k) := by
  obtain ⟨k, hk⟩ := Nat.exists_eq_add_of_lt h
  exact ⟨k, by rw [step, hk, Nat.pow_succ', Nat.pow_add, step]⟩

/-- The steps of two numbers are whole multiples of each other. A larger step is that of a number
with a full significand. -/
theorem step_cases (x y : Binary64) :
    (∃ k, y.step = x.step * 2 ^ k) ∨
      (∃ k, x.step = 2 * (y.step * 2 ^ k)) ∧ 2 ^ 52 ≤ x.significand := by
  rcases Nat.lt_or_ge (y.exponent.val - 1) (x.exponent.val - 1) with h | h
  · exact .inr ⟨exists_step_eq h, le_significand (by omega)⟩
  · obtain ⟨k, hk⟩ := Nat.exists_eq_add_of_le h
    exact .inl ⟨k, by rw [step, hk, Nat.pow_add, step]⟩

/-- A number with a smaller step lies below one with a full significand. -/
theorem units_le_of_step {x y : Binary64} {k : Nat} (hk : x.step = 2 * (y.step * 2 ^ k))
    (hx : 2 ^ 52 ≤ x.significand) :
    y.units ≤ (2 ^ 53 - 1) * (y.step * 2 ^ k) ∧ 2 ^ 53 * (y.step * 2 ^ k) ≤ x.units := by
  constructor
  · have hstep : y.step ≤ y.step * 2 ^ k := Nat.le_mul_of_pos_right _ (Nat.two_pow_pos k)
    exact Nat.mul_le_mul (Nat.le_sub_one_of_lt (significand_lt y)) hstep
  · calc 2 ^ 53 * (y.step * 2 ^ k) = 2 ^ 52 * x.step := by rw [hk]; omega
      _ ≤ x.units := Nat.mul_le_mul_right _ hx

theorem units_add_step_le {x y : Binary64} (h : x.units < y.units) :
    x.units + x.step ≤ y.units := by
  rcases step_cases x y with ⟨k, hk⟩ | ⟨⟨k, hk⟩, hx⟩
  · have hy : y.units = y.significand * 2 ^ k * x.step := by
      rw [units, hk, Nat.mul_comm x.step, Nat.mul_assoc]
    rw [hy, units] at h ⊢
    rw [← Nat.succ_mul]
    exact Nat.mul_le_mul_right _ (Nat.lt_of_mul_lt_mul_right h)
  · obtain ⟨hle, hge⟩ := units_le_of_step hk hx
    omega

theorem units_add_units_le_low {x y : Binary64} (h : y.units < x.units) :
    x.units + y.units ≤ x.interval.low := by
  rcases step_cases x y with ⟨k, hk⟩ | ⟨⟨k, hk⟩, hx⟩
  · have hy : y.units = y.significand * 2 ^ k * x.step := by
      rw [units, hk, Nat.mul_comm x.step, Nat.mul_assoc]
    have hgap : y.units + x.step ≤ x.units := by
      rw [hy, units] at h ⊢
      rw [← Nat.succ_mul]
      exact Nat.mul_le_mul_right _ (Nat.lt_of_mul_lt_mul_right h)
    have := le_low x
    omega
  · obtain ⟨hle, hge⟩ := units_le_of_step hk hx
    by_cases hpower : x.fraction.val = 0 ∧ 1 < x.exponent.val
    · rw [low_of_eq hpower]
      omega
    · -- an odd step is that of the least exponents, which have no smaller one
      have hexp : 1 < x.exponent.val := by
        by_contra hle
        have hone : x.step = 1 := by rw [step, show x.exponent.val - 1 = 0 by omega]
        omega
      have hsig : 2 ^ 52 + 1 ≤ x.significand := by
        rw [significand, if_neg (by omega)]
        omega
      have hunits := Nat.mul_le_mul_right x.step hsig
      have := le_low x
      rw [Nat.succ_mul] at hunits
      rw [show x.significand * x.step = x.units from rfl] at hunits
      omega

theorem high_le {x y : Binary64} (h : x.units < y.units) :
    x.interval.high ≤ x.units + y.units := by
  have := units_add_step_le h
  show 2 * x.units + x.step ≤ _
  omega

section

variable {x y : Binary64} {v : ℚ}

theorem units_closest (hlo : (x.interval.low : ℚ) ≤ 2 * v) (hhi : 2 * v ≤ x.interval.high) :
    |(x.units : ℚ) - v| ≤ |(y.units : ℚ) - v| := by
  rcases Nat.lt_trichotomy x.units y.units with h | h | h
  · have hgap : (x.interval.high : ℚ) ≤ x.units + y.units := by exact_mod_cast high_le h
    exact (closer_left (by exact_mod_cast h)).mpr (hhi.trans hgap)
  · rw [h]
  · have hgap : (x.units + y.units : ℚ) ≤ x.interval.low := by
      exact_mod_cast units_add_units_le_low h
    exact (closer_right (by exact_mod_cast h)).mpr (by linarith)

theorem units_closer (hlo : (x.interval.low : ℚ) < 2 * v) (hhi : 2 * v < x.interval.high)
    (hne : y.units ≠ x.units) : |(x.units : ℚ) - v| < |(y.units : ℚ) - v| := by
  rw [← not_le]
  intro hle
  rcases Nat.lt_or_gt_of_ne hne with h | h
  · have hgap : (x.units + y.units : ℚ) ≤ x.interval.low := by
      exact_mod_cast units_add_units_le_low h
    have := (closer_left (by exact_mod_cast h)).mp hle
    linarith
  · have hgap : (x.interval.high : ℚ) ≤ x.units + y.units := by exact_mod_cast high_le h
    have := (closer_right (by exact_mod_cast h)).mp hle
    linarith

end

/-! ## The interval of a number -/

/-- The distance to a number of the same sign, in units. -/
theorem dist_of_negative (y : Binary64) (r : ℚ) :
    |y.toRat - sign y.negative * r| * unitsPerOne = |(y.units : ℚ) - r * unitsPerOne| := by
  have hscale := unitsPerOne_pos
  have hsplit : (y.toRat - sign y.negative * r) * unitsPerOne =
      sign y.negative * (y.units - r * unitsPerOne) := by
    rw [toRat_eq]
    field_simp
  rw [← abs_of_pos hscale, ← abs_mul, abs_of_pos hscale, hsplit, abs_mul, abs_sign, one_mul]

/-- Zero lies between numbers of different signs. -/
theorem dist_of_not_negative {y : Binary64} {negative : Bool} (h : y.negative ≠ negative) {r : ℚ}
    (hr : 0 ≤ r) :
    |y.toRat - sign negative * r| * unitsPerOne = y.units + r * unitsPerOne := by
  have hother : sign negative * r = sign y.negative * -r := by
    cases hy : y.negative <;> cases negative <;> simp_all [sign]
  have hscale := unitsPerOne_pos
  rw [hother, dist_of_negative, neg_mul, sub_neg_eq_add, abs_of_nonneg (by positivity)]

theorem quotient_units (num : Nat) {den : Nat} (hd : 0 < den) :
    (num / den * unitsPerOne : ℚ) * den = (num * unitsPerOne : Nat) := by
  have hden : (den : ℚ) ≠ 0 := by exact_mod_cast hd.ne'
  rw [mul_right_comm, div_mul_cancel₀ _ hden, Nat.cast_mul]

theorem Interval.Holds.bounds_rat {x : Binary64} {num den : Nat} (hd : 0 < den)
    (h : x.interval.Holds num den) :
    (x.interval.low : ℚ) ≤ 2 * (num / den * unitsPerOne) ∧
      2 * (num / den * unitsPerOne) ≤ (x.interval.high : ℚ) ∧
      (x.significand % 2 ≠ 0 →
        (x.interval.low : ℚ) < 2 * (num / den * unitsPerOne) ∧
          2 * (num / den * unitsPerOne) < (x.interval.high : ℚ)) := by
  have hbounds : x.interval.low * den ≤ 2 * (num * unitsPerOne) ∧
      2 * (num * unitsPerOne) ≤ x.interval.high * den ∧ (x.interval.closed = false →
        x.interval.low * den < 2 * (num * unitsPerOne) ∧
          2 * (num * unitsPerOne) < x.interval.high * den) := by
    unfold unitsPerOne
    exact h.bounds
  obtain ⟨hlo, hhi, hstrict⟩ := hbounds
  have hden : (0 : ℚ) < den := by exact_mod_cast hd
  have hquot : (2 * (num / den * unitsPerOne) : ℚ) = (2 * (num * unitsPerOne) : Nat) / den := by
    rw [eq_div_iff hden.ne', mul_assoc, quotient_units num hd, Nat.cast_mul 2, Nat.cast_ofNat]
  rw [hquot, le_div_iff₀ hden, div_le_iff₀ hden, lt_div_iff₀ hden, div_lt_iff₀ hden]
  refine ⟨by exact_mod_cast hlo, by exact_mod_cast hhi, ?_⟩
  intro hodd
  have := hstrict (closed_eq_false.mpr hodd)
  exact ⟨by exact_mod_cast this.1, by exact_mod_cast this.2⟩

/-- A number is nearest to the quotients in its interval. -/
theorem nearest_of_holds {x : Binary64} {num den : Nat} (hx : x.isFinite) (hd : 0 < den)
    (h : x.interval.Holds num den) : x.Nearest (sign x.negative * (num / den)) := by
  obtain ⟨hlo, hhi, hstrict⟩ := h.bounds_rat hd
  have hr : (0 : ℚ) ≤ num / den := by positivity
  have hscale := unitsPerOne_pos
  have hself := dist_of_negative x (num / den)
  have hdist : ∀ y : Binary64, |(y.units : ℚ) - num / den * unitsPerOne| ≤
      |y.toRat - sign x.negative * (num / den)| * unitsPerOne := by
    intro y
    by_cases hy : y.negative = x.negative
    · rw [← hy, dist_of_negative]
    · have hunits : (0 : ℚ) ≤ y.units := by positivity
      have hv : (0 : ℚ) ≤ num / den * unitsPerOne := by positivity
      rw [dist_of_not_negative hy hr, abs_sub_le_iff]
      constructor <;> linarith
  refine ⟨hx, ?_, ?_⟩
  · intro y _
    refine le_of_mul_le_mul_right ?_ hscale
    rw [hself]
    exact (units_closest hlo hhi).trans (hdist y)
  · intro y _ hne heq
    by_contra hodd
    obtain ⟨hlo', hhi'⟩ := hstrict hodd
    have htie := hdist y
    rw [heq, hself] at htie
    by_cases hunits : y.units = x.units
    · -- the numbers are opposite, and the quotient would have to be zero
      have hy : y.negative ≠ x.negative := by
        intro hy
        exact hne (by rw [toRat_eq, toRat_eq, hy, hunits])
      have hsum := dist_of_not_negative hy hr
      rw [heq, hself, hunits] at hsum
      have hpos : (0 : ℚ) < x.units := by
        have hsig : 0 < x.significand := by omega
        exact_mod_cast Nat.mul_pos hsig (step_pos x)
      have hlow : (0 : ℚ) ≤ x.interval.low := by positivity
      rcases abs_cases ((x.units : ℚ) - num / den * unitsPerOne) with ha | ha <;> linarith
    · exact absurd htie (not_le.mpr (units_closer hlo' hhi' hunits))

/-! ## Rounding -/

theorem nearest_round (negative : Bool) {num den : Nat} (hd : 0 < den)
    (h : num < overflow * den) :
    (round negative num den).Nearest (sign negative * (num / den)) := by
  rcases round_cases negative hd with ⟨x, hx, rfl, hholds, -, hround⟩ | ⟨hle, -⟩
  · rw [hround]
    exact nearest_of_holds hx hd hholds
  · exact absurd h (Nat.not_lt.mpr hle)

theorem isFinite_round (negative : Bool) {num den : Nat} (hd : 0 < den) :
    (round negative num den).isFinite ↔ num < overflow * den := by
  rcases round_cases negative hd with ⟨x, hx, -, -, hlt, hround⟩ | ⟨hle, hround⟩
  · rw [hround]
    exact iff_of_true hx hlt
  · rw [hround]
    exact iff_of_false (by simp [isFinite, infinity]) (Nat.not_lt.mpr hle)

theorem negative_round (negative : Bool) (num den : Nat) :
    (round negative num den).negative = negative :=
  ofUnits_negative _ _

theorem cast_two_pow_sub {R : Type} [CommRing R] {a b : Nat} (h : b ≤ a) :
    ((2 ^ a - 2 ^ b : Nat) : R) = 2 ^ a - 2 ^ b := by
  rw [Nat.cast_sub (Nat.pow_le_pow_right (by decide) h), Nat.cast_pow, Nat.cast_pow,
    Nat.cast_ofNat]

theorem cast_overflow {R : Type} [CommRing R] : (overflow : R) = 2 ^ 1024 - 2 ^ 970 := by
  unfold overflow
  exact @cast_two_pow_sub R _ 1024 970 (by decide)

theorem lt_overflow_iff {num den : Nat} (hd : 0 < den) :
    num < overflow * den ↔ (num / den : ℚ) < 2 ^ 1024 - 2 ^ 970 := by
  have hden : (0 : ℚ) < den := by exact_mod_cast hd
  rewrite [← @cast_overflow ℚ _, div_lt_iff₀ hden]
  exact_mod_cast Iff.rfl

/-! ## One nearest number -/

theorem eq_of_units {x y : Binary64} (hx : x.isFinite) (hy : y.isFinite)
    (hs : x.negative = y.negative) (hu : x.units = y.units) : x = y := by
  rw [← ofUnits_units hx, ← ofUnits_units hy, hs, hu]

theorem significand_of_units {x y : Binary64} (hx : x.isFinite) (hy : y.isFinite)
    (hu : x.units = y.units) : x.significand = y.significand := by
  have h := @eq_of_units x { y with negative := x.negative } hx hy rfl hu
  rw [h]
  rfl

/-- The next magnitude after an even number is odd. -/
theorem exists_next {x : Binary64} (hx : x.isFinite) (he : x.significand % 2 = 0)
    (negative : Bool) :
    ∃ z : Binary64, z.isFinite ∧ z.negative = negative ∧ z.units = x.units + x.step ∧
      z.significand % 2 = 1 := by
  have hf : x.fraction.val + 1 < 2 ^ 52 := by
    have := x.fraction.isLt
    rw [significand] at he
    split at he <;> omega
  have hsig : (⟨negative, x.exponent, ⟨x.fraction.val + 1, hf⟩⟩ : Binary64).significand =
      x.significand + 1 := by
    simp only [significand]
    split <;> omega
  refine ⟨⟨negative, x.exponent, ⟨x.fraction.val + 1, hf⟩⟩, hx, rfl, ?_, by omega⟩
  rw [units, hsig, Nat.succ_mul]
  rfl

/-- Between two even magnitudes there is another one. -/
theorem exists_units_between {x y : Binary64} (hx : x.isFinite) (hy : y.isFinite)
    (hxe : x.significand % 2 = 0) (hye : y.significand % 2 = 0) (h : x.units < y.units)
    (negative : Bool) :
    ∃ z : Binary64, z.isFinite ∧ z.negative = negative ∧ x.units < z.units ∧
      z.units < y.units := by
  obtain ⟨z, hz, hneg, hunits, hodd⟩ := exists_next hx hxe negative
  have hgap := units_add_step_le h
  have hpos := step_pos x
  have hne : z.units ≠ y.units := by
    intro heq
    have := significand_of_units hz hy heq
    omega
  exact ⟨z, hz, hneg, by omega, by omega⟩

theorem exists_between {x y : Binary64} (hx : x.isFinite) (hy : y.isFinite)
    (hxe : x.significand % 2 = 0) (hye : y.significand % 2 = 0) (h : x.toRat < y.toRat) :
    ∃ z : Binary64, z.isFinite ∧ x.toRat < z.toRat ∧ z.toRat < y.toRat := by
  simp only [toRat_lt_iff, key] at h ⊢
  cases hxs : x.negative <;> cases hys : y.negative <;>
    simp only [hxs, hys, if_true, if_false, Bool.false_eq_true] at h ⊢
  case false.false =>
    obtain ⟨z, hz, hneg, hxz, hzy⟩ :=
      exists_units_between hx hy hxe hye (by omega) false
    exact ⟨z, hz, by simp [hneg, hxz], by simp [hneg, hzy]⟩
  case false.true => omega
  case true.true =>
    obtain ⟨z, hz, hneg, hyz, hzx⟩ :=
      exists_units_between hy hx hye hxe (by omega) true
    exact ⟨z, hz, by simp [hneg, hzx], by simp [hneg, hyz]⟩
  case true.false =>
    -- zero lies between, unless it is one of the two
    rcases Nat.lt_trichotomy x.units y.units with hlt | heq | hlt
    · obtain ⟨z, hz, hneg, hxz, hzy⟩ := exists_units_between hx hy hxe hye hlt false
      refine ⟨z, hz, ?_, by simp [hneg, hzy]⟩
      simp [hneg]
      omega
    · have hzero : zero.units = 0 := by simp [units, significand, zero]
      refine ⟨zero, rfl, ?_, ?_⟩
      · simp [zero] at hzero ⊢
        omega
      · simp [zero] at hzero ⊢
        omega
    · obtain ⟨z, hz, hneg, hyz, hzx⟩ := exists_units_between hy hx hye hxe hlt true
      refine ⟨z, hz, by simp [hneg, hzx], ?_⟩
      simp [hneg]
      omega

namespace Nearest

variable {x y : Binary64} {r s : ℚ}

theorem le_of_same (hx : x.Nearest r) (hy : y.Nearest r) : x.toRat ≤ y.toRat := by
  by_contra hlt
  rw [not_le] at hlt
  have hdist := le_antisymm (hx.closest y hy.finite) (hy.closest x hx.finite)
  have hxe := hx.even y hy.finite hlt.ne hdist.symm
  have hye := hy.even x hx.finite hlt.ne' hdist
  obtain ⟨z, hz, hyz, hzx⟩ := exists_between hy.finite hx.finite hye hxe hlt
  have hright := (closer_right hzx).mp (hx.closest z hz)
  have hleft := (closer_left hyz).mp (hy.closest z hz)
  linarith

/-- Nearest numbers are ordered as what they are nearest to. -/
theorem mono (hx : x.Nearest r) (hy : y.Nearest s) (h : r ≤ s) : x.toRat ≤ y.toRat := by
  rcases h.lt_or_eq with hlt | rfl
  · exact hx.le_of_lt hy hlt
  · exact hx.le_of_same hy

theorem toRat_unique (hx : x.Nearest r) (hy : y.Nearest r) : x.toRat = y.toRat :=
  le_antisymm (hx.mono hy le_rfl) (hy.mono hx le_rfl)

/-- A rational number has one nearest number of each sign. -/
theorem eq (hx : x.Nearest r) (hy : y.Nearest r) (hs : x.negative = y.negative) : x = y := by
  have hkey := toRat_inj.mp (hx.toRat_unique hy)
  refine eq_of_units hx.finite hy.finite hs ?_
  rw [key, key, hs] at hkey
  split at hkey <;> omega

end Nearest

theorem nearest_self {x : Binary64} (hx : x.isFinite) : x.Nearest x.toRat := by
  refine ⟨hx, ?_, ?_⟩
  · intro y _
    rw [sub_self, abs_zero]
    exact abs_nonneg _
  · intro y _ hne heq
    rw [sub_self, abs_zero, abs_eq_zero, sub_eq_zero] at heq
    exact absurd heq hne

/-! ## Whole numbers -/

/-- A whole number that needs no more than 53 binary digits, with its digits moved to the front. -/
theorem exists_scaled {n : Nat} (hn : 0 < n) (h : n ≤ 2 ^ 53) :
    ∃ q k, q < 2 ^ 53 ∧ 2 ^ 52 ≤ q ∧ k ≤ 2045 ∧ q * 2 ^ k = n * unitsPerOne := by
  obtain ⟨m, hm, hone⟩ := unitsPerOne_eq
  rcases Nat.lt_or_eq_of_le h with hlt | rfl
  · have hne : n ≠ 0 := by omega
    have hlog : n.log2 ≤ 52 := by
      have := (Nat.log2_lt hne).mpr hlt
      omega
    obtain ⟨d, hd⟩ := Nat.exists_eq_add_of_le hlog
    have hlower := Nat.mul_le_mul_right (2 ^ d) (Nat.log2_self_le hne)
    have hupper := Nat.mul_lt_mul_of_pos_right (@Nat.lt_log2_self n) (Nat.two_pow_pos d)
    rw [← Nat.pow_add, ← hd] at hlower
    rw [← Nat.pow_add, Nat.add_right_comm, ← hd] at hupper
    refine ⟨n * 2 ^ d, m - d, hupper, hlower, by omega, ?_⟩
    rw [Nat.mul_assoc, ← Nat.pow_add, hone, Nat.add_sub_cancel' (by omega)]
  · refine ⟨2 ^ 52, m + 1, by decide, Nat.le_refl _, by omega, ?_⟩
    rw [hone, ← Nat.pow_add, ← Nat.pow_add]
    congr 1
    omega

/-- Whole numbers up to `2 ^ 53` are numbers of the format. -/
theorem exists_whole (negative : Bool) {n : Nat} (h : n ≤ 2 ^ 53) :
    ∃ x : Binary64, x.isFinite ∧ x.toRat = sign negative * n := by
  have hunits : ∀ x : Binary64, x.negative = negative → x.units = n * unitsPerOne →
      x.toRat = sign negative * n := by
    intro x hneg hu
    rw [toRat_eq, hneg, hu, Nat.cast_mul, ← mul_assoc, mul_div_cancel_right₀ _ unitsPerOne_pos.ne']
  rcases Nat.eq_zero_or_pos n with rfl | hn
  · exact ⟨⟨negative, 0, 0⟩, rfl, hunits _ rfl (by simp [units, significand])⟩
  · obtain ⟨q, k, hlt, hge, hk, heq⟩ := exists_scaled hn h
    obtain ⟨s, hs⟩ := exists_halfStep
    have hlimit : q * 2 ^ k < unitsLimit := by
      have := Nat.mul_lt_mul_of_lt_of_le hlt (hs.upper k hk) (Nat.mul_pos (by decide) hs.pos)
      rw [hs.limit]
      omega
    obtain ⟨x, hx, hneg, hsig, hstep⟩ := exists_units negative hlt (.inr hge) hlimit
    exact ⟨x, hx, hunits x hneg (by rw [units, hsig, hstep, heq])⟩

end Binary64
end Criteria
