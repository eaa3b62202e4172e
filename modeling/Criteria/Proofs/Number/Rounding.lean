import Mathlib
import Criteria.Number.Decimal

/-!
# Criteria.Proofs.Number.Rounding

What `Binary64.round` gives for a quotient. Only the quotient counts, and every finite number is
what the quotients in its interval round to.

* `roundDiv_eq`: a whole number within half a divisor is the one that is found, a tie for even.
* `round_of_scale`: rounding, once the scale of the quotient is known.
* `Interval.Holds`: a quotient lies in the interval of a number.
* `round_of_holds`: such a quotient rounds to the number.
* `round_congr`: equal quotients round alike.
-/

namespace Criteria
namespace Binary64

/-- `num / den` lies in the interval. -/
def Interval.Holds (i : Interval) (num den : Nat) : Prop :=
  if i.closed then i.low * den ≤ num * halvesPerOne ∧ num * halvesPerOne ≤ i.high * den
  else i.low * den < num * halvesPerOne ∧ num * halvesPerOne < i.high * den

/-! ## Fields -/

theorem significand_lt (x : Binary64) : x.significand < 2 ^ 53 := by
  have := x.fraction.isLt
  unfold significand
  split <;> omega

theorem le_significand {x : Binary64} (h : x.exponent.val ≠ 0) : 2 ^ 52 ≤ x.significand := by
  rw [significand, if_neg h]
  omega

theorem exponent_lt {x : Binary64} (h : x.isFinite) : x.exponent.val < 2047 := by
  have hne : x.exponent.val ≠ 2047 := by
    intro he
    have : x.exponent = 2047 := Fin.ext he
    simp [isFinite, this] at h
  have := x.exponent.isLt
  omega

theorem step_pos (x : Binary64) : 0 < x.step := Nat.two_pow_pos _

/-- A number is found again from its units. -/
theorem ofUnits_units {x : Binary64} (h : x.isFinite) : ofUnits x.negative x.units = x := by
  have hexp := exponent_lt h
  obtain ⟨negative, e, f⟩ := x
  have hf := f.isLt
  by_cases he : e.val = 0
  · have hu : (⟨negative, e, f⟩ : Binary64).units = f.val := by
      simp [units, significand, step, he]
    rw [hu, ofUnits, if_pos hf]
    have h0 : e = 0 := Fin.ext he
    simp [h0]
  · have hu : (⟨negative, e, f⟩ : Binary64).units = (2 ^ 52 + f.val) * 2 ^ (e.val - 1) := by
      simp [units, significand, step, he]
    have hpos := Nat.two_pow_pos (e.val - 1)
    have hge : 2 ^ 52 * 2 ^ (e.val - 1) ≤ (2 ^ 52 + f.val) * 2 ^ (e.val - 1) :=
      Nat.mul_le_mul_right _ (by omega)
    have hlt : (2 ^ 52 + f.val) * 2 ^ (e.val - 1) < 2 ^ 53 * 2 ^ (e.val - 1) :=
      Nat.mul_lt_mul_of_pos_right (by omega) hpos
    have hlog : ((2 ^ 52 + f.val) * 2 ^ (e.val - 1)).log2 = 52 + (e.val - 1) := by
      rw [Nat.log2_eq_iff (by omega), Nat.pow_add, show 52 + (e.val - 1) + 1 = 53 + (e.val - 1) by omega,
        Nat.pow_add]
      exact ⟨hge, hlt⟩
    have hlimit : 2 ^ 53 * 2 ^ (e.val - 1) ≤ unitsLimit := by
      -- the exponent gets a name, so that the power is not computed
      obtain ⟨n, hn⟩ : ∃ n, n = 2098 := ⟨_, rfl⟩
      rw [unitsLimit, ← hn, ← Nat.pow_add]
      exact Nat.pow_le_pow_right (by omega) (by dsimp only at hexp; omega)
    rw [hu, ofUnits, if_neg (by omega), if_pos (Nat.lt_of_lt_of_le hlt hlimit), hlog]
    have hscale : 52 + (e.val - 1) - 52 = e.val - 1 := by omega
    simp only [hscale, Nat.mul_div_cancel _ hpos]
    congr
    · apply Fin.ext
      simp only [Fin.val_ofNat]
      omega
    · apply Fin.ext
      simp only [Fin.val_ofNat]
      omega

theorem ofUnits_negative (negative : Bool) (u : Nat) : (ofUnits negative u).negative = negative := by
  unfold ofUnits
  split
  · rfl
  · split <;> rfl

/-! ## Rounding to whole numbers -/

theorem roundDiv_eq {num den q : Nat} (hd : 0 < den) (hlo : 2 * (q * den) ≤ 2 * num + den)
    (hhi : 2 * num ≤ 2 * (q * den) + den)
    (htie : q % 2 = 0 ∨ 2 * (q * den) < 2 * num + den ∧ 2 * num < 2 * (q * den) + den) :
    roundDiv num den = q := by
  have hnum := Nat.div_add_mod num den
  have hr := Nat.mod_lt num hd
  have hcases : q = num / den ∨ q = num / den + 1 := by
    have hle : q ≤ num / den + 1 := by
      by_contra hgt
      have h := Nat.mul_le_mul_right den (show num / den + 2 ≤ q by omega)
      rw [Nat.add_mul, Nat.mul_comm (num / den)] at h
      omega
    have hge : num / den ≤ q := by
      by_contra hlt
      have h := Nat.mul_le_mul_right den (show q + 1 ≤ num / den by omega)
      rw [Nat.add_mul, Nat.mul_comm (num / den)] at h
      omega
    omega
  unfold roundDiv
  dsimp only
  rcases hcases with rfl | rfl
  · rw [Nat.mul_comm (num / den)] at hlo hhi htie
    split
    · rfl
    · split <;> omega
  · rw [Nat.add_mul, Nat.mul_comm (num / den)] at hlo hhi htie
    split
    · omega
    · split <;> omega

theorem roundDiv_mul_right (num den : Nat) {c : Nat} (hc : 0 < c) :
    roundDiv (num * c) (den * c) = roundDiv num den := by
  have hlt : ∀ a b : Nat, a * c < b * c ↔ a < b := fun a b => Nat.mul_lt_mul_right hc
  unfold roundDiv
  simp only [Nat.mul_div_mul_right _ _ hc, Nat.mul_mod_mul_right, ← Nat.mul_assoc, hlt]

/-! ## Rounding to numbers -/

/-- A quotient has the scale that leaves 53 binary digits, or as many as there are in whole units. -/
theorem log2_div {n den k : Nat} (hd : 0 < den) (hlo : k = 0 ∨ 2 ^ 52 * (den * 2 ^ k) ≤ n)
    (hhi : n < 2 ^ 53 * (den * 2 ^ k)) : Nat.log2 (n / den) - 52 = k := by
  have hcomm : ∀ m, 2 ^ m * (den * 2 ^ k) = 2 ^ (m + k) * den := by
    intro m
    rw [Nat.mul_comm den, ← Nat.mul_assoc, ← Nat.pow_add]
  have hupper : n / den < 2 ^ (53 + k) := by
    rw [Nat.div_lt_iff_lt_mul hd, ← hcomm]
    exact hhi
  rcases hlo with rfl | hlo
  · by_cases h0 : n / den = 0
    · rw [h0, Nat.log2_zero]
    · have := (Nat.log2_lt h0).mpr hupper
      omega
  · have hlower : 2 ^ (52 + k) ≤ n / den := by
      rw [Nat.le_div_iff_mul_le hd, ← hcomm]
      exact hlo
    have hne : n / den ≠ 0 := by
      have := Nat.two_pow_pos (52 + k)
      omega
    rw [show 53 + k = 52 + k + 1 by omega] at hupper
    rw [(Nat.log2_eq_iff hne).mpr ⟨hlower, hupper⟩]
    omega

theorem round_eq (negative : Bool) (num den : Nat) :
    round negative num den =
      ofUnits negative (roundDiv (num * 2 ^ 1074)
        (den * 2 ^ (Nat.log2 (num * 2 ^ 1074 / den) - 52)) *
          2 ^ (Nat.log2 (num * 2 ^ 1074 / den) - 52)) := by
  obtain ⟨n, hn⟩ : ∃ n, n = 1074 := ⟨_, rfl⟩
  simp only [round, ← hn]

theorem round_of_scale {negative : Bool} {num den k q : Nat} (hd : 0 < den)
    (hlo : k = 0 ∨ 2 ^ 52 * (den * 2 ^ k) ≤ num * 2 ^ 1074)
    (hhi : num * 2 ^ 1074 < 2 ^ 53 * (den * 2 ^ k))
    (hq : roundDiv (num * 2 ^ 1074) (den * 2 ^ k) = q) :
    round negative num den = ofUnits negative (q * 2 ^ k) := by
  rw [round_eq, log2_div hd hlo hhi, hq]

theorem round_negative (negative : Bool) (num den : Nat) :
    (round negative num den).negative = negative :=
  ofUnits_negative _ _

/-- Only the quotient counts. -/
theorem round_mul_right (negative : Bool) (num den : Nat) {c : Nat} (hc : 0 < c) :
    round negative (num * c) (den * c) = round negative num den := by
  have hnum : num * c * 2 ^ 1074 = num * 2 ^ 1074 * c := Nat.mul_right_comm _ _ _
  have hden : ∀ k, den * c * 2 ^ k = den * 2 ^ k * c := fun k => Nat.mul_right_comm _ _ _
  rw [round_eq, round_eq, hnum, Nat.mul_div_mul_right _ _ hc, hden, roundDiv_mul_right _ _ hc]

theorem round_congr {negative : Bool} {num den num' den' : Nat} (hd : 0 < den) (hd' : 0 < den')
    (h : num * den' = num' * den) : round negative num den = round negative num' den' := by
  rw [← round_mul_right negative num den hd', ← round_mul_right negative num' den' hd, h,
    Nat.mul_comm den]

/-! ## Intervals -/

theorem mul_halvesPerOne (num : Nat) : num * halvesPerOne = 2 * (num * 2 ^ 1074) := by
  obtain ⟨n, hn⟩ : ∃ n, n = 1074 := ⟨_, rfl⟩
  rw [halvesPerOne, show 1075 = n + 1 by omega, ← hn, Nat.pow_succ', Nat.mul_left_comm]

theorem Interval.Holds.bounds {i : Interval} {num den : Nat} (h : i.Holds num den) :
    i.low * den ≤ 2 * (num * 2 ^ 1074) ∧ 2 * (num * 2 ^ 1074) ≤ i.high * den ∧
      (i.closed = false →
        i.low * den < 2 * (num * 2 ^ 1074) ∧ 2 * (num * 2 ^ 1074) < i.high * den) := by
  rw [Interval.Holds, mul_halvesPerOne] at h
  cases hc : i.closed with
  | true =>
    rw [hc, if_pos rfl] at h
    exact ⟨h.1, h.2, nofun⟩
  | false =>
    rw [hc, if_neg (by simp)] at h
    exact ⟨Nat.le_of_lt h.1, Nat.le_of_lt h.2, fun _ => h⟩

theorem low_of_ne {x : Binary64} (h : ¬(x.fraction.val = 0 ∧ 1 < x.exponent.val)) :
    x.interval.low = 2 * x.units - x.step := by
  simp only [interval, if_neg h]

theorem low_of_eq {x : Binary64} (h : x.fraction.val = 0 ∧ 1 < x.exponent.val) :
    x.interval.low = 2 * x.units - x.step / 2 := by
  simp only [interval, if_pos h]

theorem le_low (x : Binary64) : 2 * x.units ≤ x.interval.low + x.step := by
  by_cases h : x.fraction.val = 0 ∧ 1 < x.exponent.val
  · rw [low_of_eq h]
    omega
  · rw [low_of_ne h]
    omega

theorem closed_eq_false {x : Binary64} : x.interval.closed = false ↔ x.significand % 2 ≠ 0 := by
  simp [interval]

/-- The ends of the interval in steps of the number. -/
theorem Interval.Holds.steps {x : Binary64} {num den : Nat} (h : x.interval.Holds num den) :
    2 * (x.significand * (den * x.step)) ≤ 2 * (num * 2 ^ 1074) + den * x.step ∧
      2 * (num * 2 ^ 1074) ≤ 2 * (x.significand * (den * x.step)) + den * x.step ∧
      (x.significand % 2 ≠ 0 →
        2 * (x.significand * (den * x.step)) < 2 * (num * 2 ^ 1074) + den * x.step ∧
          2 * (num * 2 ^ 1074) < 2 * (x.significand * (den * x.step)) + den * x.step) := by
  obtain ⟨hlo, hhi, hstrict⟩ := h.bounds
  have hunits : x.units * den = x.significand * (den * x.step) := by
    rw [units, Nat.mul_assoc, Nat.mul_comm x.step]
  have hlow := Nat.mul_le_mul_right den (le_low x)
  have hhigh : x.interval.high * den = 2 * (x.significand * (den * x.step)) + den * x.step := by
    rw [interval, Nat.add_mul, Nat.mul_assoc, hunits, Nat.mul_comm x.step]
  rw [Nat.add_mul, Nat.mul_assoc, hunits, Nat.mul_comm x.step] at hlow
  rw [hhigh] at hhi hstrict
  generalize num * 2 ^ 1074 = n at *
  refine ⟨by omega, hhi, ?_⟩
  intro hodd
  have := hstrict (closed_eq_false.mpr hodd)
  omega

theorem round_above {x : Binary64} {num den : Nat} (hx : x.isFinite) (hd : 0 < den)
    (h : x.interval.Holds num den)
    (hbig : x.exponent.val - 1 = 0 ∨ 2 ^ 52 * (den * x.step) ≤ num * 2 ^ 1074) :
    round x.negative num den = x := by
  obtain ⟨hlo, hhi, hodd⟩ := h.steps
  have hD : 0 < den * x.step := Nat.mul_pos hd (step_pos x)
  have hq : roundDiv (num * 2 ^ 1074) (den * x.step) = x.significand :=
    roundDiv_eq hD hlo hhi (Decidable.or_iff_not_imp_left.mpr hodd)
  have hlt : num * 2 ^ 1074 < 2 ^ 53 * (den * x.step) := by
    have hsig := Nat.mul_le_mul_right (den * x.step) (Nat.succ_le_of_lt (significand_lt x))
    rw [Nat.succ_mul] at hsig
    generalize num * 2 ^ 1074 = n at *
    omega
  rw [round_of_scale hd hbig hlt hq]
  exact ofUnits_units hx

/-- A power of two above the least ones, in half steps. -/
theorem exists_half_step {x : Binary64} (h : x.fraction.val = 0 ∧ 1 < x.exponent.val) :
    ∃ j, x.step = 2 * 2 ^ j ∧ x.units = 2 ^ 53 * 2 ^ j ∧
      x.interval.low + 2 ^ j = 2 ^ 54 * 2 ^ j := by
  obtain ⟨j, hj⟩ := Nat.exists_eq_succ_of_ne_zero (show x.exponent.val - 1 ≠ 0 by omega)
  have hstep : x.step = 2 * 2 ^ j := by
    rw [step, hj, Nat.pow_succ']
  have hunits : x.units = 2 ^ 53 * 2 ^ j := by
    rw [units, significand, if_neg (by omega), h.1, hstep]
    omega
  refine ⟨j, hstep, hunits, ?_⟩
  rw [low_of_eq h, hunits, hstep]
  omega

/-- A little below a power of two the scale is twice as fine. -/
theorem round_below {x : Binary64} {num den : Nat} (hx : x.isFinite) (hd : 0 < den)
    (h : x.interval.Holds num den) (hexp : x.exponent.val - 1 ≠ 0)
    (hsmall : num * 2 ^ 1074 < 2 ^ 52 * (den * x.step)) : round x.negative num den = x := by
  have hfraction : x.fraction.val = 0 := by
    by_contra hf
    have hge : 2 ^ 52 + 1 ≤ x.significand := by
      rw [significand, if_neg (by omega)]
      omega
    have hsig := Nat.mul_le_mul_right (den * x.step) hge
    rw [Nat.add_mul] at hsig
    obtain ⟨hlo, -, -⟩ := h.steps
    generalize num * 2 ^ 1074 = n at *
    omega
  obtain ⟨j, hstep, hunits, hlow⟩ := exists_half_step ⟨hfraction, by omega⟩
  obtain ⟨hlo, -, -⟩ := h.bounds
  have hlo' : 2 ^ 54 * (den * 2 ^ j) ≤ 2 * (num * 2 ^ 1074) + den * 2 ^ j := by
    have hmul : x.interval.low * den + den * 2 ^ j = 2 ^ 54 * (den * 2 ^ j) := by
      rw [Nat.mul_comm den, ← Nat.add_mul, hlow, Nat.mul_assoc]
    generalize num * 2 ^ 1074 = n at *
    omega
  have hdouble : den * x.step = 2 * (den * 2 ^ j) := by rw [hstep, Nat.mul_left_comm]
  rw [hdouble] at hsmall
  have hE : 0 < den * 2 ^ j := Nat.mul_pos hd (Nat.two_pow_pos j)
  have hq : roundDiv (num * 2 ^ 1074) (den * 2 ^ j) = 2 ^ 53 := by
    generalize num * 2 ^ 1074 = n at *
    exact roundDiv_eq hE (by omega) (by omega) (.inl (by decide))
  have hscaled : 2 ^ 52 * (den * 2 ^ j) ≤ num * 2 ^ 1074 ∧
      num * 2 ^ 1074 < 2 ^ 53 * (den * 2 ^ j) := by
    generalize num * 2 ^ 1074 = n at *
    omega
  rw [round_of_scale hd (.inr hscaled.1) hscaled.2 hq, ← hunits]
  exact ofUnits_units hx

/-- The quotients in the interval of a number round to it. -/
theorem round_of_holds {x : Binary64} {num den : Nat} (hx : x.isFinite) (hd : 0 < den)
    (h : x.interval.Holds num den) : round x.negative num den = x := by
  by_cases hbig : x.exponent.val - 1 = 0 ∨ 2 ^ 52 * (den * x.step) ≤ num * 2 ^ 1074
  · exact round_above hx hd h hbig
  · obtain ⟨hexp, hsmall⟩ := not_or.mp hbig
    exact round_below hx hd h hexp (Nat.lt_of_not_le hsmall)

/-! ## Zero -/

theorem round_zero (negative : Bool) (den : Nat) : round negative 0 den = ⟨negative, 0, 0⟩ := by
  have hq : roundDiv 0 (den * 2 ^ (Nat.log2 0 - 52)) = 0 := by
    unfold roundDiv
    simp
  rw [round_eq, Nat.zero_mul, Nat.zero_div, hq, Nat.zero_mul, ofUnits, if_pos (by decide)]
  rfl

theorem eq_zero_of_units {x : Binary64} (h : x.units = 0) : x = ⟨x.negative, 0, 0⟩ := by
  have hsig : x.significand = 0 :=
    (Nat.mul_eq_zero.mp h).resolve_right (Nat.ne_of_gt (step_pos x))
  have hexp : x.exponent.val = 0 := by
    by_contra he
    have := le_significand he
    omega
  rw [significand, if_pos hexp] at hsig
  obtain ⟨negative, e, f⟩ := x
  rw [show e = 0 from Fin.ext hexp, show f = 0 from Fin.ext hsig]

end Binary64
end Criteria
