import Mathlib
import Criteria.Proofs.Number.Rounding

/-!
# Criteria.Proofs.Number.Shortest

The digits that `Binary64.shortest` finds read back as the number. Seventeen digits are always
enough: on their grid the points lie closer than the numbers do.

* `Grid.hits_iff_holds`: a point of a grid in the interval is a quotient in it.
* `leading_spec` and `Grid.fine`: each grid further the points lie ten times closer.
* `Grid.exists_nearest`: a grid that is fine enough has a point in the interval.
* `firstHit_hits`: the first grid with such a point is found.
* `ofDecimal_shortest`: the digits read back as the number.
-/

namespace Criteria
namespace Binary64

theorem halvesPerOne_pos : 0 < halvesPerOne := by
  rw [halvesPerOne]
  exact Nat.two_pow_pos 1075

/-! ## Points of a grid -/

namespace Grid

theorem of_ofNat (k : Nat) : Grid.of (.ofNat k) = ⟨.ofNat k, 1, halvesPerOne * 10 ^ k⟩ := rfl

theorem of_negSucc (k : Nat) : Grid.of (.negSucc k) = ⟨.negSucc k, 10 ^ (k + 1), halvesPerOne⟩ := rfl

theorem num_pos (e : Int) : 0 < (Grid.of e).num := by
  cases e with
  | ofNat n => exact Nat.one_pos
  | negSucc n => exact Nat.pow_pos (by decide)

theorem den_pos (e : Int) : 0 < (Grid.of e).den := by
  cases e with
  | ofNat n => exact Nat.mul_pos halvesPerOne_pos (Nat.pow_pos (by decide))
  | negSucc n =>
    rw [of_negSucc]
    dsimp only
    exact halvesPerOne_pos

theorem hits_iff {g : Grid} {i : Interval} {n : Nat} :
    g.hits i n ↔
      if i.closed then i.low * g.num ≤ n * g.den ∧ n * g.den ≤ i.high * g.num
      else i.low * g.num < n * g.den ∧ n * g.den < i.high * g.num := by
  unfold hits
  split <;> rw [Bool.and_eq_true, decide_eq_true_eq, decide_eq_true_eq]

theorem hits_iff_holds (e : Int) (i : Interval) (n : Nat) :
    (Grid.of e).hits i n ↔
      match e with
      | .ofNat k => i.Holds (n * 10 ^ k) 1
      | .negSucc k => i.Holds n (10 ^ (k + 1)) := by
  rw [hits_iff]
  cases e with
  | ofNat k =>
    have hcomm : n * (halvesPerOne * 10 ^ k) = n * 10 ^ k * halvesPerOne := by
      rw [Nat.mul_comm halvesPerOne, Nat.mul_assoc]
    simp only [of, hcomm, Interval.Holds]
  | negSucc k => simp only [of, Interval.Holds]

/-- The number that a point on the grid stands for, where the point is in the interval. -/
theorem ofDecimal_of_hits {x : Binary64} {e : Int} {n : Nat} (hx : x.isFinite)
    (h : (Grid.of e).hits x.interval n) : ofDecimal x.negative n e = x := by
  rw [hits_iff_holds] at h
  cases e with
  | ofNat k => exact round_of_holds hx Nat.one_pos h
  | negSucc k => exact round_of_holds hx (Nat.pow_pos (by decide)) h

theorem hits_of_strict {g : Grid} {i : Interval} {n : Nat} (hlo : i.low * g.num < n * g.den)
    (hhi : n * g.den < i.high * g.num) : g.hits i n := by
  rw [hits_iff]
  split
  · exact ⟨Nat.le_of_lt hlo, Nat.le_of_lt hhi⟩
  · exact ⟨hlo, hhi⟩

theorem hits_of_nearest {g : Grid} {i : Interval} {n : Nat} (h : g.nearest? i = some n) :
    g.hits i n := by
  unfold nearest? at h
  dsimp only at h
  split at h
  · cases h
  · rename_i hn _; cases h; exact hn
  · rename_i _ hn; cases h; exact hn
  · rename_i hn hn'
    split at h
    · cases h; exact hn
    · split at h
      · cases h; exact hn'
      · cases h
        rcases Nat.mod_two_eq_zero_or_one (i.centre * g.num / g.den) with hm | hm
        · rw [hm]; exact hn
        · rw [hm]; exact hn'

theorem nearest_of_hits {g : Grid} {i : Interval}
    (h : g.hits i (i.centre * g.num / g.den) ∨ g.hits i (i.centre * g.num / g.den + 1)) :
    ∃ n, g.nearest? i = some n := by
  unfold nearest?
  dsimp only
  split
  · rename_i hn hn'
    rw [hn, hn'] at h
    rcases h with h | h <;> cases h
  · exact ⟨_, rfl⟩
  · exact ⟨_, rfl⟩
  · split
    · exact ⟨_, rfl⟩
    · split <;> exact ⟨_, rfl⟩

/-- The points of the next grid lie ten times closer. -/
theorem of_pred (e : Int) : 10 * ((Grid.of (e - 1)).den * (Grid.of e).num) =
    (Grid.of e).den * (Grid.of (e - 1)).num := by
  cases e with
  | ofNat n =>
    cases n with
    | zero =>
      have hpred : (Int.ofNat 0 - 1 : Int) = .negSucc 0 := rfl
      rw [hpred, of_ofNat, of_negSucc]
      ring
    | succ n =>
      have hpred : (Int.ofNat (n + 1) - 1 : Int) = .ofNat n := by simp
      rw [hpred, of_ofNat, of_ofNat]
      ring
  | negSucc n =>
    have hpred : (Int.negSucc n - 1 : Int) = .negSucc (n + 1) := by omega
    rw [hpred, of_negSucc, of_negSucc]
    ring

theorem fine {e : Int} {centre : Nat} (h : (Grid.of e).den ≤ centre * (Grid.of e).num) (k : Nat) :
    10 ^ k * (Grid.of (e - k)).den ≤ centre * (Grid.of (e - k)).num := by
  induction k with
  | zero => simpa using h
  | succ k ih =>
    have hpred := of_pred (e - k)
    rw [show e - (k + 1 : Nat) = e - k - 1 by omega]
    generalize e - k = j at *
    refine Nat.le_of_mul_le_mul_right ?_ (num_pos j)
    calc 10 ^ (k + 1) * (Grid.of (j - 1)).den * (Grid.of j).num
        = 10 ^ k * (10 * ((Grid.of (j - 1)).den * (Grid.of j).num)) := by ring
      _ = 10 ^ k * (Grid.of j).den * (Grid.of (j - 1)).num := by rw [hpred, Nat.mul_assoc]
      _ ≤ centre * (Grid.of j).num * (Grid.of (j - 1)).num := Nat.mul_le_mul_right _ ih
      _ = centre * (Grid.of (j - 1)).num * (Grid.of j).num := Nat.mul_right_comm _ _ _

end Grid

/-! ## The finest grid -/

/-- A grid has a point in the interval of a number as soon as sixteen powers of ten of it fit under
the number. -/
theorem exists_nearest {x : Binary64} (hx : x.units ≠ 0) {g : Grid} (hnum : 0 < g.num)
    (hden : 0 < g.den) (h : 10 ^ 16 * g.den ≤ x.interval.centre * g.num) :
    ∃ n, g.nearest? x.interval = some n := by
  have hcentre : x.interval.centre * g.num = 2 * (x.significand * (x.step * g.num)) := by
    show 2 * x.units * g.num = _
    rw [units]
    ring
  have hhigh : x.interval.high * g.num = x.interval.centre * g.num + x.step * g.num := by
    show (2 * x.units + x.step) * g.num = 2 * x.units * g.num + _
    ring
  have hsplit := Nat.div_add_mod (x.interval.centre * g.num) g.den
  have hr := Nat.mod_lt (x.interval.centre * g.num) hden
  rw [Nat.mul_comm g.den] at hsplit
  apply Grid.nearest_of_hits
  by_cases hpower : x.fraction.val = 0 ∧ 1 < x.exponent.val
  · -- half a step is left below, but the next point is less than one above
    have hsig : x.significand = 2 ^ 52 := by
      rw [significand, if_neg (by omega), hpower.1, Nat.add_zero]
    have hlow : x.interval.low * g.num ≤ x.interval.centre * g.num :=
      Nat.mul_le_mul_right _ (by rw [low_of_eq hpower]; exact Nat.sub_le _ _)
    rw [hsig] at hcentre
    refine .inr (Grid.hits_of_strict ?_ ?_)
    · rw [Nat.add_mul]
      omega
    · rw [Nat.add_mul]
      omega
  · have hlow : x.interval.low * g.num = x.interval.centre * g.num - x.step * g.num := by
      rw [low_of_ne hpower, Nat.sub_mul]
      rfl
    have hupper := Nat.mul_le_mul_right (x.step * g.num) (Nat.le_of_lt (significand_lt x))
    have hlower : x.step * g.num ≤ x.significand * (x.step * g.num) :=
      Nat.le_mul_of_pos_left _ (Nat.pos_of_ne_zero (Nat.mul_ne_zero_iff.mp hx).1)
    have hS : 0 < x.step * g.num := Nat.mul_pos (step_pos x) hnum
    -- two points next to the number are closer than two half steps
    by_cases hnear : x.interval.centre * g.num % g.den < x.step * g.num
    · refine .inl (Grid.hits_of_strict ?_ ?_) <;> omega
    · refine .inr (Grid.hits_of_strict ?_ ?_)
      · rw [Nat.add_mul]
        omega
      · rw [Nat.add_mul]
        omega

/-! ## The digits that are found -/

/-- The leading digit is looked for from the largest power of ten down. -/
theorem leading_spec {centre fuel : Nat} {top : Int}
    (h : (Grid.of (top - fuel)).den ≤ centre * (Grid.of (top - fuel)).num) :
    (Grid.of (leading centre fuel top)).den ≤ centre * (Grid.of (leading centre fuel top)).num := by
  induction fuel generalizing top with
  | zero => simpa [leading] using h
  | succ fuel ih =>
    unfold leading
    dsimp only
    split
    · assumption
    · apply ih
      rwa [show top - 1 - (fuel : Int) = top - (fuel + 1 : Nat) by omega]

theorem firstHit_hits {i : Interval} {count k : Nat} {e : Int} (hk : k < count)
    (h : ∃ n, (Grid.of (e - k)).nearest? i = some n) :
    (Grid.of (firstHit i count e).exponent).hits i (firstHit i count e).digits := by
  induction count generalizing e k with
  | zero => omega
  | succ count ih =>
    unfold firstHit
    split
    · rename_i n hn
      exact Grid.hits_of_nearest hn
    · rename_i hnone
      cases k with
      | zero =>
        obtain ⟨n, hn⟩ := h
        simp [hnone] at hn
      | succ k =>
        apply ih (k := k) (by omega)
        rwa [show e - 1 - (k : Int) = e - (k + 1 : Nat) by omega]

theorem ofDecimal_zero (negative : Bool) (e : Int) : ofDecimal negative 0 e = ⟨negative, 0, 0⟩ := by
  cases e with
  | ofNat k =>
    rw [ofDecimal, Nat.zero_mul]
    exact round_zero _ _
  | negSucc k => exact round_zero _ _

/-- The least power of ten that is tried lies below all numbers. -/
theorem halvesPerOne_le : halvesPerOne ≤ 2 * 10 ^ 332 := by decide +kernel

/-- The digits that `shortest` finds read back as the number. -/
theorem ofDecimal_shortest {x : Binary64} (hx : x.isFinite) :
    ofDecimal x.negative x.shortest.digits x.shortest.exponent = x := by
  unfold shortest
  split
  · rename_i hzero
    exact (ofDecimal_zero _ _).trans (eq_zero_of_units hzero).symm
  · rename_i hunits
    have hcentre : 2 ≤ x.interval.centre := by
      show 2 ≤ 2 * x.units
      omega
    have hlow : (Grid.of (308 - (640 : Nat))).den ≤
        x.interval.centre * (Grid.of (308 - (640 : Nat))).num := by
      rw [show (308 - (640 : Nat) : Int) = .negSucc 331 from rfl, Grid.of_negSucc]
      dsimp only
      obtain ⟨n, hn⟩ : ∃ n, n = 332 := ⟨_, rfl⟩
      have hone := halvesPerOne_le
      rw [← hn] at hone
      rw [show 331 + 1 = n by omega]
      exact Nat.le_trans hone (Nat.mul_le_mul_right _ hcentre)
    have hfine := Grid.fine (leading_spec hlow) 16
    exact Grid.ofDecimal_of_hits hx
      (firstHit_hits (by omega) (exists_nearest hunits (Grid.num_pos _) (Grid.den_pos _) hfine))

end Binary64
end Criteria
