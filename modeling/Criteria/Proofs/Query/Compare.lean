import Mathlib
import Criteria.Proofs.Number.Order
import Criteria.Query.Compare

/-!
# Criteria.Proofs.Query.Compare

Whole numbers of a document against the floats of a query. They are rounded before they are
compared, however large they are.

* `Comparator.Relates`: what a comparator says of two elements of an order.
* `accepts_ofFloats`: of numbers it says that of their values.
* `int_candidates`: rounding turns no comparison round, and leaves those of small numbers as they
  are. Whole numbers past the finite ones compare with nothing.
-/

namespace Criteria

open Binary64

/-- What a comparator says of two elements of an order. -/
def Comparator.Relates {α : Type} [LT α] [LE α] (op : Comparator) (a b : α) : Prop :=
  match op with
  | .eq => a = b
  | .ne => a ≠ b
  | .lt => a < b
  | .gt => b < a
  | .le => a ≤ b
  | .ge => b ≤ a

variable {x y : Binary64}

theorem accepts_ofFloats (hx : x.isNaN = false) (hy : y.isNaN = false) (op : Comparator) :
    op.accepts (.ofFloats y x) ↔ op.Relates y.value x.value := by
  rw [Relation.ofFloats]
  simp only [less_iff hy hx, same_iff hy hx, less_iff hx hy]
  rcases lt_trichotomy y.value x.value with h | h | h
  · rw [if_pos h]
    cases op <;> simp [Comparator.accepts, Comparator.Relates, h, h.le, h.ne, h.not_ge, h.not_gt]
  · rw [if_neg h.not_lt, if_pos h]
    cases op <;> simp [Comparator.accepts, Comparator.Relates, h]
  · rw [if_neg h.not_gt, if_neg h.ne', if_pos h]
    cases op <;> simp [Comparator.accepts, Comparator.Relates, h, h.le, h.ne', h.not_ge, h.not_gt]

theorem holds_int (op : Comparator) (x : Binary64) (n : ℤ) :
    op.holds (.float x) (.int n) = op.accepts (.ofWhole n x) := rfl

theorem holds_of_large {n : ℤ} (hn : 2 ^ 1024 - 2 ^ 970 ≤ |n|) (op : Comparator) :
    op.holds (.float x) (.int n) = false := by
  have hnone : ofInt? n = none := by
    rw [← Option.not_isSome_iff_eq_none, isSome_ofInt]
    exact not_lt.mpr hn
  rw [holds_int, Relation.ofWhole, hnone]
  cases op <;> rfl

/-- Others compare as the number that they are rounded to. -/
theorem exists_holds_iff {n : ℤ} (hx : x.isNaN = false) (hn : |n| < 2 ^ 1024 - 2 ^ 970) :
    ∃ y, ofInt? n = some y ∧ y.Nearest n ∧
      ∀ op : Comparator, op.holds (.float x) (.int n) ↔ op.Relates y.value x.value := by
  obtain ⟨y, hy⟩ := Option.isSome_iff_exists.mp (isSome_ofInt.mpr hn)
  have hnear := nearest_ofInt hy
  refine ⟨y, hy, hnear, ?_⟩
  intro op
  rw [holds_int, Relation.ofWhole, hy]
  exact accepts_ofFloats hx (isNaN_of_finite hnear.finite) op

/-- A whole number in the order of the rational ones. -/
def wholeNumber (n : ℤ) : Extended := ((n : ℚ) : WithTop ℚ)

theorem wholeNumber_eq {n : ℤ} (hn : |n| ≤ 2 ^ 53) (h : ofInt? n = some y) :
    y.value = wholeNumber n := by
  rw [value_of_finite (nearest_ofInt h).finite, toRat_ofInt hn h, wholeNumber]

/-- Whole numbers against a float: past the finite numbers no comparison holds. Before them rounding
turns none round, and none changes up to the first number that may not be kept. Larger numbers
compare as larger. -/
theorem int_candidates {x : Binary64} (hx : x.isNaN = false) :
    (∀ n : ℤ, 2 ^ 1024 - 2 ^ 970 ≤ |n| → ∀ op : Comparator,
      op.holds (.float x) (.int n) = false) ∧
    (∀ n : ℤ, |n| < 2 ^ 1024 - 2 ^ 970 →
      (Comparator.lt.holds (.float x) (.int n) → wholeNumber n < x.value) ∧
      (Comparator.gt.holds (.float x) (.int n) → x.value < wholeNumber n) ∧
      (wholeNumber n ≤ x.value → Comparator.le.holds (.float x) (.int n)) ∧
      (x.value ≤ wholeNumber n → Comparator.ge.holds (.float x) (.int n))) ∧
    (∀ n : ℤ, |n| ≤ 2 ^ 53 → ∀ op : Comparator,
      op.holds (.float x) (.int n) ↔ op.Relates (wholeNumber n) x.value) ∧
    (∀ n m : ℤ, |n| < 2 ^ 1024 - 2 ^ 970 → |m| < 2 ^ 1024 - 2 ^ 970 → n ≤ m →
      (Comparator.gt.holds (.float x) (.int n) → Comparator.gt.holds (.float x) (.int m)) ∧
      (Comparator.ge.holds (.float x) (.int n) → Comparator.ge.holds (.float x) (.int m)) ∧
      (Comparator.lt.holds (.float x) (.int m) → Comparator.lt.holds (.float x) (.int n)) ∧
      (Comparator.le.holds (.float x) (.int m) → Comparator.le.holds (.float x) (.int n))) := by
  refine ⟨fun n hn => holds_of_large hn, ?_, ?_, ?_⟩
  · intro n hn
    obtain ⟨y, -, hnear, hholds⟩ := exists_holds_iff hx hn
    simp only [hholds, Comparator.Relates]
    refine ⟨?_, ?_, hnear.le_value, hnear.value_le⟩
    · contrapose!
      exact hnear.value_le
    · contrapose!
      exact hnear.le_value
  · intro n hn op
    obtain ⟨y, hy, -, hholds⟩ := exists_holds_iff hx (lt_overflow_of_le hn)
    rw [hholds, wholeNumber_eq hn hy]
  · intro n m hn hm hle
    obtain ⟨y, -, hnear, hholds⟩ := exists_holds_iff hx hn
    obtain ⟨z, -, hnear', hholds'⟩ := exists_holds_iff hx hm
    have hmono := hnear.value_mono hnear' (by exact_mod_cast hle)
    simp only [hholds, hholds', Comparator.Relates]
    exact ⟨hmono.trans_lt', hmono.trans', hmono.trans_lt, hmono.trans⟩

/-- Around the float `2 ^ 53`. -/
theorem int_candidates_gap :
    (∀ op : Comparator, op.holds (.float ⟨false, 1076, 0⟩) (.int (2 ^ 1024)) = false) ∧
    value ⟨false, 1076, 0⟩ < wholeNumber (2 ^ 53 + 2) ∧
    (∀ op : Comparator, op.holds (.float ⟨false, 1076, 0⟩) (.int (2 ^ 53)) ↔
      op.Relates (wholeNumber (2 ^ 53)) (value ⟨false, 1076, 0⟩)) ∧
    Comparator.gt.holds (.float ⟨false, 1076, 0⟩) (.int (2 ^ 53 + 3)) := by
  obtain ⟨hlarge, hround, hsmall, hmono⟩ := @int_candidates ⟨false, 1076, 0⟩ rfl
  have hlimit : (2 : ℤ) ^ 1024 - 2 ^ 970 ≤ |2 ^ 1024| :=
    not_lt.mp (mt isSome_ofInt.mpr (by decide +kernel))
  have htwo : |(2 : ℤ) ^ 53 + 2| < 2 ^ 1024 - 2 ^ 970 := isSome_ofInt.mp (by decide +kernel)
  have hthree : |(2 : ℤ) ^ 53 + 3| < 2 ^ 1024 - 2 ^ 970 := isSome_ofInt.mp (by decide +kernel)
  have habove : Comparator.gt.holds (.float ⟨false, 1076, 0⟩) (.int (2 ^ 53 + 2)) := by
    decide +kernel
  exact ⟨hlarge _ hlimit, (hround _ htwo).2.1 habove, hsmall _ (by norm_num),
    (hmono _ _ htwo hthree (by norm_num)).1 habove⟩

end Criteria
