import Mathlib
import Criteria.Number.Written
import Criteria.Proofs.Number.Numeral

/-!
# Criteria.Proofs.Number.Scientific

Numbers as JSON writes them: a sign, a whole part, then a fraction, an exponent of ten, or both.

* `Scientific`: such a text, with the digits and the exponent of the decimal that it stands for.
* `Layout.exists_scientific`: the text of every finite number is one, and stands for its shortest
  decimal.
-/

namespace Criteria

open Text

/-- Digits of a whole number, zero alone or without a zero in front. -/
def IsWhole (ds : List Char) : Prop :=
  isNumeral ds ∧ (ds = ['0'] ∨ ds.head? ≠ some '0')

def signText (negative : Bool) : List Char :=
  if negative then ['-'] else []

/-- A fraction with the given digits, if there are any. -/
inductive Fraction : List Char → List Char → Prop where
  | none : Fraction [] []
  | point {ds : List Char} (h : isNumeral ds) : Fraction ds ('.' :: ds)

/-- The power of ten that a number is scaled by. -/
inductive Exponent : Int → List Char → Prop where
  | none : Exponent 0 []
  | scaled {ds : List Char} (negative : Bool) (h : isNumeral ds) :
      Exponent (signed negative (digitsValue ds)) ('e' :: (if negative then '-' else '+') :: ds)

/-- A number with a fraction or an exponent: the digits of both parts as one whole number, and the
exponent that this is scaled by. -/
inductive Scientific (negative : Bool) : Nat → Int → List Char → Prop where
  | mk {whole part fraction exponent : List Char} {e : Int} (hw : IsWhole whole)
      (hf : Fraction part fraction) (he : Exponent e exponent) (hne : fraction ++ exponent ≠ []) :
      Scientific negative (digitsValue (whole ++ part)) (e - part.length)
        (signText negative ++ (whole ++ (fraction ++ exponent)))

/-! ## Whole parts -/

theorem head?_digitsText {n : Nat} (h : 0 < n) : (digitsText n).head? ≠ some '0' := by
  have hdigit : ∀ d < 10, 0 < d → Nat.digitChar d ≠ '0' := by decide
  induction n using Nat.strongRecOn with
  | ind n ih =>
    rw [digitsText, Nat.toDigits_eq_if (by omega)]
    split
    · rename_i hn
      simpa using hdigit n hn h
    · rename_i hn
      have hdiv := ih (n / 10) (by omega) (by omega)
      rwa [List.head?_append_of_ne_nil _ Nat.toDigits_ne_nil]

theorem Decimal.head?_digits {d : Decimal} (h : d.digits ≠ 0) :
    d.digitsAndExponent.1.head? ≠ some '0' := by
  have hhead := head?_digitsText (Nat.pos_of_ne_zero h)
  have hvalue := digitsValue_digitsText d.digits
  obtain ⟨k, hk⟩ := Binary64.exists_zeros (digitsText d.digits)
  unfold Decimal.digitsAndExponent
  dsimp only
  generalize ((digitsText d.digits).reverse.dropWhile (· == '0')).reverse = kept at *
  cases kept with
  | nil =>
    rw [hk, List.nil_append, digitsValue_zeros] at hvalue
    exact absurd hvalue.symm h
  | cons c cs =>
    rw [hk] at hhead
    exact hhead

/-! ## Exponents -/

theorem exponentText_eq {ds : List Char} (hd : isNumeral ds) (e : Int) :
    ∃ d part fraction exponent, ds = d :: part ∧ Fraction part fraction ∧ Exponent e exponent ∧
      exponentText ds e = d :: (fraction ++ exponent) ∧ exponent ≠ [] := by
  have hsize : isNumeral (List.replicate (2 - (digitsText e.natAbs).length) '0' ++
      digitsText e.natAbs) := by
    rw [isNumeral_iff]
    obtain ⟨hne, hdigits⟩ := isNumeral_iff.mp (isNumeral_digitsText e.natAbs)
    refine ⟨by simp [hne], ?_⟩
    intro c hc
    exact (List.mem_append.mp hc).elim (isDigit_zeros _ c) (hdigits c)
  have hvalue : e = signed (e < 0) (digitsValue
      (List.replicate (2 - (digitsText e.natAbs).length) '0' ++ digitsText e.natAbs)) := by
    rw [digitsValue_append, digitsValue_zeros, digitsValue_digitsText, signed]
    simp only [decide_eq_true_eq]
    split <;> omega
  have he : Exponent e ('e' :: (if e < 0 then '-' else '+') ::
      (List.replicate (2 - (digitsText e.natAbs).length) '0' ++ digitsText e.natAbs)) := by
    have h := Exponent.scaled (decide (e < 0)) hsize
    rw [← hvalue] at h
    simpa using h
  match ds with
  | [] => exact absurd rfl (isNumeral_iff.mp hd).1
  | [d] => exact ⟨d, [], [], _, rfl, .none, he, rfl, by simp⟩
  | d :: d' :: ds =>
    have hpart : isNumeral (d' :: ds) :=
      isNumeral_iff.mpr ⟨by simp, fun c hc => (isNumeral_iff.mp hd).2 c (List.mem_cons_of_mem d hc)⟩
    exact ⟨d, _, _, _, rfl, .point hpart, he, by simp [exponentText], by simp⟩

/-! ## Texts of numbers -/

theorem Layout.finiteText_eq (l : Layout) (x : Binary64) :
    l.finiteText x = signText x.negative ++
      (if l.positional x.shortest.digitsAndExponent.2 then
        positionalText x.shortest.digitsAndExponent.1 x.shortest.digitsAndExponent.2
      else exponentText x.shortest.digitsAndExponent.1 x.shortest.digitsAndExponent.2) := by
  simp only [Layout.finiteText, signText]
  split <;> rfl

theorem Layout.scientific_zero (l : Layout) (negative : Bool) :
    ∃ e, Scientific negative 0 e (l.finiteText ⟨negative, 0, 0⟩) := by
  have hdecimal : (Binary64.shortest ⟨negative, 0, 0⟩).digitsAndExponent = (['0'], 0) := by
    cases negative <;> decide
  -- the digit of zero stands in front of the point although it is a zero
  have hwhole : IsWhole ['0'] := ⟨by decide, .inl rfl⟩
  rw [l.finiteText_eq, hdecimal]
  split
  · exact ⟨_, @Scientific.mk negative ['0'] ['0'] _ _ _ hwhole (.point (by decide)) .none (by simp)⟩
  · exact ⟨_, @Scientific.mk negative ['0'] [] _ _ _ hwhole .none
      (@Exponent.scaled ['0', '0'] false (by decide)) (by simp)⟩

/-- The text of a finite number, and the decimal that it stands for. -/
theorem Layout.exists_scientific (l : Layout) {x : Binary64} (hx : x.isFinite) :
    ∃ digits e, Scientific x.negative digits e (l.finiteText x) ∧
      (digits * 10 ^ e : ℚ) = x.shortest.digits * 10 ^ x.shortest.exponent := by
  by_cases hzero : x.shortest.digits = 0
  · have hread := Binary64.ofDecimal_shortest hx
    rw [hzero, Binary64.ofDecimal_zero] at hread
    obtain ⟨e, hs⟩ := l.scientific_zero x.negative
    rw [hread] at hs
    exact ⟨0, e, hs, by simp [hzero]⟩
  · obtain ⟨hd, he⟩ := Binary64.digitsAndExponent_spec x.shortest
    have hhead := Decimal.head?_digits hzero
    rw [l.finiteText_eq, ← he]
    generalize x.shortest.digitsAndExponent = decimal at *
    obtain ⟨ds, e⟩ := decimal
    dsimp only at *
    split
    · obtain ⟨i, f, htext, hi, hf, hfront, hvalue⟩ := Binary64.exists_positionalText hd e
      have hwhole : IsWhole i := ⟨hi, hfront.imp_right fun h => by rw [h]; exact hhead⟩
      have hs := @Scientific.mk x.negative _ _ _ _ _ hwhole (.point hf) .none (by simp)
      refine ⟨_, _, by simpa [htext] using hs, ?_⟩
      rw [← hvalue, zpow_neg, zpow_natCast, div_eq_mul_inv]
    · obtain ⟨d, part, fraction, exponent, rfl, hfraction, hexponent, htext, hne⟩ :=
        exponentText_eq hd e
      have hwhole : IsWhole [d] :=
        ⟨isNumeral_iff.mpr ⟨by simp, by simpa using (isNumeral_iff.mp hd).2 d⟩, .inr hhead⟩
      have hs := @Scientific.mk x.negative _ _ _ _ _ hwhole hfraction hexponent (by simp [hne])
      refine ⟨_, _, by simpa [htext] using hs, ?_⟩
      have hexp : e - (part.length : Int) = e + 1 - ((d :: part).length : Nat) := by
        rw [List.length_cons]
        omega
      rw [hexp]

end Criteria
