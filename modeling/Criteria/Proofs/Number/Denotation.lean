import Mathlib
import Criteria.Proofs.Number.Nearest
import Criteria.Proofs.Number.Scientific

/-!
# Criteria.Proofs.Number.Denotation

The rational numbers that decimal texts stand for, apart from how the texts are read.

* `wholeValue`: digits by the weights of their places.
* `fixedValue` and `decimalValue`: with a point, a sign, and an exponent of ten.
* `Scientific.decimalValue_eq`: the value of a text with a known decimal.
* `nearest_ofNumeral` and `isFinite_ofNumeral`: a numeral is read as the number nearest to its
  value.
* `decimalValue_finiteText`: all layouts write the same value.
-/

namespace Criteria

open Text

/-- The value of a row of digits by the weights of their places. -/
def wholeValue (ds : List Char) : ℕ :=
  Nat.ofDigits 10 (ds.reverse.map fun c => c.toNat - '0'.toNat)

/-- The value of digits with a point among them, or without one. -/
def fixedValue (cs : List Char) : ℚ :=
  let part := (cs.dropWhile (· != '.')).tail
  wholeValue (cs.takeWhile (· != '.')) + wholeValue part / 10 ^ part.length

/-- The value of a sign, digits with a point among them, and an exponent of ten after an `e`. Only
the digits have to be there. -/
def decimalValue (cs : List Char) : ℚ :=
  let (negative, body) := splitSign cs
  let (down, exponent) := splitSign (body.dropWhile (· != 'e')).tail
  Binary64.sign negative * fixedValue (body.takeWhile (· != 'e')) *
    10 ^ signed down (wholeValue exponent)

/-! ## Digits -/

theorem wholeValue_eq (ds : List Char) : wholeValue ds = digitsValue ds := by
  have hzero : '0'.toNat = 48 := rfl
  rw [wholeValue, hzero]
  induction ds using List.reverseRecOn with
  | nil => rfl
  | append_singleton ds c ih =>
    have hone : digitsValue [c] = c.toNat - 48 := by simp [digitsValue]
    rw [List.reverse_append, List.map_append, digitsValue_append, hone, ← ih]
    simp [Nat.ofDigits_cons]
    ring

theorem bne_of_isDigit {c d : Char} (h : isDigit c) (hd : isDigit d = false) : (c != d) = true := by
  rw [bne_iff_ne]
  rintro rfl
  rw [h] at hd
  cases hd

theorem fixedValue_fraction {whole part fraction : List Char} (hw : isNumeral whole)
    (hf : Fraction part fraction) :
    fixedValue (whole ++ fraction) = digitsValue (whole ++ part) / 10 ^ part.length := by
  have hwhole : ∀ c ∈ whole, (c != '.') = true :=
    fun c hc => bne_of_isDigit ((isNumeral_iff.mp hw).2 c hc) (by decide)
  obtain ⟨htake, hdrop⟩ := span_append hwhole (show ∀ c ∈ fraction.head?, _ by
    cases hf <;> simp)
  have htail : fraction.tail = part := by cases hf <;> rfl
  rw [fixedValue, htake, hdrop, htail, wholeValue_eq, wholeValue_eq, digitsValue_append]
  field_simp
  push_cast
  ring

/-! ## Signs and exponents -/

theorem splitSign_eq {cs : List Char} (h : ∀ c ∈ cs.head?, isDigit c) :
    splitSign cs = (false, cs) := by
  cases cs with
  | nil => rfl
  | cons c cs =>
    have hc := h c rfl
    unfold splitSign
    split
    · rename_i heq
      cases heq
      exact absurd hc (by decide)
    · rename_i heq
      cases heq
      exact absurd hc (by decide)
    · rfl

theorem splitSign_signText {negative : Bool} {cs : List Char} (h : ∀ c ∈ cs.head?, isDigit c) :
    splitSign (signText negative ++ cs) = (negative, cs) := by
  cases negative with
  | true => rfl
  | false => exact splitSign_eq h

theorem head?_numeral {cs ds : List Char} (h : isNumeral cs) :
    ∀ c ∈ (cs ++ ds).head?, isDigit c := by
  obtain ⟨hne, hdigits⟩ := isNumeral_iff.mp h
  rw [List.head?_append_of_ne_nil _ hne]
  exact fun c hc => hdigits c (List.mem_of_head? hc)

theorem Exponent.splitSign {e : Int} {exponent : List Char} (h : Exponent e exponent) :
    signed (Criteria.splitSign exponent.tail).1 (wholeValue (Criteria.splitSign exponent.tail).2) =
      e := by
  cases h with
  | none => rfl
  | scaled negative hd =>
    cases negative <;> simp [Criteria.splitSign, wholeValue_eq]

/-- Digits with a sign, a fraction and an exponent. -/
theorem decimalValue_eq {negative : Bool} {whole part fraction exponent : List Char} {e : Int}
    (hw : isNumeral whole) (hf : Fraction part fraction) (he : Exponent e exponent) :
    decimalValue (signText negative ++ (whole ++ (fraction ++ exponent))) =
      Binary64.sign negative * (digitsValue (whole ++ part) * 10 ^ (e - part.length)) := by
  have hbody : ∀ c ∈ whole ++ fraction, (c != 'e') = true := by
    intro c hc
    rcases List.mem_append.mp hc with hc | hc
    · exact bne_of_isDigit ((isNumeral_iff.mp hw).2 c hc) (by decide)
    · cases hf with
      | none => cases hc
      | point hd =>
        rcases List.mem_cons.mp hc with rfl | hc
        · rfl
        · exact bne_of_isDigit ((isNumeral_iff.mp hd).2 c hc) (by decide)
  obtain ⟨htake, hdrop⟩ := span_append hbody (show ∀ c ∈ exponent.head?, _ by
    cases he <;> simp)
  rw [decimalValue, splitSign_signText (head?_numeral hw)]
  simp only [← List.append_assoc, htake, hdrop, he.splitSign, fixedValue_fraction hw hf]
  rw [zpow_sub₀ (by norm_num), zpow_natCast]
  ring

theorem Scientific.decimalValue_eq {negative : Bool} {digits : Nat} {e : Int} {cs : List Char}
    (h : Scientific negative digits e cs) :
    decimalValue cs = Binary64.sign negative * (digits * 10 ^ e) := by
  obtain ⟨hw, hf, he, -⟩ := h
  exact Criteria.decimalValue_eq hw.1 hf he

/-! ## Reading -/

namespace Binary64

variable {i f : List Char}

theorem exists_round_ofNumeral (hi : isNumeral i) (hf : isNumeral f) :
    ∃ num den : Nat, 0 < den ∧ fixedValue (i ++ '.' :: f) = num / den ∧
      ofNumeral (i ++ '.' :: f) = round false num den := by
  refine ⟨_, _, Nat.pow_pos (by decide), ?_, ofNumeral_eq hi⟩
  rw [fixedValue_fraction hi (.point hf), Nat.cast_pow, Nat.cast_ofNat]

theorem isFinite_ofNumeral (hi : isNumeral i) (hf : isNumeral f) :
    (ofNumeral (i ++ '.' :: f)).isFinite ↔ fixedValue (i ++ '.' :: f) < 2 ^ 1024 - 2 ^ 970 := by
  obtain ⟨num, den, hd, hvalue, hround⟩ := exists_round_ofNumeral hi hf
  rw [hround, hvalue, isFinite_round false hd]
  exact lt_overflow_iff hd

theorem negative_ofNumeral (hi : isNumeral i) (hf : isNumeral f) :
    (ofNumeral (i ++ '.' :: f)).negative = false := by
  obtain ⟨num, den, -, -, hround⟩ := exists_round_ofNumeral hi hf
  rw [hround, negative_round]

theorem nearest_ofNumeral (hi : isNumeral i) (hf : isNumeral f)
    (h : (ofNumeral (i ++ '.' :: f)).isFinite) :
    (ofNumeral (i ++ '.' :: f)).Nearest (fixedValue (i ++ '.' :: f)) := by
  obtain ⟨num, den, hd, hvalue, hround⟩ := exists_round_ofNumeral hi hf
  rw [hround] at h ⊢
  have hnear := nearest_round false hd ((isFinite_round false hd).mp h)
  rwa [sign, if_neg (by decide), one_mul, ← hvalue] at hnear

/-- Numerals of the same value are read alike. -/
theorem ofNumeral_congr {j g : List Char} (hi : isNumeral i) (hf : isNumeral f) (hj : isNumeral j)
    (hg : isNumeral g) (h : fixedValue (i ++ '.' :: f) = fixedValue (j ++ '.' :: g)) :
    ofNumeral (i ++ '.' :: f) = ofNumeral (j ++ '.' :: g) := by
  obtain ⟨num, den, hd, hvalue, hround⟩ := exists_round_ofNumeral hi hf
  obtain ⟨num', den', hd', hvalue', hround'⟩ := exists_round_ofNumeral hj hg
  have hden : (den : ℚ) ≠ 0 := by exact_mod_cast hd.ne'
  have hden' : (den' : ℚ) ≠ 0 := by exact_mod_cast hd'.ne'
  rw [hvalue, hvalue', div_eq_div_iff hden hden'] at h
  rw [hround, hround']
  exact round_congr hd hd' (by exact_mod_cast h)

end Binary64

/-! ## Texts of numbers -/

section

variable {x : Binary64}

theorem exists_plain (x : Binary64) :
    ∃ i f, isNumeral i ∧ isNumeral f ∧
      Layout.plain.finiteText x = signText x.negative ++ (i ++ '.' :: f) := by
  obtain ⟨hd, -⟩ := Binary64.digitsAndExponent_spec x.shortest
  obtain ⟨i, f, htext, hi, hf, -, -⟩ :=
    Binary64.exists_positionalText hd x.shortest.digitsAndExponent.2
  exact ⟨i, f, hi, hf, by rw [Layout.finiteText_eq, ← htext]; rfl⟩

/-- All layouts write the same value. -/
theorem decimalValue_finiteText (l : Layout) (hx : x.isFinite) :
    decimalValue (l.finiteText x) =
      Binary64.sign x.negative * (x.shortest.digits * 10 ^ x.shortest.exponent) := by
  obtain ⟨digits, e, hs, hvalue⟩ := l.exists_scientific hx
  rw [hs.decimalValue_eq, hvalue]

end

end Criteria
