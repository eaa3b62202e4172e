import Mathlib
import Criteria.Proofs.Number.Denotation

/-!
# Criteria.Proofs.Number.Notation

Which numbers are written with an exponent.

* `Decimal.bounds`: the exponent of its first digit tells the size of a decimal.
* `nearest_decimal` and `le_decimal_iff`: a number is nearest to its shortest decimal, and both lie
  on the same side of certain bounds.
* `positional_iff`: only zero and the numbers from `10 ^ -4` up to `10 ^ 16` are written without one
  in every layout.
* `finiteText_inj`: texts of different numbers differ.
-/

namespace Criteria

open Text

/-! ## The size of a decimal -/

theorem digitsValue_cons (d : Char) (ds : List Char) :
    digitsValue (d :: ds) = (d.toNat - 48) * 10 ^ ds.length + digitsValue ds := by
  have happend := digitsValue_append [d] ds
  simpa [digitsValue] using happend

theorem digit_bounds {d : Char} (h : isDigit d) : 48 ≤ d.toNat ∧ d.toNat ≤ 57 := by
  simpa [isDigit, Char.isDigit, UInt32.le_iff_toNat_le] using h

theorem digitsValue_lt {ds : List Char} (h : ∀ d ∈ ds, isDigit d) :
    digitsValue ds < 10 ^ ds.length := by
  induction ds with
  | nil => decide
  | cons d ds ih =>
    obtain ⟨hd, hds⟩ := List.forall_mem_cons.mp h
    have hle : (d.toNat - 48) * 10 ^ ds.length ≤ 9 * 10 ^ ds.length :=
      Nat.mul_le_mul_right _ (by have := digit_bounds hd; omega)
    have hlt := ih hds
    rw [digitsValue_cons, List.length_cons, Nat.pow_succ]
    omega

theorem le_digitsValue {d : Char} (ds : List Char) (hd : isDigit d) (hne : d ≠ '0') :
    10 ^ ds.length ≤ digitsValue (d :: ds) := by
  have hpos : 1 ≤ d.toNat - 48 := by
    have hle := (digit_bounds hd).1
    have hzero : d.toNat ≠ 48 := fun h => hne (Char.toNat_inj.mp h)
    omega
  have hle := Nat.mul_le_mul_right (10 ^ ds.length) hpos
  rw [digitsValue_cons]
  omega

/-- The value of a decimal lies between the powers of ten at its first digit. -/
theorem Decimal.bounds {d : Decimal} (h : d.digits ≠ 0) :
    (10 : ℚ) ^ d.digitsAndExponent.2 ≤ d.digits * 10 ^ d.exponent ∧
      (d.digits * 10 ^ d.exponent : ℚ) < 10 ^ (d.digitsAndExponent.2 + 1) := by
  obtain ⟨hnumeral, hvalue⟩ := Binary64.digitsAndExponent_spec d
  have hhead := Decimal.head?_digits h
  rw [← hvalue]
  generalize d.digitsAndExponent = decimal at *
  obtain ⟨ds, e⟩ := decimal
  obtain ⟨hne, hdigits⟩ := isNumeral_iff.mp hnumeral
  cases ds with
  | nil => exact absurd rfl hne
  | cons c cs =>
    have hlow := le_digitsValue cs (hdigits c (by simp)) (by simpa using hhead)
    have hhigh := digitsValue_lt hdigits
    have hlow' : (10 : ℚ) ^ (cs.length : ℤ) ≤ digitsValue (c :: cs) := by exact_mod_cast hlow
    have hhigh' : (digitsValue (c :: cs) : ℚ) < 10 ^ ((c :: cs).length : ℤ) := by
      exact_mod_cast hhigh
    have hpos : (0 : ℚ) < 10 ^ (e + 1 - ((c :: cs).length : ℤ)) := by positivity
    constructor
    · calc (10 : ℚ) ^ e
        _ = 10 ^ (cs.length : ℤ) * 10 ^ (e + 1 - ((c :: cs).length : ℤ)) := by
          rw [← zpow_add₀ (by norm_num)]
          congr 1
          rw [List.length_cons]
          omega
        _ ≤ _ := mul_le_mul_of_nonneg_right hlow' hpos.le
    · calc (digitsValue (c :: cs) * 10 ^ (e + 1 - ((c :: cs).length : ℤ)) : ℚ)
        _ < 10 ^ ((c :: cs).length : ℤ) * 10 ^ (e + 1 - ((c :: cs).length : ℤ)) :=
          mul_lt_mul_of_pos_right hhigh' hpos
        _ = 10 ^ (e + 1) := by
          rw [← zpow_add₀ (by norm_num)]
          congr 1
          omega

namespace Binary64

variable {x y : Binary64}

/-- The value of the shortest decimal. -/
def decimal (x : Binary64) : ℚ :=
  x.shortest.digits * 10 ^ x.shortest.exponent

theorem nearest_decimal (hx : x.isFinite) : x.Nearest (sign x.negative * x.decimal) := by
  obtain ⟨num, den, hd, hquot⟩ := exists_quotient x.shortest.digits x.shortest.exponent
  have hround := ofDecimal_shortest hx
  rw [ofDecimal_eq_round _ hd hquot] at hround
  have hlt := (isFinite_round x.negative hd).mp (by rw [hround]; exact hx)
  have hnear := nearest_round x.negative hd hlt
  rwa [hround, ← hquot] at hnear

theorem nearest_of_positive (hx : x.isFinite) (hn : x.negative = false) :
    x.Nearest x.decimal := by
  have hnear := nearest_decimal hx
  rwa [hn, sign, if_neg (by decide), one_mul] at hnear

/-- A bound that is the shortest decimal of a number, and not above it, parts the decimals as it parts
the numbers. -/
theorem le_decimal_iff (hy : y.isFinite) (hyn : y.negative = false) (hle : y.decimal ≤ y.toRat)
    (hx : x.isFinite) (hxn : x.negative = false) :
    y.decimal ≤ x.decimal ↔ y.decimal ≤ x.toRat := by
  have hxnear := nearest_of_positive hx hxn
  have hynear := nearest_of_positive hy hyn
  constructor
  · intro h
    exact hle.trans (hynear.mono hxnear h)
  · contrapose!
    intro hlt
    have hmono := hxnear.mono hynear hlt.le
    have hne : x.toRat ≠ y.toRat := by
      intro heq
      have hxy := (nearest_self hx).eq (heq ▸ nearest_self hy) (hxn.trans hyn.symm)
      exact hlt.ne (congrArg decimal hxy)
    -- the bound is no closer to `x` than to the number that it is the decimal of
    by_contra hge
    rw [not_lt] at hge
    have hclosest := hynear.closest x hx
    rw [abs_of_nonneg (sub_nonneg.mpr hle), abs_of_nonneg (sub_nonneg.mpr hge)] at hclosest
    exact hne (le_antisymm hmono (by linarith))

/-- The same for a bound that is a power of ten. -/
theorem le_power_iff {k : ℤ} (hs : y.shortest = ⟨1, k⟩) (hy : y.isFinite)
    (hyn : y.negative = false) (hle : 10 ^ k ≤ y.toRat) (hx : x.isFinite)
    (hxn : x.negative = false) : 10 ^ k ≤ x.decimal ↔ 10 ^ k ≤ x.toRat := by
  have hdecimal : y.decimal = 10 ^ k := by rw [decimal, hs, Nat.cast_one, one_mul]
  rw [← hdecimal] at hle ⊢
  exact le_decimal_iff hy hyn hle hx hxn

/-- Zero and the numbers from `10 ^ -4` up to `10 ^ 16`. -/
def IsModerate (x : Binary64) : Prop :=
  x.toRat = 0 ∨ 10 ^ (-4 : ℤ) ≤ x.toRat ∧ x.toRat < 10 ^ (16 : ℤ)

end Binary64

/-! ## Exponents -/

theorem mem_exponentText (ds : List Char) (e : Int) : 'e' ∈ exponentText ds e := by
  simp [exponentText]

theorem not_mem_numeral {ds : List Char} (h : isNumeral ds) : 'e' ∉ ds :=
  fun hmem => absurd ((isNumeral_iff.mp h).2 _ hmem) (by decide)

section

variable {x y : Binary64}

theorem not_mem_plain (x : Binary64) : 'e' ∉ Layout.plain.finiteText x := by
  obtain ⟨i, f, hi, hf, htext⟩ := exists_plain x
  have hsign : 'e' ∉ signText x.negative := by cases x.negative <;> decide
  rw [htext]
  simp [hsign, not_mem_numeral hi, not_mem_numeral hf]

theorem mixed_eq_plain (h : Layout.mixed.positional x.shortest.digitsAndExponent.2) :
    Layout.mixed.finiteText x = Layout.plain.finiteText x := by
  rw [Layout.finiteText_eq, Layout.finiteText_eq, if_pos h]
  rfl

theorem mem_mixed_iff (x : Binary64) :
    'e' ∈ Layout.mixed.finiteText x ↔
      ¬Layout.mixed.positional x.shortest.digitsAndExponent.2 := by
  constructor
  · intro hmem hpos
    rw [mixed_eq_plain hpos] at hmem
    exact not_mem_plain x hmem
  · intro hpos
    rw [Layout.finiteText_eq, if_neg hpos]
    exact List.mem_append_right _ (mem_exponentText _ _)

/-- The numbers of moderate size are written without an exponent. -/
theorem positional_iff (hx : x.isFinite) (hn : x.negative = false) :
    Layout.mixed.positional x.shortest.digitsAndExponent.2 ↔ x.IsModerate := by
  have hmixed : ∀ e : Int, Layout.mixed.positional e ↔ -4 ≤ e ∧ e < 16 := by
    intro e
    simp [Layout.mixed]
  have hsmall : 10 ^ (-4 : ℤ) ≤ x.decimal ↔ 10 ^ (-4 : ℤ) ≤ x.toRat := by
    refine @Binary64.le_power_iff x ⟨false, 1009, 2875098002113325⟩ (-4) (by decide +kernel)
      rfl rfl ?_ hx hn
    simp [Binary64.toRat, Binary64.sign, Binary64.significand]
    norm_num
  have hlarge : 10 ^ (16 : ℤ) ≤ x.decimal ↔ 10 ^ (16 : ℤ) ≤ x.toRat := by
    refine @Binary64.le_power_iff x ⟨false, 1076, 496400372629504⟩ 16 (by decide +kernel)
      rfl rfl ?_ hx hn
    simp [Binary64.toRat, Binary64.sign, Binary64.significand]
    norm_num
  rw [hmixed, Binary64.IsModerate, ← hsmall, ← not_le, ← not_le, ← hlarge, not_le, not_le]
  have hzeros : Binary64.toRat ⟨false, 0, 0⟩ = 0 := by simp [Binary64.toRat, Binary64.significand]
  by_cases hzero : x.shortest.digits = 0
  · have hread := Binary64.ofDecimal_shortest hx
    rw [hzero, Binary64.ofDecimal_zero, hn] at hread
    rw [← hread]
    have hdecimal : (Binary64.shortest ⟨false, 0, 0⟩).digitsAndExponent = (['0'], 0) := by decide
    rw [hdecimal]
    exact iff_of_true (by decide) (.inl hzeros)
  · obtain ⟨hlow, hhigh⟩ := Decimal.bounds hzero
    generalize x.shortest.digitsAndExponent.2 = e at *
    change (10 : ℚ) ^ e ≤ x.decimal at hlow
    change x.decimal < 10 ^ (e + 1) at hhigh
    have hpos : x.toRat ≠ 0 := by
      intro h
      have hself := @Binary64.nearest_self ⟨false, 0, 0⟩ rfl
      rw [hzeros, ← h] at hself
      have hx0 := (Binary64.nearest_self hx).eq hself hn
      exact hzero (hx0 ▸ rfl)
    have hone : (1 : ℚ) < 10 := by norm_num
    constructor
    · rintro ⟨hsmall, hlarge⟩
      refine .inr ⟨?_, ?_⟩
      · exact (zpow_le_zpow_right₀ hone.le hsmall).trans hlow
      · exact hhigh.trans_le (zpow_le_zpow_right₀ hone.le (by omega))
    · rintro (h | ⟨hsmall, hlarge⟩)
      · exact absurd h hpos
      · have hsmall' := (zpow_lt_zpow_iff_right₀ hone).mp (hsmall.trans_lt hhigh)
        have hlarge' := (zpow_lt_zpow_iff_right₀ hone).mp (hlow.trans_lt hlarge)
        exact ⟨by omega, hlarge'⟩

/-- Numbers of one sign with the same text are the same, whatever the layouts. -/
theorem finiteText_inj {l m : Layout} (hx : x.isFinite) (hy : y.isFinite)
    (hs : x.negative = y.negative) (h : l.finiteText x = m.finiteText y) : x = y := by
  have heq := congrArg decimalValue h
  have hsign : Binary64.sign y.negative ≠ 0 := by cases y.negative <;> simp [Binary64.sign]
  rw [decimalValue_finiteText l hx, decimalValue_finiteText m hy, hs, mul_right_inj' hsign] at heq
  rw [← Binary64.ofDecimal_shortest hx, ← Binary64.ofDecimal_shortest hy, hs]
  exact Binary64.ofDecimal_congr _ heq

end

end Criteria
