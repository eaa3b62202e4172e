import Mathlib
import Criteria.Proofs.Number.Shortest
import Criteria.Proofs.Token.Lexical

/-!
# Criteria.Proofs.Number.Numeral

The texts of numbers read back as the numbers.

* `digitsValue_digitsText`: the digits of a whole number have its value.
* `ofDecimal_eq_round` and `ofDecimal_congr`: only the value of a decimal counts.
* `exists_positionalText`: digits on both sides of a point, of the same value.
* `ofNumeral_finiteText`: the plain text of a finite number without a sign reads back as it.
-/

namespace Criteria

open Text

/-! ## Digits -/

theorem foldl_digits (cs : List Char) (n : Nat) :
    cs.foldl (fun n c => 10 * n + (c.toNat - 48)) n = n * 10 ^ cs.length + digitsValue cs := by
  induction cs generalizing n with
  | nil => simp [digitsValue]
  | cons c cs ih =>
    have hone := ih (10 * 0 + (c.toNat - 48))
    simp only [digitsValue, List.foldl_cons, List.length_cons, Nat.pow_succ] at hone ⊢
    rw [ih, hone]
    unfold digitsValue
    ring

theorem digitsValue_append (xs ys : List Char) :
    digitsValue (xs ++ ys) = digitsValue xs * 10 ^ ys.length + digitsValue ys := by
  rw [digitsValue, List.foldl_append, foldl_digits]
  rfl

theorem digitsValue_zeros (n : Nat) : digitsValue (List.replicate n '0') = 0 := by
  induction n with
  | zero => rfl
  | succ n ih =>
    rw [List.replicate_succ', digitsValue_append, ih, Nat.zero_mul]
    rfl

theorem digitsValue_digitsText (n : Nat) : digitsValue (digitsText n) = n := by
  have hdigit : ∀ d < 10, digitsValue [Nat.digitChar d] = d := by decide
  induction n using Nat.strongRecOn with
  | ind n ih =>
    rw [digitsText, Nat.toDigits_eq_if (by omega)]
    split
    · rename_i hn
      exact hdigit n hn
    · rename_i hn
      have hdiv := ih (n / 10) (by omega)
      rw [digitsText] at hdiv
      rw [digitsValue_append, hdiv, hdigit _ (Nat.mod_lt _ (by omega)), List.length_singleton,
        Nat.pow_one]
      omega

theorem length_digitsText_le {n k : Nat} (hk : 0 < k) : (digitsText n).length ≤ k ↔ n < 10 ^ k :=
  Nat.length_toDigits_le_iff (by omega) hk

theorem intText_natCast (n : Nat) : (intText n).toList = digitsText n := by
  rw [intText, if_neg (by omega), String.toList_ofList, Int.natAbs_natCast]

theorem isNumeral_iff {cs : List Char} : isNumeral cs ↔ cs ≠ [] ∧ ∀ c ∈ cs, isDigit c := by
  simp [isNumeral]

theorem isNumeral_append {xs ys : List Char} (hx : isNumeral xs) (hy : ∀ c ∈ ys, isDigit c) :
    isNumeral (xs ++ ys) := by
  rw [isNumeral_iff] at hx ⊢
  refine ⟨by simp [hx.1], ?_⟩
  intro c hc
  exact (List.mem_append.mp hc).elim (hx.2 c) (hy c)

theorem isDigit_zeros (n : Nat) : ∀ c ∈ List.replicate n '0', isDigit c := by
  intro c hc
  rw [List.eq_of_mem_replicate hc]
  decide

theorem isNumeral_digitsText (n : Nat) : isNumeral (digitsText n) := by
  rw [isNumeral_iff]
  exact ⟨Nat.toDigits_ne_nil, fun c hc => Nat.isDigit_of_mem_toDigits (by omega) (by omega) hc⟩

namespace Binary64

/-! ## Moving the point -/

/-- A decimal that is a quotient is what the quotient rounds to. -/
theorem ofDecimal_eq_round (negative : Bool) {n num den : Nat} {e : Int} (hd : 0 < den)
    (h : (n * 10 ^ e : ℚ) = num / den) : ofDecimal negative n e = round negative num den := by
  have hden : (den : ℚ) ≠ 0 := by exact_mod_cast hd.ne'
  rw [eq_div_iff hden] at h
  cases e with
  | ofNat k =>
    refine round_congr Nat.one_pos hd ?_
    rw [Int.ofNat_eq_natCast, zpow_natCast] at h
    rw [Nat.mul_one]
    exact_mod_cast h
  | negSucc k =>
    have hpow : (10 : ℚ) ^ (k + 1) ≠ 0 := by positivity
    refine round_congr (Nat.pow_pos (by decide)) hd ?_
    rw [zpow_negSucc, mul_right_comm, ← div_eq_mul_inv, div_eq_iff hpow] at h
    exact_mod_cast h

/-- Every decimal is a quotient. -/
theorem exists_quotient (n : Nat) (e : Int) :
    ∃ num den : Nat, 0 < den ∧ (n * 10 ^ e : ℚ) = num / den := by
  cases e with
  | ofNat k => exact ⟨n * 10 ^ k, 1, Nat.one_pos, by simp⟩
  | negSucc k =>
    refine ⟨n, 10 ^ (k + 1), Nat.pow_pos (by decide), ?_⟩
    rw [zpow_negSucc, Nat.cast_pow, div_eq_mul_inv]
    rfl

theorem ofDecimal_congr (negative : Bool) {n m : Nat} {e f : Int}
    (h : (n * 10 ^ e : ℚ) = m * 10 ^ f) : ofDecimal negative n e = ofDecimal negative m f := by
  obtain ⟨num, den, hd, hq⟩ := exists_quotient m f
  rw [ofDecimal_eq_round negative hd hq, ofDecimal_eq_round negative hd (h.trans hq)]

theorem ofNumeral_eq {i f : List Char} (hi : isNumeral i) :
    ofNumeral (i ++ '.' :: f) = round false (digitsValue (i ++ f)) (10 ^ f.length) := by
  have hne : ∀ c ∈ i, (c != '.') = true := by
    intro c hc
    rw [bne_iff_ne]
    rintro rfl
    exact absurd ((isNumeral_iff.mp hi).2 '.' hc) (by decide)
  obtain ⟨htake, hdrop⟩ := span_append hne (show ∀ c ∈ ('.' :: f).head?, _ by simp)
  simp only [ofNumeral, htake, hdrop, List.drop_one, List.tail_cons]

/-- Digits with a point: the same digits, and the place of the point as exponent. -/
theorem exists_positionalText {ds : List Char} (hd : isNumeral ds) (e : Int) :
    ∃ i f, positionalText ds e = i ++ '.' :: f ∧ isNumeral i ∧ isNumeral f ∧
      (i = ['0'] ∨ i.head? = ds.head?) ∧
      (digitsValue (i ++ f) / 10 ^ f.length : ℚ) = digitsValue ds * 10 ^ (e + 1 - ds.length) := by
  obtain ⟨hne, hdigit⟩ := isNumeral_iff.mp hd
  cases e with
  | ofNat n =>
    by_cases hlen : ds.length ≤ n + 1
    · let zeros := List.replicate (n + 1 - ds.length) '0'
      have hhead : (ds ++ zeros).head? = ds.head? := List.head?_append_of_ne_nil _ hne
      refine ⟨ds ++ zeros, ['0'], ?_, isNumeral_append hd (isDigit_zeros _), by decide,
        .inr hhead, ?_⟩
      · simp [positionalText, zeros, List.take_of_length_le hlen, List.drop_of_length_le hlen]
      · have he : (Int.ofNat n + 1 - ds.length : Int) = (n + 1 - ds.length : Nat) := by
          simp; omega
        have hvalue : digitsValue (ds ++ zeros ++ ['0']) =
            digitsValue ds * 10 ^ (n + 1 - ds.length) * 10 := by
          rw [digitsValue_append, digitsValue_append, digitsValue_zeros, List.length_replicate]
          rfl
        rw [he, hvalue, zpow_natCast]
        push_cast
        simp
    · have hhead : (ds.take (n + 1)).head? = ds.head? := by cases ds <;> rfl
      refine ⟨ds.take (n + 1), ds.drop (n + 1), ?_, ?_, ?_, .inr hhead, ?_⟩
      · have hpart : (ds.drop (n + 1)).isEmpty = false := by simp; omega
        have hzeros : n + 1 - ds.length = 0 := by omega
        simp [positionalText, hpart, hzeros]
      · rw [isNumeral_iff]
        exact ⟨by simp [hne], fun c hc => hdigit c (List.mem_of_mem_take hc)⟩
      · rw [isNumeral_iff]
        exact ⟨by simp; omega, fun c hc => hdigit c (List.mem_of_mem_drop hc)⟩
      · have he : (Int.ofNat n + 1 - ds.length : Int) = -(ds.length - (n + 1) : Nat) := by
          simp; omega
        rw [he, List.take_append_drop, List.length_drop, zpow_neg, zpow_natCast, div_eq_mul_inv]
  | negSucc n =>
    refine ⟨['0'], List.replicate n '0' ++ ds, rfl, by decide, ?_, .inl rfl, ?_⟩
    · rw [isNumeral_iff]
      refine ⟨by simp [hne], ?_⟩
      intro c hc
      exact (List.mem_append.mp hc).elim (isDigit_zeros n c) (hdigit c)
    · have he : (Int.negSucc n + 1 - ds.length : Int) = -(n + ds.length : Nat) := by
        omega
      have hvalue : digitsValue (['0'] ++ (List.replicate n '0' ++ ds)) = digitsValue ds := by
        rw [digitsValue_append, digitsValue_append, digitsValue_zeros]
        simp [digitsValue]
      rw [he, hvalue, List.length_append, List.length_replicate, zpow_neg, zpow_natCast,
        div_eq_mul_inv]

/-! ## Texts of numbers -/

theorem exists_zeros (cs : List Char) :
    ∃ k, cs = (cs.reverse.dropWhile (· == '0')).reverse ++ List.replicate k '0' := by
  have hzeros : cs.reverse.takeWhile (· == '0') =
      List.replicate (cs.reverse.takeWhile (· == '0')).length '0' := by
    rw [List.eq_replicate_iff]
    refine ⟨rfl, ?_⟩
    intro c hc
    exact beq_iff_eq.mp (all_of_takeWhile (· == '0') cs.reverse c hc)
  refine ⟨(cs.reverse.takeWhile (· == '0')).length, ?_⟩
  rw [← List.reverse_replicate, ← hzeros, ← List.reverse_append, List.takeWhile_append_dropWhile,
    List.reverse_reverse]

/-- Dropping the zeros at its end leaves a decimal what it was. -/
theorem digitsAndExponent_spec (d : Decimal) :
    isNumeral d.digitsAndExponent.1 ∧
      (digitsValue d.digitsAndExponent.1 *
          10 ^ (d.digitsAndExponent.2 + 1 - d.digitsAndExponent.1.length) : ℚ) =
        d.digits * 10 ^ d.exponent := by
  obtain ⟨k, hk⟩ := exists_zeros (digitsText d.digits)
  have hvalue := digitsValue_digitsText d.digits
  have hdigits := isNumeral_iff.mp (isNumeral_digitsText d.digits)
  unfold Decimal.digitsAndExponent
  dsimp only
  generalize ((digitsText d.digits).reverse.dropWhile (· == '0')).reverse = kept at *
  rw [hk] at hvalue hdigits ⊢
  rw [digitsValue_append, digitsValue_zeros, List.length_replicate, Nat.add_zero] at hvalue
  cases kept with
  | nil =>
    have hzero : d.digits = 0 := by simpa [digitsValue] using hvalue.symm
    exact ⟨by decide, by simp [hzero, digitsValue]⟩
  | cons c cs =>
    refine ⟨?_, ?_⟩
    · rw [List.isEmpty_cons, if_neg (by simp), isNumeral_iff]
      exact ⟨by simp, fun x hx => hdigits.2 x (List.mem_append_left _ hx)⟩
    · have he : d.exponent + (c :: cs ++ List.replicate k '0').length - 1 + 1 -
          (c :: cs).length = d.exponent + k := by
        rw [List.length_append, List.length_replicate]
        omega
      rw [List.isEmpty_cons, if_neg (by simp), he, ← hvalue, zpow_add₀ (by norm_num), zpow_natCast]
      push_cast
      ring

/-- The plain text of a finite number without a sign has digits on both sides of a point and reads
back as the number. -/
theorem ofNumeral_finiteText {x : Binary64} (hx : x.isFinite) (hn : x.negative = false) :
    ∃ i f, Layout.plain.finiteText x = i ++ '.' :: f ∧ isNumeral i ∧ isNumeral f ∧
      ofNumeral (Layout.plain.finiteText x) = x := by
  obtain ⟨hd, he⟩ := digitsAndExponent_spec x.shortest
  obtain ⟨i, f, htext, hi, hf, -, hvalue⟩ :=
    exists_positionalText hd x.shortest.digitsAndExponent.2
  have hplain : Layout.plain.finiteText x =
      positionalText x.shortest.digitsAndExponent.1 x.shortest.digitsAndExponent.2 := by
    simp [Layout.finiteText, Layout.plain, hn]
  have hquot : (x.shortest.digits * 10 ^ x.shortest.exponent : ℚ) =
      digitsValue (i ++ f) / (10 ^ f.length : Nat) := by
    rw [← he, ← hvalue, Nat.cast_pow, Nat.cast_ofNat]
  have hread := ofDecimal_shortest hx
  rw [hn, ofDecimal_eq_round false (Nat.pow_pos (by decide)) hquot] at hread
  refine ⟨i, f, hplain.trans htext, hi, hf, ?_⟩
  rw [hplain, htext, ofNumeral_eq hi, hread]

end Binary64

end Criteria
