import Mathlib
import Criteria.Number.Written
import Criteria.Proofs.Number.Denotation

/-!
# Criteria.Proofs.Number.Written

Numerals as readers of written numbers take them. Such a reader allows for blanks, signs, digits of
any script and more; on the digits of a token it gives the value of the digits.

* `intOfText?_numeral`: a whole number is refused for its length only.
* `floatOfText?_numeral`: a number with a fraction is never refused.
-/

namespace Criteria

open Text

namespace Text

theorem splitOn_of_not_mem {sep : Char} {cs : List Char} (h : sep ∉ cs) :
    splitOn sep cs = [cs] := by
  induction cs with
  | nil => rfl
  | cons c cs ih =>
    rw [List.mem_cons, not_or] at h
    have hne : ¬(c == sep) := by simpa using Ne.symm h.1
    rw [splitOn, if_neg hne, ih h.2]

theorem trim_of_not_space {cs : List Char} (h : ∀ c ∈ cs, isSpace c = false) : trim cs = cs := by
  have hdrop : ∀ ds : List Char, (∀ c ∈ ds, isSpace c = false) → ds.dropWhile isSpace = ds := by
    intro ds hds
    cases ds with
    | nil => rfl
    | cons d ds => rw [List.dropWhile_cons_of_neg (by simp [hds d])]
  rw [trim, hdrop cs h, trimEnd, hdrop _ fun c hc => h c (List.mem_reverse.mp hc),
    List.reverse_reverse]

/-- ASCII digits are digits of every kind, and nothing else. -/
theorem of_isDigit {c : Char} (h : isDigit c) :
    decimalDigit? c = some (c.toNat - 48) ∧ isSpace c = false ∧ c.toLower = c ∧
      c ∉ ['_', '+', '-', 'e', 'E', '.', 'i', 'n'] := by
  have hcode : 48 ≤ c.toNat ∧ c.toNat ≤ 57 := by
    simpa [isDigit, Char.isDigit, UInt32.le_iff_toNat_le] using h
  have hlow : c.toNat < 0x80 := by omega
  have hdigit : c.isDigit = true := h
  refine ⟨?_, ?_, ?_, ?_⟩
  · rw [decimalDigit?, if_pos hlow, asciiDigit?, if_pos hdigit]
  · rw [Bool.eq_false_iff]
    intro hspace
    simp only [isSpace, Bool.or_eq_true, Bool.and_eq_true, decide_eq_true_eq, beq_iff_eq] at hspace
    omega
  · rw [Char.toLower, dif_neg]
    simp only [ge_iff_le, UInt32.le_iff_toNat_le, Char.toNat_val]
    intro hupper
    have hle : 'A'.toNat ≤ c.toNat := hupper.1
    have hA : 'A'.toNat = 65 := rfl
    omega
  · intro hmem
    have hall : ∀ c ∈ ['_', '+', '-', 'e', 'E', '.', 'i', 'n'], isDigit c = false := by
      simp [isDigit]
    rw [hall c hmem] at h
    cases h

end Text

theorem mapM_eq_some_map {α β : Type} {f : α → Option β} {g : α → β} {xs : List α}
    (h : ∀ x ∈ xs, f x = some (g x)) : xs.mapM f = some (xs.map g) := by
  induction xs with
  | nil => rfl
  | cons x xs ih =>
    rw [List.mapM_cons, h x List.mem_cons_self, ih fun y hy => h y (List.mem_cons_of_mem x hy)]
    rfl

section Digits

variable {ds : List Char}

theorem groupedDigits?_numeral (h : isNumeral ds) :
    groupedDigits? decimalDigit? ds = some (ds.map (·.toNat - 48)) := by
  obtain ⟨hne, hds⟩ := isNumeral_iff.mp h
  have hbar : '_' ∉ ds := fun hmem => (of_isDigit (hds _ hmem)).2.2.2 (by simp)
  have hdigits := mapM_eq_some_map fun c hc => (of_isDigit (hds c hc)).1
  rw [groupedDigits?, splitOn_of_not_mem hbar]
  simpa [hne] using hdigits

theorem ofDigits_digits (ds : List Char) : ofDigits (ds.map (·.toNat - 48)) = digitsValue ds := by
  rw [ofDigits, List.foldl_map, digitsValue]

theorem splitSign_numeral (rest : List Char) (h : isNumeral ds) :
    splitSign (ds ++ rest) = (false, ds ++ rest) := by
  obtain ⟨hne, hds⟩ := isNumeral_iff.mp h
  cases ds with
  | nil => exact absurd rfl hne
  | cons d ds =>
    have hd := (of_isDigit (hds d List.mem_cons_self)).2.2.2
    unfold splitSign
    split
    · rename_i heq; cases heq; simp at hd
    · rename_i heq; cases heq; simp at hd
    · rfl

theorem intOfText?_numeral (h : isNumeral ds) :
    intOfText? (String.ofList ds) =
      if maxNumeralLength < ds.length then none else some (digitsValue ds : Int) := by
  obtain ⟨-, hds⟩ := isNumeral_iff.mp h
  have hcount : ds.countP (fun c => (decimalDigit? c).isSome) = ds.length := by
    rw [List.countP_eq_length]
    intro c hc
    rw [(of_isDigit (hds c hc)).1]
    rfl
  have hwhole : wholeNumber? (String.ofList ds) = some (digitsValue ds : Int) := by
    have htrim : trim ds = ds := trim_of_not_space fun c hc => (of_isDigit (hds c hc)).2.1
    have hsign := splitSign_numeral [] h
    rw [List.append_nil] at hsign
    rw [wholeNumber?, String.toList_ofList, htrim, hsign]
    simp only [groupedDigits?_numeral h, Option.map_some, ofDigits_digits]
    rfl
  rw [intOfText?, String.toList_ofList, hcount, hwhole]

end Digits

theorem partDigits?_numeral {ds : List Char} (h : isNumeral ds) :
    partDigits? ds = some (ds.map (·.toNat - 48)) := by
  rw [partDigits?, if_neg (by simpa using (isNumeral_iff.mp h).1), groupedDigits?_numeral h]

/-- Digits with a point: no character is the mark of an exponent. -/
theorem magnitude?_numeral {i f : List Char} (hi : isNumeral i) (hf : isNumeral f) :
    magnitude? false (i ++ '.' :: f) = some (Binary64.ofNumeral (i ++ '.' :: f)) := by
  obtain ⟨hne, his⟩ := isNumeral_iff.mp hi
  obtain ⟨-, hfs⟩ := isNumeral_iff.mp hf
  have hnot : ∀ c, isDigit c → c ≠ '.' ∧ c ≠ 'e' ∧ c ≠ 'E' := by
    intro c hc
    have hmem := (of_isDigit hc).2.2.2
    simp only [List.mem_cons, not_or] at hmem
    exact ⟨hmem.2.2.2.2.2.1, hmem.2.2.2.1, hmem.2.2.2.2.1⟩
  have hmark : ∀ c ∈ i ++ '.' :: f, (!(c == 'e' || c == 'E')) = true := by
    intro c hc
    rcases List.mem_append.mp hc with hc | hc
    · simp [hnot c (his c hc)]
    · rcases List.mem_cons.mp hc with rfl | hc
      · rfl
      · simp [hnot c (hfs c hc)]
  have hpoint : ∀ c ∈ i, (c != '.') = true := by
    intro c hc
    simp [hnot c (his c hc)]
  obtain ⟨hbody, hexp⟩ := span_append hmark (show ∀ c ∈ ([] : List Char).head?, _ by simp)
  obtain ⟨htake, hdrop⟩ := span_append hpoint (show ∀ c ∈ ('.' :: f).head?, _ by simp)
  rw [List.append_nil] at hbody hexp
  have hvalue : Binary64.ofDecimal false (digitsValue (i ++ f)) (0 - (f.length : Nat)) =
      Binary64.ofNumeral (i ++ '.' :: f) := by
    rw [Binary64.ofNumeral_eq hi]
    refine Binary64.ofDecimal_eq_round false (Nat.pow_pos (by decide)) ?_
    rw [zero_sub, zpow_neg, zpow_natCast, Nat.cast_pow, div_eq_mul_inv]
    rfl
  simp only [magnitude?, hbody, hexp, htake, hdrop, List.drop_one, List.tail_cons,
    partDigits?_numeral hi, partDigits?_numeral hf, exponentOf?, Option.bind_eq_bind,
    Option.bind_some]
  rw [← hvalue, if_neg (by simp [hne]), ← List.map_append, ofDigits_digits, List.length_map]

theorem floatOfText?_numeral {i f : List Char} (hi : isNumeral i) (hf : isNumeral f) :
    floatOfText? (String.ofList (i ++ '.' :: f)) = some (Binary64.ofNumeral (i ++ '.' :: f)) := by
  obtain ⟨hne, his⟩ := isNumeral_iff.mp hi
  obtain ⟨-, hfs⟩ := isNumeral_iff.mp hf
  have htrim : trim (i ++ '.' :: f) = i ++ '.' :: f := by
    refine trim_of_not_space fun c hc => ?_
    rcases List.mem_append.mp hc with hc | hc
    · exact (of_isDigit (his c hc)).2.1
    · rcases List.mem_cons.mp hc with rfl | hc
      · decide
      · exact (of_isDigit (hfs c hc)).2.1
  -- no name of a number starts with a digit
  have hname : ∀ c cs, c ∈ ['i', 'n'] →
      String.ofList ((i ++ '.' :: f).map Char.toLower) ≠ String.ofList (c :: cs) := by
    intro c cs hc heq
    obtain ⟨d, ds, rfl⟩ := List.exists_cons_of_ne_nil hne
    have hd := of_isDigit (his d List.mem_cons_self)
    have hhead : d = c := by
      simpa [hd.2.2.1] using congrArg (List.head? ∘ String.toList) heq
    refine hd.2.2.2 ?_
    rw [hhead]
    revert hc
    simp +contextual
  rw [floatOfText?, String.toList_ofList, htrim, splitSign_numeral _ hi]
  dsimp only
  split
  · rename_i heq; exact absurd heq (hname 'i' _ (by simp))
  · rename_i heq; exact absurd heq (hname 'i' _ (by simp))
  · rename_i heq; exact absurd heq (hname 'n' _ (by simp))
  · exact magnitude?_numeral hi hf

end Criteria
