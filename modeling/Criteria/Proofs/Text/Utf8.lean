import Mathlib
import Criteria.Text.Utf8

/-!
# Criteria.Proofs.Text.Utf8

Bytes are read as text exactly where they are the UTF-8 form of a text, and then as that text.

* `Utf8.bytes`: the UTF-8 form of a text.
* `Utf8.exists_follow` and `Utf8.eq_encodeChar`: the bytes of one character are read as it, and
  bytes that are read as a character are its bytes. Both go by the number of bytes that follow the
  first one.
* `Utf8.decode_eq_ok_iff`: the same of a whole text.
* `not_mem_foldNewlines` and `foldNewlines_eq_self`: no return is left of the line ends, and a text
  without returns stays as it is.
-/

namespace Criteria
namespace Text
namespace Utf8

/-- The UTF-8 form of a text. -/
def bytes (s : String) : List UInt8 :=
  s.toUTF8.data.toList

theorem bytes_ofList (cs : List Char) :
    bytes (String.ofList cs) = cs.flatMap String.utf8EncodeChar := by
  rw [bytes, String.toUTF8_eq_toByteArray, String.toByteArray_ofList, List.utf8Encode,
    List.data_toByteArray, List.toList_toArray]

/-! ## One character -/

theorem follow?_succ {low high : UInt8} {seen code n : Nat} {bs : List UInt8}
    {r : Nat × List UInt8} :
    follow? low high seen code (n + 1) bs = .ok r ↔
      ∃ b after, bs = b :: after ∧ (low.toNat ≤ b.toNat ∧ b.toNat ≤ high.toNat) ∧
        follow? 0x80 0xBF (seen + 1) (code * 64 + (b.toNat - 0x80)) n after = .ok r := by
  cases bs with
  | nil => simp [follow?]
  | cons b after =>
    simp only [follow?, UInt8.le_iff_toNat_le]
    split
    · rename_i h; simp [h]
    · rename_i h; simp [h]

theorem follow?_zero {low high : UInt8} {seen code : Nat} {bs : List UInt8}
    {r : Nat × List UInt8} : follow? low high seen code 0 bs = .ok r ↔ r = (code, bs) := by
  simp [follow?, eq_comm]

theorem toNat_lt_or (c : Char) : c.toNat < 0xD800 ∨ 0xDFFF < c.toNat ∧ c.toNat < 0x110000 := by
  rcases c.valid with h | h
  · exact .inl h
  · exact .inr h

/-- The bounds of the second byte depend on the first one only where it is the least or the greatest
of its kind. -/
theorem lead?_eq_some_iff {b : UInt8} {l : Lead} :
    lead? b = some l ↔
      (b.toNat < 0x80 ∧ l = { bits := b.toNat, follow := 0 }) ∨
      ((0xC2 ≤ b.toNat ∧ b.toNat < 0xE0) ∧ l = { bits := b.toNat - 0xC0, follow := 1 }) ∨
      ((0xE0 ≤ b.toNat ∧ b.toNat < 0xF0) ∧
        l = { bits := b.toNat - 0xE0, follow := 2
              low := if b.toNat = 0xE0 then 0xA0 else 0x80
              high := if b.toNat = 0xED then 0x9F else 0xBF }) ∨
      ((0xF0 ≤ b.toNat ∧ b.toNat < 0xF5) ∧
        l = { bits := b.toNat - 0xF0, follow := 3
              low := if b.toNat = 0xF0 then 0x90 else 0x80
              high := if b.toNat = 0xF4 then 0x8F else 0xBF }) := by
  unfold lead?
  generalize b.toNat = n
  dsimp only
  split_ifs <;> grind

/-- The first byte of a character announces the others, which are read as the character. -/
theorem exists_follow (c : Char) (rest : List UInt8) :
    ∃ b bs l, String.utf8EncodeChar c = b :: bs ∧ lead? b = some l ∧
      follow? l.low l.high 1 l.bits l.follow (bs ++ rest) = .ok (c.toNat, rest) := by
  have hc := toNat_lt_or c
  have hv : c.val.toNat = c.toNat := rfl
  simp only [String.utf8EncodeChar, hv, lead?_eq_some_iff]
  split
  · refine ⟨_, _, _, rfl, .inl ⟨?_, rfl⟩, ?_⟩
    · simp; omega
    · simp [follow?_zero]; omega
  split
  · refine ⟨_, _, _, rfl, .inr (.inl ⟨?_, rfl⟩), ?_⟩
    · simp; omega
    · simp [follow?_succ, follow?_zero]; omega
  split
  · refine ⟨_, _, _, rfl, .inr (.inr (.inl ⟨?_, rfl⟩)), ?_⟩
    · simp; omega
    · simp [follow?_succ, follow?_zero, apply_ite UInt8.toNat]
      split_ifs <;> omega
  · refine ⟨_, _, _, rfl, .inr (.inr (.inr ⟨?_, rfl⟩)), ?_⟩
    · simp; omega
    · simp [follow?_succ, follow?_zero, apply_ite UInt8.toNat]
      split_ifs <;> omega

theorem toNat_ofNat {n : Nat} (h : n < 0xD800 ∨ 0xDFFF < n ∧ n < 0x110000) :
    (Char.ofNat n).toNat = n := by
  have hv : n.isValidChar := h
  simp [Char.ofNat, hv, Char.toNat, Char.ofNatAux]

/-- Bytes that are read as a code point are the bytes of its character. -/
theorem eq_encodeChar {b : UInt8} {l : Lead} {bs rest : List UInt8} {code : Nat}
    (hl : lead? b = some l)
    (hf : follow? l.low l.high 1 l.bits l.follow bs = .ok (code, rest)) :
    b :: bs = String.utf8EncodeChar (Char.ofNat code) ++ rest := by
  have hv : (code < 0xD800 ∨ 0xDFFF < code ∧ code < 0x110000) →
      (Char.ofNat code).val.toNat = code := toNat_ofNat
  rcases lead?_eq_some_iff.mp hl with ⟨hb, rfl⟩ | ⟨hb, rfl⟩ | ⟨hb, rfl⟩ | ⟨hb, rfl⟩
  · simp only [follow?_zero, Prod.mk.injEq] at hf
    obtain ⟨hcode, hrest⟩ := hf
    simp only [String.utf8EncodeChar, hv (by omega)]
    rw [if_pos (by omega), hcode, hrest]
    simp
  · simp only [follow?_succ, follow?_zero, Prod.mk.injEq] at hf
    obtain ⟨b₂, after, rfl, hb₂, hcode, hrest⟩ := hf
    simp only [UInt8.reduceToNat] at hb₂
    simp only [String.utf8EncodeChar, hv (by omega)]
    rw [if_neg (by omega), if_pos (by omega), hrest]
    simp [← UInt8.toNat_inj]
    omega
  · simp only [follow?_succ, follow?_zero, Prod.mk.injEq] at hf
    obtain ⟨b₂, after, rfl, hb₂, b₃, after, rfl, hb₃, hcode, hrest⟩ := hf
    simp only [apply_ite UInt8.toNat, UInt8.reduceToNat] at hb₂ hb₃
    have htail : 0x80 ≤ b₂.toNat ∧ b₂.toNat ≤ 0xBF := by split_ifs at hb₂ <;> omega
    have hmin : 0x7FF < code := by split_ifs at hb₂ <;> omega
    have hvalid : code < 0xD800 ∨ 0xDFFF < code ∧ code < 0x110000 := by
      split_ifs at hb₂ <;> omega
    simp only [String.utf8EncodeChar, hv hvalid]
    rw [if_neg (by omega), if_neg (by omega), if_pos (by omega), hrest]
    simp [← UInt8.toNat_inj]
    omega
  · simp only [follow?_succ, follow?_zero, Prod.mk.injEq] at hf
    obtain ⟨b₂, after, rfl, hb₂, b₃, after, rfl, hb₃, b₄, after, rfl, hb₄, hcode, hrest⟩ := hf
    simp only [apply_ite UInt8.toNat, UInt8.reduceToNat] at hb₂ hb₃ hb₄
    have htail : 0x80 ≤ b₂.toNat ∧ b₂.toNat ≤ 0xBF := by split_ifs at hb₂ <;> omega
    have hrange : 0xFFFF < code ∧ code < 0x110000 := by split_ifs at hb₂ <;> omega
    simp only [String.utf8EncodeChar, hv (.inr (by omega))]
    rw [if_neg (by omega), if_neg (by omega), if_neg (by omega), hrest]
    simp [← UInt8.toNat_inj]
    omega

/-! ## Texts -/

theorem decodeFrom_flatMap (cs : List Char) (n : Nat) :
    decodeFrom n (cs.flatMap String.utf8EncodeChar) = .ok cs := by
  induction cs generalizing n with
  | nil => simp [decodeFrom]
  | cons c cs ih =>
    obtain ⟨b, bs, l, hc, hl, hf⟩ := exists_follow c (cs.flatMap String.utf8EncodeChar)
    rw [List.flatMap_cons, hc, List.cons_append, decodeFrom]
    simp only [hl]
    split
    · rename_i he; rw [hf] at he; cases he
    · rename_i code after he
      rw [hf] at he
      cases he
      rw [ih, Char.ofNat_toNat]

theorem eq_flatMap_of_decodeFrom {n : Nat} {bs : List UInt8} {cs : List Char}
    (h : decodeFrom n bs = .ok cs) : bs = cs.flatMap String.utf8EncodeChar := by
  fun_induction decodeFrom n bs generalizing cs with
  | case1 => cases h; rfl
  | case2 => cases h
  | case3 => cases h
  | case4 => cases h
  | case5 n b rest l hl code after hf cs' hd ih =>
    cases h
    rw [List.flatMap_cons, ← ih hd]
    exact eq_encodeChar hl hf

/-- The bytes that are read as a text are its bytes, and no others are read. -/
theorem decode_eq_ok_iff {bs : List UInt8} {cs : List Char} :
    decode bs = .ok cs ↔ bs = bytes (String.ofList cs) := by
  rw [bytes_ofList]
  constructor
  · exact eq_flatMap_of_decodeFrom
  · rintro rfl
    exact decodeFrom_flatMap cs 0

end Utf8

/-! ## Line ends -/

theorem not_mem_foldNewlines (cs : List Char) : '\r' ∉ foldNewlines cs := by
  fun_induction foldNewlines cs with
  | case1 => simp
  | case2 cs ih => simpa using ih
  | case3 cs _ ih => simpa using ih
  | case4 c cs _ hc ih =>
    rw [List.mem_cons, not_or]
    exact ⟨fun h => hc h.symm, ih⟩

theorem foldNewlines_eq_self {cs : List Char} (h : '\r' ∉ cs) : foldNewlines cs = cs := by
  fun_induction foldNewlines cs with
  | case1 => rfl
  | case2 cs ih => simp at h
  | case3 cs _ ih => simp at h
  | case4 c cs _ hc ih => rw [ih fun hm => h (List.mem_cons_of_mem c hm)]

end Text
end Criteria
