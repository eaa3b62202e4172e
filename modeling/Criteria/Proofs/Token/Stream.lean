import Mathlib
import Criteria.Proofs.Token.Munch
import Criteria.Token.Window

/-!
# Criteria.Proofs.Token.Stream

The tokens of a text as an endless stream: after the last one the end of input comes again and
again. A window on the text is a place in its stream.

* `stream` and `firstTokens`: the stream, and its first tokens.
* `stream_eq`: the stream as the window at the start of the text sees it.
* `Cursor.after` and `Window.ahead`: the same place, reached by taking tokens from the text and by
  dropping them from the window (`Window.ofCursor_after`).
* `Window.current_ahead` and `Window.peek_ahead`: the two tokens in sight there.
-/

namespace Criteria

/-- The tokens of a text, the end of input repeated. -/
def stream (s : String) (n : Nat) : Token :=
  (tokenize s).getD n (endOfInput (Text.Utf8.length (visible s)))

/-- The first `n` tokens of the stream. -/
def firstTokens (s : String) (n : Nat) : List Token :=
  (List.range n).map (stream s)

theorem tokenize_eq (s : String) :
    tokenize s = (Window.ofText s).tokens ++ [(Window.ofText s).eof] := rfl

theorem eof_ofText (s : String) :
    (Window.ofText s).eof = endOfInput (Text.Utf8.length (visible s)) := by
  obtain ⟨us, hts, -⟩ := ((munch_iff s _).mpr rfl).exists_split
  rw [tokenize_eq, Nat.zero_add] at hts
  simpa using (List.append_inj' hts rfl).2

/-- The tokens that a splitting finds before the end of input are the ones that a window holds. -/
theorem tokens_ofText {s : String} {us : List Token} {p : Nat}
    (h : Munch 0 (visible s) (us ++ [endOfInput p])) : (Window.ofText s).tokens = us := by
  rw [munch_iff, tokenize_eq] at h
  exact (List.append_inj' h rfl).1

theorem stream_eq (s : String) (n : Nat) :
    stream s n = (Window.ofText s).tokens.getD n (Window.ofText s).eof := by
  rw [stream, tokenize_eq, ← eof_ofText]
  simp only [List.getD_eq_getElem?_getD]
  rcases Nat.lt_trichotomy n (Window.ofText s).tokens.length with h | h | h
  · rw [List.getElem?_append_left h]
  · subst h
    simp
  · rw [List.getElem?_eq_none (by simp; omega), List.getElem?_eq_none (by omega)]

@[simp] theorem length_firstTokens (s : String) (n : Nat) : (firstTokens s n).length = n := by
  simp [firstTokens]

theorem firstTokens_succ (s : String) (n : Nat) :
    firstTokens s (n + 1) = firstTokens s n ++ [stream s n] := by
  simp [firstTokens, List.range_succ]

theorem getElem?_firstTokens {s : String} {n i : Nat} (h : i < n) :
    (firstTokens s n)[i]? = some (stream s i) := by
  simp [firstTokens, List.getElem?_range h]

theorem firstTokens_eq_take {s : String} {n : Nat} (h : n ≤ (tokenize s).length) :
    firstTokens s n = (tokenize s).take n := by
  apply List.ext_getElem?
  intro i
  rcases Nat.lt_or_ge i n with hi | hi
  · rw [getElem?_firstTokens hi, List.getElem?_take_of_lt hi, stream, List.getD_eq_getElem?_getD,
      List.getElem?_eq_getElem (by omega)]
    rfl
  · rw [List.getElem?_eq_none (by simpa using hi),
      List.getElem?_eq_none (by rw [List.length_take]; omega)]

theorem mem_tokenize_of_stream {s : String} {n : Nat} (h : (stream s n).kind ≠ .eof) :
    stream s n ∈ tokenize s := by
  rw [stream, List.getD_eq_getElem?_getD] at h ⊢
  cases ht : (tokenize s)[n]? with
  | none => rw [ht] at h; exact absurd rfl h
  | some t => exact List.mem_of_getElem? ht

/-- Tokens that a window takes from the start of a text are the first of its stream. -/
theorem firstTokens_length {s : String} {ts us : List Token}
    (h : (Window.ofText s).tokens = ts ++ us) : firstTokens s ts.length = ts := by
  apply List.ext_getElem?
  intro i
  rcases Nat.lt_or_ge i ts.length with hi | hi
  · rw [getElem?_firstTokens hi, stream_eq, h, List.getD_eq_getElem?_getD,
      List.getElem?_append_left hi, List.getElem?_eq_getElem hi]
    rfl
  · rw [List.getElem?_eq_none (by simpa using hi), List.getElem?_eq_none hi]

/-- Shorter beginnings of a stream are beginnings of longer ones. -/
theorem firstTokens_split {s : String} {m n : Nat} (h : m < n) :
    ∃ us, firstTokens s n = firstTokens s m ++ stream s m :: us := by
  refine ⟨(firstTokens s n).drop (m + 1), ?_⟩
  apply List.ext_getElem?
  intro i
  rcases Nat.lt_trichotomy i m with hi | hi | hi
  · rw [List.getElem?_append_left (by simpa using hi), getElem?_firstTokens hi,
      getElem?_firstTokens (by omega)]
  · subst hi
    rw [List.getElem?_append_right (by simp), getElem?_firstTokens h]
    simp
  · rw [List.getElem?_append_right (by simp; omega), length_firstTokens,
      show i - m = i - (m + 1) + 1 by omega, List.getElem?_cons_succ, List.getElem?_drop,
      show m + 1 + (i - (m + 1)) = i by omega]

/-! ## Places -/

/-- The cursor when it has taken `n` tokens. -/
def Cursor.after (c : Cursor) : Nat → Cursor
  | 0 => c
  | n + 1 => c.next.2.after n

namespace Window

/-- The window `n` tokens further on. -/
def ahead (w : Window) (n : Nat) : Window := { w with tokens := w.tokens.drop n }

@[simp] theorem ahead_ahead (w : Window) (m n : Nat) : (w.ahead m).ahead n = w.ahead (m + n) := by
  simp [ahead]

theorem advance_eq_ahead (w : Window) : w.advance = w.ahead 1 := by
  simp [advance, ahead]

/-- Past the end of input a cursor finds it again, at the same position. -/
theorem ofCursor_next (c : Cursor) : ofCursor c.next.2 = (ofCursor c).advance := by
  rcases c.blank_or_leads with hb | ⟨blanks, shape, rest, t, hc, hb, hl, hp⟩
  · obtain ⟨htok, hrest, -⟩ := Cursor.next_blank hb
    obtain ⟨htok', -, hpos'⟩ := Cursor.next_blank (c := c.next.2) (by simp [hrest])
    have hk : c.next.1.kind = .eof := by rw [htok]; rfl
    have hk' : c.next.2.next.1.kind = .eof := by rw [htok']; rfl
    rw [hrest, Text.Utf8.length_nil, Nat.add_zero] at hpos'
    rw [ofCursor, Cursor.remaining, dif_pos hk', ofCursor, Cursor.remaining, dif_pos hk, hpos']
    rfl
  · obtain ⟨htok, -, -⟩ := Cursor.next_leads hc hb hl hp
    have hk : c.next.1.kind ≠ .eof := by rw [htok]; exact hl.kind_ne
    conv_rhs => rw [ofCursor, Cursor.remaining, dif_neg hk]
    rfl

theorem ofCursor_after (c : Cursor) (n : Nat) : ofCursor (c.after n) = (ofCursor c).ahead n := by
  induction n generalizing c with
  | zero => rfl
  | succ n ih =>
    rw [Cursor.after, ih, ofCursor_next, advance_eq_ahead, ahead_ahead, Nat.add_comm]

theorem current_ahead (s : String) (n : Nat) : ((ofText s).ahead n).current = stream s n := by
  have h : ((ofText s).ahead n).current = ((ofText s).tokens.drop n).headD (ofText s).eof := rfl
  rw [h, stream_eq, List.headD_eq_head?_getD, List.head?_drop, List.getD_eq_getElem?_getD]

theorem peek_ahead (s : String) (n : Nat) : ((ofText s).ahead n).peek = stream s (n + 1) := by
  have h : ((ofText s).ahead n).peek = ((ofText s).ahead n).advance.current := rfl
  rw [h, advance_eq_ahead, ahead_ahead, current_ahead]

end Window

end Criteria
