import Mathlib
import Criteria.Proofs.Token.Front

/-!
# Criteria.Proofs.Token.Cursor

Where a cursor stands, whatever it was asked before.

* `Cursor.On`: a cursor on a text. It has read `index` characters, `position` is the number of their
  bytes, and the others are left. `On.advance` and `On.next` show that it stays so.
* `Cursor.run`: a cursor that is asked one thing after the other.
* `Cursor.act_after` and `Cursor.run_after`: what one question takes from the stream of tokens, and
  what a run takes.
* `Cursor.run_of_end`: at the end nothing changes any more.
* `cursor_run`: all of it for any run on any text.
-/

namespace Criteria

open Text

namespace Cursor

/-- A cursor on the text `s`. -/
structure On (s : String) (c : Cursor) : Prop where
  index_le : c.index ≤ (visible s).length
  rest_eq : c.rest = (visible s).drop c.index
  position_eq : c.position = Utf8.length ((visible s).take c.index)

/-- The tokens in an answer. -/
def Answer.found : Answer → List Token
  | .token t => [t]
  | .tokens ts => ts
  | .char _ => []

/-- Asks a cursor one thing after the other: all tokens that it answers with, and the cursor in the
end. -/
def run (c : Cursor) : List Action → List Token × Cursor
  | [] => ([], c)
  | a :: as => ((c.act a).1.found ++ ((c.act a).2.run as).1, ((c.act a).2.run as).2)

/-! ## What a cursor has read -/

namespace On

variable {s : String} {c : Cursor}

theorem ofText (s : String) : On s (ofText s) where
  index_le := Nat.zero_le _
  rest_eq := rfl
  position_eq := rfl

theorem advance (h : On s c) (n : Nat) : On s (c.advance n) := by
  have hle := h.index_le
  have hlen := congrArg List.length h.rest_eq
  rw [List.length_drop] at hlen
  refine ⟨?_, ?_, ?_⟩
  · simp only [Cursor.advance, List.length_take]
    omega
  · simp only [Cursor.advance, List.length_take]
    rw [← List.drop_drop, ← h.rest_eq, ← List.drop_eq_drop_min]
  · simp only [Cursor.advance, List.length_take]
    rw [List.take_add, ← h.rest_eq, ← List.take_eq_take_min, Utf8.length_append, ← h.position_eq]

theorem next (h : On s c) : On s c.next.2 :=
  (h.advance _).advance _

theorem after (h : On s c) (n : Nat) : On s (c.after n) := by
  induction n generalizing c with
  | zero => exact h
  | succ n ih => exact ih h.next

theorem length_eq (h : On s c) : c.length = (visible s).length := by
  have hle := h.index_le
  rw [length, h.rest_eq, List.length_drop]
  omega

theorem headD_drop (h : On s c) (n : Nat) :
    (c.rest.drop n).headD endMark = (visible s).getD (c.index + n) endMark := by
  rw [h.rest_eq, List.drop_drop, List.headD_eq_head?_getD, List.head?_drop,
    List.getD_eq_getElem?_getD]

theorem current_eq (h : On s c) : c.current = (visible s).getD c.index endMark :=
  h.headD_drop 0

theorem peek_eq (h : On s c) : c.peek = (visible s).getD (c.index + 1) endMark :=
  h.headD_drop 1

/-- No character of the text is the one that stands for its end. -/
theorem current_eq_endMark_iff (h : On s c) : c.current = endMark ↔ c.index = c.length := by
  have hle := h.index_le
  rw [h.current_eq, h.length_eq, List.getD_eq_getElem?_getD]
  constructor
  · intro hc
    by_contra hne
    have hlt : c.index < (visible s).length := by omega
    have hmem := List.getElem_mem hlt
    rw [List.getElem?_eq_getElem hlt, Option.getD_some] at hc
    rw [hc] at hmem
    exact not_mem_visible s hmem
  · intro hi
    rw [List.getElem?_eq_none (by omega)]
    rfl

end On

end Cursor

/-- What is read of a text goes up to its first NUL, or to its end. -/
theorem visible_eq_take (s : String) :
    visible s = s.toList.take (s.toList.findIdx (· == '\x00')) := by
  have hnot : (fun c => !(c != '\x00')) = fun c => c == '\x00' := by
    funext c
    rw [bne, Bool.not_not]
  rw [visible, List.takeWhile_eq_take_findIdx_not, hnot]

theorem length_visible (s : String) :
    (visible s).length = s.toList.findIdx (· == '\x00') := by
  rw [visible_eq_take, List.length_take, Nat.min_eq_left List.findIdx_le_length]

theorem take_visible {s : String} {n : Nat} (h : n ≤ (visible s).length) :
    (visible s).take n = s.toList.take n := by
  rw [length_visible] at h
  rw [visible_eq_take, List.take_take, Nat.min_eq_left h]

theorem getElem?_visible {s : String} {n : Nat} (h : n < (visible s).length) :
    (visible s)[n]? = s.toList[n]? := by
  rw [length_visible] at h
  rw [visible_eq_take, List.getElem?_take_of_lt h]

namespace Cursor

/-! ## Tokens taken -/

theorem after_after (c : Cursor) (m n : Nat) : (c.after m).after n = c.after (m + n) := by
  induction m generalizing c with
  | zero => rw [Nat.zero_add]; rfl
  | succ m ih => rw [Nat.add_right_comm]; exact ih c.next.2

/-- The end of input is found where nothing but blanks is left, and it takes them. -/
theorem next_of_eof {c : Cursor} (h : c.next.1.kind = .eof) :
    c.next.1 = endOfInput c.next.2.position ∧ c.next.2.rest = [] := by
  rcases c.blank_or_leads with hb | ⟨blanks, shape, rest, t, hc, hb, hl, hp⟩
  · obtain ⟨htok, hrest, hpos⟩ := next_blank hb
    exact ⟨by rw [htok, hpos], hrest⟩
  · obtain ⟨htok, -, -⟩ := next_leads hc hb hl hp
    rw [htok] at h
    exact absurd h hl.kind_ne

theorem next_fst (c : Cursor) : c.next.1 = (Window.ofCursor c).current := by
  by_cases hk : c.next.1.kind = .eof
  · rw [Window.ofCursor, remaining, dif_pos hk]
    exact (next_of_eof hk).1
  · rw [Window.ofCursor, remaining, dif_neg hk]
    rfl

theorem next_after (s : String) (n : Nat) : ((ofText s).after n).next.1 = stream s n := by
  rw [next_fst, Window.ofCursor_after, ← Window.current_ahead]
  rfl

/-- A token that is not the end of input takes characters. -/
theorem index_lt_next {c : Cursor} (h : c.next.1.kind ≠ .eof) : c.index < c.next.2.index := by
  have hshorter := next_shorter h
  have hlength : c.next.2.length = c.length := c.length_after 1
  rw [length, length] at hlength
  omega

theorem length_remaining_le (c : Cursor) : c.remaining.1.length ≤ c.rest.length := by
  fun_induction remaining c with
  | case1 c h => simp
  | case2 c h r ih =>
    have hshorter := next_shorter h
    have hrest : r.1.length ≤ c.next.2.rest.length := ih
    rw [List.length_cons]
    omega

/-- Taking all tokens is taking one after the other. -/
theorem drain_after (s : String) (n : Nat) : ∃ m,
    ((ofText s).after n).drain = ((List.range' n m).map (stream s), (ofText s).after (n + m)) := by
  generalize hc : (ofText s).after n = c
  induction hr : c.rest.length using Nat.strongRecOn generalizing c n with
  | ind k ih =>
    have hnext : (ofText s).after (n + 1) = c.next.2 := by rw [← after_after, hc]; rfl
    have hstream : c.next.1 = stream s n := by rw [← hc, next_after]
    by_cases hk : c.next.1.kind = .eof
    · refine ⟨1, ?_⟩
      rw [hnext, drain, remaining, dif_pos hk, List.range'_one, List.map_singleton, ← hstream,
        (next_of_eof hk).1]
      rfl
    · obtain ⟨m, hm⟩ := ih _ (hr ▸ next_shorter hk) (n + 1) c.next.2 hnext rfl
      refine ⟨m + 1, ?_⟩
      rw [List.range'_succ, List.map_cons, ← hstream, ← Nat.add_assoc, Nat.add_right_comm]
      rw [drain] at hm ⊢
      rw [remaining, dif_neg hk]
      obtain ⟨htokens, hcursor⟩ := Prod.mk.injEq .. ▸ hm
      rw [← htokens, ← hcursor]
      rfl

/-- Each question takes some tokens, the next ones of the stream. -/
theorem act_after (s : String) (n : Nat) (a : Action) : ∃ m,
    (((ofText s).after n).act a).1.found = (List.range' n m).map (stream s) ∧
      (((ofText s).after n).act a).2 = (ofText s).after (n + m) := by
  cases a with
  | next =>
    refine ⟨1, ?_, ?_⟩
    · rw [List.range'_one, List.map_singleton, ← next_after]
      rfl
    · rw [← after_after]
      rfl
  | drain =>
    obtain ⟨m, hm⟩ := drain_after s n
    refine ⟨m, ?_, ?_⟩
    · rw [act, hm]
      rfl
    · rw [act, hm]
  | peek => exact ⟨0, rfl, rfl⟩

theorem run_after (s : String) (n : Nat) (as : List Action) : ∃ m,
    ((ofText s).after n).run as = ((List.range' n m).map (stream s), (ofText s).after (n + m)) := by
  induction as generalizing n with
  | nil => exact ⟨0, rfl⟩
  | cons a as ih =>
    obtain ⟨k, hfound, hcursor⟩ := act_after s n a
    obtain ⟨m, hm⟩ := ih (n + k)
    refine ⟨k + m, ?_⟩
    rw [run, hcursor, hm, hfound, ← List.map_append, List.range'_append_1, Nat.add_assoc]

/-! ## The end -/

theorem next_of_nil {c : Cursor} (h : c.rest = []) : c.next = (endOfInput c.position, c) := by
  obtain ⟨rest, index, position⟩ := c
  cases h
  rfl

theorem act_of_end {c : Cursor} (h : c.rest = []) (a : Action) :
    (∀ t ∈ (c.act a).1.found, t = endOfInput c.position) ∧ (c.act a).2 = c := by
  have hnext := next_of_nil h
  have hk : c.next.1.kind = .eof := by rw [hnext]; rfl
  cases a with
  | next => simp [act, Answer.found, hnext]
  | drain =>
    have hdrain : c.drain = ([endOfInput c.position], c) := by
      rw [drain, remaining, dif_pos hk, hnext]
      rfl
    simp [act, Answer.found, hdrain]
  | peek => simp [act, Answer.found]

theorem run_of_end {c : Cursor} (h : c.rest = []) (as : List Action) :
    (∀ t ∈ (c.run as).1, t = endOfInput c.position) ∧ (c.run as).2 = c := by
  induction as with
  | nil => simp [run]
  | cons a as ih =>
    obtain ⟨hfound, hcursor⟩ := act_of_end h a
    rw [run, hcursor]
    refine ⟨?_, ih.2⟩
    intro t ht
    exact (List.mem_append.mp ht).elim (hfound t) (ih.1 t)

end Cursor

/-! ## Runs -/

/-- A cursor at the start of a text was asked any things, in any order, also past the end. It stands
somewhere in the part of the text before the first NUL, and knows how many characters and bytes it
read and which characters come next. To look ahead moves nothing. A token other than the end of input
moves it on; the end of input is found at the end and moves it no more. All tokens that are left come
within as many steps as there are characters, and one more. What it answered with are the tokens of
the text in order, and then the end of input again and again. -/
theorem cursor_run (s : String) (as : List Cursor.Action) :
    ∃ n c, (Cursor.ofText s).run as = (firstTokens s n, c) ∧
      c.length = s.toList.findIdx (· == '\x00') ∧ c.index ≤ c.length ∧
      c.position = Utf8.length (s.toList.take c.index) ∧
      (c.index < c.length → s.toList[c.index]? = some c.current) ∧
      (c.current = '\x00' ↔ c.index = c.length) ∧
      c.act .peek = (.char ((visible s).getD (c.index + 1) '\x00'), c) ∧
      c.next.1 = stream s n ∧
      (c.next.1.kind ≠ .eof → c.index < c.next.2.index) ∧
      (c.next.1.kind = .eof → c.next.2.index = c.length ∧ c.next.1.pos = c.next.2.position ∧
        ∀ bs, (∀ t ∈ (c.next.2.run bs).1, t = c.next.1) ∧ (c.next.2.run bs).2 = c.next.2) ∧
      c.drain.1.length ≤ c.length + 1 := by
  obtain ⟨n, hrun⟩ := Cursor.run_after s 0 as
  rw [Nat.zero_add] at hrun
  generalize hc : (Cursor.ofText s).after n = c at hrun
  have hon : c.On s := hc ▸ (Cursor.On.ofText s).after n
  have hlength := hon.length_eq
  refine ⟨n, c, ?_, ?_, ?_, ?_, ?_, hon.current_eq_endMark_iff, ?_, ?_, Cursor.index_lt_next, ?_, ?_⟩
  · rw [firstTokens, List.range_eq_range']
    exact hrun
  · rw [hlength, length_visible]
  · rw [hlength]
    exact hon.index_le
  · rw [hon.position_eq, take_visible hon.index_le]
  · intro hi
    rw [hlength] at hi
    rw [hon.current_eq, ← getElem?_visible hi, List.getElem?_eq_getElem hi]
    simp [hi]
  · rw [Cursor.act, hon.peek_eq]
    rfl
  · rw [← hc, Cursor.next_after]
  · intro hk
    obtain ⟨htoken, hrest⟩ := Cursor.next_of_eof hk
    have hend : c.next.2.index = c.next.2.length := by rw [Cursor.length, hrest]; rfl
    refine ⟨hend.trans (c.length_after 1), by rw [htoken]; rfl, ?_⟩
    intro bs
    rw [htoken]
    exact Cursor.run_of_end hrest bs
  · have hle := c.length_remaining_le
    rw [Cursor.drain, List.length_append, List.length_singleton, Cursor.length]
    omega

end Criteria
