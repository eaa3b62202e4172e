import Mathlib
import Criteria.Proofs.Token.Cursor
import Criteria.Token.Scanner

/-!
# Criteria.Proofs.Token.Scanner

A scanner moves like a cursor, one code point at a time.

* `Scanner.Sound`: the states that a scanner can be in. `Scanner.cursor` is the cursor at the same
  place, on the text with a stand-in for each surrogate.
* `Scanner.Reads`: from one scanner to another over some characters.
* `Scanner.readWhile_spec`: a stretch is read to its end, or up to a surrogate in it.
* `Scanner.nextToken_spec`: the token is the one that the cursor takes, and the scanner goes on from
  where the cursor does, unless there is a surrogate on the way.
-/

namespace Criteria

open Text

namespace Text

@[simp] theorem shown_char (c : Char) : (Point.char c).shown = c := rfl

@[simp] theorem isAny_char (p : Char → Bool) (c : Char) : (Point.char c).isAny p = p c := rfl

/-- Only the stand-in can be shown in place of something else. -/
theorem eq_char_of_shown {p : Point} {c : Char} (h : p.shown = c) (hc : c ≠ '\uFFFD') :
    p = .char c := by
  cases p with
  | char d => rw [← h]; rfl
  | surrogate n => exact absurd h.symm hc

@[simp] theorem shownText_char (cs : List Char) :
    shownText (cs.map .char) = String.ofList cs := by
  simp [shownText, Function.comp_def]

@[simp] theorem shownText_points (s : String) : shownText (points s) = s := by
  rw [points, shownText_char, String.ofList_toList]

end Text

/-- Reading one character. -/
def Cursor.step (c : Cursor) : Cursor :=
  match c.rest with
  | [] => c
  | x :: xs => { rest := xs, index := c.index + 1, position := c.position + x.utf8Size }

/-- To advance is to step so many times. -/
theorem Cursor.advance_eq_iterate (c : Cursor) (n : Nat) : c.advance n = step^[n] c := by
  induction n generalizing c with
  | zero => rfl
  | succ n ih =>
    rw [Function.iterate_succ_apply, ← ih]
    obtain ⟨rest, index, position⟩ := c
    cases rest with
    | nil => simp [step, advance]
    | cons x xs =>
      simp only [step, advance, List.drop_succ_cons, List.take_succ_cons, List.length_cons,
        Cursor.mk.injEq, true_and]
      refine ⟨by omega, ?_⟩
      simp [Utf8.length, Nat.add_assoc]

theorem Cursor.advance_advance (c : Cursor) (m n : Nat) :
    (c.advance m).advance n = c.advance (m + n) := by
  rw [advance_eq_iterate, advance_eq_iterate, advance_eq_iterate, Nat.add_comm,
    Function.iterate_add_apply]

namespace Scanner

/-! ## What a scanner does, step by step -/

section

variable {α β : Type} {x : Scan α} {f : α → Scan β} {s s' : Scanner}

theorem bind_ok {a : α} (h : x s = .ok a s') : (x >>= f) s = f a s' := by
  simp [bind, EStateM.bind, h]

theorem bind_error {e : EncodeError} (h : x s = .error e s') : (x >>= f) s = .error e s' := by
  simp [bind, EStateM.bind, h]

end

/-! ## Places -/

/-- The states that a scanner of a text is in. -/
structure Sound (s : Scanner) : Prop where
  length_le : s.length ≤ s.text.size
  index_le : s.index ≤ s.length
  ch_eq : s.ch = s.charAt s.index
  unmarked : ∀ p ∈ s.text.toList.take s.length, p ≠ endMark

/-- The code points still unread. -/
def rest (s : Scanner) : List Point :=
  (s.text.toList.take s.length).drop s.index

/-- The cursor at the same place. -/
def cursor (s : Scanner) : Cursor :=
  ⟨s.rest.map Point.shown, s.index, s.position⟩

/-- The scanner `s'` has read the characters `cs` from where `s` is. -/
structure Reads (s : Scanner) (cs : List Char) (s' : Scanner) : Prop where
  sound : s'.Sound
  text : s'.text = s.text
  length : s'.length = s.length
  index : s'.index = s.index + cs.length
  position : s'.position = s.position + Utf8.length cs
  rest : s.rest = cs.map .char ++ s'.rest

theorem charAt_eq (s : Scanner) (i : Nat) :
    s.charAt i = ((s.text.toList.take s.length).drop i).headD endMark := by
  rw [List.headD_eq_head?_getD, List.head?_drop, charAt]
  split
  · rename_i hi
    rw [List.getElem?_take_of_lt hi, Array.getElem?_toList, Array.getD_eq_getD_getElem?]
  · rename_i hi
    rw [List.getElem?_eq_none (by rw [List.length_take]; omega)]
    rfl

theorem peekChar_eq (s : Scanner) : s.peekChar = (s.rest.drop 1).headD endMark := by
  rw [peekChar, charAt_eq, rest, List.drop_drop]

namespace Sound

variable {s : Scanner}

theorem ofPoints (ps : List Point) : (ofPoints ps).Sound where
  length_le := List.findIdx_le_length
  index_le := Nat.zero_le _
  ch_eq := rfl
  unmarked := by
    intro p hp he
    obtain ⟨i, hi, rfl⟩ := List.mem_take_iff_getElem.mp hp
    have hlt : i < ps.findIdx (· == endMark) := (Nat.lt_min.mp hi).1
    have hnot := List.not_of_lt_findIdx hlt
    rw [beq_eq_false_iff_ne] at hnot
    exact hnot he

theorem ch_eq_headD (h : s.Sound) : s.ch = s.rest.headD endMark := by
  rw [h.ch_eq, charAt_eq, Scanner.rest]

theorem length_rest (h : s.Sound) : s.rest.length = s.length - s.index := by
  rw [Scanner.rest, List.length_drop, List.length_take, Array.length_toList,
    Nat.min_eq_left h.length_le]

theorem mem_rest (h : s.Sound) {p : Point} (hp : p ∈ s.rest) : p ≠ endMark :=
  h.unmarked p (List.mem_of_mem_drop hp)

/-- The end mark is seen at the end, and nowhere else. -/
theorem rest_eq_nil (h : s.Sound) (hc : s.ch = endMark) : s.rest = [] := by
  cases hr : s.rest with
  | nil => rfl
  | cons p ps =>
    have hch := h.ch_eq_headD
    rw [hr, hc] at hch
    exact absurd hch.symm (h.mem_rest (by simp [hr]))

theorem rest_eq_cons (h : s.Sound) (hc : s.ch ≠ endMark) : ∃ ps, s.rest = s.ch :: ps := by
  have hch := h.ch_eq_headD
  cases hr : s.rest with
  | nil => rw [hr] at hch; exact absurd hch hc
  | cons p ps =>
    rw [hr] at hch
    exact ⟨ps, by rw [hch]; rfl⟩

end Sound

namespace Reads

variable {s s' s'' : Scanner} {cs ds : List Char}

theorem refl (h : s.Sound) : Reads s [] s := ⟨h, rfl, rfl, rfl, rfl, rfl⟩

theorem trans (h : Reads s cs s') (h' : Reads s' ds s'') : Reads s (cs ++ ds) s'' where
  sound := h'.sound
  text := h'.text.trans h.text
  length := h'.length.trans h.length
  index := by rw [h'.index, h.index, List.length_append, Nat.add_assoc]
  position := by rw [h'.position, h.position, Utf8.length_append, Nat.add_assoc]
  rest := by rw [h.rest, h'.rest, List.map_append, List.append_assoc]

/-- The cursor has advanced over the same characters. -/
theorem cursor (h : Reads s cs s') : s'.cursor = s.cursor.advance cs.length := by
  have hshown : s.rest.map Point.shown = cs ++ s'.rest.map Point.shown := by
    rw [h.rest]
    simp [Function.comp_def]
  simp [Scanner.cursor, Cursor.advance, hshown, h.index, h.position]

/-- The text that was read. -/
theorem slice (h : Reads s cs s') : s'.slice s.index s'.index = String.ofList cs := by
  have hle := h.sound.index_le
  have htake : (s'.text.extract s.index s'.index).toList = cs.map .char := by
    have hrest := congrArg (List.take cs.length) h.rest
    rw [Scanner.rest, List.take_left' (by simp), List.take_drop, List.take_take] at hrest
    rw [h.index, h.length] at hle
    rw [Nat.min_eq_left hle, ← h.text] at hrest
    rw [Array.toList_extract, List.extract_eq_take_drop, h.index, Nat.add_sub_cancel_left,
      ← hrest, List.take_drop]
  rw [Scanner.slice, htake, shownText_char]

end Reads

/-! ## One code point -/

theorem readChar_spec {s : Scanner} (h : s.Sound) {c : Char} (hc : s.ch = .char c)
    (hne : s.ch ≠ endMark) : ∃ s', readChar s = .ok () s' ∧ Reads s [c] s' := by
  obtain ⟨ps, hrest⟩ := h.rest_eq_cons hne
  have hlen := h.length_rest
  rw [hrest, List.length_cons] at hlen
  have hlt : s.index < s.length := by omega
  have hmark : c ≠ Cursor.endMark := fun he => hne (by rw [hc, he]; rfl)
  have hps : ps = (s.text.toList.take s.length).drop (s.index + 1) := by
    rw [← List.drop_drop, ← Scanner.rest, hrest]
    rfl
  refine ⟨s.past c, readChar_char hc, ?_⟩
  simp only [past, if_pos hlt, if_neg hmark]
  refine ⟨⟨h.length_le, hlt, rfl, h.unmarked⟩, rfl, rfl, rfl, ?_, ?_⟩
  · simp [Utf8.length]
  · rw [hrest, hc, hps]
    rfl

/-- At the end nothing is read. -/
theorem readChar_end {s : Scanner} (h : s.Sound) (hc : s.ch = endMark) : readChar s = .ok () s := by
  have hrest := h.length_rest
  rw [h.rest_eq_nil hc, List.length_nil] at hrest
  have hlt : ¬s.index < s.length := by omega
  rw [readChar_char hc, past, if_neg hlt, if_pos rfl, ← h.ch_eq]

/-- The cursor steps whenever a character is read. -/
theorem readChar_step {s : Scanner} (h : s.Sound) (hc : s.ch.isSurrogate = false) :
    ∃ s', readChar s = .ok () s' ∧ s'.Sound ∧ s'.cursor = s.cursor.step := by
  by_cases hne : s.ch = endMark
  · refine ⟨s, readChar_end h hne, h, ?_⟩
    simp [Scanner.cursor, Cursor.step, h.rest_eq_nil hne]
  · cases hp : s.ch with
    | surrogate n => rw [hp] at hc; cases hc
    | char c =>
      obtain ⟨s', hread, hreads⟩ := readChar_spec h hp hne
      exact ⟨s', hread, hreads.sound, hreads.cursor.trans (Cursor.advance_eq_iterate _ 1)⟩

/-! ## Stretches -/

/-- A stretch is read to its end, or up to a surrogate in it. The induction is on the code points
left, as the loop's own recursion is. -/
theorem readWhile_spec (k : Stretch) {s : Scanner} (h : s.Sound) :
    ∃ cs s', Reads s cs s' ∧ (∀ c ∈ cs, k.holds (.char c)) ∧
      ((readWhile k s = .ok () s' ∧ k.holds s'.ch = false) ∨
        ∃ n, readWhile k s = .error ⟨n⟩ s' ∧ s'.ch = .surrogate n ∧ k.holds (.surrogate n)) := by
  induction hd : s.rest.length using Nat.strongRecOn generalizing s with
  | ind d ih =>
    by_cases hk : k.holds s.ch
    · have hne : s.ch ≠ endMark := by
        intro he
        rw [he, k.ends] at hk
        cases hk
      cases hp : s.ch with
      | surrogate n =>
        refine ⟨[], s, .refl h, by simp, .inr ⟨n, ?_, hp, hp ▸ hk⟩⟩
        rw [readWhile, dif_pos hk]
        split
        · rename_i hread
          rw [readChar_surrogate hp] at hread
          cases hread
        · rename_i hread
          rw [readChar_surrogate hp] at hread
          cases hread
          rfl
      | char c =>
        obtain ⟨s₁, hread, hreads⟩ := readChar_spec h hp hne
        have hshort : s₁.rest.length < d := by
          have hlength := congrArg List.length hreads.rest
          rw [List.length_append, List.length_map, List.length_singleton] at hlength
          omega
        obtain ⟨cs, s', hreads', hcs, hend⟩ := ih _ hshort hreads.sound rfl
        have hloop : readWhile k s = readWhile k s₁ := by
          rw [readWhile, dif_pos hk]
          split
          · rename_i hread'
            rw [hread] at hread'
            cases hread'
            rfl
          · rename_i hread'
            rw [hread] at hread'
            cases hread'
        refine ⟨c :: cs, s', hreads.trans hreads', ?_, ?_⟩
        · exact List.forall_mem_cons.mpr ⟨hp ▸ hk, hcs⟩
        · rw [hloop]
          exact hend
    · have hloop : readWhile k s = .ok () s := by
        rw [readWhile, dif_neg hk]
      exact ⟨[], s, .refl h, by simp, .inl ⟨hloop, by simpa using hk⟩⟩

/-! ## Tokens -/

/-- What a scanner reads over in some characters is what a cursor finds there. -/
theorem Reads.takeWhile {s s' : Scanner} {cs : List Char} {p : Char → Bool} (h : Reads s cs s')
    (hcs : ∀ c ∈ cs, p c) (hend : s'.rest = [] ∨ p s'.ch.shown = false) :
    s.cursor.rest.takeWhile p = cs ∧ s.cursor.rest.dropWhile p = s'.cursor.rest := by
  have hrest : s.cursor.rest = cs ++ s'.cursor.rest := by
    simp [Scanner.cursor, h.rest, Function.comp_def]
  have hhead : ∀ c ∈ s'.cursor.rest.head?, p c = false := by
    intro c hc
    have hch := h.sound.ch_eq_headD
    cases hr : s'.rest with
    | nil => simp [Scanner.cursor, hr] at hc
    | cons q qs =>
      simp only [Scanner.cursor, hr, List.map_cons, List.head?_cons, Option.mem_some_iff] at hc
      rw [hr] at hch
      rcases hend with hend | hend
      · rw [hr] at hend; cases hend
      · rw [← hc, ← hend, hch]
        rfl
  rw [hrest]
  exact span_append hcs hhead

/-- A class of characters is read to its end: no surrogate is one of them. -/
theorem readWhile_class {k : Stretch} {p : Char → Bool} (hk : k.holds = Point.isAny p)
    (hp : p '\uFFFD' = false) {s : Scanner} (h : s.Sound) :
    ∃ s', readWhile k s = .ok () s' ∧ Reads s (s.cursor.rest.takeWhile p) s' ∧
      s'.cursor.rest = s.cursor.rest.dropWhile p ∧ s'.ch.isAny p = false := by
  obtain ⟨cs, s', hreads, hcs, ⟨hread, hend⟩ | ⟨n, -, -, hn⟩⟩ := readWhile_spec k h
  · rw [hk] at hcs hend
    have hshown : p s'.ch.shown = false := by
      cases hc : s'.ch with
      | char c => rw [hc] at hend; exact hend
      | surrogate n => exact hp
    obtain ⟨htake, hdrop⟩ := hreads.takeWhile hcs (.inr hshown)
    exact ⟨s', hread, htake ▸ hreads, hdrop.symm, hend⟩
  · rw [hk] at hn
    cases hn

theorem taken_ok {read : Scan Unit} {s s' : Scanner} {cs : List Char} (h : read s = .ok () s')
    (hr : Reads s cs s') : taken read s = .ok (String.ofList cs) s' := by
  rw [taken, get_bind, bind_ok h, get_bind, get_bind, pure_apply, hr.slice]

/-- From `s` a reading takes the token `t` and stops at the cursor `c`, or it stops in front of a
surrogate on the way. -/
def Finds (read : Scan Token) (s : Scanner) (t : Token) (c : Cursor) : Prop :=
  ∃ cs s', Reads s cs s' ∧
    (read s = .ok t s' ∧ s'.cursor = c ∨ ∃ n, read s = .error ⟨n⟩ s' ∧ s'.ch = .surrogate n)

theorem closing_ok {s : Scanner} (h : s.Sound) (hc : s.ch.isSurrogate = false) (t : Token) :
    Finds (closing t) s t (s.cursor.advance 1) := by
  by_cases hne : s.ch = endMark
  · refine ⟨[], s, .refl h, .inl ⟨bind_ok (readChar_end h hne), ?_⟩⟩
    simp [Scanner.cursor, Cursor.advance, h.rest_eq_nil hne]
  · cases hp : s.ch with
    | surrogate n => rw [hp] at hc; cases hc
    | char c =>
      obtain ⟨s', hread, hreads⟩ := readChar_spec h hp hne
      exact ⟨[c], s', hreads, .inl ⟨bind_ok hread, hreads.cursor⟩⟩

theorem closing_surrogate {s : Scanner} {n : Fin 0x800} (hc : s.ch = .surrogate n) (t : Token) :
    closing t s = .error ⟨n⟩ s :=
  bind_error (readChar_surrogate hc)

theorem readNumber_spec {s : Scanner} (h : s.Sound) :
    ∃ s', readNumber s = .ok (String.ofList (s.cursor.rest.takeWhile isDigit)) s' ∧
      Reads s (s.cursor.rest.takeWhile isDigit) s' ∧
      s'.cursor.rest = s.cursor.rest.dropWhile isDigit := by
  obtain ⟨s', hread, hreads, hrest, -⟩ := readWhile_class (k := .digits) rfl (by decide) h
  exact ⟨s', taken_ok hread hreads, hreads, hrest⟩

section Lexemes

variable {s : Scanner} {c : Char}

/-- What the cursor has before it where the scanner sees a character. -/
theorem rest_cursor (h : s.Sound) (hc : s.ch = .char c) (hne : s.ch ≠ endMark) :
    s.cursor.rest = c :: (s.rest.drop 1).map Point.shown := by
  obtain ⟨ps, hrest⟩ := h.rest_eq_cons hne
  simp [Scanner.cursor, hrest, hc]

theorem readWord_spec (h : s.Sound) (hc : s.ch = .char c) (hne : s.ch ≠ endMark) :
    ∃ s', readWord s =
        .ok (String.ofList (c :: s.cursor.rest.tail.takeWhile isWordChar)) s' ∧
      Reads s (c :: s.cursor.rest.tail.takeWhile isWordChar) s' := by
  obtain ⟨s₁, hread₁, hreads₁⟩ := readChar_spec h hc hne
  obtain ⟨s₂, hread₂, hreads₂, -, -⟩ :=
    readWhile_class (k := .word) rfl (by decide +kernel) hreads₁.sound
  have hrest : s₁.cursor.rest = s.cursor.rest.tail := by
    rw [hreads₁.cursor]
    simp [Cursor.advance]
  rw [hrest] at hreads₂
  have hreads := hreads₁.trans hreads₂
  exact ⟨s₂, taken_ok ((bind_ok hread₁).trans hread₂) hreads, hreads⟩

/-- A string is read up to its closing quote or to the end, or up to a surrogate in it. -/
theorem readString_spec (h : s.Sound) (hc : s.ch = .char '"') :
    ∃ cs s', Reads s ('"' :: cs) s' ∧
      (readString s = .ok (String.ofList cs) s' ∧ cs = s.cursor.rest.tail.takeWhile (· != '"') ∧
          s'.ch.isSurrogate = false ∨
        ∃ n, readString s = .error ⟨n⟩ s' ∧ s'.ch = .surrogate n) := by
  have hne : s.ch ≠ endMark := by rw [hc]; decide
  obtain ⟨s₁, hread₁, hreads₁⟩ := readChar_spec h hc hne
  obtain ⟨cs, s₂, hreads₂, hcs, hend⟩ := readWhile_spec .string hreads₁.sound
  have hrest : s₁.cursor.rest = s.cursor.rest.tail := by
    rw [hreads₁.cursor]
    simp [Cursor.advance]
  refine ⟨cs, s₂, hreads₁.trans hreads₂, ?_⟩
  rcases hend with ⟨hread₂, hstop⟩ | ⟨n, hread₂, hn, -⟩
  · have hquote : s₂.ch = .char '"' ∨ s₂.ch = endMark := by
      simpa [Stretch.string, Decidable.or_iff_not_imp_left] using hstop
    have hcs' : ∀ c ∈ cs, c != '"' := by
      intro c hc
      have := hcs c hc
      simp only [Stretch.string, Bool.and_eq_true, bne_iff_ne, ne_eq, Point.char.injEq] at this ⊢
      exact this.1
    have htake : s₁.cursor.rest.takeWhile (· != '"') = cs := by
      refine (hreads₂.takeWhile hcs' ?_).1
      rcases hquote with hq | he
      · exact .inr (by rw [hq]; rfl)
      · exact .inl (hreads₂.sound.rest_eq_nil he)
    refine .inl ⟨?_, by rw [← hrest, htake], ?_⟩
    · have hindex : s₁.index = s.index + 1 := hreads₁.index
      rw [readString, get_bind, bind_ok hread₁, bind_ok hread₂, get_bind, get_bind, pure_apply,
        ← hindex, hreads₂.slice]
    · rcases hquote with hq | he
      · rw [hq]; rfl
      · rw [he]; rfl
  · refine .inr ⟨n, ?_, hn⟩
    rw [readString, get_bind, bind_ok hread₁, bind_error hread₂]

/-- A string and its closing quote, if it has one. -/
theorem string_spec (h : s.Sound) (hc : s.ch = .char '"') (start : Nat) {l : Lexeme}
    (hl : Lexeme.string s.cursor.rest.tail = l) :
    Finds (do
        let body ← readString
        closing ⟨.str, body, start⟩)
      s ⟨l.kind, String.ofList l.literal, start⟩ (s.cursor.advance l.size) := by
  subst hl
  obtain ⟨cs, s₁, hreads₁, ⟨hread₁, rfl, hs₁⟩ | ⟨n, hread₁, hn⟩⟩ := readString_spec h hc
  · obtain ⟨ds, s₂, hreads₂, hclose⟩ := closing_ok hreads₁.sound hs₁
      ⟨.str, String.ofList (s.cursor.rest.tail.takeWhile (· != '"')), start⟩
    rw [hreads₁.cursor, Cursor.advance_advance] at hclose
    refine ⟨_, s₂, hreads₁.trans hreads₂, ?_⟩
    rw [bind_ok hread₁]
    exact hclose
  · exact ⟨_, s₁, hreads₁, .inr ⟨n, bind_error hread₁, hn⟩⟩

theorem ofWord_eq (w : List Char) (start : Nat) :
    Token.ofWord (String.ofList w) start =
      ⟨(Lexeme.word w).kind, String.ofList (Lexeme.word w).literal, start⟩ := by
  rw [Token.ofWord, Lexeme.word]
  cases Keyword.ofWord? (String.ofList w) with
  | some k => rfl
  | none => rfl

/-- The test for a fraction looks at two code points. -/
theorem point_iff (h : s.Sound) : (s.ch = .char '.' ∧ s.peekChar.isAny isDigit) ↔
    ∃ d ds, isDigit d ∧ s.cursor.rest = '.' :: d :: ds := by
  constructor
  · rintro ⟨hch, hpeek⟩
    obtain ⟨ps, hrest⟩ := h.rest_eq_cons (by rw [hch]; decide)
    rw [peekChar_eq, hrest] at hpeek
    rw [hch] at hrest
    rcases ps with _ | ⟨p, ps⟩
    · cases hpeek
    · cases p with
      | surrogate n => cases hpeek
      | char d => exact ⟨d, ps.map Point.shown, hpeek, by simp [Scanner.cursor, hrest]⟩
  · rintro ⟨d, ds, hd, hrest⟩
    obtain ⟨p, ps, hp, hpoint, hps⟩ := List.map_eq_cons_iff.mp hrest
    obtain ⟨q, qs, rfl, hdigit, -⟩ := List.map_eq_cons_iff.mp hps
    have hne : d ≠ '\uFFFD' := by
      rintro rfl
      revert hd
      decide
    rw [h.ch_eq_headD, peekChar_eq, hp, eq_char_of_shown hpoint (by decide),
      eq_char_of_shown hdigit hne]
    exact ⟨rfl, hd⟩

/-- A number and a fraction, if a digit follows the point. -/
theorem readNumeral_spec (h : s.Sound) (start : Nat) {l : Lexeme}
    (hl : Lexeme.number (s.cursor.rest.takeWhile isDigit) (s.cursor.rest.dropWhile isDigit) = l) :
    Finds (readNumeral start) s ⟨l.kind, String.ofList l.literal, start⟩
      (s.cursor.advance l.size) := by
  obtain ⟨s₁, hread₁, hreads₁, hrest₁⟩ := readNumber_spec h
  rw [← hrest₁] at hl
  by_cases hpoint : s₁.ch = .char '.' ∧ s₁.peekChar.isAny isDigit
  · obtain ⟨d, ds, hd, hs₁⟩ := (point_iff hreads₁.sound).mp hpoint
    rw [hs₁, Lexeme.number_float _ _ hd] at hl
    subst hl
    obtain ⟨s₂, hread₂, hreads₂⟩ :=
      readChar_spec hreads₁.sound hpoint.1 (by rw [hpoint.1]; decide)
    obtain ⟨s₃, hread₃, hreads₃, -⟩ := readNumber_spec hreads₂.sound
    have hpart : s₂.cursor.rest.takeWhile isDigit = d :: ds.takeWhile isDigit := by
      rw [hreads₂.cursor, Cursor.advance, hs₁]
      exact List.takeWhile_cons_of_pos hd
    rw [hpart] at hread₃ hreads₃
    have hreads := hreads₁.trans (hreads₂.trans hreads₃)
    refine ⟨_, s₃, hreads, .inl ⟨?_, hreads.cursor⟩⟩
    rw [readNumeral, bind_ok hread₁, get_bind, get_bind, if_pos hpoint, bind_ok hread₂,
      bind_ok hread₃, pure_apply, String.append_assoc]
    simp only [String.ofList_append, String.ofList_cons (c := '.')]
    rfl
  · have hafter : ∀ d ds, s₁.cursor.rest = '.' :: d :: ds → isDigit d = false := by
      intro d ds hs₁
      by_contra hd
      rw [Bool.not_eq_false] at hd
      exact hpoint ((point_iff hreads₁.sound).mpr ⟨d, ds, hd, hs₁⟩)
    rw [Lexeme.number_int _ hafter] at hl
    subst hl
    refine ⟨_, s₁, hreads₁, .inl ⟨?_, hreads₁.cursor⟩⟩
    rw [readNumeral, bind_ok hread₁, get_bind, get_bind, if_neg hpoint, pure_apply]

/-- The end is taken again and again. -/
theorem scanToken_end (h : s.Sound) (hc : s.ch = endMark) :
    Finds scanToken s ⟨.eof, "", s.position⟩ s.cursor := by
  have hclosing : scanToken s = closing ⟨.eof, "", s.position⟩ s := by
    rw [scanToken, get_bind, get_bind, hc]
    rfl
  refine ⟨[], s, .refl h, .inl ⟨?_, rfl⟩⟩
  rw [hclosing]
  exact bind_ok (readChar_end h hc)

/-- A scanner takes the lexeme that is at the front of the text. -/
theorem scanToken_spec (h : s.Sound) {l : Lexeme} (hl : Lexeme.scan s.cursor.rest = l) :
    Finds scanToken s ⟨l.kind, String.ofList l.literal, s.position⟩
      (s.cursor.advance l.size) := by
  by_cases hend : s.ch = endMark
  · have hnil : s.cursor.rest = [] := by simp [Scanner.cursor, h.rest_eq_nil hend]
    have htoken := scanToken_end h hend
    rw [hnil] at hl
    subst hl
    rw [Cursor.advance_eq_iterate]
    exact htoken
  cases hp : s.ch with
  | surrogate n =>
    refine ⟨[], s, .refl h, .inr ⟨n, ?_, hp⟩⟩
    rw [scanToken, get_bind, get_bind, hp]
    exact closing_surrogate hp _
  | char c =>
    have hsurrogate : s.ch.isSurrogate = false := by rw [hp]; rfl
    have hmark : c ≠ Cursor.endMark := by
      rintro rfl
      exact hend hp
    have hcons := rest_cursor h hp hend
    generalize htail : (s.rest.drop 1).map Point.shown = tail at hcons
    rw [hcons, Lexeme.scan] at hl
    simp only [Finds, scanToken, get_bind, hp]
    -- the scanner asks the questions of `Lexeme.scan`, in the same order
    cases hpun : Lexeme.punctuation? c with
    | some kind =>
      rw [hpun] at hl
      subst hl
      exact closing_ok h hsurrogate _
    | none =>
      rw [hpun] at hl
      simp only [beq_iff_eq] at hl
      by_cases hquote : c = '"'
      · rw [if_pos hquote] at hl
        subst hl
        simp only [if_pos hquote]
        have hstring := string_spec h (hquote ▸ hp) s.position rfl
        rwa [hcons] at hstring
      rw [if_neg hquote] at hl
      simp only [if_neg hquote, if_neg hmark]
      by_cases hletter : isLetter c
      · rw [if_pos hletter] at hl
        subst hl
        simp only [if_pos hletter]
        obtain ⟨s', hread, hreads⟩ := readWord_spec h hp hend
        rw [hcons, List.tail_cons] at hread hreads
        refine ⟨_, s', hreads, .inl ⟨?_, ?_⟩⟩
        · rw [bind_ok hread, pure_apply, ofWord_eq]
        · rw [hreads.cursor, Lexeme.word_size]
      rw [if_neg hletter] at hl
      simp only [if_neg hletter]
      by_cases hdigit : isDigit c
      · rw [if_pos hdigit] at hl
        subst hl
        simp only [if_pos hdigit]
        refine readNumeral_spec h s.position ?_
        rw [hcons, List.takeWhile_cons_of_pos hdigit, List.dropWhile_cons_of_pos hdigit]
      rw [if_neg hdigit] at hl
      subst hl
      simp only [if_neg hdigit]
      exact closing_ok h hsurrogate _

/-- A scanner takes the token that a cursor takes, and goes on from the same place. -/
theorem nextToken_spec (h : s.Sound) : Finds nextToken s s.cursor.next.1 s.cursor.next.2 := by
  obtain ⟨s₁, hread, hreads, -, -⟩ := readWhile_class (k := .blanks) rfl (by decide) h
  obtain ⟨cs, s₂, hreads', hscan⟩ := scanToken_spec hreads.sound rfl
  have hskip : s₁.cursor = s.cursor.skipBlanks := hreads.cursor
  have hposition : s₁.position = s.cursor.skipBlanks.position := by rw [← hskip]; rfl
  refine ⟨_, s₂, hreads.trans hreads', ?_⟩
  rw [hskip, hposition] at hscan
  rw [nextToken, bind_ok hread]
  exact hscan

/-- A scanner in front of a surrogate stays there. -/
theorem nextToken_surrogate {n : Fin 0x800} (hc : s.ch = .surrogate n) :
    nextToken s = .error ⟨n⟩ s := by
  have hblank : readWhile .blanks s = .ok () s := by
    rw [readWhile, dif_neg (by rw [hc]; exact Bool.false_ne_true)]
  rw [nextToken, bind_ok hblank, scanToken, get_bind, get_bind, hc]
  exact closing_surrogate hc _

/-- What stops a scanner stands in the text before the end mark. -/
theorem surrogate_mem (h : s.Sound) {n : Fin 0x800} (hc : s.ch = .surrogate n) :
    .surrogate n ∈ s.rest := by
  have hne : s.ch ≠ endMark := by rw [hc]; simp [endMark]
  obtain ⟨ps, hrest⟩ := h.rest_eq_cons hne
  simp [hrest, hc]

end Lexemes

/-! ## Texts -/

/-- The code points of a text that are read. -/
theorem rest_ofPoints (ps : List Point) : (ofPoints ps).rest = ps.takeWhile (· != endMark) := by
  have hnot : (fun p => !(p != endMark)) = (· == endMark) := by
    funext p
    rw [bne, Bool.not_not]
  rw [List.takeWhile_eq_take_findIdx_not, hnot]
  rfl

theorem cursor_ofPoints (ps : List Point) :
    (ofPoints ps).cursor = Cursor.ofText (shownText ps) := by
  have hmark : ((· != Cursor.endMark) ∘ Point.shown) = (· != endMark) := by
    funext p
    cases p with
    | char c => rw [Bool.eq_iff_iff]; simp [endMark]
    | surrogate n => rfl
  have hrest : ((ofPoints ps).rest).map Point.shown =
      (shownText ps).toList.takeWhile (· != Cursor.endMark) := by
    rw [rest_ofPoints, shownText, String.toList_ofList, List.takeWhile_map, hmark]
  rw [cursor, hrest]
  rfl

end Scanner
end Criteria
