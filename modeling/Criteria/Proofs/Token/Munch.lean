import Mathlib
import Criteria.Proofs.Token.Lexical

/-!
# Criteria.Proofs.Token.Munch

Tokens and texts as a relation. `Munch n cs ts` says that `cs`, which byte `n` of a text starts,
splits into blanks and the lexemes of `ts`, each as long as can be and at its own position.

* `munch_drain`: what a cursor takes is such a splitting.
* `Munch.drain_eq`: there is no other.
* `munch_iff` and `tokenize_munch`: `tokenize` finds the one splitting of the part of a text before
  its first NUL.
-/

namespace Criteria

open Text

/-- The part of a text that is read. -/
def visible (s : String) : List Char :=
  s.toList.takeWhile (· != '\x00')

def endOfInput (pos : Nat) : Token := ⟨.eof, "", pos⟩

/-- Blanks, a lexeme, blanks, a lexeme, and so on; after the last lexeme blanks and the end. -/
inductive Munch : Nat → List Char → List Token → Prop where
  | done {n : Nat} {blanks : List Char} (hb : ∀ c ∈ blanks, isBlank c) :
      Munch n blanks [endOfInput (n + Utf8.length blanks)]
  | token {n : Nat} {blanks shape rest : List Char} {t : Token} {ts : List Token}
      (hb : ∀ c ∈ blanks, isBlank c) (hl : t.Leads shape rest)
      (hp : t.pos = (n + Utf8.length blanks : Nat))
      (h : Munch (n + Utf8.length blanks + Utf8.length shape) rest ts) :
      Munch n (blanks ++ (shape ++ rest)) (t :: ts)

@[simp] theorem Text.Utf8.length_nil : Utf8.length [] = 0 := rfl

@[simp] theorem Text.Utf8.length_append (xs ys : List Char) :
    Utf8.length (xs ++ ys) = Utf8.length xs + Utf8.length ys := by
  induction xs with
  | nil => simp
  | cons c cs ih =>
    simp only [Utf8.length, List.cons_append, List.foldr_cons] at ih ⊢
    omega

theorem Text.Utf8.length_pos {cs : List Char} (h : cs ≠ []) : 0 < Utf8.length cs := by
  cases cs with
  | nil => exact absurd rfl h
  | cons c cs =>
    have := c.utf8Size_pos
    simp [Utf8.length]
    omega

/-! ## The front of a text -/

namespace Token

theorem Lexical.kind_ne {t : Token} (h : t.Lexical) : t.kind ≠ .eof := by
  intro hk
  rw [Lexical, hk] at h
  exact h

theorem Leads.kind_ne {t : Token} {shape rest : List Char} (h : t.Leads shape rest) :
    t.kind ≠ .eof := by
  cases h with
  | closed ht _ => exact ht.kind_ne
  | unclosed hk _ => rw [hk]; simp

theorem Leads.not_mem {t : Token} {shape rest : List Char} (h : t.Leads shape rest)
    (hk : t.kind = .str) : '"' ∉ t.literal.toList := by
  cases h with
  | closed ht _ => rw [Lexical, hk] at ht; exact ht
  | unclosed _ hq => exact hq

theorem isBlank_of_isWord {w : List Char} (h : isWord w) : ∃ c cs, w = c :: cs ∧ isBlank c = false := by
  cases w with
  | nil => cases h
  | cons c cs =>
    simp only [isWord, Bool.and_eq_true] at h
    exact ⟨c, cs, rfl, isBlank_of_isWordChar (isWordChar_of_isLetter h.1)⟩

theorem isBlank_of_isNumeral {ds : List Char} (h : isNumeral ds) :
    ∃ c cs, ds = c :: cs ∧ isBlank c = false := by
  cases ds with
  | nil => cases h
  | cons c cs =>
    have hd : isDigit c ∧ ∀ d ∈ cs, isDigit d := by simpa [isNumeral] using h
    exact ⟨c, cs, rfl, isBlank_of_isWordChar (isWordChar_of_isDigit hd.1)⟩

/-- No lexeme starts with a blank. -/
theorem Lexical.lexeme_eq_cons {t : Token} (h : t.Lexical) :
    ∃ c cs, t.lexeme = c :: cs ∧ isBlank c = false := by
  rcases t with ⟨kind, literal, pos⟩
  cases kind with
  | illegal =>
    obtain ⟨c, hc, hs⟩ := h
    simp only [isStray, Bool.and_eq_true, Bool.not_eq_true'] at hs
    exact ⟨c, [], by simpa using hc, hs.1.1.1⟩
  | eof => exact h.elim
  | ident => simpa using isBlank_of_isWord h.1
  | int => simpa using isBlank_of_isNumeral h
  | float =>
    obtain ⟨i, f, hlit, hi, -⟩ := h
    obtain ⟨c, cs, rfl, hb⟩ := isBlank_of_isNumeral hi
    exact ⟨c, cs ++ '.' :: f, by simpa using hlit, hb⟩
  | str => exact ⟨'"', literal.toList ++ ['"'], by simp, by decide⟩
  | keyword k => simpa using isBlank_of_isWord (Keyword.isWord_word k)
  | plus => exact ⟨'+', [], by simp, by decide⟩
  | minus => exact ⟨'-', [], by simp, by decide⟩
  | comma => exact ⟨',', [], by simp, by decide⟩
  | lparen => exact ⟨'(', [], by simp, by decide⟩
  | rparen => exact ⟨')', [], by simp, by decide⟩

theorem Leads.shape_eq_cons {t : Token} {shape rest : List Char} (h : t.Leads shape rest) :
    ∃ c cs, shape = c :: cs ∧ isBlank c = false := by
  cases h with
  | closed ht _ => exact ht.lexeme_eq_cons
  | unclosed _ _ => exact ⟨'"', _, rfl, by decide⟩

end Token

/-! ## One step of a cursor -/

namespace Cursor

theorem next_leads {c : Cursor} {blanks shape rest : List Char} {t : Token}
    (hc : c.rest = blanks ++ (shape ++ rest)) (hb : ∀ x ∈ blanks, isBlank x)
    (hl : t.Leads shape rest) (hp : t.pos = (c.position + Utf8.length blanks : Nat)) :
    c.next.1 = t ∧ c.next.2.rest = rest ∧
      c.next.2.position = c.position + Utf8.length blanks + Utf8.length shape := by
  obtain ⟨x, xs, hshape, hx⟩ := hl.shape_eq_cons
  obtain ⟨n, hscan, htake, hdrop⟩ := hl.scan_eq
  have hspan : c.rest.takeWhile isBlank = blanks := by
    rw [hc]
    exact (span_append hb (by rw [hshape]; simpa using hx)).1
  have hrest : c.skipBlanks.rest = shape ++ rest := by
    rw [skipBlanks, hspan, advance, hc, List.drop_left' rfl]
  have hpos : c.skipBlanks.position = c.position + Utf8.length blanks := by
    rw [skipBlanks, hspan, advance, hc, List.take_left' rfl]
  refine ⟨?_, ?_, ?_⟩
  · rw [next, hrest, hscan, hpos, ← hp, String.ofList_toList]
  · rw [next, advance, hrest, hscan, hdrop]
  · rw [next, advance, hrest, hscan, htake, hpos]

theorem next_blank {c : Cursor} (hb : ∀ x ∈ c.rest, isBlank x) :
    c.next.1 = endOfInput (c.position + Utf8.length c.rest) ∧ c.next.2.rest = [] ∧
      c.next.2.position = c.position + Utf8.length c.rest := by
  have hspan : c.rest.takeWhile isBlank = c.rest := by
    have h := (span_append hb (show ∀ x ∈ ([] : List Char).head?, _ by simp)).1
    rwa [List.append_nil] at h
  have hrest : c.skipBlanks.rest = [] := by simp [skipBlanks, hspan, advance]
  have hpos : c.skipBlanks.position = c.position + Utf8.length c.rest := by
    simp [skipBlanks, hspan, advance]
  refine ⟨?_, ?_, ?_⟩
  · rw [next, hrest, hpos]; rfl
  · rw [next, advance, hrest, List.drop_nil]
  · rw [next, advance, hrest, hpos]; simp

/-- A cursor stands before blanks alone, or before blanks and a token. -/
theorem blank_or_leads (c : Cursor) :
    (∀ x ∈ c.rest, isBlank x) ∨
      ∃ (blanks shape rest : List Char) (t : Token),
        c.rest = blanks ++ (shape ++ rest) ∧ (∀ x ∈ blanks, isBlank x) ∧ t.Leads shape rest ∧
          t.pos = (c.position + Utf8.length blanks : Nat) := by
  have hsplit : c.rest = c.rest.takeWhile isBlank ++ c.rest.dropWhile isBlank := by simp
  cases hrest : c.rest.dropWhile isBlank with
  | nil =>
    rw [hrest, List.append_nil] at hsplit
    left
    rw [hsplit]
    exact all_of_takeWhile _ _
  | cons x xs =>
    have hx : isBlank x = false := head?_dropWhile isBlank c.rest x (by rw [hrest]; rfl)
    obtain ⟨t, shape, rest, hsh, hp, hl⟩ :=
      Token.exists_leads xs (c.position + Utf8.length (c.rest.takeWhile isBlank) : Nat) hx
    rw [hrest, hsh] at hsplit
    exact .inr ⟨_, shape, rest, t, hsplit, all_of_takeWhile _ _, hl, hp⟩

theorem drain_of_eof {c : Cursor} (h : c.next.1.kind = .eof) :
    c.drain.1 = [endOfInput c.next.2.position] := by
  rw [drain, remaining, dif_pos h]
  rfl

theorem drain_of_token {c : Cursor} (h : c.next.1.kind ≠ .eof) :
    c.drain.1 = c.next.1 :: c.next.2.drain.1 := by
  rw [drain, remaining, dif_neg h]
  rfl

end Cursor

/-! ## Whole texts -/

theorem munch_drain (c : Cursor) : Munch c.position c.rest c.drain.1 := by
  induction hn : c.rest.length using Nat.strongRecOn generalizing c with
  | ind n ih =>
    rcases c.blank_or_leads with hb | ⟨blanks, shape, rest, t, hc, hb, hl, hp⟩
    · obtain ⟨htok, -, hpos⟩ := Cursor.next_blank hb
      rw [Cursor.drain_of_eof (by rw [htok]; rfl), hpos]
      exact .done hb
    · obtain ⟨htok, hrest, hpos⟩ := Cursor.next_leads hc hb hl hp
      have hne : c.next.1.kind ≠ .eof := by rw [htok]; exact hl.kind_ne
      have htail := ih _ (hn ▸ Cursor.next_shorter hne) c.next.2 rfl
      rw [Cursor.drain_of_token hne, htok, hc]
      rw [hrest, hpos] at htail
      exact .token hb hl hp htail

theorem Munch.drain_eq {n : Nat} {cs : List Char} {ts : List Token} (h : Munch n cs ts) :
    ∀ c : Cursor, c.position = n → c.rest = cs → c.drain.1 = ts := by
  induction h with
  | done hb =>
    intro c hn hc
    subst hn hc
    obtain ⟨htok, -, hpos⟩ := Cursor.next_blank hb
    rw [Cursor.drain_of_eof (by rw [htok]; rfl), hpos]
  | token hb hl hp _ ih =>
    intro c hn hc
    subst hn
    obtain ⟨htok, hrest, hpos⟩ := Cursor.next_leads hc hb hl hp
    rw [Cursor.drain_of_token (by rw [htok]; exact hl.kind_ne), htok, ih _ hpos hrest]

theorem munch_iff (s : String) (ts : List Token) :
    Munch 0 (visible s) ts ↔ tokenize s = ts := by
  constructor
  · intro h
    exact h.drain_eq (Cursor.ofText s) rfl rfl
  · rintro rfl
    exact munch_drain (Cursor.ofText s)

/-! ## What a splitting is like -/

namespace Munch

variable {n : Nat} {cs : List Char} {ts : List Token}

/-- The end of input stands last, and each token before it leads what is left of the text where it
stands. -/
theorem exists_split (h : Munch n cs ts) :
    ∃ us, ts = us ++ [endOfInput (n + Utf8.length cs)] ∧
      ∀ t ∈ us, ∃ before shape after, cs = before ++ (shape ++ after) ∧ t.Leads shape after ∧
        t.pos = (n + Utf8.length before : Nat) := by
  induction h with
  | done _ => exact ⟨[], rfl, by simp⟩
  | @token n blanks shape rest t ts _ hl hp _ ih =>
    obtain ⟨us, rfl, hus⟩ := ih
    refine ⟨t :: us, by simp [Nat.add_assoc], ?_⟩
    intro u hu
    rcases List.mem_cons.mp hu with rfl | hu
    · exact ⟨blanks, shape, rest, rfl, hl, hp⟩
    · obtain ⟨before, shape', after, rfl, hl', hp'⟩ := hus u hu
      exact ⟨blanks ++ (shape ++ before), shape', after, by simp, hl',
        by rw [hp']; simp [Nat.add_assoc]⟩

theorem le_pos (h : Munch n cs ts) : ∀ t ∈ ts, (n : Int) ≤ t.pos := by
  induction h with
  | done _ =>
    intro t ht
    rw [List.mem_singleton.mp ht]
    simp only [endOfInput]
    omega
  | token _ _ hp _ ih =>
    intro t ht
    rcases List.mem_cons.mp ht with rfl | ht
    · omega
    · have := ih t ht
      omega

theorem pos_increasing (h : Munch n cs ts) : ts.Pairwise fun a b => a.pos < b.pos := by
  induction h with
  | done _ => exact List.pairwise_singleton _ _
  | @token n blanks shape rest t ts _ hl hp h ih =>
    refine List.pairwise_cons.mpr ⟨?_, ih⟩
    intro u hu
    have hlt : 0 < Utf8.length shape := by
      obtain ⟨c, cs, rfl, -⟩ := hl.shape_eq_cons
      exact Utf8.length_pos (by simp)
    have := h.le_pos u hu
    omega

end Munch

/-- A text is read up to its first NUL, and what is read has one splitting into blanks and longest
lexemes: the tokens, in order and at the byte offsets where their lexemes start. -/
theorem tokenize_munch (s : String) :
    (∀ ts, Munch 0 (visible s) ts ↔ tokenize s = ts) ∧
    (∀ s', visible s' = visible s → tokenize s' = tokenize s) ∧
    ((tokenize s).Pairwise fun a b => a.pos < b.pos) ∧
    ∃ ts, tokenize s = ts ++ [endOfInput (Utf8.length (visible s))] ∧
      ∀ t ∈ ts, t.kind ≠ .eof ∧ (t.kind = .str → '"' ∉ t.literal.toList) ∧
        ∃ before shape after, visible s = before ++ (shape ++ after) ∧ t.Leads shape after ∧
          t.pos = Utf8.length before := by
  have h : Munch 0 (visible s) (tokenize s) := (munch_iff s _).mpr rfl
  refine ⟨munch_iff s, ?_, h.pos_increasing, ?_⟩
  · intro s' hs
    exact (munch_iff s' _).mp (hs ▸ h)
  · obtain ⟨us, hts, hus⟩ := h.exists_split
    refine ⟨us, by rw [hts, Nat.zero_add], ?_⟩
    intro t ht
    obtain ⟨before, shape, after, hs, hl, hp⟩ := hus t ht
    exact ⟨hl.kind_ne, hl.not_mem, before, shape, after, hs, hl, by simpa using hp⟩

end Criteria
