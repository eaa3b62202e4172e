import Mathlib
import Criteria.Proofs.Token.Front

/-!
# Criteria.Proofs.Token.Quotes

Texts put together with blanks between them. A token that ends before the text does holds no quote or
two, so the number of quotes tells whether a text ends inside of a string. Where it does not, blanks
after the text end its last token, and what follows is read as if it stood alone.

* `Token.Unclosed`: a string that the end of the text cuts off.
* `Munch.append` and `Munch.shift`: tokens of a text with more after it, and further on.
* `Munch.exists_unclosed` and `Munch.odd_of_unclosed`: a string is cut off exactly if the number of
  quotes is odd, and it is the last token then.
* `tokenize_append`: the same for texts.
-/

namespace Criteria

open Text

namespace Token

/-- From the position of the token on the text holds the opening quote and the literal, and nothing
else. The text is `cs`, which byte `n` starts. -/
def Unclosed (t : Token) (n : Nat) (cs : List Char) : Prop :=
  t.kind = .str ∧ ∃ before, cs = before ++ '"' :: t.literal.toList ∧
    t.pos = (n + Utf8.length before : Nat)

/-- The same token `k` bytes further on. -/
def shift (k : Nat) (t : Token) : Token := { t with pos := t.pos + k }

end Token

/-! ## Quotes -/

theorem count_quote_of_blank {cs : List Char} (h : ∀ c ∈ cs, isBlank c) : cs.count '"' = 0 := by
  refine List.count_eq_zero.mpr ?_
  intro hq
  exact absurd (h _ hq) (by decide)

theorem count_quote_of_isWordChar {cs : List Char} (h : ∀ c ∈ cs, isWordChar c) :
    cs.count '"' = 0 := by
  refine List.count_eq_zero.mpr ?_
  intro hq
  exact not_mem_of_isWordChar (h _ hq) (by simp)

namespace Token

/-- A string that is closed has two quotes, and no other token has any. -/
theorem Lexical.even_quotes {t : Token} (h : t.Lexical) : Even (t.lexeme.count '"') := by
  obtain ⟨kind, literal, pos⟩ := t
  cases kind with
  | illegal =>
    obtain ⟨c, hc, hs⟩ := h
    have hq : c ≠ '"' := by
      rintro rfl
      exact absurd hs (by decide)
    rw [lexeme_illegal, show literal.toList = [c] from hc]
    simp [hq]
  | eof => exact h.elim
  | ident => rw [lexeme_ident, count_quote_of_isWordChar (isWordChar_of_isWord h.1)]; exact .zero
  | int => rw [lexeme_int, count_quote_of_isWordChar (isWordChar_of_isNumeral h)]; exact .zero
  | float =>
    obtain ⟨i, f, hlit, hi, hf⟩ := h
    have hpoint : isWordChar '.' := by decide
    have hword : ∀ c ∈ i ++ '.' :: f, isWordChar c :=
      List.forall_mem_append.mpr ⟨isWordChar_of_isNumeral hi,
        List.forall_mem_cons.mpr ⟨hpoint, isWordChar_of_isNumeral hf⟩⟩
    rw [lexeme_float, show literal.toList = i ++ '.' :: f from hlit,
      count_quote_of_isWordChar hword]
    exact .zero
  | str =>
    rw [lexeme_str, List.count_cons_self, List.count_append, List.count_eq_zero.mpr h]
    decide
  | keyword k =>
    rw [lexeme_keyword, count_quote_of_isWordChar (isWordChar_of_isWord (Keyword.isWord_word k))]
    exact .zero
  | plus | minus | comma | lparen | rparen => simp

/-- Blanks end a token wherever the end of the text may stand. -/
theorem Longest.append {t : Token} {rest gap : List Char} (h : t.Longest rest)
    (hb : ∀ c ∈ gap, isBlank c) (hne : gap ≠ []) (cs : List Char) :
    t.Longest (rest ++ (gap ++ cs)) := by
  obtain ⟨b, gap, rfl⟩ := List.exists_cons_of_ne_nil hne
  have hword : isWordChar b = false := isWordChar_of_isBlank (hb b (by simp))
  cases rest with
  | nil => exact longest_of_head (by simpa using hword)
  | cons x rest =>
    obtain ⟨kind, literal, pos⟩ := t
    cases kind with
    | ident | keyword k | float => exact h
    | int =>
      refine ⟨h.1, ?_⟩
      intro d ds heq
      cases rest with
      | nil =>
        cases heq
        exact isDigit_of_isWordChar hword
      | cons y rest =>
        cases heq
        exact h.2 d rest rfl
    | illegal | eof | str | plus | minus | comma | lparen | rparen => trivial

end Token

/-! ## Tokens of texts put together -/

namespace Munch

variable {n : Nat} {cs : List Char} {ts : List Token}

theorem ne_nil (h : Munch n cs ts) : ts ≠ [] := by
  cases h with
  | done _ => simp
  | token _ _ _ _ => simp

theorem eq_of_nil (h : Munch n [] ts) : ts = [endOfInput n] := by
  obtain ⟨us, rfl, hus⟩ := h.exists_split
  cases us with
  | nil => rfl
  | cons t us =>
    obtain ⟨before, shape, after, hnil, hl, -⟩ := hus t (by simp)
    obtain ⟨c, cs, rfl, -⟩ := hl.shape_eq_cons
    simp at hnil

theorem shift (h : Munch n cs ts) (k : Nat) : Munch (n + k) cs (ts.map (Token.shift k)) := by
  induction h with
  | @done n blanks hb =>
    have hend : (endOfInput (n + Utf8.length blanks)).shift k =
        endOfInput (n + k + Utf8.length blanks) := by
      simp only [Token.shift, endOfInput, Token.mk.injEq, true_and]
      omega
    rw [List.map_singleton, hend]
    exact .done hb
  | @token n blanks shape rest t ts hb hl hp _ ih =>
    rw [Nat.add_right_comm, Nat.add_right_comm n] at ih
    refine .token hb (hl.moved _) ?_ ih
    simp only [Token.shift, hp]
    omega

/-- Blanks and another text come after a text that does not end inside of a string. The induction is
on the first text; its strings are closed, since what is left of it always has an even number of
quotes. -/
theorem append {gap rest : List Char} {us : List Token} (h : Munch n cs ts)
    (he : Even (cs.count '"')) (hb : ∀ c ∈ gap, isBlank c) (hne : gap ≠ [])
    (hr : Munch (n + Utf8.length (cs ++ gap)) rest us) :
    Munch n (cs ++ (gap ++ rest)) (ts.dropLast ++ us) := by
  induction h with
  | @done n blanks hb' =>
    rw [Utf8.length_append, ← Nat.add_assoc] at hr
    exact (hr.of_blanks hb).of_blanks hb'
  | @token n blanks shape rest' t ts hb' hl hp h ih =>
    rw [List.count_append, List.count_append, count_quote_of_blank hb', Nat.zero_add] at he
    cases hl with
    | closed ht hlong =>
      have htail := ih ((Nat.even_add.mp he).mp ht.even_quotes)
        (by simpa [Nat.add_assoc] using hr)
      rw [List.dropLast_cons_of_ne_nil h.ne_nil, List.append_assoc, List.append_assoc]
      exact .token hb' (.closed ht (hlong.append hb hne rest)) hp htail
    | unclosed hk hq =>
      rw [List.count_cons_self, List.count_eq_zero.mpr hq] at he
      exact absurd he (by decide)

/-! ## Strings that are cut off -/

theorem exists_unclosed (h : Munch n cs ts) (ho : Odd (cs.count '"')) :
    ∃ us t, ts = us ++ [t, endOfInput (n + Utf8.length cs)] ∧ t.Unclosed n cs := by
  induction h with
  | done hb =>
    rw [count_quote_of_blank hb] at ho
    exact absurd ho (by decide)
  | @token n blanks shape rest t ts hb hl hp h ih =>
    cases hl with
    | closed ht _ =>
      rw [List.count_append, List.count_append, count_quote_of_blank hb, Nat.zero_add] at ho
      obtain ⟨us, u, rfl, hk, before, rfl, hpos⟩ := ih ((Nat.odd_add'.mp ho).mpr ht.even_quotes)
      refine ⟨t :: us, u, by simp [Nat.add_assoc], hk, blanks ++ (t.lexeme ++ before), by simp, ?_⟩
      rw [hpos]
      simp [Nat.add_assoc]
    | unclosed hk hq =>
      rw [h.eq_of_nil]
      exact ⟨[], t, by simp [Nat.add_assoc], hk, blanks, by simp, hp⟩

end Munch

/-- Of two beginnings of a text the one with fewer bytes is a beginning of the other. -/
theorem append_eq_of_length_le {xs xs' ys ys' : List Char} (h : xs ++ xs' = ys ++ ys')
    (hle : Utf8.length xs ≤ Utf8.length ys) : ∃ zs, ys = xs ++ zs ∧ xs' = zs ++ ys' := by
  rcases List.append_eq_append_iff.mp h with ⟨zs, hys, hxs⟩ | ⟨zs, rfl, rfl⟩
  · exact ⟨zs, hys, hxs⟩
  · cases zs with
    | nil => exact ⟨[], by simp, by simp⟩
    | cons z zs =>
      have hz : 0 < Utf8.length (z :: zs) := Utf8.length_pos (by simp)
      rw [Utf8.length_append] at hle
      omega

/-- Only the end of a text leaves a string open, after an odd number of quotes. -/
theorem Munch.odd_of_unclosed {n : Nat} {cs : List Char} {ts : List Token} {t : Token}
    (h : Munch n cs ts) (ht : t ∈ ts) (hu : t.Unclosed n cs) : Odd (cs.count '"') := by
  obtain ⟨hk, before, hcs, hpos⟩ := hu
  induction h generalizing before with
  | done _ =>
    rw [List.mem_singleton.mp ht] at hk
    cases hk
  | @token n blanks shape rest u ts hb hl hp h ih =>
    rcases List.mem_cons.mp ht with rfl | ht
    · -- the position says where the string starts
      obtain ⟨zs, rfl, hzs⟩ := append_eq_of_length_le hcs (by omega)
      have hnil : zs = [] := by
        by_contra hne
        have := Utf8.length_pos hne
        rw [Utf8.length_append] at hpos
        omega
      subst hnil
      cases hl with
      | closed hlex _ =>
        obtain ⟨kind, literal, pos⟩ := t
        cases hk
        have hlen := congrArg List.length hzs
        simp at hlen
      | unclosed _ hq =>
        rw [List.count_append, count_quote_of_blank hb, hzs, List.nil_append, List.count_cons_self,
          List.count_eq_zero.mpr hq]
        decide
    · -- the string starts behind the first token, which then is closed
      have hle := h.le_pos t ht
      rw [← List.append_assoc] at hcs
      obtain ⟨zs, rfl, rfl⟩ := append_eq_of_length_le hcs (by rw [Utf8.length_append]; omega)
      have hodd := ih ht zs rfl (by rw [hpos]; simp [Nat.add_assoc])
      generalize hrest : zs ++ '"' :: t.literal.toList = rest at hl hodd
      cases hl with
      | closed hlex _ =>
        rw [List.count_append, List.count_append, count_quote_of_blank hb, Nat.zero_add]
        exact hlex.even_quotes.add_odd hodd
      | unclosed _ _ => simp at hrest

/-! ## Texts -/

/-- A text with an even number of quotes, blanks and any other text hold the tokens of the two texts,
those of the second one further on. With an odd number of quotes the last token is a string that the
end cuts off, and only then there is one. -/
theorem tokenize_append (s : String) (hs : '\x00' ∉ s.toList) :
    ∃ ts, tokenize s = ts ++ [endOfInput (Utf8.length s.toList)] ∧
      (Even (s.toList.count '"') → ∀ w t : String, w ≠ "" → (∀ c ∈ w.toList, isBlank c) →
        tokenize (s ++ w ++ t) =
          ts ++ (tokenize t).map (Token.shift (Utf8.length (s ++ w).toList))) ∧
      (Odd (s.toList.count '"') → ∃ us t, ts = us ++ [t] ∧ t.Unclosed 0 s.toList) ∧
      ((∃ t ∈ tokenize s, t.Unclosed 0 s.toList) → Odd (s.toList.count '"')) := by
  have hmunch := (munch_iff s _).mpr rfl
  have hvisible : visible s = s.toList := by
    have hself := visible_eq_self hs
    rwa [String.ofList_toList] at hself
  rw [hvisible] at hmunch
  obtain ⟨ts, hts, -⟩ := hmunch.exists_split
  rw [Nat.zero_add] at hts
  refine ⟨ts, hts, ?_, ?_, ?_⟩
  · intro he w t hw hb
    have hrest := ((munch_iff t _).mpr rfl).shift (Utf8.length (s.toList ++ w.toList))
    have hne : w.toList ≠ [] := by
      intro hnil
      exact hw (String.toList_eq_nil_iff.mp hnil)
    have happend := hmunch.append he hb hne hrest
    have hnul : '\x00' ∉ s.toList ++ w.toList := by
      rw [List.mem_append, not_or]
      exact ⟨hs, fun hn => absurd (hb _ hn) (by decide)⟩
    have hwhole : visible (s ++ w ++ t) = s.toList ++ (w.toList ++ visible t) := by
      have hpos : ∀ c ∈ s.toList ++ w.toList, (c != '\x00') = true := by
        intro c hc
        rw [bne_iff_ne]
        rintro rfl
        exact hnul hc
      rw [visible, String.toList_append, String.toList_append, List.takeWhile_append_of_pos hpos,
        List.append_assoc]
      rfl
    rw [← hwhole, munch_iff, hts, List.dropLast_concat] at happend
    rw [happend, String.toList_append]
  · intro ho
    obtain ⟨us, t, htokens, hu⟩ := hmunch.exists_unclosed ho
    refine ⟨us, t, ?_, hu⟩
    rw [htokens, Nat.zero_add, ← List.singleton_append, ← List.append_assoc] at hts
    exact (List.append_inj' hts rfl).1.symm
  · rintro ⟨t, ht, hu⟩
    exact hmunch.odd_of_unclosed ht hu

/-- The number before the blanks and the one after them stay apart. The second text ends inside of a
string. -/
theorem tokenize_append_numbers :
    '\x00' ∉ "\"é\" 1.".toList ∧ Even ("\"é\" 1.".toList.count '"') ∧ "\n\t" ≠ "" ∧
      (∀ c ∈ "\n\t".toList, isBlank c) ∧
      ∃ ts, tokenize "\"é\" 1." = ts ++ [endOfInput (Utf8.length "\"é\" 1.".toList)] ∧
        tokenize ("\"é\" 1." ++ "\n\t" ++ "5\"") =
          ts ++ (tokenize "5\"").map (Token.shift (Utf8.length ("\"é\" 1." ++ "\n\t").toList)) ∧
        ∃ us t, tokenize "5\"" = us ++ [t, endOfInput (Utf8.length "5\"".toList)] ∧
          t.Unclosed 0 "5\"".toList := by
  have heven : Even ("\"é\" 1.".toList.count '"') := by decide
  have hblank : ∀ c ∈ "\n\t".toList, isBlank c := by simp [isBlank]
  obtain ⟨ts, hts, happend, -, -⟩ := tokenize_append "\"é\" 1." (by decide)
  obtain ⟨vs, hvs, -, hopen, -⟩ := tokenize_append "5\"" (by decide)
  obtain ⟨us, t, rfl, hu⟩ := hopen (by decide)
  exact ⟨by decide, heven, by decide, hblank, ts, hts, happend heven _ _ (by decide) hblank, us, t,
    by simpa using hvs, hu⟩

end Criteria
