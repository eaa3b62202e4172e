import Mathlib
import Criteria.Proofs.Query.Joined
import Criteria.Proofs.Query.RoundTrip

/-!
# Criteria.Proofs.Query.Text

The text of a query that was read: which characters it holds, and what reading it with blanks after
it gives.

* `Query.Canonical.mem_text`: letters, digits and punctuation, and the characters of strings.
* `Derives.exists_denotes`: the values of a query stand in the tokens that derive it.
* `mem_text_of_parse`: what is odd in the text of a query was in the text that it was read from.
* `Query.Canonical.alone` and `Alone.parse_append`: the text with blanks after it is read to the end.
-/

namespace Criteria

open Text

/-! ## Characters -/

/-- A character of the text of a query outside of strings. -/
def IsPlain (c : Char) : Prop :=
  isWordChar c ∨ c ∈ ['(', ')', ',', '"']

theorem IsPlain.of_isWord {w : List Char} (h : isWord w) : ∀ c ∈ w, IsPlain c :=
  fun c hc => .inl (isWordChar_of_isWord h c hc)

theorem IsPlain.of_isNumeral {ds : List Char} (h : isNumeral ds) : ∀ c ∈ ds, IsPlain c := by
  intro c hc
  exact .inl (isWordChar_of_isDigit ((isNumeral_iff.mp h).2 c hc))

namespace Query

theorem texts_eq_map (qs : List Query) : texts qs = qs.map text := by
  induction qs with
  | nil => rfl
  | cons q qs ih => rw [texts, ih, List.map_cons]

theorem filtersAll_eq_flatMap (qs : List Query) : filtersAll qs = qs.flatMap filters := by
  induction qs with
  | nil => rfl
  | cons q qs ih => rw [filtersAll, ih, List.flatMap_cons]

end Query

theorem Value.Canonical.mem_text {v : Value} (h : v.Canonical) {c : Char} (hc : c ∈ v.text.toList) :
    IsPlain c ∨ ∃ s, v = .string s ∧ c ∈ s.toList := by
  obtain ⟨⟨kind, literal, pos⟩, hd, htext, ht, -⟩ := h.exists_token
  rw [← htext] at hc
  cases hd with
  | identifier hk =>
    subst hk
    exact .inl (.of_isWord ht.1 c (by simpa using hc))
  | string hk =>
    subst hk
    rw [Token.lexeme_str, List.mem_cons, List.mem_append, List.mem_singleton] at hc
    rcases hc with rfl | hc | rfl
    · exact .inl (.inr (by simp))
    · exact .inr ⟨literal, rfl, hc⟩
    · exact .inl (.inr (by simp))
  | boolean hk =>
    subst hk
    rw [Token.lexeme_keyword] at hc
    exact .inl (.of_isWord (Keyword.isWord_word _) c hc)
  | integer hk =>
    subst hk
    exact .inl (.of_isNumeral ht c (by simpa using hc))
  | float hk =>
    subst hk
    obtain ⟨i, f, hlit, hi, hf⟩ := ht
    have hlit : literal.toList = i ++ '.' :: f := hlit
    rw [Token.lexeme_float, hlit, List.mem_append, List.mem_cons] at hc
    rcases hc with hc | rfl | hc
    · exact .inl (.of_isNumeral hi c hc)
    · exact .inl (.inl (by decide))
    · exact .inl (.of_isNumeral hf c hc)

theorem Query.Canonical.mem_text {q : Query} (h : q.Canonical) {c : Char}
    (hc : c ∈ q.text.toList) :
    IsPlain c ∨ ∃ f ∈ q.filters, ∃ s, f.2.2 = .string s ∧ c ∈ s.toList := by
  induction h with
  | @group comb items h ih =>
    simp only [text, String.toList_append, List.mem_append] at hc
    rcases hc with ((hc | hc) | hc) | hc
    · exact .inl (.of_isWord (Keyword.isWord_word (.combinator comb)) c hc)
    · exact .inl (.inr (by simp_all))
    · rw [String.toList_intercalate, texts_eq_map] at hc
      rcases mem_intercalate hc with hc | ⟨cs, hcs, hc⟩
      · exact .inl (.inr (by simp_all))
      · simp only [List.map_map, List.mem_map, Function.comp_apply] at hcs
        obtain ⟨q, hq, rfl⟩ := hcs
        refine (ih q hq hc).imp_right ?_
        rintro ⟨f, hf, s, hs, hc⟩
        rw [filters, filtersAll_eq_flatMap]
        exact ⟨f, List.mem_flatMap.mpr ⟨q, hq, hf⟩, s, hs, hc⟩
    · exact .inl (.inr (by simp_all))
  | @filter op field v hf hv =>
    simp only [text, String.toList_append, List.mem_append] at hc
    rcases hc with ((((hc | hc) | hc) | hc) | hc) | hc
    · exact .inl (.of_isWord (Keyword.isWord_word (.comparator op)) c hc)
    · exact .inl (.inr (by simp_all))
    · exact .inl (.of_isWord hf.1 c hc)
    · exact .inl (.inr (by simp_all))
    · refine (hv.mem_text hc).imp_right ?_
      rintro ⟨s, rfl, hs⟩
      exact ⟨(op, field, .string s), by simp [filters], s, rfl, hs⟩
    · exact .inl (.inr (by simp_all))

mutual

theorem Derives.exists_denotes {ts : List Token} {q : Query} :
    Derives ts q → ∀ f ∈ q.filters, ∃ t ∈ ts, Denotes t f.2.2
  | .filter hf => by
    cases hf with
    | @mk word lparen name comma value rparen op v hw ho hn hc hv hr =>
      intro f hf
      rw [List.mem_singleton.mp hf]
      exact ⟨value, by simp, hv⟩
  | .group hw ho hl hr => by
    intro f hf
    rw [Query.filters] at hf
    obtain ⟨t, ht, hd⟩ := hl.exists_denotes f hf
    exact ⟨t, by simp [ht], hd⟩

theorem DerivesAll.exists_denotes {ts : List Token} {qs : List Query} :
    DerivesAll ts qs → ∀ f ∈ Query.filtersAll qs, ∃ t ∈ ts, Denotes t f.2.2
  | .nil => by simp [Query.filtersAll]
  | .item hq hl => by
    intro f hf
    rw [Query.filtersAll, List.mem_append] at hf
    rcases hf with hf | hf
    · obtain ⟨t, ht, hd⟩ := hq.exists_denotes f hf
      exact ⟨t, by simp [ht], hd⟩
    · obtain ⟨t, ht, hd⟩ := hl.exists_denotes f hf
      exact ⟨t, by simp [ht], hd⟩
  | .itemComma hq hc hl => by
    intro f hf
    rw [Query.filtersAll, List.mem_append] at hf
    rcases hf with hf | hf
    · obtain ⟨t, ht, hd⟩ := hq.exists_denotes f hf
      exact ⟨t, by simp [ht], hd⟩
    · obtain ⟨t, ht, hd⟩ := hl.exists_denotes f hf
      exact ⟨t, by simp [ht], hd⟩

end

/-- A string of a text is a part of it. -/
theorem mem_of_mem_tokenize {s : String} {t : Token} (ht : t ∈ tokenize s) (hk : t.kind = .str)
    {c : Char} (hc : c ∈ t.literal.toList) : c ∈ s.toList := by
  obtain ⟨us, hts, hus⟩ := ((munch_iff s _).mpr rfl).exists_split
  rw [hts, List.mem_append, List.mem_singleton] at ht
  rcases ht with ht | rfl
  · obtain ⟨before, shape, after, hs, hl, -⟩ := hus t ht
    have hshape : c ∈ shape := by
      obtain ⟨kind, literal, pos⟩ := t
      subst hk
      cases hl with
      | closed ht _ => simp [hc]
      | unclosed _ _ => simp [hc]
    have hvisible : c ∈ visible s := by simp [hs, hshape]
    exact (List.takeWhile_sublist _).mem hvisible
  · cases hk

/-- The characters of the text of a query are plain, or come from the text it was read from. -/
theorem mem_text_of_parse {s : String} {q : Query} (h : parse s = .ok q) {c : Char}
    (hc : c ∈ q.text.toList) : IsPlain c ∨ c ∈ s.toList := by
  refine ((canonical_of_parse h).mem_text hc).imp_right ?_
  rintro ⟨⟨op, field, v⟩, hf, w, rfl, hc⟩
  obtain ⟨us, hd, htokens, -⟩ := parseQuery_ahead (w := Window.ofText s) h
  obtain ⟨t, ht, hdenotes⟩ := hd.exists_denotes _ hf
  have hmem : t ∈ tokenize s := by
    rw [tokenize_eq, htokens]
    simp [ht]
  generalize hv : Value.string w = v at hdenotes
  cases hdenotes with
  | string hk =>
    cases hv
    exact mem_of_mem_tokenize hmem hk hc
  | identifier _ | boolean _ | integer _ | float _ => cases hv

/-! ## Blanks after a query -/

/-- A query that is read to the end has only blanks after it. -/
theorem alone_of_eof {s : String} {q : Query} (h : parse s = .ok q) (hnul : '\x00' ∉ s.toList)
    (hk : (parseQuery (Window.ofText s)).window.current.kind = .eof) : Alone s q := by
  refine ⟨h, ?_⟩
  obtain ⟨front, rest, us, hs, hx⟩ := exists_extent h
  rw [hx.queryEnd_eq hs, hs, List.drop_left' rfl]
  obtain ⟨ts, hts⟩ := exists_munch (0 + Utf8.length front) rest
  have hmunch := (hx.holds rest).munch hts
  have hvisible := visible_eq_self hnul
  rw [String.ofList_toList] at hvisible
  rw [← hs, ← hvisible] at hmunch
  cases hts with
  | done hb => exact hb
  | @token _ blanks shape rest t ts _ hl _ hts =>
    obtain ⟨vs, rfl, -⟩ := hts.exists_split
    rw [← List.cons_append, ← List.append_assoc] at hmunch
    have hwindow := (Progress.parseQuery_of_derives (tokens_ofText hmunch) hx.derives).2
    rw [hwindow] at hk
    exact absurd hk hl.kind_ne

theorem Query.Canonical.alone {q : Query} (h : q.Canonical) : Alone q.text q := by
  obtain ⟨us, -, hs⟩ := h.exists_spells [] [] .nil
  rw [List.append_nil, List.append_nil] at hs
  exact alone_of_eof h.parse_text.1 hs.nul_not_mem h.parse_text.2

/-- Blanks after a query that stands alone change nothing. -/
theorem Alone.parse_append {s : String} {q : Query} (h : Alone s q) {blanks : List Char}
    (hb : ∀ c ∈ blanks, isBlank c) :
    (parseQuery (Window.ofText (s ++ String.ofList blanks))).result = .ok q ∧
      (parseQuery (Window.ofText (s ++ String.ofList blanks))).window.current.kind = .eof := by
  obtain ⟨us, hd, hm⟩ := h.munch (n := 0) (.done hb)
  have hnul : '\x00' ∉ s.toList ++ blanks := by
    rw [List.mem_append, not_or]
    exact ⟨h.nul_not_mem, fun hn => absurd (hb _ hn) (by decide)⟩
  have hs : s ++ String.ofList blanks = String.ofList (s.toList ++ blanks) := by
    rw [String.ofList_append, String.ofList_toList]
  rw [← visible_eq_self hnul, ← hs] at hm
  have htokens := tokens_ofText hm
  obtain ⟨hresult, hwindow⟩ :=
    Progress.parseQuery_of_derives (htokens.trans (List.append_nil us).symm) hd
  exact ⟨hresult, by rw [hwindow]; rfl⟩

end Criteria
