import Mathlib
import Criteria.Proofs.Number.Numeral
import Criteria.Proofs.Query.Content

/-!
# Criteria.Proofs.Query.RoundTrip

Which queries are read from a text. They are the ones that their own text is read as.

* `Query.Canonical`: queries whose fields and values a text can hold.
* `Query.Canonical.exists_spells`: the text of such a query spells tokens that derive it.
* `canonical_of_derives`: tokens of a text derive no other queries.
* `canonical_tfae`: to be canonical, to be read from one's own text, to be read from some text.
-/

namespace Criteria

open Text

/-- Words that are no keywords. -/
def IsPath (w : String) : Prop :=
  isWord w.toList ∧ ∀ k : Keyword, k.word ≠ w

/-- Values that a text can hold. -/
def Value.Canonical : Value → Prop
  | .identifier path => IsPath path
  | .string s => '"' ∉ s.toList ∧ '\x00' ∉ s.toList
  | .boolean _ => True
  | .integer n => 0 ≤ n ∧ n ≤ 2 ^ 63 - 1
  | .float x => x.isFinite ∧ x.negative = false

/-- Queries whose fields and values a text can hold, built from lists and filters alone. -/
inductive Query.Canonical : Query → Prop where
  | group {c : Combinator} {items : List Query} (h : ∀ q ∈ items, Canonical q) :
      Canonical (.group c items)
  | filter {op : Comparator} {field : String} {v : Value} (hf : IsPath field)
      (hv : v.Canonical) : Canonical (.filter op field v)

/-! ## Lexemes without NUL -/

theorem nul_not_mem_of_isNumeral {cs : List Char} (h : isNumeral cs) : '\x00' ∉ cs :=
  fun hm => absurd ((isNumeral_iff.mp h).2 _ hm) (by decide)

/-! ## From queries to texts -/

/-- A canonical value stands in the text as one token. -/
theorem Value.Canonical.exists_token {v : Value} (h : v.Canonical) :
    ∃ t : Token, Denotes t v ∧ t.lexeme = v.text.toList ∧ t.Lexical ∧ '\x00' ∉ t.lexeme := by
  cases v with
  | identifier path =>
    refine ⟨⟨.ident, path, 0⟩, .identifier rfl, by simp [text], h, ?_⟩
    rw [Token.lexeme_ident]
    exact nul_not_mem_of_isWord h.1
  | string s =>
    refine ⟨⟨.str, s, 0⟩, .string rfl, by simp [text, String.toList_append], h.1, ?_⟩
    rw [Token.lexeme_str]
    simpa using h.2
  | boolean b =>
    refine ⟨⟨.keyword (.truth b), "", 0⟩, .boolean rfl, ?_, rfl, ?_⟩
    · rw [Token.lexeme_keyword]
      cases b <;> rfl
    · rw [Token.lexeme_keyword]
      exact nul_not_mem_of_isWord (Keyword.isWord_word _)
  | integer n =>
    obtain ⟨m, rfl⟩ := Int.eq_ofNat_of_zero_le h.1
    have hm : m ≤ 2 ^ 63 - 1 := by
      have := h.2
      omega
    have hlen : (digitsText m).length ≤ 20 := (length_digitsText_le (by omega)).mpr (by omega)
    have hd : (intText m).toList = digitsText m := intText_natCast m
    have hvalue : digitsValue (intText m).toList = m := by rw [hd, digitsValue_digitsText]
    have hdenotes : Denotes ⟨.int, intText m, 0⟩ _ :=
      .integer rfl (by rw [hd]; omega) (by rw [hvalue]; exact hm)
    rw [hvalue] at hdenotes
    refine ⟨⟨.int, intText m, 0⟩, hdenotes, by simp [text], ?_, ?_⟩
    · show isNumeral (intText m).toList
      rw [hd]
      exact isNumeral_digitsText m
    · rw [Token.lexeme_int, hd]
      exact nul_not_mem_of_isNumeral (isNumeral_digitsText m)
  | float x =>
    obtain ⟨i, f, htext, hi, hf, hread⟩ := Binary64.ofNumeral_finiteText h.1 h.2
    let s := String.ofList (Layout.plain.finiteText x)
    have hs : s.toList = Layout.plain.finiteText x := String.toList_ofList
    have hx : Binary64.ofNumeral s.toList = x := by rw [hs, hread]
    have hdenotes : Denotes ⟨.float, s, 0⟩ _ := .float rfl (by rw [hx]; exact h.1)
    rw [hx] at hdenotes
    refine ⟨⟨.float, s, 0⟩, hdenotes, ?_, ⟨i, f, by rw [hs, htext], hi, hf⟩, ?_⟩
    · simp [text, Layout.text, h.1, s]
    · rw [Token.lexeme_float, hs, htext]
      simp [nul_not_mem_of_isNumeral hi, nul_not_mem_of_isNumeral hf]

namespace Spells

variable {ts : List Token} {cs : List Char}

theorem keyword (k : Keyword) (h : Spells ts ('(' :: cs)) :
    Spells (⟨.keyword k, "", 0⟩ :: ts) (k.word.toList ++ '(' :: cs) := by
  have ht : Token.Lexical ⟨.keyword k, "", 0⟩ := rfl
  have hw := nul_not_mem_of_isWord (Keyword.isWord_word k)
  simpa using h.tight ht (by simpa using hw) (Token.longest_of_head (by simp; decide))

theorem lparen (h : Spells ts cs) : Spells (⟨.lparen, "", 0⟩ :: ts) ('(' :: cs) := by
  simpa using h.tight (t := ⟨.lparen, "", 0⟩) rfl (by simp) trivial

theorem rparen (h : Spells ts cs) : Spells (⟨.rparen, "", 0⟩ :: ts) (')' :: cs) := by
  simpa using h.tight (t := ⟨.rparen, "", 0⟩) rfl (by simp) trivial

theorem comma (h : Spells ts cs) : Spells (⟨.comma, "", 0⟩ :: ts) (',' :: cs) := by
  simpa using h.tight (t := ⟨.comma, "", 0⟩) rfl (by simp) trivial

theorem path {w : String} (hw : IsPath w) (h : Spells ts (',' :: cs)) :
    Spells (⟨.ident, w, 0⟩ :: ts) (w.toList ++ ',' :: cs) := by
  have hn := nul_not_mem_of_isWord hw.1
  simpa using h.tight (t := ⟨.ident, w, 0⟩) hw (by simpa using hn)
    (Token.longest_of_head (by simp; decide))

end Spells

namespace Query

/-- What the text of a list spells, once this is known of its items. -/
theorem exists_spells_texts {items : List Query}
    (h : ∀ q ∈ items, ∀ ts cs, Spells ts cs →
      ∃ us, Derives us q ∧ Spells (us ++ ts) (q.text.toList ++ cs)) {ts : List Token}
    {cs : List Char} (hs : Spells ts cs) :
    ∃ us, DerivesAll us items ∧
      Spells (us ++ ts) ((",".intercalate (texts items)).toList ++ cs) := by
  induction items with
  | nil => exact ⟨[], .nil, by simpa [texts] using hs⟩
  | cons q qs ih =>
    obtain ⟨us, hall, hus⟩ := ih fun r hr => h r (List.mem_cons_of_mem _ hr)
    cases qs with
    | nil =>
      obtain ⟨vs, hq, hvs⟩ := h q (by simp) ts cs hs
      exact ⟨vs, by simpa using DerivesAll.item hq .nil, by simpa [texts] using hvs⟩
    | cons r rs =>
      obtain ⟨vs, hq, hvs⟩ := h q (by simp) _ _ hus.comma
      refine ⟨vs ++ ⟨.comma, "", 0⟩ :: us, .itemComma hq rfl hall, ?_⟩
      rw [texts, texts, String.intercalate_cons_cons]
      simpa [texts, String.toList_append] using hvs

/-- The text of a canonical query spells tokens that derive it, whatever follows. -/
theorem Canonical.exists_spells {q : Query} (h : q.Canonical) : ∀ ts cs, Spells ts cs →
    ∃ us, Derives us q ∧ Spells (us ++ ts) (q.text.toList ++ cs) := by
  induction h with
  | @group c items h ih =>
    intro ts cs hs
    obtain ⟨us, hall, hus⟩ := exists_spells_texts ih hs.rparen
    refine ⟨⟨.keyword (.combinator c), "", 0⟩ :: ⟨.lparen, "", 0⟩ :: (us ++ [⟨.rparen, "", 0⟩]),
      .group rfl rfl hall rfl, ?_⟩
    simpa [text, String.toList_append, Keyword.word] using hus.lparen.keyword (.combinator c)
  | @filter op field v hf hv =>
    intro ts cs hs
    obtain ⟨t, hd, htext, ht, hn⟩ := hv.exists_token
    have hvalue := hs.rparen.tight ht hn (Token.longest_of_head (by simp; decide))
    have hfilter := (hvalue.comma.path hf).lparen.keyword (.comparator op)
    have hderives : Derives [⟨.keyword (.comparator op), "", 0⟩, ⟨.lparen, "", 0⟩,
        ⟨.ident, field, 0⟩, ⟨.comma, "", 0⟩, t, ⟨.rparen, "", 0⟩] (.filter op field v) :=
      .filter (.mk rfl rfl rfl rfl hd rfl)
    refine ⟨_, hderives, ?_⟩
    simpa [text, String.toList_append, Keyword.word, htext] using hfilter

end Query

/-! ## From texts to queries -/

theorem Denotes.kind_ne {t : Token} {v : Value} (h : Denotes t v) : t.kind ≠ .eof := by
  cases h <;> simp_all

/-- Tokens of a text stand for canonical values. -/
theorem Denotes.canonical {t : Token} {v : Value} (h : Denotes t v)
    (ht : t.Lexical ∧ '\x00' ∉ t.lexeme) : v.Canonical := by
  obtain ⟨kind, literal, pos⟩ := t
  obtain ⟨ht, hn⟩ := ht
  cases h with
  | identifier hk => subst hk; exact ht
  | string hk =>
    subst hk
    refine ⟨ht, ?_⟩
    rw [Token.lexeme_str] at hn
    intro hm
    exact hn (by simp [hm])
  | boolean hk => trivial
  | integer hk hl hv =>
    refine ⟨Int.natCast_nonneg _, ?_⟩
    omega
  | float hk hf => exact ⟨hf, Binary64.round_negative _ _ _⟩

mutual

theorem canonical_of_derives {ts : List Token} {q : Query}
    (h : ∀ t ∈ ts, t.kind ≠ .eof → t.Lexical ∧ '\x00' ∉ t.lexeme) : Derives ts q → q.Canonical
  | .filter hf => by
    cases hf with
    | @mk word lparen name comma value rparen op v hw ho hn hc hv hr =>
      have hname := (h name (by simp) (by rw [hn]; simp)).1
      obtain ⟨kind, literal, pos⟩ := name
      subst hn
      exact .filter hname (hv.canonical (h value (by simp) hv.kind_ne))
  | .group hw ho hl hr => .group (canonical_of_derivesAll (fun t ht => h t (by simp [ht])) hl)

theorem canonical_of_derivesAll {ts : List Token} {qs : List Query}
    (h : ∀ t ∈ ts, t.kind ≠ .eof → t.Lexical ∧ '\x00' ∉ t.lexeme) :
    DerivesAll ts qs → ∀ q ∈ qs, q.Canonical
  | .nil => by simp
  | .item hq hl => by
    have hfirst := canonical_of_derives (fun t ht => h t (by simp [ht])) hq
    have hothers := canonical_of_derivesAll (fun t ht => h t (by simp [ht])) hl
    exact List.forall_mem_cons.mpr ⟨hfirst, hothers⟩
  | .itemComma hq hc hl => by
    have hfirst := canonical_of_derives (fun t ht => h t (by simp [ht])) hq
    have hothers := canonical_of_derivesAll (fun t ht => h t (by simp [ht])) hl
    exact List.forall_mem_cons.mpr ⟨hfirst, hothers⟩

end

theorem canonical_of_parse {s : String} {q : Query} (h : parse s = .ok q) : q.Canonical := by
  obtain ⟨n, hn, -⟩ := Progress.parseQuery_ok h
  refine canonical_of_derives ?_ (Progress.derives_of_feed hn)
  intro t ht hk
  obtain ⟨i, -, rfl⟩ := List.mem_map.mp ht
  exact lexical_of_mem (mem_tokenize_of_stream hk) hk

/-! ## There and back -/

theorem Query.Canonical.parse_text {q : Query} (h : q.Canonical) :
    (parseQuery (Window.ofText q.text)).result = .ok q ∧
      (parseQuery (Window.ofText q.text)).window.current.kind = .eof := by
  obtain ⟨us, hd, hs⟩ := h.exists_spells [] [] .nil
  rw [List.append_nil, List.append_nil] at hs
  have htokens := hs.tokenize_eq
  rw [String.ofList_toList] at htokens
  obtain ⟨hok, hcurrent⟩ := parseQuery_of_feed (Progress.feed_start_iff.mpr hd)
    (htokens ▸ List.prefix_append _ _)
  refine ⟨hok, ?_⟩
  have hlast := congrArg (·[us.length]?) htokens
  simp only [List.getElem?_map, List.getElem?_append_right, List.length_map, Nat.le_refl,
    Nat.sub_self, List.getElem?_cons_zero, Option.map_eq_some_iff] at hlast
  obtain ⟨t, ht, hcontent⟩ := hlast
  rw [hcurrent, stream, List.getD_eq_getElem?_getD, ht]
  exact congrArg Prod.fst hcontent

/-- A query is canonical, or is read from its own text to the end, or is read from some text: it is
all of these or none. What is read from a text has a text of its own, which is read as the same
query and stays as it is. -/
theorem canonical_tfae (q : Query) :
    List.TFAE [q.Canonical,
      (parseQuery (Window.ofText q.text)).result = .ok q ∧
        (parseQuery (Window.ofText q.text)).window.current.kind = .eof,
      ∃ s, parse s = .ok q] ∧
    ∀ s, parse s = .ok q → parse q.text = .ok q ∧ ∀ r, parse q.text = .ok r → r.text = q.text := by
  refine ⟨?_, ?_⟩
  · tfae_have 1 → 2 := fun h => h.parse_text
    tfae_have 2 → 3 := fun h => ⟨q.text, h.1⟩
    tfae_have 3 → 1 := fun ⟨s, h⟩ => canonical_of_parse h
    tfae_finish
  · intro s hs
    have htext : parse q.text = .ok q := (canonical_of_parse hs).parse_text.1
    refine ⟨htext, ?_⟩
    intro r hr
    rw [htext] at hr
    cases hr
    rfl

end Criteria
