import Mathlib
import Criteria.Proofs.Token.Munch

/-!
# Criteria.Proofs.Token.Spacing

Tokens written down. `Spells ts cs` says that the characters are the lexemes of the tokens, with
blanks between them wherever one would go on with the next.

* `Token.content`: what a token says, its position left out.
* `Spells.tokenize_eq`: the text holds these tokens and no others.
* `exists_spells`: a blank after each token is always enough.
* `lexical_of_mem`: the tokens of any text can be written down.
-/

namespace Criteria

open Text

/-- What a token says, wherever it stands. -/
def Token.content (t : Token) : Token.Kind × String := (t.kind, t.literal)

/-- The lexemes in order, with blanks after each, and no NUL. Without a blank after it a token has
to end where it does. -/
inductive Spells : List Token → List Char → Prop where
  | nil : Spells [] []
  | cons {t : Token} {ts : List Token} {gap cs : List Char} (ht : t.Lexical)
      (hn : '\x00' ∉ t.lexeme) (hb : ∀ c ∈ gap, isBlank c) (hl : t.Longest (gap ++ cs))
      (h : Spells ts cs) : Spells (t :: ts) (t.lexeme ++ (gap ++ cs))

/-! ## Tokens wherever they stand -/

namespace Token

theorem content_eq {t u : Token} (h : t.content = u.content) : ∃ p, u = { t with pos := p } := by
  obtain ⟨hk, hl⟩ := Prod.mk.injEq .. ▸ h
  exact ⟨u.pos, by rw [hk, hl]⟩

theorem same_iff {t u : Token} : t.same u ↔ t.content = u.content := by
  simp [same, content]

/-- A token ends where no letter, digit or point follows. -/
theorem longest_of_head {t : Token} {rest : List Char}
    (h : ∀ c ∈ rest.head?, isWordChar c = false) : t.Longest rest := by
  have hdigit : ∀ c ∈ rest.head?, isDigit c = false := by
    intro c hc
    exact isDigit_of_isWordChar (h c hc)
  have hpoint : ∀ d ds, rest = '.' :: d :: ds → isDigit d = false := by
    rintro d ds rfl
    exact absurd (h '.' rfl) (by decide)
  unfold Longest
  split
  · exact h
  · exact h
  · exact ⟨hdigit, hpoint⟩
  · exact hdigit
  · trivial

end Token

/-! ## Reading back -/

namespace Munch

variable {n : Nat} {t : Token} {ts : List Token}

theorem front {shape rest : List Char} (hl : t.Leads shape rest) (hp : t.pos = n)
    (h : Munch (n + Utf8.length shape) rest ts) : Munch n (shape ++ rest) (t :: ts) := by
  have hnil : ∀ c ∈ ([] : List Char), isBlank c := by simp
  have hzero : n + Utf8.length [] = n := by simp
  rw [← hzero] at hp h
  exact .token hnil hl hp h

/-- Blanks in front of a text do not change what it holds. -/
theorem of_blanks {gap cs : List Char} (hb : ∀ c ∈ gap, isBlank c)
    (h : Munch (n + Utf8.length gap) cs ts) : Munch n (gap ++ cs) ts := by
  have hall : ∀ blanks : List Char, (∀ c ∈ blanks, isBlank c) → ∀ c ∈ gap ++ blanks, isBlank c := by
    intro blanks hb' c hc
    exact (List.mem_append.mp hc).elim (hb c) (hb' c)
  cases h with
  | done hb' =>
    have h := Munch.done (n := n) (hall _ hb')
    rwa [Utf8.length_append, ← Nat.add_assoc] at h
  | @token _ blanks shape rest t ts hb' hl hp h =>
    have hlen : n + Utf8.length gap + Utf8.length blanks = n + Utf8.length (gap ++ blanks) := by
      rw [Utf8.length_append, Nat.add_assoc]
    rw [hlen] at hp h
    rw [← List.append_assoc]
    exact .token (hall _ hb') hl hp h

end Munch

namespace Spells

variable {t : Token} {ts : List Token} {cs : List Char}

/-- No blank is needed where something follows that does not go on with the token. -/
theorem tight (ht : t.Lexical) (hn : '\x00' ∉ t.lexeme) (hl : t.Longest cs) (h : Spells ts cs) :
    Spells (t :: ts) (t.lexeme ++ cs) :=
  .cons ht hn (show ∀ c ∈ ([] : List Char), isBlank c by simp) hl h

theorem exists_munch (h : Spells ts cs) (n : Nat) :
    ∃ us, Munch n cs us ∧ us.map Token.content = ts.map Token.content ++ [(.eof, "")] := by
  induction h generalizing n with
  | nil => exact ⟨_, .done (by simp), rfl⟩
  | @cons t ts gap cs ht hn hb hl h ih =>
    obtain ⟨us, hm, hc⟩ := ih (n + Utf8.length t.lexeme + Utf8.length gap)
    have hlead : Token.Leads { t with pos := n } t.lexeme (gap ++ cs) := .of_lexeme rfl ht hl
    exact ⟨{ t with pos := n } :: us, .front hlead rfl (hm.of_blanks hb),
      by simp [hc, Token.content]⟩

theorem nul_not_mem (h : Spells ts cs) : '\x00' ∉ cs := by
  induction h with
  | nil => simp
  | @cons t ts gap cs ht hn hb hl h ih =>
    have hgap : '\x00' ∉ gap := fun hm => absurd (hb _ hm) (by decide)
    simp only [List.mem_append, not_or]
    exact ⟨hn, hgap, ih⟩

end Spells

/-! ## Texts -/

theorem visible_eq_self {cs : List Char} (h : '\x00' ∉ cs) : visible (String.ofList cs) = cs := by
  have hne : ∀ c ∈ cs, (c != '\x00') = true := by
    intro c hc
    rw [bne_iff_ne]
    rintro rfl
    exact h hc
  have hspan := (span_append hne (show ∀ c ∈ ([] : List Char).head?, _ by simp)).1
  rw [List.append_nil] at hspan
  rw [visible, String.toList_ofList, hspan]

theorem nul_not_mem_of_isWord {cs : List Char} (h : isWord cs) : '\x00' ∉ cs :=
  fun hm => absurd (isWordChar_of_isWord h _ hm) (by decide)

theorem not_mem_visible (s : String) : '\x00' ∉ visible s := by
  intro h
  exact bne_iff_ne.mp (all_of_takeWhile (· != '\x00') s.toList _ h) rfl

/-- Tokens that are written down are read back, also where blanks stand before them. -/
theorem Spells.tokenize_blanks {ts : List Token} {lead cs : List Char}
    (hb : ∀ c ∈ lead, isBlank c) (h : Spells ts cs) :
    (tokenize (String.ofList (lead ++ cs))).map Token.content =
      ts.map Token.content ++ [(.eof, "")] := by
  obtain ⟨us, hm, hc⟩ := h.exists_munch (0 + Utf8.length lead)
  have hlead : '\x00' ∉ lead := fun hn => absurd (hb _ hn) (by decide)
  have hvisible : visible (String.ofList (lead ++ cs)) = lead ++ cs := by
    refine visible_eq_self ?_
    rw [List.mem_append, not_or]
    exact ⟨hlead, h.nul_not_mem⟩
  have hmunch := hm.of_blanks hb
  rw [← hvisible] at hmunch
  rw [(munch_iff _ _).mp hmunch, hc]

theorem Spells.tokenize_eq {ts : List Token} {cs : List Char} (h : Spells ts cs) :
    (tokenize (String.ofList cs)).map Token.content = ts.map Token.content ++ [(.eof, "")] := by
  have hnone := h.tokenize_blanks (show ∀ c ∈ ([] : List Char), isBlank c by simp)
  rwa [List.nil_append] at hnone

theorem exists_spells {ts : List Token} (h : ∀ t ∈ ts, t.Lexical ∧ '\x00' ∉ t.lexeme) :
    ∃ cs, Spells ts cs := by
  induction ts with
  | nil => exact ⟨[], .nil⟩
  | cons t ts ih =>
    obtain ⟨cs, hcs⟩ := ih fun u hu => h u (List.mem_cons_of_mem _ hu)
    obtain ⟨ht, hn⟩ := h t (by simp)
    have hl : t.Longest ([' '] ++ cs) := Token.longest_of_head (by simp; decide)
    have hb : ∀ c ∈ [' '], isBlank c := by
      intro c hc
      rw [List.mem_singleton.mp hc]
      decide
    exact ⟨_, .cons ht hn hb hl hcs⟩

/-- Tokens of a text can be written down. -/
theorem lexical_of_mem {s : String} {t : Token} (h : t ∈ tokenize s) (hk : t.kind ≠ .eof) :
    t.Lexical ∧ '\x00' ∉ t.lexeme := by
  obtain ⟨us, hts, hus⟩ := ((munch_iff s _).mpr rfl).exists_split
  rw [hts, List.mem_append, List.mem_singleton] at h
  rcases h with h | rfl
  · obtain ⟨before, shape, after, hs, hl, -⟩ := hus t h
    have hshape : '\x00' ∉ shape := by
      intro hm
      exact not_mem_visible s (by simp [hs, hm])
    cases hl with
    | closed ht _ => exact ⟨ht, hshape⟩
    | unclosed hkind hq =>
      obtain ⟨kind, literal, pos⟩ := t
      subst hkind
      refine ⟨hq, ?_⟩
      simp only [List.mem_cons, not_or] at hshape
      simpa using hshape
  · exact absurd rfl hk

end Criteria
