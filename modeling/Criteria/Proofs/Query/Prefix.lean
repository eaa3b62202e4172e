import Mathlib
import Criteria.Proofs.Query.Content

/-!
# Criteria.Proofs.Query.Prefix

Where a text stops being a query. Every progress can still be completed, so an error comes at the
first token with which no query goes on.

* `ParseError.Blames`: the token that an error speaks of.
* `Progress.completion`: tokens that bring a progress to its end, the open lists closed.
* `parse_error_earliest`: the tokens before the one that is blamed start some query, and together
  with it they start none.
-/

namespace Criteria

/-- The token that an error speaks of. -/
def ParseError.Blames (e : ParseError) (t : Token) : Prop :=
  match e with
  | .expected _ found => found = t
  | .numeral .integer literal => t.kind = .int ∧ literal = t.literal
  | .numeral .float literal => t.kind = .float ∧ literal = t.literal
  | .unsupported feature => ∃ r : Reserved, t.kind = .keyword (.reserved r) ∧ feature = r.word
  | .numeral .number _ | .other _ => False

/-- Some query starts with the first `k` tokens of the text. -/
def StartsQuery (s : String) (k : Nat) : Prop :=
  ∃ s' q, ((tokenize s).take k).map Token.content <+: (tokenize s').map Token.content ∧
    parse s' = .ok q

namespace Token

theorem value_blames {t : Token} {e : ParseError} (h : t.value = .error e) : e.Blames t := by
  have hc : (⟨[t], 0⟩ : Window).current = t := rfl
  rw [value, Window.value] at h
  simp only [hc] at h
  split at h
  · rename_i hk
    simp [Window.identifier, hc, hk, Except.map] at h
  · rename_i hk
    rw [Window.integer, hc, if_pos hk] at h
    dsimp only at h
    split at h <;> cases h
    exact ⟨hk, rfl⟩
  · rename_i hk
    rw [Window.float, hc, if_pos hk] at h
    dsimp only at h
    split at h <;> cases h
    exact ⟨hk, rfl⟩
  · rename_i hk
    simp [Window.string, hc, hk] at h
  · rename_i b hk
    simp [Window.boolean, hc, hk] at h
  · cases h
    rfl

end Token

namespace Progress

/-! ## Errors -/

theorem begin_blames {outer : List OpenList} {t : Token} {e : ParseError}
    (h : begin outer t = .error e) : e.Blames t := by
  unfold begin at h
  split at h
  · cases h
  · cases h
  · rename_i r hk
    cases h
    exact ⟨r, hk, rfl⟩
  · cases h
    rfl

theorem require_blames {kind : Token.Kind} {what : Expectation} {p : Progress} {t : Token}
    {e : ParseError} (h : require kind what p t = .error e) : e.Blames t := by
  unfold require at h
  split at h <;> cases h
  rfl

/-- A step that fails blames the token that it was to take. -/
theorem step_blames {p : Progress} {t : Token} {e : ParseError} (h : p.step t = .error e) :
    e.Blames t := by
  cases p with
  | start => exact begin_blames h
  | listOpen c outer => exact require_blames h
  | items comma l outer =>
    simp only [step] at h
    split at h
    · cases h
    · split at h
      · cases h
      · exact begin_blames h
  | filterOpen op outer => exact require_blames h
  | field op outer => exact require_blames h
  | fieldComma op name outer => exact require_blames h
  | value op name outer =>
    simp only [step] at h
    split at h
    · rename_i e' hv
      cases h
      exact Token.value_blames hv
    · cases h
  | filterClose op name v outer => exact require_blames h
  | finished q => cases h; rfl

/-! ## Completions -/

theorem feed_of_append {p p' : Progress} {ts us : List Token} (h : p.feed (ts ++ us) = .ok p') :
    ∃ p₁, p.feed ts = .ok p₁ := by
  induction ts generalizing p with
  | nil => exact ⟨p, rfl⟩
  | cons t ts ih =>
    rw [List.cons_append] at h
    simp only [feed] at h
    split at h
    · cases h
    · rename_i p₁ hs
      rw [feed_cons _ hs]
      exact ih h

/-- Any name will do, as a field and as a value. -/
def anyName : Token := { kind := .ident, literal := "a" }

def lparen : Token := { kind := .lparen }

def comma : Token := { kind := .comma }

def rparen : Token := { kind := .rparen }

/-- A bracket for each open list. -/
def closing (outer : List OpenList) : List Token := outer.map fun _ => rparen

/-- Tokens that complete a query. -/
def completion : Progress → List Token
  | .start => [{ kind := .keyword (.combinator .and) }, lparen, rparen]
  | .listOpen _ outer => lparen :: rparen :: closing outer
  | .items _ _ outer => rparen :: closing outer
  | .filterOpen _ outer => lparen :: anyName :: comma :: anyName :: rparen :: closing outer
  | .field _ outer => anyName :: comma :: anyName :: rparen :: closing outer
  | .fieldComma _ _ outer => comma :: anyName :: rparen :: closing outer
  | .value _ _ outer => anyName :: rparen :: closing outer
  | .filterClose _ _ _ outer => rparen :: closing outer
  | .finished _ => []

theorem feed_closing (q : Query) (outer : List OpenList) :
    ∃ r, (completed q outer).feed (closing outer) = .ok (.finished r) := by
  induction outer generalizing q with
  | nil => exact ⟨q, rfl⟩
  | cons l ls ih =>
    obtain ⟨r, hr⟩ := ih (.group l.combinator (l.items ++ [q]))
    refine ⟨r, ?_⟩
    rw [completed, closing, List.map_cons, feed_cons]
    · exact hr
    · simp [step, rparen]

theorem feed_completion (p : Progress) : ∃ q, p.feed p.completion = .ok (.finished q) := by
  cases p with
  | start => exact ⟨.group .and [], rfl⟩
  | listOpen c outer => exact feed_closing (.group c []) outer
  | items comma l outer => exact feed_closing (.group l.combinator l.items) outer
  | filterOpen op outer => exact feed_closing (.filter op "a" (.identifier "a")) outer
  | field op outer => exact feed_closing (.filter op "a" (.identifier "a")) outer
  | fieldComma op name outer => exact feed_closing (.filter op name (.identifier "a")) outer
  | value op name outer => exact feed_closing (.filter op name (.identifier "a")) outer
  | filterClose op name v outer => exact feed_closing (.filter op name v) outer
  | finished q => exact ⟨q, rfl⟩

theorem closing_eq {outer : List OpenList} {t : Token} (h : t ∈ closing outer) : t = rparen := by
  obtain ⟨-, -, rfl⟩ := List.mem_map.mp h
  rfl

theorem completion_eq {p : Progress} {t : Token} (h : t ∈ p.completion) :
    t = { kind := .keyword (.combinator .and) } ∨ t = lparen ∨ t = anyName ∨ t = comma ∨
      t = rparen := by
  cases p <;> simp only [completion, List.mem_cons, List.not_mem_nil, or_false] at h <;>
    grind [closing_eq]

/-- The tokens of a completion can be written. -/
theorem completion_lexical {p : Progress} {t : Token} (h : t ∈ p.completion) :
    t.Lexical ∧ '\x00' ∉ t.lexeme := by
  have hword : ∀ k : Keyword, k.word ≠ "a" := by
    rw [← Keyword.ofWord?_eq_none_iff]
    decide
  rcases completion_eq h with rfl | rfl | rfl | rfl | rfl
  · refine ⟨rfl, ?_⟩
    rw [Token.lexeme_keyword]
    decide
  · exact ⟨rfl, by simp [lparen]⟩
  · refine ⟨⟨?_, hword⟩, ?_⟩
    · decide
    · simp [anyName]
  · exact ⟨rfl, by simp [comma]⟩
  · exact ⟨rfl, by simp [rparen]⟩

end Progress

/-! ## Texts -/

/-- Texts that start with the same tokens have streams that do. -/
theorem firstTokens_content {s s' : String} {k n : Nat} (hk : k < (tokenize s).length)
    (h : ((tokenize s).take (k + 1)).map Token.content <+: (tokenize s').map Token.content)
    (hn : n ≤ k + 1) :
    (firstTokens s' n).map Token.content = (firstTokens s n).map Token.content := by
  have hlen := h.length_le
  rw [List.length_map, List.length_map, List.length_take, Nat.min_eq_left hk] at hlen
  have heq := List.prefix_iff_eq_take.mp h
  rw [List.length_map, List.length_take, Nat.min_eq_left hk] at heq
  rw [firstTokens_eq_take (by omega), firstTokens_eq_take (by omega), List.map_take, List.map_take,
    ← Nat.min_eq_left hn, ← List.take_take, ← heq, List.map_take, List.take_take]

/-- The end of input is the last token only. -/
theorem kind_of_mem_take {s : String} {n : Nat} {t : Token} (hn : n < (tokenize s).length)
    (h : t ∈ (tokenize s).take n) : t.kind ≠ .eof := by
  obtain ⟨us, hts, hus⟩ := ((munch_iff s _).mpr rfl).exists_split
  rw [hts, List.length_append, List.length_singleton] at hn
  rw [hts, List.take_append_of_le_length (by omega)] at h
  obtain ⟨before, shape, after, -, hl, -⟩ := hus t (List.mem_of_mem_take h)
  exact hl.kind_ne

/-- Tokens that led to a progress start some query. -/
theorem startsQuery_of_feed {s : String} {n : Nat} {p : Progress} (hn : n < (tokenize s).length)
    (hf : Progress.start.feed ((tokenize s).take n) = .ok p) : StartsQuery s n := by
  obtain ⟨q, hq⟩ := p.feed_completion
  have hlexical : ∀ t ∈ (tokenize s).take n ++ p.completion, t.Lexical ∧ '\x00' ∉ t.lexeme := by
    intro t ht
    rcases List.mem_append.mp ht with ht | ht
    · exact lexical_of_mem (List.mem_of_mem_take ht) (kind_of_mem_take hn ht)
    · exact Progress.completion_lexical ht
  obtain ⟨cs, hcs⟩ := exists_spells hlexical
  have hprefix := List.prefix_append
    (((tokenize s).take n ++ p.completion).map Token.content) [(.eof, "")]
  rw [← hcs.tokenize_eq] at hprefix
  refine ⟨String.ofList cs, q, ?_,
    (parseQuery_of_feed (by rw [Progress.feed_append _ hf, hq]) hprefix).1⟩
  rw [List.map_append] at hprefix
  exact (List.prefix_append _ _).trans hprefix

/-- An error blames the first token with which the text stops being the start of a query: some
query starts with the tokens before it, and none with it after them. -/
theorem parse_error_earliest (s : String) (e : ParseError) (h : parse s = .error e) :
    ∃ k t, (tokenize s)[k]? = some t ∧ e.Blames t ∧ StartsQuery s k ∧ ¬StartsQuery s (k + 1) := by
  obtain ⟨k, p, hk, hf, hs, -⟩ := Progress.parseQuery_error h
  have hget : stream s k = (tokenize s)[k] := by
    rw [stream, List.getD_eq_getElem?_getD, List.getElem?_eq_getElem hk]
    rfl
  refine ⟨k, stream s k, by rw [hget, List.getElem?_eq_getElem hk], Progress.step_blames hs,
    startsQuery_of_feed hk (by rw [← firstTokens_eq_take (by omega), hf]), ?_⟩
  rintro ⟨s', q, hs', hq⟩
  obtain ⟨n, hn, -⟩ := Progress.parseQuery_ok hq
  rcases Nat.lt_or_ge (k + 1) n with hlt | hge
  · -- the blamed token is taken on the way to `q`
    obtain ⟨us, hus⟩ := firstTokens_split hlt
    rw [hus] at hn
    obtain ⟨p', hp'⟩ := Progress.feed_of_append hn
    have hsame := Progress.feed_content (firstTokens_content hk hs' (Nat.le_refl _)) hp'
    rw [Progress.feed_firstTokens_error hf hs (Nat.lt_succ_self k)] at hsame
    cases hsame
  · -- `q` ends before that token
    have hsame := Progress.feed_content (firstTokens_content hk hs' hge) hn
    have hq' : parse s = .ok q := Progress.parseQuery_ok_iff.mpr ⟨n, hsame⟩
    rw [h] at hq'
    cases hq'

theorem stray_comma_earliest :
    parse "or(," = .error (.expected .comparator { kind := .comma, pos := 3 }) ∧
      ∃ k t, (tokenize "or(,")[k]? = some t ∧
        (ParseError.expected .comparator { kind := .comma, pos := 3 }).Blames t ∧
        StartsQuery "or(," k ∧ ¬StartsQuery "or(," (k + 1) :=
  ⟨by cbv, parse_error_earliest "or(," _ (by cbv)⟩

end Criteria
