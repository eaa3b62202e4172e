import Mathlib
import Criteria.Proofs.Query.Content

/-!
# Criteria.Proofs.Query.Layout

Blanks mean nothing beyond keeping tokens apart. `Spaced ts cs` says that the characters are the
lexemes of the tokens with a gap between every two.

* `Spaced.exists_spells`: spaced tokens spell what they are, since each lexeme ends before its gap.
* `parse_spaced`: the tokens of a text, spaced in any way, are the same tokens again, and are read
  as the text is.
-/

namespace Criteria

open Text

/-- The lexemes in order. Between every two of them is a gap of blanks, which need not be the same
each time. -/
inductive Spaced : List Token → List Char → Prop where
  | nil : Spaced [] []
  | single {t : Token} : Spaced [t] t.lexeme
  | cons {t u : Token} {ts : List Token} {gap cs : List Char} (hne : gap ≠ [])
      (hb : ∀ c ∈ gap, isBlank c) (h : Spaced (u :: ts) cs) :
      Spaced (t :: u :: ts) (t.lexeme ++ (gap ++ cs))

/-- Blanks go on with no token. -/
theorem Token.longest_gap {t : Token} {gap cs : List Char} (hb : ∀ c ∈ gap, isBlank c)
    (hne : gap ≠ [] ∨ cs = []) : t.Longest (gap ++ cs) := by
  refine longest_of_head ?_
  cases gap with
  | nil =>
    have hcs : cs = [] := hne.resolve_left (by simp)
    intro c hc
    rw [hcs] at hc
    cases hc
  | cons x xs =>
    intro c hc
    rw [List.cons_append, List.head?_cons, Option.mem_some_iff] at hc
    subst hc
    exact isWordChar_of_isBlank (hb _ (by simp))

/-- Blanks after the last token are its gap, or stand alone where there is no token. -/
theorem Spaced.exists_spells {ts : List Token} {cs trail : List Char} (h : Spaced ts cs)
    (ht : ∀ t ∈ ts, t.Lexical ∧ '\x00' ∉ t.lexeme) (hb : ∀ c ∈ trail, isBlank c) :
    ∃ lead cs', cs ++ trail = lead ++ cs' ∧ (∀ c ∈ lead, isBlank c) ∧ Spells ts cs' := by
  induction h with
  | nil => exact ⟨trail, [], by simp, hb, .nil⟩
  | @single t =>
    obtain ⟨hlex, hn⟩ := ht t (by simp)
    have hs := Spells.cons hlex hn hb (Token.longest_gap hb (.inr rfl)) .nil
    rw [List.append_nil] at hs
    exact ⟨[], _, rfl, by simp, hs⟩
  | @cons t u ts gap cs hne hgap _ ih =>
    obtain ⟨hlex, hn⟩ := ht t (by simp)
    obtain ⟨lead, cs', heq, hlead, hs⟩ := ih fun v hv => ht v (List.mem_cons_of_mem _ hv)
    have hblank : ∀ c ∈ gap ++ lead, isBlank c := by
      intro c hc
      exact (List.mem_append.mp hc).elim (hgap c) (hlead c)
    have hlong : t.Longest (gap ++ lead ++ cs') := Token.longest_gap hblank (.inl (by simp [hne]))
    refine ⟨[], _, ?_, by simp, .cons hlex hn hblank hlong hs⟩
    rw [List.append_assoc, List.append_assoc, heq, List.append_assoc, List.nil_append]

theorem tokenize_eq_filter (s : String) :
    tokenize s = (tokenize s).filter (·.kind ≠ .eof) ++
      [endOfInput (Utf8.length (visible s))] := by
  obtain ⟨ts, hts, hmem⟩ := ((munch_iff s _).mpr rfl).exists_split
  have hkind : ∀ t ∈ ts, t.kind ≠ .eof := by
    intro t ht
    obtain ⟨before, shape, after, -, hl, -⟩ := hmem t ht
    exact hl.kind_ne
  rw [Nat.zero_add] at hts
  rw [hts, List.filter_append, List.filter_eq_self.mpr (by simpa using hkind)]
  simp [endOfInput]

/-- The tokens of a text may be written down with any blanks before, between and after them, at
least one between two. They are read back as the same tokens, and the query is the same, or the
error. -/
theorem parse_spaced (s : String) (lead cs trail : List Char)
    (hs : Spaced ((tokenize s).filter (·.kind ≠ .eof)) cs) (hlead : ∀ c ∈ lead, isBlank c)
    (htrail : ∀ c ∈ trail, isBlank c) :
    List.Forall₂ (fun t u => t.same u) (tokenize (String.ofList (lead ++ cs ++ trail)))
        (tokenize s) ∧
      SameOutcome (parse (String.ofList (lead ++ cs ++ trail))) (parse s) := by
  have hlex : ∀ t ∈ (tokenize s).filter (·.kind ≠ .eof), t.Lexical ∧ '\x00' ∉ t.lexeme := by
    intro t ht
    obtain ⟨hmem, hk⟩ := List.mem_filter.mp ht
    exact lexical_of_mem hmem (by simpa using hk)
  obtain ⟨gap, cs', heq, hgap, hspells⟩ := hs.exists_spells hlex htrail
  have hblank : ∀ c ∈ lead ++ gap, isBlank c := by
    intro c hc
    exact (List.mem_append.mp hc).elim (hlead c) (hgap c)
  have hcontent : (tokenize (String.ofList (lead ++ cs ++ trail))).map Token.content =
      (tokenize s).map Token.content := by
    have hend := congrArg (List.map Token.content) (tokenize_eq_filter s)
    rw [List.map_append] at hend
    rw [List.append_assoc, heq, ← List.append_assoc, hspells.tokenize_blanks hblank, hend]
    rfl
  refine ⟨?_, parse_content hcontent⟩
  simp only [Token.same_iff]
  exact List.forall₂_map_left_iff.mp (List.forall₂_map_right_iff.mp (hcontent ▸ List.forall₂_refl _))

/-- No blank keeps these tokens apart, and the string has no closing quote. -/
theorem parse_spaced_tight :
    Spaced ((tokenize "eq(1.2.3\"b").filter (·.kind ≠ .eof)) "eq (\n\t1.2\r.3 \"b\"".toList ∧
      List.Forall₂ (fun t u => t.same u)
        (tokenize (String.ofList (['\n'] ++ "eq (\n\t1.2\r.3 \"b\"".toList ++ [' '])))
        (tokenize "eq(1.2.3\"b") ∧
      SameOutcome (parse (String.ofList (['\n'] ++ "eq (\n\t1.2\r.3 \"b\"".toList ++ [' '])))
        (parse "eq(1.2.3\"b") := by
  have htokens : (tokenize "eq(1.2.3\"b").filter (·.kind ≠ .eof) =
      [⟨.keyword (.comparator .eq), "", 0⟩, ⟨.lparen, "", 2⟩, ⟨.float, "1.2", 3⟩, ⟨.ident, ".3", 6⟩,
        ⟨.str, "b", 8⟩] := by cbv
  have hstring := Spaced.cons (t := ⟨.ident, ".3", 6⟩) (show [' '] ≠ [] by simp)
    (by simp [isBlank]) (.single (t := ⟨.str, "b", 8⟩))
  have hnumber := Spaced.cons (t := ⟨.float, "1.2", 3⟩) (show ['\r'] ≠ [] by simp)
    (by simp [isBlank]) hstring
  have hparen := Spaced.cons (t := ⟨.lparen, "", 2⟩) (show ['\n', '\t'] ≠ [] by simp)
    (by simp [isBlank]) hnumber
  have hword := Spaced.cons (t := ⟨.keyword (.comparator .eq), "", 0⟩) (show [' '] ≠ [] by simp)
    (by simp [isBlank]) hparen
  have hspaced : Spaced ((tokenize "eq(1.2.3\"b").filter (·.kind ≠ .eof))
      "eq (\n\t1.2\r.3 \"b\"".toList := by
    rw [htokens]
    simpa [Keyword.word, Comparator.word] using hword
  exact ⟨hspaced, parse_spaced _ _ _ _ hspaced (by simp [isBlank]) (by simp [isBlank])⟩

end Criteria
