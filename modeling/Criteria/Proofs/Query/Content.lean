import Mathlib
import Criteria.Proofs.Query.Grammar
import Criteria.Proofs.Token.Spacing

/-!
# Criteria.Proofs.Query.Content

The steps of `Progress` read what tokens say and not where they stand, so that a query is read from
every text that starts with its tokens.

* `ParseError.Same`: errors that say the same.
* `Progress.step_content`, `Progress.step_same` and `Progress.feed_content`: one step that takes a
  token, one that refuses it, and a run.
* `parseQuery_of_feed`: tokens that are read as a query, at the start of any text.
* `parse_content`: texts whose tokens say the same are read alike.
-/

namespace Criteria

/-- Errors of one class that speak of the same token, text or feature, wherever it stands. -/
inductive ParseError.Same : ParseError → ParseError → Prop where
  | expected {what : Expectation} {t u : Token} (h : t.same u) :
      Same (.expected what t) (.expected what u)
  | numeral {what : Numeral} {literal : String} :
      Same (.numeral what literal) (.numeral what literal)
  | unsupported {feature : String} : Same (.unsupported feature) (.unsupported feature)

/-- The same query read, or the same error. -/
inductive SameOutcome : Except ParseError Query → Except ParseError Query → Prop where
  | query {q : Query} : SameOutcome (.ok q) (.ok q)
  | error {e e' : ParseError} (h : e.Same e') : SameOutcome (.error e) (.error e')

theorem Token.denotes_content {t u : Token} {v : Value} (h : t.content = u.content)
    (hv : Denotes t v) : Denotes u v := by
  obtain ⟨p, rfl⟩ := content_eq h
  cases hv with
  | identifier hk => exact .identifier hk
  | string hk => exact .string hk
  | boolean hk => exact .boolean hk
  | integer hk hn hv => exact .integer hk hn hv
  | float hk hf => exact .float hk hf

theorem Token.value_same {t u : Token} {e : ParseError} (h : t.content = u.content)
    (he : t.value = .error e) : ∃ e', u.value = .error e' ∧ e.Same e' := by
  have hsame := same_iff.mpr h
  obtain ⟨pos, rfl⟩ := content_eq h
  have hc : ∀ t : Token, (⟨[t], 0⟩ : Window).current = t := fun _ => rfl
  simp only [value, Window.value, hc] at he ⊢
  split at he
  · rename_i hk
    simp [Window.identifier, hc, hk, Except.map] at he
  · rename_i hk
    simp only [Window.integer, hc, hk, if_true] at he ⊢
    split at he <;> cases he
    rename_i hn
    exact ⟨_, by rw [if_neg hn], .numeral⟩
  · rename_i hk
    simp only [Window.float, hc, hk, if_true] at he ⊢
    split at he <;> cases he
    rename_i hf
    exact ⟨_, by rw [if_neg hf], .numeral⟩
  · rename_i hk
    simp [Window.string, hc, hk] at he
  · rename_i b hk
    simp [Window.boolean, hc, hk] at he
  · cases he
    exact ⟨_, by simp only [*], .expected hsame⟩

namespace Progress

/-! ## Steps -/

theorem step_content {p p' : Progress} {t u : Token} (h : t.content = u.content)
    (hs : p.step t = .ok p') : p.step u = .ok p' := by
  obtain ⟨pos, rfl⟩ := Token.content_eq h
  have hbegin : ∀ outer, begin outer t = .ok p' → begin outer { t with pos := pos } = .ok p' := by
    intro outer hb
    unfold begin at hb ⊢
    split at hb
    · rename_i c hk; simp only [hk]; exact hb
    · rename_i op hk; simp only [hk]; exact hb
    · cases hb
    · cases hb
  have hrequire : ∀ kind what r, require kind what r t = .ok p' →
      require kind what r { t with pos := pos } = .ok p' := by
    intro kind what r hr
    obtain ⟨hk, rfl⟩ := require_ok hr
    rw [require, if_pos hk]
  cases p with
  | start => exact hbegin _ hs
  | listOpen c outer => exact hrequire _ _ _ hs
  | items comma l outer =>
    simp only [step] at hs ⊢
    split at hs
    · rename_i hk
      rw [if_pos hk]
      exact hs
    · rename_i hk
      rw [if_neg hk]
      split at hs
      · rename_i hc
        rw [if_pos hc]
        exact hs
      · rename_i hc
        rw [if_neg hc]
        exact hbegin _ hs
  | filterOpen op outer => exact hrequire _ _ _ hs
  | field op outer => exact hrequire _ _ _ hs
  | fieldComma op name outer => exact hrequire _ _ _ hs
  | value op name outer =>
    simp only [step] at hs ⊢
    split at hs
    · cases hs
    · rename_i v hv
      have hu := Token.value_eq_ok_iff.mpr (Token.denotes_content h (Token.value_eq_ok_iff.mp hv))
      simp only [hu]
      exact hs
  | filterClose op name v outer => exact hrequire _ _ _ hs
  | finished q => cases hs

/-- What a step refuses it refuses wherever the token stands. -/
theorem step_same {p : Progress} {t u : Token} {e : ParseError} (h : t.content = u.content)
    (hs : p.step t = .error e) : ∃ e', p.step u = .error e' ∧ e.Same e' := by
  have hsame := Token.same_iff.mpr h
  have hk : u.kind = t.kind := (congrArg Prod.fst h).symm
  have hbegin : ∀ outer, begin outer t = .error e → ∃ e', begin outer u = .error e' ∧ e.Same e' := by
    intro outer hb
    unfold begin at hb ⊢
    rw [hk]
    split at hb
    · cases hb
    · cases hb
    · cases hb; exact ⟨_, rfl, .unsupported⟩
    · cases hb; exact ⟨_, rfl, .expected hsame⟩
  have hrequire : ∀ kind what r r', require kind what r t = .error e →
      ∃ e', require kind what r' u = .error e' ∧ e.Same e' := by
    intro kind what r r' hr
    unfold require at hr ⊢
    rw [hk]
    split at hr
    · cases hr
    · rename_i hne
      cases hr
      exact ⟨_, if_neg hne, .expected hsame⟩
  cases p with
  | start => exact hbegin _ hs
  | listOpen c outer => exact hrequire _ _ _ _ hs
  | items comma l outer =>
    simp only [step] at hs ⊢
    rw [hk]
    split at hs
    · cases hs
    · split at hs
      · cases hs
      · rename_i hp hc
        rw [if_neg hp, if_neg hc]
        exact hbegin _ hs
  | filterOpen op outer => exact hrequire _ _ _ _ hs
  | field op outer => exact hrequire _ _ _ _ hs
  | fieldComma op name outer => exact hrequire _ _ _ _ hs
  | value op name outer =>
    simp only [step] at hs ⊢
    split at hs
    · rename_i e₀ hv
      cases hs
      obtain ⟨e', hu, he⟩ := Token.value_same h hv
      exact ⟨e', by rw [hu], he⟩
    · cases hs
  | filterClose op name v outer => exact hrequire _ _ _ _ hs
  | finished q =>
    cases hs
    exact ⟨_, rfl, .expected hsame⟩

theorem feed_content {p p' : Progress} {ts us : List Token}
    (h : ts.map Token.content = us.map Token.content) (hf : p.feed ts = .ok p') :
    p.feed us = .ok p' := by
  induction ts generalizing p us with
  | nil =>
    rw [List.map_nil, eq_comm, List.map_eq_nil_iff] at h
    rw [h, hf]
  | cons t ts ih =>
    cases us with
    | nil => cases h
    | cons u us =>
      rw [List.map_cons, List.map_cons, List.cons_eq_cons] at h
      simp only [feed] at hf
      split at hf
      · cases hf
      · rename_i p₁ hs
        rw [feed_cons _ (step_content h.1 hs)]
        exact ih h.2 hf

end Progress

/-! ## Texts -/

/-- Tokens at the start of a text are those that its stream starts with. -/
theorem content_firstTokens {s : String} {ts : List Token}
    (hp : ts.map Token.content <+: (tokenize s).map Token.content) :
    ts.map Token.content = (firstTokens s ts.length).map Token.content := by
  have hlen : ts.length ≤ (tokenize s).length := by simpa using hp.length_le
  rw [firstTokens_eq_take hlen, List.map_take]
  simpa using List.prefix_iff_eq_take.mp hp

/-- What the steps read may stand at the start of any text. The reader stops right after it. -/
theorem parseQuery_of_feed {s : String} {ts : List Token} {q : Query}
    (hf : Progress.start.feed ts = .ok (.finished q))
    (hp : ts.map Token.content <+: (tokenize s).map Token.content) :
    (parseQuery (Window.ofText s)).result = .ok q ∧
      (parseQuery (Window.ofText s)).window.current = stream s ts.length := by
  have hfeed := Progress.feed_content (content_firstTokens hp) hf
  have hok := Progress.parseQuery_ok_iff.mpr ⟨_, hfeed⟩
  obtain ⟨n, hn, hcurrent, -⟩ := Progress.parseQuery_ok hok
  obtain ⟨rfl, -⟩ := Progress.finished_unique hn hfeed
  exact ⟨hok, hcurrent⟩

/-- A token that is refused where the steps have come to ends the reading of some text. -/
theorem exists_error {ts : List Token} {t : Token} {p : Progress} {e : ParseError}
    (hts : ∀ u ∈ ts ++ [t], u.Lexical ∧ '\x00' ∉ u.lexeme)
    (hf : Progress.start.feed ts = .ok p) (hs : p.step t = .error e)
    (hp : ∀ q, p ≠ .finished q) : ∃ s e', parse s = .error e' ∧ e.Same e' := by
  obtain ⟨cs, hcs⟩ := exists_spells hts
  have hprefix := List.prefix_append ((ts ++ [t]).map Token.content) [(.eof, "")]
  rw [← hcs.tokenize_eq] at hprefix
  have hfirst := content_firstTokens hprefix
  rw [List.length_append, List.length_singleton, firstTokens_succ, List.map_append,
    List.map_append] at hfirst
  obtain ⟨hbefore, hlast⟩ := List.append_inj' hfirst rfl
  obtain ⟨e', hs', he⟩ := Progress.step_same (List.singleton_inj.mp hlast) hs
  have hfeed := Progress.feed_content hbefore hf
  exact ⟨_, e', Progress.parseQuery_error_iff.mpr ⟨_, p, hfeed, hs', hp⟩, he⟩

/-- Streams that say the same, where the lists of tokens do. -/
theorem stream_content {s s' : String}
    (h : (tokenize s).map Token.content = (tokenize s').map Token.content) (n : Nat) :
    (stream s n).content = (stream s' n).content := by
  calc (stream s n).content
      _ = ((tokenize s).map Token.content).getD n (endOfInput _).content :=
        (List.getD_map _ _ Token.content).symm
      _ = ((tokenize s').map Token.content).getD n (endOfInput _).content := by rw [h]; rfl
      _ = (stream s' n).content := List.getD_map _ _ Token.content

/-- What a text is read as depends on what its tokens say. -/
theorem parse_content {s s' : String}
    (h : (tokenize s).map Token.content = (tokenize s').map Token.content) :
    SameOutcome (parse s) (parse s') := by
  have hfirst : ∀ n, (firstTokens s n).map Token.content = (firstTokens s' n).map Token.content := by
    intro n
    rw [firstTokens, firstTokens, List.map_map, List.map_map]
    exact List.map_congr_left fun i _ => stream_content h i
  cases hr : parse s with
  | ok q =>
    obtain ⟨n, hn⟩ := Progress.parseQuery_ok_iff.mp hr
    have hr' : parse s' = .ok q :=
      Progress.parseQuery_ok_iff.mpr ⟨n, Progress.feed_content (hfirst n) hn⟩
    rw [hr']
    exact .query
  | error e =>
    obtain ⟨n, p, hn, hs, hp⟩ := Progress.parseQuery_error_iff.mp hr
    obtain ⟨e', hs', he⟩ := Progress.step_same (stream_content h n) hs
    have hr' : parse s' = .error e' :=
      Progress.parseQuery_error_iff.mpr ⟨n, p, Progress.feed_content (hfirst n) hn, hs', hp⟩
    rw [hr']
    exact .error he

end Criteria
