import Mathlib
import Criteria.Proofs.Query.Extent
import Criteria.Query.Session

/-!
# Criteria.Proofs.Query.Joined

Texts of queries put one after the other. To read them as a list, and to read one query after the
other, gives the queries that each text gives alone.

* `Alone`: a text with a query and only blanks after it.
* `Joined`: such texts one after the other, each with a separator after it.
* `Joined.derivesAll` and `Joined.derives`: the tokens of the joined texts, with commas in the
  separators and without. Both go by induction from the last text to the first.
* `parse_joined`: the joined texts in the brackets of a list, and the same asked query by query.
-/

namespace Criteria

open Text

/-- A text that holds a query and only blanks after it. -/
structure Alone (s : String) (q : Query) : Prop where
  parses : parse s = .ok q
  blank : ∀ c ∈ s.toList.drop (queryEnd s), isBlank c

/-- Blanks, with one comma among them or none. -/
def Separator (cs : List Char) : Prop :=
  (∀ c ∈ cs, isBlank c ∨ c = ',') ∧ cs.count ',' ≤ 1

/-- Texts of the queries in order, each with a separator after it, which need not be the same each
time. -/
inductive Joined (Sep : List Char → Prop) : List Query → List Char → Prop where
  | nil : Joined Sep [] []
  | cons {s : String} {q : Query} {sep : List Char} {qs : List Query} {cs : List Char}
      (hs : Alone s q) (hsep : Sep sep) (h : Joined Sep qs cs) :
      Joined Sep (q :: qs) (s.toList ++ (sep ++ cs))

/-! ## Tokens -/

theorem Derives.content {us vs : List Token} {q : Query} (h : Derives us q)
    (hc : us.map Token.content = vs.map Token.content) : Derives vs q :=
  Progress.feed_start_iff.mp (Progress.feed_content hc (Progress.feed_start_iff.mpr h))

namespace Munch

variable {n : Nat} {ts : List Token}

theorem punctuation {c : Char} {k : Token.Kind} {cs : List Char}
    (hk : Lexeme.punctuation? c = some k) (h : Munch (n + Utf8.length [c]) cs ts) :
    Munch n (c :: cs) (⟨k, "", n⟩ :: ts) := by
  have hlead : Token.Leads ⟨k, "", n⟩ [c] cs := by
    unfold Lexeme.punctuation? at hk
    split at hk <;> cases hk <;> exact .of_lexeme (by simp) (by simp [Token.Lexical]) trivial
  exact front hlead rfl h

/-- A word in front of a bracket. -/
theorem keyword {k : Keyword} {cs : List Char}
    (h : Munch (n + Utf8.length k.word.toList) ('(' :: cs) ts) :
    Munch n (k.word.toList ++ '(' :: cs) (⟨.keyword k, "", n⟩ :: ts) := by
  have hlead : Token.Leads ⟨.keyword k, "", n⟩ k.word.toList ('(' :: cs) :=
    .of_lexeme (by simp) rfl (Token.longest_of_head (by simp; decide))
  exact front hlead rfl h

end Munch

namespace Alone

variable {s : String} {q : Query}

theorem exists_blanks (h : Alone s q) :
    ∃ front blanks us, s.toList = front ++ blanks ∧ Extent front us q ∧ ∀ c ∈ blanks, isBlank c := by
  obtain ⟨front, rest, us, hs, hx⟩ := exists_extent h.parses
  have hb := h.blank
  rw [hx.queryEnd_eq hs, hs, List.drop_left' rfl] at hb
  exact ⟨front, rest, us, hs, hx, hb⟩

theorem nul_not_mem (h : Alone s q) : '\x00' ∉ s.toList := by
  obtain ⟨front, blanks, us, hs, hx, hb⟩ := h.exists_blanks
  rw [hs, List.mem_append, not_or]
  exact ⟨hx.nul, fun hn => absurd (hb _ hn) (by decide)⟩

/-- The text holds tokens of its query wherever it stands, and leaves what follows alone. -/
theorem munch {n : Nat} {rest : List Char} {vs : List Token} (h : Alone s q)
    (hm : Munch (n + Utf8.length s.toList) rest vs) :
    ∃ us, Derives us q ∧ Munch n (s.toList ++ rest) (us ++ vs) := by
  obtain ⟨front, blanks, us, hs, hx, hb⟩ := h.exists_blanks
  obtain ⟨us', hc, hf⟩ := (hx.holds (blanks ++ rest)).moved n
  rw [hs, Utf8.length_append, ← Nat.add_assoc] at hm
  rw [hs, List.append_assoc]
  exact ⟨us', hx.derives.content hc.symm, hf.munch (hm.of_blanks hb)⟩

end Alone

namespace Separator

variable {sep : List Char}

theorem nul_not_mem (h : Separator sep) : '\x00' ∉ sep := by
  intro hn
  rcases h.1 _ hn with hb | hc
  · exact absurd hb (by decide)
  · exact absurd hc (by decide)

theorem cases_comma (h : Separator sep) :
    (∀ c ∈ sep, isBlank c) ∨
      ∃ before after, sep = before ++ ',' :: after ∧ (∀ c ∈ before, isBlank c) ∧
        ∀ c ∈ after, isBlank c := by
  obtain ⟨hchars, hcount⟩ := h
  by_cases hm : ',' ∈ sep
  · obtain ⟨before, after, rfl⟩ := List.append_of_mem hm
    rw [List.count_append, List.count_cons_self] at hcount
    have hbefore : ',' ∉ before := List.count_eq_zero.mp (by omega)
    have hafter : ',' ∉ after := List.count_eq_zero.mp (by omega)
    refine .inr ⟨before, after, rfl, ?_, ?_⟩
    · intro c hc
      exact (hchars c (by simp [hc])).resolve_right (by rintro rfl; exact hbefore hc)
    · intro c hc
      exact (hchars c (by simp [hc])).resolve_right (by rintro rfl; exact hafter hc)
  · left
    intro c hc
    exact (hchars c hc).resolve_right (by rintro rfl; exact hm hc)

theorem munch {n : Nat} {rest : List Char} {vs : List Token} (h : Separator sep)
    (hm : Munch (n + Utf8.length sep) rest vs) :
    Munch n (sep ++ rest) vs ∨ ∃ t : Token, t.kind = .comma ∧ Munch n (sep ++ rest) (t :: vs) := by
  rcases h.cases_comma with hb | ⟨before, after, rfl, hbefore, hafter⟩
  · exact .inl (hm.of_blanks hb)
  · rw [List.append_cons, Utf8.length_append, Utf8.length_append, ← Nat.add_assoc,
      ← Nat.add_assoc] at hm
    have hcomma := (hm.of_blanks hafter).punctuation (c := ',') rfl
    exact .inr ⟨_, rfl, by simpa using hcomma.of_blanks hbefore⟩

end Separator

namespace Joined

variable {n : Nat} {qs : List Query} {cs rest : List Char} {vs : List Token}

theorem nul_not_mem {Sep : List Char → Prop} (hsep : ∀ cs, Sep cs → '\x00' ∉ cs)
    (h : Joined Sep qs cs) : '\x00' ∉ cs := by
  induction h with
  | nil => simp
  | cons hs hc _ ih =>
    simp only [List.mem_append, not_or]
    exact ⟨hs.nul_not_mem, hsep _ hc, ih⟩

theorem derivesAll (h : Joined Separator qs cs) (hm : Munch (n + Utf8.length cs) rest vs) :
    ∃ us, DerivesAll us qs ∧ Munch n (cs ++ rest) (us ++ vs) := by
  induction h generalizing n with
  | nil => exact ⟨[], .nil, by simpa using hm⟩
  | @cons s q sep qs cs hs hsep _ ih =>
    rw [Utf8.length_append, Utf8.length_append, ← Nat.add_assoc, ← Nat.add_assoc] at hm
    obtain ⟨us, hall, hrest⟩ := ih hm
    rw [List.append_assoc, List.append_assoc]
    rcases hsep.munch hrest with hsep | ⟨t, hk, hsep⟩
    · obtain ⟨ts, hd, hmunch⟩ := hs.munch hsep
      exact ⟨ts ++ us, .item hd hall, by rwa [List.append_assoc]⟩
    · obtain ⟨ts, hd, hmunch⟩ := hs.munch hsep
      exact ⟨ts ++ t :: us, .itemComma hd hk hall, by simpa using hmunch⟩

theorem derives (h : Joined (fun sep => ∀ c ∈ sep, isBlank c) qs cs)
    (hm : Munch (n + Utf8.length cs) rest vs) :
    ∃ uss, List.Forall₂ Derives uss qs ∧ Munch n (cs ++ rest) (uss.flatten ++ vs) := by
  induction h generalizing n with
  | nil => exact ⟨[], .nil, by simpa using hm⟩
  | @cons s q sep qs cs hs hsep _ ih =>
    rw [Utf8.length_append, Utf8.length_append, ← Nat.add_assoc, ← Nat.add_assoc] at hm
    obtain ⟨uss, hall, hrest⟩ := ih hm
    rw [List.append_assoc, List.append_assoc]
    obtain ⟨ts, hd, hmunch⟩ := hs.munch (hrest.of_blanks hsep)
    exact ⟨ts :: uss, .cons hd hall, by simpa using hmunch⟩

end Joined

/-! ## Sessions -/

/-- At the end of input no query starts. -/
theorem parseQuery_of_nil {w : Window} (hw : w.tokens = []) :
    (parseQuery w).result = .error (.expected .comparator w.eof) := by
  have hcurrent : w.current = w.eof := by rw [Window.current, hw]; rfl
  have hk : w.current.kind = .eof := by rw [hcurrent]; rfl
  rw [← hcurrent]
  simp [parseQuery, parseFilter, hk]

/-- A session that is asked for one query more than there are. -/
theorem Session.run_queries {uss : List (List Token)} {qs : List Query}
    (h : List.Forall₂ Derives uss qs) (σ : Session) (hσ : σ.window.tokens = uss.flatten) :
    (σ.run (List.replicate (qs.length + 1) .query)).map Prod.fst =
      qs.map Reply.query ++ [.failed (.expected .comparator σ.window.eof)] := by
  induction h generalizing σ with
  | nil => simp [run, perform, parseQuery_of_nil hσ, Reply.of]
  | @cons us q uss qs hq _ ih =>
    obtain ⟨hresult, hwindow⟩ := Progress.parseQuery_of_derives hσ hq
    have hrest := ih { σ with window := (parseQuery σ.window).window } (by simp [hwindow])
    have heof : (parseQuery σ.window).window.eof = σ.window.eof := by rw [hwindow]; rfl
    rw [heof] at hrest
    rw [List.length_cons, List.replicate_succ, run, List.map_cons, perform, hresult, List.map_cons,
      List.cons_append]
    exact congrArg _ hrest

/-! ## Texts -/

/-- In the brackets of a list, joined texts derive the list of their queries, and then the text
ends. -/
theorem Joined.tokens_list {qs : List Query} {cs : List Char} (h : Joined Separator qs cs)
    (c : Combinator) {s : String}
    (hs : s.toList = (Keyword.combinator c).word.toList ++ '(' :: (cs ++ [')'])) :
    visible s = s.toList ∧ Derives (Window.ofText s).tokens (.group c qs) := by
  have hword := nul_not_mem_of_isWord (Keyword.isWord_word (.combinator c))
  have hcs := h.nul_not_mem fun _ => Separator.nul_not_mem
  have hvisible : visible s = s.toList := by
    rw [← String.ofList_toList (s := s), visible_eq_self, String.toList_ofList]
    rw [hs]
    simp [hword, hcs]
  have hend : ∀ n, Munch n [] [endOfInput n] := fun n => .done (by simp)
  have hclose : ∀ n, Munch n [')'] [⟨.rparen, "", n⟩, endOfInput (n + Utf8.length [')'])] :=
    fun n => (hend _).punctuation rfl
  obtain ⟨us, hall, hlist⟩ := h.derivesAll (hclose _)
  have hmunch := (hlist.punctuation (c := '(') rfl).keyword (k := .combinator c) (n := 0)
  rw [← hs, ← hvisible] at hmunch
  refine ⟨hvisible, ?_⟩
  have htokens : (Window.ofText s).tokens = _ :: _ :: (us ++ [_]) :=
    tokens_ofText (by simpa using hmunch)
  rw [htokens]
  exact .group rfl rfl hall rfl

/-- Texts of queries with nothing but blanks after each are put one after the other. With
separators that hold a comma or none, they are read as a list of their queries, to the end. With
blank separators a session gives one query after the other, and then refuses the end of input. -/
theorem parse_joined (qs : List Query) (cs : List Char) :
    (Joined Separator qs cs → ∀ c : Combinator,
      parse (c.word ++ "(" ++ String.ofList cs ++ ")") = .ok (.group c qs) ∧
      (parseQuery (Window.ofText (c.word ++ "(" ++ String.ofList cs ++ ")"))).window.current =
        endOfInput (Utf8.length (c.word ++ "(" ++ String.ofList cs ++ ")").toList)) ∧
    (Joined (fun sep => ∀ c ∈ sep, isBlank c) qs cs →
      ((Session.ofCursor (Cursor.ofText (String.ofList cs))).run
          (List.replicate (qs.length + 1) .query)).map Prod.fst =
        qs.map Session.Reply.query ++
          [.failed (.expected .comparator (endOfInput (Utf8.length cs)))]) := by
  refine ⟨?_, ?_⟩
  · intro h c
    obtain ⟨hvisible, hd⟩ := h.tokens_list c (s := c.word ++ "(" ++ String.ofList cs ++ ")")
      (by simp [String.toList_append, Keyword.word])
    obtain ⟨hresult, hwindow⟩ := Progress.parseQuery_of_derives (List.append_nil _).symm hd
    refine ⟨hresult, ?_⟩
    rw [← hvisible, ← eof_ofText, hwindow]
    rfl
  · intro h
    have hnul : '\x00' ∉ cs :=
      h.nul_not_mem fun sep hsep hn => absurd (hsep _ hn) (by decide)
    have hvisible := visible_eq_self hnul
    have hend : Munch (0 + Utf8.length cs) [] [endOfInput (0 + Utf8.length cs)] := .done (by simp)
    obtain ⟨uss, hall, hmunch⟩ := h.derives hend
    rw [List.append_nil, ← hvisible] at hmunch
    have hrun := Session.run_queries hall (Session.ofCursor (Cursor.ofText (String.ofList cs)))
      (tokens_ofText hmunch)
    have heof := eof_ofText (String.ofList cs)
    rw [hvisible] at heof
    rw [hrun, ← heof]
    rfl

/-- Two texts with nothing between them, and a comma after the second one. -/
theorem parse_joined_tight :
    (Joined Separator [.filter .eq "a" (.integer 1), .group .or []] "eq(a,1)\tor( ),".toList ∧
      ∀ c : Combinator,
        parse (c.word ++ "(" ++ String.ofList "eq(a,1)\tor( ),".toList ++ ")") =
          .ok (.group c [.filter .eq "a" (.integer 1), .group .or []]) ∧
        (parseQuery (Window.ofText
            (c.word ++ "(" ++ String.ofList "eq(a,1)\tor( ),".toList ++ ")"))).window.current =
          endOfInput (Utf8.length
            (c.word ++ "(" ++ String.ofList "eq(a,1)\tor( ),".toList ++ ")").toList)) ∧
    Joined (fun sep => ∀ c ∈ sep, isBlank c)
        [.filter .eq "a" (.integer 1), .group .or []] "eq(a,1)\tor( )".toList ∧
      ((Session.ofCursor (Cursor.ofText (String.ofList "eq(a,1)\tor( )".toList))).run
          (List.replicate 3 .query)).map Prod.fst =
        [.query (.filter .eq "a" (.integer 1)), .query (.group .or []),
          .failed (.expected .comparator (endOfInput (Utf8.length "eq(a,1)\tor( )".toList)))] := by
  have hfirst : Alone "eq(a,1)\t" (.filter .eq "a" (.integer 1)) := by
    have hrest : "eq(a,1)\t".toList.drop (queryEnd "eq(a,1)\t") = ['\t'] := by cbv
    exact ⟨by cbv, by rw [hrest]; simp [isBlank]⟩
  have hsecond : Alone "or( )" (.group .or []) := by
    have hrest : "or( )".toList.drop (queryEnd "or( )") = [] := by cbv
    exact ⟨by cbv, by rw [hrest]; simp⟩
  have hlist : Joined Separator [.filter .eq "a" (.integer 1), .group .or []]
      "eq(a,1)\tor( ),".toList := by
    have hnone : Separator [] := ⟨by simp, by simp⟩
    have hcomma : Separator [','] := ⟨by simp, by simp⟩
    simpa using Joined.cons hfirst hnone (.cons hsecond hcomma .nil)
  have hsession : Joined (fun sep => ∀ c ∈ sep, isBlank c)
      [.filter .eq "a" (.integer 1), .group .or []] "eq(a,1)\tor( )".toList := by
    have hnone : ∀ c ∈ ([] : List Char), isBlank c := by simp
    have hlast : Joined (fun sep => ∀ c ∈ sep, isBlank c) [.group .or []] _ :=
      .cons hsecond hnone .nil
    simpa using Joined.cons hfirst hnone hlast
  exact ⟨⟨hlist, (parse_joined _ _).1 hlist⟩, hsession, (parse_joined _ _).2 hsession⟩

end Criteria
