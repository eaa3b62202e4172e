import Mathlib
import Criteria.Proofs.Query.Literal
import Criteria.Proofs.Query.Prefix
import Criteria.Proofs.Query.Simulation

/-!
# Criteria.Proofs.Query.Stops

How reading a query comes to its end, from every state that a machine can reach.

* `ParseError.StoppedBy`: the errors that there are, each with what is wrong with its token.
* `parseQuery_stopped`: a reading is stopped in these ways only, by a token in sight.
* `exists_stopped` and `exists_token_of_name`: every token that can stop the reading stops that of
  some text, and there is one for the name of each class.
* `Machine.Consumes`: the machine moves on over three tokens or more, and never over the end.
* `Machine.Ends` and `Machine.Sees.ends`: what the reading of a query comes to in any state.
* `parse_stops`: the descent ends in every state, each turn of its loop moves on or fails, and the
  errors are those of nine classes, none of which is missing, and the one for a surrogate.
-/

namespace Criteria

open Text

/-- The token `t` stops the reading with the error. A reserved word is reported as it is written; a
numeral is well formed, but its value or its length is too large. -/
inductive ParseError.StoppedBy (t : Token) : ParseError → Prop where
  | query (hc : ∀ c, t.kind ≠ .keyword (.combinator c))
      (ho : ∀ op, t.kind ≠ .keyword (.comparator op)) (hr : ∀ r, t.kind ≠ .keyword (.reserved r)) :
      StoppedBy t (.expected .comparator t)
  | reserved {r : Reserved} {feature : String} (hk : t.kind = .keyword (.reserved r))
      (hf : Keyword.ofWord? feature = some (.reserved r)) : StoppedBy t (.unsupported feature)
  | lparen (hk : t.kind ≠ .lparen) : StoppedBy t (.expected .lparen t)
  | rparen (hk : t.kind ≠ .rparen) : StoppedBy t (.expected .rparen t)
  | comma (hk : t.kind ≠ .comma) : StoppedBy t (.expected .comma t)
  | identifier (hk : t.kind ≠ .ident) : StoppedBy t (.expected .identifier t)
  | value (hk : (⟨[t], 0⟩ : Window).hasValue = false) : StoppedBy t (.expected .value t)
  | integer {ds : List Char} (h : (⟨[t], 0⟩ : Window).OnInteger ds)
      (hd : 4300 < ds.length ∨ 2 ^ 63 - 1 < wholeValue ds) :
      StoppedBy t (.numeral .integer (String.ofList ds))
  | float {i f : List Char} (h : (⟨[t], 0⟩ : Window).OnFloat i f)
      (hd : 2 ^ 1024 - 2 ^ 970 ≤ fixedValue (i ++ '.' :: f)) :
      StoppedBy t (.numeral .float (String.ofList (i ++ '.' :: f)))

/-- The names of their classes. -/
def stopNames : List String :=
  ["NotImplementedFeatureError", "ExpectedFilterTokenError", "ExpectedLparenError",
    "ExpectedIdentifierTokenError", "ExpectedCommaError", "ExpectedValueTokenError",
    "ExpectedRparenError", "ParseIntError", "ParseFloatError"]

theorem ParseError.StoppedBy.name_mem {t : Token} {e : ParseError} (h : e.StoppedBy t) :
    e.name ∈ stopNames := by
  cases h <;> simp [stopNames, ParseError.name, Expectation.errorName, Numeral.errorName]

theorem ParseError.Same.name_eq {e e' : ParseError} (h : e.Same e') : e.name = e'.name := by
  cases h <;> rfl

/-- The narrowest class of an error is its own, and all of them are of one class. -/
theorem ParseError.name_classes (e : ParseError) :
    e.classes.head? = some e.name ∧ "ParserError" ∈ e.classes := by
  cases e with
  | expected what found => cases what <;> simp [classes, Expectation.classes, name]
  | numeral what literal => cases what <;> simp [classes, Numeral.classes, name]
  | unsupported feature => simp [classes, name]
  | other reason => simp [classes, name]

/-! ## Steps that are refused -/

theorem Token.value_stopped {t : Token} {e : ParseError} (ht : t.kind ≠ .eof → t.Lexical)
    (h : t.value = .error e) : e.StoppedBy t := by
  have hc : (⟨[t], 0⟩ : Window).current = t := rfl
  cases hk : t.kind with
  | int =>
    have hlex : t.Lexical := ht (by rw [hk]; simp)
    rw [Lexical, hk] at hlex
    have hint : (⟨[t], 0⟩ : Window).OnInteger t.literal.toList :=
      ⟨hlex, hk, by rw [hc, String.ofList_toList]⟩
    rw [value_of_int hk, hint.integer_eq] at h
    split at h
    · cases h
    · rename_i hlarge
      cases h
      exact .integer hint (by omega)
  | float =>
    have hlex : t.Lexical := ht (by rw [hk]; simp)
    rw [Lexical, hk] at hlex
    obtain ⟨i, f, hlit, hi, hf⟩ := hlex
    have hfloat : (⟨[t], 0⟩ : Window).OnFloat i f :=
      ⟨hi, hf, hk, by rw [hc, ← hlit, String.ofList_toList]⟩
    rw [value_of_float hk, hfloat.float_eq] at h
    split at h
    · cases h
    · rename_i hlarge
      cases h
      exact .float hfloat (not_lt.mp (mt (Binary64.isFinite_ofNumeral hi hf).mpr hlarge))
  | ident => simp [Token.value, Window.value, Window.identifier, hc, hk, Except.map] at h
  | str => simp [Token.value, Window.value, Window.string, hc, hk] at h
  | keyword k =>
    cases k with
    | truth b => simp [Token.value, Window.value, Window.boolean, hc, hk] at h
    | comparator _ | combinator _ | reserved _ =>
      simp only [Token.value, Window.value, hc, hk] at h
      cases h
      exact .value (by simp [Window.hasValue, hc, hk])
  | illegal | eof | plus | minus | comma | lparen | rparen =>
    simp only [Token.value, Window.value, hc, hk] at h
    cases h
    exact .value (by simp [Window.hasValue, hc, hk])

/-- A token in sight stops the reading with the error. -/
def Window.StoppedBy (w : Window) (e : ParseError) : Prop :=
  e.StoppedBy w.current ∨ e.StoppedBy w.peek

section Refused

variable {w : Window} {e : ParseError}

theorem Window.expect_stopped {kind : Token.Kind} {what : Expectation}
    (hs : ∀ t : Token, t.kind ≠ kind → (ParseError.expected what t).StoppedBy t)
    (h : w.expect kind what = .error e) : w.StoppedBy e := by
  unfold Window.expect at h
  split at h
  · cases h
  · rename_i hk
    cases h
    exact .inr (hs _ hk)

theorem Window.identifier_stopped (h : w.identifier = .error e) : w.StoppedBy e := by
  unfold Window.identifier at h
  split at h
  · cases h
  · rename_i hk
    cases h
    exact .inl (.identifier hk)

theorem Window.value_stopped (hlex : w.Lexical) (h : w.value = .error e) : w.StoppedBy e := by
  rw [Window.value_eq] at h
  exact .inl (Token.value_stopped hlex.current h)

theorem parseFilter_stopped (hlex : w.Lexical)
    (hc : ∀ c, w.current.kind ≠ .keyword (.combinator c))
    (hr : ∀ r, w.current.kind ≠ .keyword (.reserved r))
    (h : (parseFilter w).result = .error e) : (parseFilter w).window.StoppedBy e := by
  unfold parseFilter at h ⊢
  split
  · rename_i op hk
    simp only [hk] at h
    split
    · rename_i he
      rw [he] at h
      cases h
      exact Window.expect_stopped (fun _ => .lparen) he
    · rename_i bracket hb
      simp only [hb] at h ⊢
      split
      · rename_i he
        rw [he] at h
        cases h
        exact Window.identifier_stopped he
      · rename_i field hf
        simp only [hf] at h
        split
        · rename_i he
          rw [he] at h
          cases h
          exact Window.expect_stopped (fun _ => .comma) he
        · rename_i comma hcomma
          simp only [hcomma] at h
          have honward : w.Onward comma.advance :=
            (((Window.onward_expect hb).trans (Window.onward_advance bracket)).trans
              (Window.onward_expect hcomma)).trans (Window.onward_advance comma)
          split
          · rename_i he
            rw [he] at h
            cases h
            exact Window.value_stopped (hlex.onward honward) he
          · rename_i value hv
            simp only [hv] at h
            split
            · rename_i he
              rw [he] at h
              cases h
              exact Window.expect_stopped (fun _ => .rparen) he
            · rename_i hclose
              rw [hclose] at h
              cases h
  · rename_i ho
    split at h
    · rename_i op hk
      exact absurd hk (ho op)
    · cases h
      exact .inl (.query hc ho hr)

/-- The induction is on the tokens left, as the list reader's own recursion is. -/
theorem parseItems_stopped (outer : List OpenList) (done : List Query) (hlex : w.Lexical)
    (h : (parseItems outer done w).result = .error e) :
    (parseItems outer done w).window.StoppedBy e := by
  fun_induction parseItems outer done w with
  | case1 done w hk => cases h
  | case2 done w hk l ls next ih =>
    exact ih (hlex.onward ((Window.onward_advance w).trans (Window.onward_skipComma _))) h
  | case3 outer done w c hk e' ho =>
    cases h
    exact Window.expect_stopped (fun _ => .lparen) (Window.openList_error ho)
  | case4 outer done w c hk inner ho ih => exact ih (hlex.onward (Window.onward_openList ho)) h
  | case5 outer done w r hk =>
    cases h
    exact .inl (.reserved hk (Keyword.ofWord?_word (.reserved r)))
  | case6 outer done w e' hf hp hc hr =>
    cases h
    exact parseFilter_stopped hlex hc hr hf
  | case7 outer done w q hf next hp hc hr ih =>
    have honward := (parseFilter_steady w).onward_window.trans (Window.onward_skipComma _)
    exact ih (hlex.onward honward) h

/-- What ends a reading is one of the errors that there are. -/
theorem parseQuery_stopped (hlex : w.Lexical) (h : (parseQuery w).result = .error e) :
    (parseQuery w).window.StoppedBy e := by
  rcases w.cases_query with ⟨c, hk⟩ | ⟨r, hk⟩ | ⟨hc, hr⟩
  · simp only [parseQuery, hk, parseList] at h ⊢
    cases ho : w.openList with
    | error e' =>
      rw [ho] at h
      cases h
      exact Window.expect_stopped (fun _ => .lparen) (Window.openList_error ho)
    | ok inner =>
      rw [ho] at h
      refine parseItems_stopped [] [] (hlex.onward (Window.onward_openList ho)) ?_
      simp only [Reading.map] at h
      cases hi : (parseItems [] [] inner).result with
      | error e' => rw [hi] at h; cases h; rfl
      | ok qs => rw [hi] at h; cases h
  · simp only [parseQuery, hk] at h ⊢
    cases h
    exact .inl (.reserved hk (Keyword.ofWord?_word (.reserved r)))
  · rw [parseQuery_filter hc hr] at h ⊢
    exact parseFilter_stopped hlex hc hr h

end Refused

/-! ## Tokens that stop the reading -/

namespace Progress

/-- The tokens of `eq(a,a)`. -/
def filterTokens : List Token :=
  { kind := .keyword (.comparator .eq) } :: (filterOpen .eq []).completion

theorem filterTokens_lexical {t : Token} (h : t ∈ filterTokens) :
    t.Lexical ∧ '\x00' ∉ t.lexeme := by
  rcases List.mem_cons.mp h with rfl | h
  · refine ⟨rfl, ?_⟩
    rw [Token.lexeme_keyword]
    decide
  · exact completion_lexical h

end Progress

section Stopped

variable {t : Token} {e : ParseError}

/-- The reading of `eq(a,a)` can be stopped after any of its tokens. -/
theorem exists_error_after (k : Nat) {p : Progress} (ht : t.Lexical) (hn : '\x00' ∉ t.lexeme)
    (hf : Progress.start.feed (Progress.filterTokens.take k) = .ok p) (hs : p.step t = .error e)
    (hp : ∀ q, p ≠ .finished q) : ∃ s e', parse s = .error e' ∧ e.Same e' := by
  refine exists_error ?_ hf hs hp
  intro u hu
  rcases List.mem_append.mp hu with hu | hu
  · exact Progress.filterTokens_lexical (List.mem_of_mem_take hu)
  · rw [List.mem_singleton.mp hu]
    exact ⟨ht, hn⟩

theorem exists_value_error (ht : t.Lexical) (hn : '\x00' ∉ t.lexeme) (hv : t.value = .error e) :
    ∃ s e', parse s = .error e' ∧ e.Same e' := by
  have hs : (Progress.value .eq "a" []).step t = .error e := by simp only [Progress.step, hv]
  exact exists_error_after 4 ht hn rfl hs (by simp)

/-- Every token that can stop the reading does so in some text. -/
theorem exists_stopped (ht : t.Lexical) (hn : '\x00' ∉ t.lexeme) (h : e.StoppedBy t) :
    ∃ s e', parse s = .error e' ∧ e.Same e' := by
  cases h with
  | query hc ho hr =>
    refine exists_error_after 0 ht hn rfl (p := .start) ?_ (by simp)
    rw [Progress.step, Progress.begin]
    split
    · rename_i c hk; exact absurd hk (hc c)
    · rename_i op hk; exact absurd hk (ho op)
    · rename_i r hk; exact absurd hk (hr r)
    · rfl
  | @reserved r feature hk hf =>
    obtain rfl : r.word = feature := Keyword.ofWord?_eq_some_iff.mp hf
    refine exists_error_after 0 ht hn rfl (p := .start) ?_ (by simp)
    rw [Progress.step, Progress.begin, hk]
  | lparen hk => exact exists_error_after 1 ht hn rfl (if_neg hk) (by simp)
  | identifier hk => exact exists_error_after 2 ht hn rfl (if_neg hk) (by simp)
  | comma hk => exact exists_error_after 3 ht hn rfl (if_neg hk) (by simp)
  | rparen hk => exact exists_error_after 5 ht hn rfl (if_neg hk) (by simp)
  | value hk =>
    refine exists_value_error ht hn ?_
    have hc : (⟨[t], 0⟩ : Window).current = t := rfl
    rw [Window.hasValue, hc] at hk
    rw [Token.value, Window.value, hc]
    split at hk
    all_goals simp_all
  | @integer ds hint hd =>
    have hlarge : ¬(ds.length ≤ 4300 ∧ wholeValue ds ≤ 2 ^ 63 - 1) := by omega
    have hk : t.kind = .int := hint.kind
    refine exists_value_error ht hn ?_
    rw [Token.value_of_int hk, hint.integer_eq, if_neg hlarge]
  | @float i f hfloat hd =>
    have hk : t.kind = .float := hfloat.kind
    refine exists_value_error ht hn ?_
    rw [Token.value_of_float hk, hfloat.float_error hd]

end Stopped

theorem integer_stopped :
    (ParseError.numeral .integer "9223372036854775808").StoppedBy
      ⟨.int, "9223372036854775808", 0⟩ := by
  have hint : (⟨[⟨.int, "9223372036854775808", 0⟩], 0⟩ : Window).OnInteger
      "9223372036854775808".toList := ⟨by decide, rfl, by rw [String.ofList_toList]; rfl⟩
  exact .integer hint (.inr (by decide +kernel))

theorem float_stopped :
    (ParseError.numeral .float (String.ofList (List.replicate 309 '9' ++ '.' :: ['0']))).StoppedBy
      ⟨.float, String.ofList (List.replicate 309 '9' ++ '.' :: ['0']), 0⟩ := by
  have hi : isNumeral (List.replicate 309 '9') := by decide +kernel
  have hf : isNumeral ['0'] := by decide
  have hlarge : ¬(Binary64.ofNumeral (List.replicate 309 '9' ++ '.' :: ['0'])).isFinite := by
    decide +kernel
  exact .float ⟨hi, hf, rfl, rfl⟩ (not_lt.mp (mt (Binary64.isFinite_ofNumeral hi hf).mpr hlarge))

/-- None of the classes is empty. -/
theorem exists_token_of_name {name : String} (h : name ∈ stopNames) :
    ∃ (t : Token) (e : ParseError),
      t.Lexical ∧ '\x00' ∉ t.lexeme ∧ e.StoppedBy t ∧ e.name = name := by
  have hcomma : Progress.comma.Lexical ∧ '\x00' ∉ Progress.comma.lexeme :=
    ⟨rfl, by simp [Progress.comma]⟩
  simp only [stopNames, List.mem_cons, List.not_mem_nil, or_false] at h
  -- a comma is wrong wherever anything else has to stand
  rcases h with rfl | rfl | rfl | rfl | rfl | rfl | rfl | rfl | rfl
  · exact ⟨{ kind := .keyword (.reserved .sort) }, .unsupported "sort", rfl,
      by rw [Token.lexeme_keyword]; decide, .reserved rfl (by decide), rfl⟩
  · exact ⟨_, _, hcomma.1, hcomma.2, .query (by simp [Progress.comma]) (by simp [Progress.comma])
      (by simp [Progress.comma]), rfl⟩
  · exact ⟨_, _, hcomma.1, hcomma.2, .lparen (by simp [Progress.comma]), rfl⟩
  · exact ⟨_, _, hcomma.1, hcomma.2, .identifier (by simp [Progress.comma]), rfl⟩
  · exact ⟨Progress.lparen, _, rfl, by simp [Progress.lparen], .comma (by simp [Progress.lparen]),
      rfl⟩
  · exact ⟨_, _, hcomma.1, hcomma.2, .value rfl, rfl⟩
  · exact ⟨_, _, hcomma.1, hcomma.2, .rparen (by simp [Progress.comma]), rfl⟩
  · exact ⟨_, _, by simp [Token.Lexical]; decide, by simp, integer_stopped, rfl⟩
  · refine ⟨_, _, ?_, ?_, float_stopped, rfl⟩
    · exact ⟨_, _, by rw [String.toList_ofList], by decide +kernel, by decide⟩
    · rw [Token.lexeme_float, String.toList_ofList]
      decide +kernel

/-! ## Machines -/

theorem Token.Lexical.exists_float {t : Token} (h : t.Lexical) (hk : t.kind = .float) :
    ∃ x, floatOfText? t.literal = some x := by
  rw [Token.Lexical, hk] at h
  obtain ⟨i, f, hlit, hi, hf⟩ := h
  have hread := floatOfText?_numeral hi hf
  rw [← hlit, String.ofList_toList] at hread
  exact ⟨_, hread⟩

/-- A query that is read leaves three tokens fewer. -/
theorem parseQuery_three {w : Window} {q : Query} (h : (parseQuery w).result = .ok q) :
    (parseQuery w).window.tokens.length + 3 ≤ w.tokens.length := by
  obtain ⟨us, hd, htokens, -⟩ := parseQuery_ahead h
  have hthree := hd.three_le_length
  have hlength := congrArg List.length htokens
  rw [List.length_append] at hlength
  omega

namespace Machine

/-- The machine moves on over three tokens or more, none of which is the end of input. -/
structure Consumes (m : Machine) (us : List Token) (m' : Machine) : Prop where
  takes : Takes m us m'
  three_le : 3 ≤ us.length
  kind_ne : ∀ t ∈ us, t.kind ≠ .eof

/-- One turn of the loop over the items of a list. -/
def turn (n : Nat) : Run Query := do
  let q ← parseQuery n
  skipComma
  return q

/-- What the reading of a query comes to in a state of a machine. -/
structure Ends (ps : List Point) (m : Machine) : Prop where
  /-- Some number of turns is enough, and more of them change nothing. -/
  ends : ∃ n₀ r m', ∀ n, n₀ ≤ n → parseQuery n m = some (r, m')
  /-- No query starts at the end of input. -/
  eof : m.current.kind = .eof → ∀ n,
    parseQuery n m = some (.error (.parse (.expected .comparator m.current)), m)
  consumes : ∀ n q m', parseQuery n m = some (.ok q, m') → ∃ us, Consumes m us m'
  /-- A turn of the loop over the items of a list fails, or the loop goes on further right. -/
  turn : m.current.kind ≠ .rparen → ∃ n₀, ∀ n done, n₀ ≤ n →
    (∃ e m', turn n m = some (.error e, m') ∧ items (n + 1) done m = some (.error e, m')) ∨
      ∃ q us m', turn n m = some (.ok q, m') ∧ Consumes m us m' ∧
        items (n + 1) done m = items n (done ++ [q]) m'
  /-- The error is about a token in sight, or about a surrogate. -/
  stopped : ∀ n e m', parseQuery n m = some (.error e, m') →
    (∃ e', e = .parse e' ∧ (e'.StoppedBy m'.current ∨ e'.StoppedBy m'.peek)) ∨
      ∃ e', e = .unencodable e' ∧ .surrogate e'.surrogate ∈ ps.takeWhile (· != Scanner.endMark)
  float : m.current.kind = .float → ∃ x, floatOfText? m.current.literal = some x

section States

variable {ps : List Point} {n : Nat} {m m' : Machine} {w v : Window}

theorem consumes_of_tokens {us : List Token} (hlex : w.Lexical) (ht : Takes m us m')
    (htokens : w.tokens = us ++ v.tokens) (hv : v.tokens.length + 3 ≤ w.tokens.length) :
    Consumes m us m' where
  takes := ht
  three_le := by
    rw [htokens, List.length_append] at hv
    omega
  kind_ne t ht := (hlex t (by rw [htokens]; exact List.mem_append_left _ ht)).kind_ne

theorem simulates_turn (h : Sees ps m w) (hn : w.tokens.length ≤ n) : Simulates ps (turn n) m w
    ((Criteria.parseQuery w).andThen fun q v => ⟨.ok q, v.skipComma, []⟩) := by
  refine (simulates_parseQuery h hn).bind fun q m' _ h' => ?_
  exact (simulates_skipComma h').bind (g := fun _ v => ⟨.ok q, v, []⟩) fun _ m'' _ h'' => .stay h'' rfl

theorem items_eq_turn {done : List Query} (hk : m.current.kind ≠ .rparen) :
    items (n + 1) done m = (turn n >>= fun q => items n (done ++ [q])) m := by
  rw [items_turn hk, turn]
  simp only [bind_assoc, pure_bind]

theorem parseQuery_eof (hk : m.current.kind = .eof) :
    parseQuery n m = some (.error (.parse (.expected .comparator m.current)), m) := by
  rw [parseQuery_filter (by simp [hk]) (by simp [hk]), parseFilter, get_bind, hk]
  rfl

/-- What a machine comes to, be it in few turns, is what the reading of its window comes to. -/
theorem Sees.simulates_of_run (h : Sees ps m w) {r : Except Stop Query}
    (hr : parseQuery n m = some (r, m')) :
    ∃ k, parseQuery k m = some (r, m') ∧
      Simulates ps (parseQuery k) m w (Criteria.parseQuery w) :=
  ⟨max n w.tokens.length, parseQuery_mono (Nat.le_max_left _ _) _ _ _ hr,
    simulates_parseQuery h (Nat.le_max_right _ _)⟩

/-- A machine that sees some window ends as the window's reading does. -/
theorem Sees.ends (h : Sees ps m w) : Ends ps m where
  ends := by
    obtain ⟨r, m', hrun⟩ := (simulates_parseQuery h (Nat.le_refl _)).exists_run
    exact ⟨_, r, m', fun n hn => parseQuery_mono hn _ _ _ hrun⟩
  eof hk n := parseQuery_eof hk
  consumes n q m' hq := by
    obtain ⟨k, hrun, hsim⟩ := h.simulates_of_run hq
    obtain ⟨hr, us, htakes, htokens⟩ := hsim.of_ok hrun
    exact ⟨us, consumes_of_tokens h.lexical htakes htokens (parseQuery_three hr)⟩
  turn hk := by
    refine ⟨w.tokens.length, ?_⟩
    intro n done hn
    have hsim := simulates_turn h hn
    obtain ⟨res, m', hrun⟩ := hsim.exists_run
    rw [items_eq_turn hk]
    cases res with
    | error e => exact .inl ⟨e, m', hrun, bind_error hrun⟩
    | ok q =>
      obtain ⟨hr, us, htakes, htokens⟩ := hsim.of_ok hrun
      refine .inr ⟨q, us, m', hrun, ?_, bind_ok hrun⟩
      refine consumes_of_tokens h.lexical htakes htokens ?_
      cases hq : (Criteria.parseQuery w).result with
      | error e => simp [Reading.andThen, hq] at hr
      | ok q' =>
        have hthree := parseQuery_three hq
        have hskip := (Criteria.parseQuery w).window.length_skipComma
        simp only [Reading.andThen, hq]
        omega
  stopped n e m' he := by
    obtain ⟨k, hrun, hsim⟩ := h.simulates_of_run he
    rw [← Scanner.rest_ofPoints]
    refine hsim.of_error hrun |>.imp_left ?_
    rintro ⟨e', rfl, hr, hsees⟩
    refine ⟨e', rfl, ?_⟩
    rw [hsees.current, hsees.peek]
    exact parseQuery_stopped h.lexical hr
  float hk := by
    rw [h.current] at hk ⊢
    exact (h.lexical.current (by rw [hk]; simp)).exists_float hk

end States

/-- No scanner gets past a surrogate. -/
theorem parse_surrogate (n : Nat) (c : Fin 0x800) (ps : List Point) :
    parse n (.surrogate c :: ps) = some (.error (.unencodable ⟨c⟩)) := by
  have hch : (Scanner.ofPoints (.surrogate c :: ps)).ch = .surrogate c := by
    rw [(Scanner.Sound.ofPoints _).ch_eq_headD, Scanner.rest_ofPoints]
    rfl
  have hnext := next_error (m := { scanner := .ofPoints (.surrogate c :: ps) })
    (Scanner.nextToken_surrogate hch)
  have hstart : start { scanner := .ofPoints (.surrogate c :: ps) } = _ := bind_error hnext
  rw [parse, bind_error hstart]
  rfl

end Machine

theorem name_mem_of_parse {s : String} {e : ParseError} (h : parse s = .error e) :
    e.name ∈ stopNames :=
  (parseQuery_stopped (Window.lexical_ofCursor _) h).elim ParseError.StoppedBy.name_mem
    ParseError.StoppedBy.name_mem

/-- A machine is begun anywhere in a text and asked anything, in any order, also after it failed. In
every state that it comes to the reading of a query ends, as `Machine.Ends` says: the end of input is
no query, a query takes three tokens or more, and each turn of the loop over a list fails or moves
on. A text is read in no more turns than it has code points. The errors that end the reading are
those of nine classes, and each class has some. Only where a surrogate stands alone in the text there
is another one: it is not an error of the reader, and no token can be taken from there on. -/
theorem parse_stops (ps : List Point) :
    (∀ m, Machine.Reached ps m → m.Ends ps) ∧
    (∃ r, (∀ n, ps.length ≤ n → Machine.parse n ps = some r) ∧ ∀ e, r = .error e →
      e.name ∈ stopNames ∨
        ∃ c, e = .unencodable ⟨c⟩ ∧ .surrogate c ∈ ps.takeWhile (· != Scanner.endMark)) ∧
    (∀ n c, Machine.parse n (.surrogate c :: ps) = some (.error (.unencodable ⟨c⟩))) ∧
    ∀ name, (∃ s e, (∀ n, s.length ≤ n → Machine.parse n (points s) = some (.error e)) ∧
      e.name = name) ↔ name ∈ stopNames := by
  refine ⟨?_, ?_, fun n c => Machine.parse_surrogate n c ps, ?_⟩
  · intro m hm
    obtain ⟨w, hsees, -⟩ := hm.sees
    exact hsees.ends
  · obtain ⟨r, hparse⟩ := Machine.exists_parse ps
    refine ⟨r, hparse, ?_⟩
    rintro e rfl
    have hrun := hparse _ (Nat.le_refl _)
    rcases Machine.parse_spec (Nat.le_refl ps.length) with hspec | ⟨e', hspec, hmem⟩
    · cases hr : parse (shownText ps) with
      | error e' =>
        rw [hspec, hr] at hrun
        cases hrun
        exact .inl (name_mem_of_parse hr)
      | ok q =>
        rw [hspec, hr] at hrun
        cases hrun
    · rw [hspec] at hrun
      cases hrun
      exact .inr ⟨e'.surrogate, rfl, hmem⟩
  · intro name
    constructor
    · rintro ⟨s, e, h, rfl⟩
      have hrun := h _ (Nat.le_refl _)
      rw [Machine.parse_points (Nat.le_refl _)] at hrun
      cases hr : parse s with
      | error e' =>
        rw [hr] at hrun
        cases hrun
        exact name_mem_of_parse hr
      | ok q =>
        rw [hr] at hrun
        cases hrun
    · intro h
      obtain ⟨t, e, ht, hn, hstop, rfl⟩ := exists_token_of_name h
      obtain ⟨s, e', hs, hsame⟩ := exists_stopped ht hn hstop
      refine ⟨s, .parse e', ?_, hsame.name_eq.symm⟩
      intro n hn
      rw [Machine.parse_points hn, hs]
      rfl

/-- A machine that could not read the list goes on inside it. -/
theorem parse_stops_inside :
    ∃ m, Machine.Reached (points "or(,eq(a,1))") m ∧
      m.current = { kind := .comma, pos := 3 } ∧ m.Ends (points "or(,eq(a,1))") := by
  obtain ⟨m, hstart, hsees, herrors⟩ := Machine.start_points "or(,eq(a,1))"
  obtain ⟨m', hperform, hsees', -⟩ :=
    Machine.perform_points (σ := { window := Window.ofText "or(,eq(a,1))" }) hsees herrors
      (Nat.le_refl _) .query
  have hreached : Machine.Reached (points "or(,eq(a,1))") m' :=
    .perform (.start .start hstart) hperform
  refine ⟨m', hreached, ?_, (parse_stops (points "or(,eq(a,1))")).1 m' hreached⟩
  rw [hsees'.current]
  cbv

end Criteria
