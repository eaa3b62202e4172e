import Mathlib
import Criteria.Proofs.Token.Stream
import Criteria.Query.Parser

/-!
# Criteria.Proofs.Query.Progress

Reading a query token by token. A `Progress` says how far a query is read, with the lists that are
open around the place; `Progress.step` takes the next token or refuses it. No step looks ahead,
so what a run of steps does depends on the tokens it takes alone.

* `Progress.feed` takes tokens one after the other.
* `parseItems_follows`: the invariant of the list reader. Its stack of lists is a progress inside
  lists, and reading from it follows the steps.
* `parseQuery_follows`: where `parseQuery` succeeds, the steps take the same tokens to the same
  query; where it fails, they come to a token that is refused with the same error.
* `parseQuery_ok` and `parseQuery_error`: the same for a text and the stream of its tokens.
-/

namespace Criteria

/-- What a token says as a value. -/
def Token.value (t : Token) : Except ParseError Value :=
  (⟨[t], 0⟩ : Window).value

/-- How far a query is read. `outer` are the lists around the place, the innermost first. -/
inductive Progress where
  | start
  | listOpen (c : Combinator) (outer : List OpenList)
  /-- In the list `l`; `comma` says whether one may come. -/
  | items (comma : Bool) (l : OpenList) (outer : List OpenList)
  | filterOpen (op : Comparator) (outer : List OpenList)
  | field (op : Comparator) (outer : List OpenList)
  | fieldComma (op : Comparator) (name : String) (outer : List OpenList)
  | value (op : Comparator) (name : String) (outer : List OpenList)
  | filterClose (op : Comparator) (name : String) (v : Value) (outer : List OpenList)
  | finished (q : Query)

namespace Progress

/-- A query was read: the item of a list, or all there is to read. -/
def completed (q : Query) : List OpenList → Progress
  | [] => .finished q
  | l :: ls => .items true { l with items := l.items ++ [q] } ls

/-- The first token of a query. -/
def begin (outer : List OpenList) (t : Token) : Except ParseError Progress :=
  match t.kind with
  | .keyword (.combinator c) => .ok (.listOpen c outer)
  | .keyword (.comparator op) => .ok (.filterOpen op outer)
  | .keyword (.reserved r) => .error (.unsupported r.word)
  | _ => .error (.expected .comparator t)

def require (kind : Token.Kind) (what : Expectation) (p : Progress) (t : Token) :
    Except ParseError Progress :=
  if t.kind = kind then .ok p else .error (.expected what t)

/-- Takes the next token. Nothing follows a query that is read. -/
def step : Progress → Token → Except ParseError Progress
  | .start, t => begin [] t
  | .listOpen c outer, t => require .lparen .lparen (.items false ⟨c, []⟩ outer) t
  | .items comma l outer, t =>
    if t.kind = .rparen then .ok (completed (.group l.combinator l.items) outer)
    else if comma ∧ t.kind = .comma then .ok (.items false l outer)
    else begin (l :: outer) t
  | .filterOpen op outer, t => require .lparen .lparen (.field op outer) t
  | .field op outer, t => require .ident .identifier (.fieldComma op t.literal outer) t
  | .fieldComma op name outer, t => require .comma .comma (.value op name outer) t
  | .value op name outer, t =>
    match t.value with
    | .error e => .error e
    | .ok v => .ok (.filterClose op name v outer)
  | .filterClose op name v outer, t =>
    require .rparen .rparen (completed (.filter op name v) outer) t
  | .finished _, t => .error (.expected .more t)

def feed : Progress → List Token → Except ParseError Progress
  | p, [] => .ok p
  | p, t :: ts =>
    match p.step t with
    | .error e => .error e
    | .ok p' => feed p' ts

theorem feed_cons {p p' : Progress} {t : Token} (ts : List Token) (h : p.step t = .ok p') :
    p.feed (t :: ts) = p'.feed ts := by
  simp only [feed, h]

theorem feed_append {p p' : Progress} {ts : List Token} (us : List Token)
    (h : p.feed ts = .ok p') : p.feed (ts ++ us) = p'.feed us := by
  induction ts generalizing p with
  | nil => cases h; rfl
  | cons t ts ih =>
    simp only [feed] at h
    split at h
    · cases h
    · rename_i p₁ hs
      rw [List.cons_append, feed_cons _ hs]
      exact ih h

theorem step_eof (p : Progress) {t : Token} (ht : t.kind = .eof) : ∃ e, p.step t = .error e := by
  cases p with
  | value op name outer =>
    refine ⟨.expected .value t, ?_⟩
    simp [step, Token.value, Window.value, Window.current, ht]
  | _ => simp [step, begin, require, ht]

end Progress

namespace Window

theorem peek_eq (w : Window) : w.peek = w.advance.current := rfl

theorem value_eq (w : Window) : w.value = w.current.value := by
  have h : (⟨[w.current], 0⟩ : Window).current = w.current := rfl
  simp only [Token.value, value, identifier, integer, float, string, boolean, h]

end Window

namespace Progress

/-! ## Steps over a window -/

/-- Steps that take the tokens between two windows. -/
def Moves (p : Progress) (w : Window) (p' : Progress) (w' : Window) : Prop :=
  ∃ ts, p.feed ts = .ok p' ∧ w.tokens = ts ++ w'.tokens ∧ w'.stop = w.stop

/-- Steps that come to a token that is refused. -/
def Refused (p : Progress) (w : Window) (e : ParseError) : Prop :=
  ∃ p' w', Moves p w p' w' ∧ p'.step w'.current = .error e ∧ ∀ q, p' ≠ .finished q

/-- The steps come to the result of a reading: to its value and window, or to its error. -/
def Follows {α : Type} (p : Progress) (w : Window) (target : α → Progress) (r : Reading α) : Prop :=
  match r.result with
  | .ok a => Moves p w (target a) r.window
  | .error e => Refused p w e

theorem Moves.refl (p : Progress) (w : Window) : Moves p w p w := ⟨[], rfl, rfl, rfl⟩

theorem Moves.trans {p p' p'' : Progress} {w w' w'' : Window} (h : Moves p w p' w')
    (h' : Moves p' w' p'' w'') : Moves p w p'' w'' := by
  obtain ⟨ts, hf, ht, hs⟩ := h
  obtain ⟨us, hf', ht', hs'⟩ := h'
  exact ⟨ts ++ us, by rw [feed_append us hf, hf'], by rw [ht, ht', List.append_assoc],
    hs'.trans hs⟩

theorem Moves.single {p p' : Progress} {w : Window} (h : p.step w.current = .ok p') :
    Moves p w p' w.advance := by
  rcases hw : w.tokens with _ | ⟨t, ts⟩
  · -- past the last token nothing but the end of input is current
    have hk : w.current.kind = .eof := by simp [Window.current, Window.eof, hw]
    obtain ⟨e, he⟩ := p.step_eof hk
    rw [he] at h; cases h
  · have ht : w.current = t := by simp [Window.current, hw]
    refine ⟨[t], ?_, by simp [Window.advance, hw], rfl⟩
    rw [ht] at h
    rw [feed_cons _ h]; rfl

theorem Refused.here {p : Progress} {w : Window} {e : ParseError}
    (h : p.step w.current = .error e) (hp : ∀ q, p ≠ .finished q) : Refused p w e :=
  ⟨p, w, .refl p w, h, hp⟩

theorem Moves.refused {p p' : Progress} {w w' : Window} {e : ParseError} (h : Moves p w p' w')
    (hr : Refused p' w' e) : Refused p w e := by
  obtain ⟨p'', w'', hm, hs, hp⟩ := hr
  exact ⟨p'', w'', h.trans hm, hs, hp⟩

theorem Moves.follows {α : Type} {p p' : Progress} {w w' : Window} {target : α → Progress}
    {r : Reading α} (h : Moves p w p' w') (hr : Follows p' w' target r) :
    Follows p w target r := by
  unfold Follows at hr ⊢
  split at hr
  · exact h.trans hr
  · exact h.refused hr

/-! ## Filters -/

theorem expect_ok {w w' : Window} {kind : Token.Kind} {what : Expectation} {p r : Progress}
    (hp : p.step = require kind what r) (h : w.expect kind what = .ok w') :
    Moves p w.advance r w'.advance := by
  unfold Window.expect at h
  split at h
  · rename_i hk
    rw [Window.peek_eq] at hk
    cases h
    exact .single (by rw [hp, require, if_pos hk])
  · cases h

theorem expect_error {w : Window} {kind : Token.Kind} {what : Expectation} {p p' : Progress}
    {e : ParseError} (hp : p.step = require kind what p') (hq : ∀ q, p ≠ .finished q)
    (h : w.expect kind what = .error e) : Refused p w.advance e := by
  unfold Window.expect at h
  split at h
  · cases h
  · rename_i hk
    rw [Window.peek_eq] at h hk
    cases h
    exact .here (by rw [hp, require, if_neg hk]) hq

/-- Where a filter has to start, the steps follow `parseFilter`. -/
theorem parseFilter_follows {p : Progress} {w : Window} {outer : List OpenList}
    (hp : p.step w.current = begin outer w.current) (hq : ∀ q, p ≠ .finished q)
    (hc : ∀ c, w.current.kind ≠ .keyword (.combinator c))
    (hr : ∀ r, w.current.kind ≠ .keyword (.reserved r)) :
    Follows p w (fun q => completed q outer) (parseFilter w) := by
  unfold parseFilter
  split
  · rename_i op hk
    have hopen : Moves p w (.filterOpen op outer) w.advance :=
      .single (by rw [hp, begin, hk])
    split
    · rename_i e he
      exact hopen.refused (expect_error rfl (by simp) he)
    · rename_i bracket hb
      have hname := hopen.trans (expect_ok (r := .field op outer) rfl hb)
      dsimp only
      split
      · rename_i e he
        refine hname.refused (.here ?_ (by simp))
        unfold Window.identifier at he
        split at he
        · cases he
        · rename_i hi; cases he; simp [step, require, hi]
      · rename_i name hn
        have hcomma : Moves p w (.fieldComma op name outer) bracket.advance.advance := by
          refine hname.trans (.single ?_)
          unfold Window.identifier at hn
          split at hn
          · rename_i hi; cases hn; simp [step, require, hi]
          · cases hn
        split
        · rename_i e he
          exact hcomma.refused (expect_error rfl (by simp) he)
        · rename_i comma hcm
          have hvalue := hcomma.trans (expect_ok (r := .value op name outer) rfl hcm)
          split
          · rename_i e he
            refine hvalue.refused (.here ?_ (by simp))
            rw [Window.value_eq] at he
            simp only [step, he]
          · rename_i v hv
            have hclose : Moves p w (.filterClose op name v outer) comma.advance.advance := by
              refine hvalue.trans (.single ?_)
              rw [Window.value_eq] at hv
              simp only [step, hv]
            split
            · rename_i e he
              exact hclose.refused (expect_error rfl (by simp) he)
            · rename_i close hcl
              exact hclose.trans (expect_ok (r := completed (.filter op name v) outer) rfl hcl)
  · rename_i hk
    refine .here ?_ hq
    rw [hp, begin]
    split
    · rename_i c hkc; exact absurd hkc (hc c)
    · rename_i op hko; exact absurd hko (hk op)
    · rename_i r hkr; exact absurd hkr (hr r)
    · rfl

/-! ## Lists -/

/-- What `parseItems` keeps of a list is the combinator of the list inside it. This is the
combinator of the list that is read; `root` is the one of the outermost list. -/
def innermost (root : Combinator) : List OpenList → Combinator
  | [] => root
  | l :: _ => l.combinator

/-- The lists around, each with its own combinator. -/
def around (root : Combinator) : List OpenList → List OpenList
  | [] => []
  | l :: ls => ⟨innermost root ls, l.items⟩ :: around root ls

/-- The progress of `parseItems outer done` in a list whose outermost one has combinator `root`. -/
def inside (root : Combinator) (comma : Bool) (outer : List OpenList) (done : List Query) :
    Progress :=
  .items comma ⟨innermost root outer, done⟩ (around root outer)

theorem step_items {comma : Bool} {l : OpenList} {outer : List OpenList} {t : Token}
    (hp : t.kind ≠ .rparen) (hc : comma = true → t.kind ≠ .comma) :
    (items comma l outer).step t = begin (l :: outer) t := by
  have hcomma : ¬(comma = true ∧ t.kind = .comma) := fun h => hc h.1 h.2
  simp only [step, if_neg hp, if_neg hcomma]

theorem step_inside (root : Combinator) (outer : List OpenList) (done : List Query)
    {comma : Bool} {t : Token} (hp : t.kind ≠ .rparen) (hc : comma = true → t.kind ≠ .comma) :
    (inside root comma outer done).step t =
      begin (⟨innermost root outer, done⟩ :: around root outer) t :=
  step_items hp hc

theorem skipComma_moves (l : OpenList) (outer : List OpenList) (w : Window) :
    ∃ comma, Moves (.items true l outer) w (.items comma l outer) w.skipComma ∧
      (comma = true → w.skipComma.current.kind ≠ .comma) := by
  unfold Window.skipComma
  split
  · rename_i hk
    exact ⟨false, .single (by simp [step, hk]), by simp⟩
  · rename_i hk
    exact ⟨true, .refl _ _, fun _ => hk⟩

theorem openList_follows {p : Progress} {w : Window} {c : Combinator} {outer : List OpenList}
    (hp : p.step w.current = .ok (.listOpen c outer)) :
    match w.openList with
    | .ok w' => Moves p w (.items false ⟨c, []⟩ outer) w'
    | .error e => Refused p w e := by
  have hopen : Moves p w (.listOpen c outer) w.advance := .single hp
  unfold Window.openList
  cases h : w.expect .lparen .lparen with
  | error e => exact hopen.refused (expect_error rfl (by simp) h)
  | ok w' => exact hopen.trans (expect_ok (r := .items false ⟨c, []⟩ outer) rfl h)

/-- The list reader follows the steps, from any place in a list. The induction is on the tokens
left, as the reader's own recursion is; `comma` may only be true where no comma comes, since the
reader has skipped it by then. -/
theorem parseItems_follows (root : Combinator) (outer : List OpenList) (done : List Query)
    (w : Window) :
    ∀ comma, (comma = true → w.current.kind ≠ .comma) →
      Follows (inside root comma outer done) w (fun qs => .finished (.group root qs))
        (parseItems outer done w) := by
  fun_induction parseItems outer done w with
  | case1 done w hk =>
    intro comma _
    exact .single (by simp [inside, step, hk, completed, around, innermost])
  | case2 done w hk l ls next ih =>
    intro comma _
    have hclose : Moves (inside root comma (l :: ls) done) w
        (inside root true ls (l.items ++ [.group l.combinator done])) w.advance :=
      .single (by simp [inside, step, hk, completed, around, innermost])
    obtain ⟨comma', hskip, hc'⟩ := skipComma_moves _ _ w.advance
    exact (hclose.trans hskip).follows (ih comma' hc')
  | case3 outer done w c hk e ho =>
    intro comma hc
    have hopen := openList_follows ((step_inside root outer done (by rw [hk]; simp) hc).trans
      (by rw [begin, hk]))
    rw [ho] at hopen
    exact hopen
  | case4 outer done w c hk inner ho ih =>
    intro comma hc
    have hopen := openList_follows ((step_inside root outer done (by rw [hk]; simp) hc).trans
      (by rw [begin, hk]))
    rw [ho] at hopen
    exact hopen.follows (ih false (by simp))
  | case5 outer done w r hk =>
    intro comma hc
    refine .here ?_ (by simp [inside])
    rw [step_inside root outer done (by rw [hk]; simp) hc, begin, hk]
  | case6 outer done w e hf hp hcm hr =>
    intro comma hc
    have h := parseFilter_follows (step_inside root outer done hp hc) (by simp [inside]) hcm hr
    rw [Follows, hf] at h
    exact h
  | case7 outer done w q hf next hp hcm hr ih =>
    intro comma hc
    have h := parseFilter_follows (step_inside root outer done hp hc) (by simp [inside]) hcm hr
    rw [Follows, hf] at h
    obtain ⟨comma', hskip, hc'⟩ := skipComma_moves _ _ (parseFilter w).window
    exact (Moves.trans h hskip).follows (ih comma' hc')

/-! ## Whole queries -/

theorem parseQuery_follows (w : Window) : Follows .start w .finished (parseQuery w) := by
  unfold parseQuery
  split
  · rename_i c hk
    have hopen := openList_follows
      (show step .start w.current = .ok (.listOpen c []) by rw [step, begin, hk])
    unfold parseList
    cases ho : w.openList with
    | error e =>
      rw [ho] at hopen
      exact hopen
    | ok inner =>
      rw [ho] at hopen
      have hitems := parseItems_follows c [] [] inner false (by simp)
      have h := hopen.follows hitems
      unfold Follows at h ⊢
      dsimp only [Reading.map]
      cases hr : (parseItems [] [] inner).result with
      | error e => rw [hr] at h; exact h
      | ok qs => rw [hr] at h; exact h
  · rename_i r hk
    exact .here (by rw [step, begin, hk]) (by simp)
  · rename_i hc hr
    exact parseFilter_follows (show step .start w.current = begin [] w.current from rfl) (by simp)
      hc hr

/-! ## Texts -/

/-- A window that the steps came to is a place in the stream. -/
theorem Moves.place {s : String} {p p' : Progress} {w : Window}
    (h : Moves p (Window.ofText s) p' w) :
    ∃ n, n < (tokenize s).length ∧ p.feed (firstTokens s n) = .ok p' ∧
      w.current = stream s n ∧ w.peek = stream s (n + 1) := by
  obtain ⟨ts, hf, ht, hs⟩ := h
  have heof : w.eof = (Window.ofText s).eof := by rw [Window.eof, Window.eof, hs]
  have hget : ∀ i, w.tokens.getD i w.eof = stream s (ts.length + i) := by
    intro i
    rw [stream_eq, ht, heof, List.getD_eq_getElem?_getD, List.getD_eq_getElem?_getD,
      List.getElem?_append_right (Nat.le_add_right _ _), Nat.add_sub_cancel_left]
  refine ⟨ts.length, ?_, by rw [firstTokens_length ht, hf], ?_, ?_⟩
  · rw [tokenize_eq, ht]
    simp
  · rw [← Nat.add_zero ts.length, ← hget 0, Window.current]
    cases w.tokens <;> rfl
  · rw [← hget 1, Window.peek]
    rcases w.tokens with _ | ⟨t, _ | ⟨u, us⟩⟩ <;> rfl

theorem parseQuery_ok {s : String} {q : Query}
    (h : (parseQuery (Window.ofText s)).result = .ok q) :
    ∃ n, start.feed (firstTokens s n) = .ok (.finished q) ∧
      (parseQuery (Window.ofText s)).window.current = stream s n ∧
      (parseQuery (Window.ofText s)).window.peek = stream s (n + 1) := by
  have hf := parseQuery_follows (Window.ofText s)
  rw [Follows, h] at hf
  obtain ⟨n, -, hn⟩ := Moves.place hf
  exact ⟨n, hn⟩

theorem parseQuery_error {s : String} {e : ParseError}
    (h : (parseQuery (Window.ofText s)).result = .error e) :
    ∃ n p, n < (tokenize s).length ∧ start.feed (firstTokens s n) = .ok p ∧
      p.step (stream s n) = .error e ∧ ∀ q, p ≠ .finished q := by
  have hf := parseQuery_follows (Window.ofText s)
  rw [Follows, h] at hf
  obtain ⟨p, w, hm, hs, hp⟩ := hf
  obtain ⟨n, hlt, hn, hc, -⟩ := hm.place
  exact ⟨n, p, hlt, hn, hc ▸ hs, hp⟩

/-- Past a token that is refused nothing is read. -/
theorem feed_firstTokens_error {s : String} {m n : Nat} {p p' : Progress} {e : ParseError}
    (hm : p.feed (firstTokens s m) = .ok p') (hs : p'.step (stream s m) = .error e) (h : m < n) :
    p.feed (firstTokens s n) = .error e := by
  obtain ⟨us, hus⟩ := firstTokens_split h
  rw [hus, feed_append _ hm]
  simp only [feed, hs]

/-- The steps are stopped at one place only, and there for one reason. -/
theorem stop_unique {s : String} {m n : Nat} {p p' : Progress} {e e' : ParseError}
    (hm : start.feed (firstTokens s m) = .ok p) (hs : p.step (stream s m) = .error e)
    (hn : start.feed (firstTokens s n) = .ok p') (hs' : p'.step (stream s n) = .error e') :
    m = n ∧ p = p' ∧ e = e' := by
  rcases Nat.lt_trichotomy m n with h | h | h
  · rw [feed_firstTokens_error hm hs h] at hn; cases hn
  · subst h
    rw [hm] at hn; cases hn
    rw [hs] at hs'; cases hs'
    exact ⟨rfl, rfl, rfl⟩
  · rw [feed_firstTokens_error hn hs' h] at hm; cases hm

/-- A query that is read fixes where it ends and what it is. -/
theorem finished_unique {s : String} {m n : Nat} {q r : Query}
    (hm : start.feed (firstTokens s m) = .ok (.finished q))
    (hn : start.feed (firstTokens s n) = .ok (.finished r)) : m = n ∧ q = r := by
  obtain ⟨h, hq, -⟩ := stop_unique hm rfl hn rfl
  cases hq
  exact ⟨h, rfl⟩

theorem parseQuery_ok_iff {s : String} {q : Query} :
    (parseQuery (Window.ofText s)).result = .ok q ↔
      ∃ n, start.feed (firstTokens s n) = .ok (.finished q) := by
  constructor
  · intro h
    obtain ⟨n, hn, -⟩ := parseQuery_ok h
    exact ⟨n, hn⟩
  · rintro ⟨n, hn⟩
    cases h : (parseQuery (Window.ofText s)).result with
    | ok r =>
      obtain ⟨m, hm, -⟩ := parseQuery_ok h
      rw [(finished_unique hm hn).2]
    | error e =>
      obtain ⟨m, p, -, hm, hs, hp⟩ := parseQuery_error h
      obtain ⟨-, rfl, -⟩ := stop_unique hm hs hn rfl
      exact absurd rfl (hp q)

theorem parseQuery_error_iff {s : String} {e : ParseError} :
    (parseQuery (Window.ofText s)).result = .error e ↔
      ∃ n p, start.feed (firstTokens s n) = .ok p ∧ p.step (stream s n) = .error e ∧
        ∀ q, p ≠ .finished q := by
  constructor
  · intro h
    obtain ⟨n, p, -, hn⟩ := parseQuery_error h
    exact ⟨n, p, hn⟩
  · rintro ⟨n, p, hn, hs, hp⟩
    cases h : (parseQuery (Window.ofText s)).result with
    | ok q =>
      obtain ⟨m, hm, -⟩ := parseQuery_ok h
      obtain ⟨-, rfl, -⟩ := stop_unique hn hs hm rfl
      exact absurd rfl (hp q)
    | error e' =>
      obtain ⟨m, p', -, hm, hs', -⟩ := parseQuery_error h
      rw [(stop_unique hn hs hm hs').2.2]

end Progress

end Criteria
