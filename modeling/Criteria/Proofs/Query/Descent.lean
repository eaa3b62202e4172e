import Mathlib
import Criteria.Proofs.Query.Grammar

/-!
# Criteria.Proofs.Query.Descent

Reading by descent. The list reader keeps the lists that are open on a stack; here it is compared
with a reader of lists that calls the reader of queries for each item, in a loop.

* `Reading.andThen`: a reading, and another one from where it stopped.
* `parseItems_append`: lists further down the stack wait until those above them are closed.
* `parseItems_turn`: one turn of the loop reads a query and skips a comma.
* `parseQuery_ahead`: a query that is read takes the tokens that derive it, so the loop moves on.
* `Descends` and `descends_iff`: the descent as a relation. A derivation is finite, so from every
  window the descent ends, and it ends in what `parseQuery` gives.
-/

namespace Criteria

namespace Reading

variable {α β γ : Type}

/-- Goes on with what was read, from the window where the reading stopped. -/
def andThen (r : Reading α) (f : α → Window → Reading β) : Reading β :=
  match r.result with
  | .error e => ⟨.error e, r.window, r.items⟩
  | .ok a => { f a r.window with items := r.items ++ (f a r.window).items }

theorem ok_andThen (a : α) (w : Window) (f : α → Window → Reading β) :
    (⟨.ok a, w, []⟩ : Reading α).andThen f = f a w := rfl

theorem error_andThen (e : ParseError) (w : Window) (f : α → Window → Reading β) :
    (⟨.error e, w, []⟩ : Reading α).andThen f = ⟨.error e, w, []⟩ := rfl

theorem after_andThen (w : Window) (r : Reading α) (f : α → Window → Reading β) :
    (r.after w).andThen f = (r.andThen f).after w := by
  unfold andThen
  cases hr : r.result with
  | error e => simp [after, hr]
  | ok a => simp [after, hr]

theorem map_andThen (g : α → β) (r : Reading α) (f : β → Window → Reading γ) :
    (r.map g).andThen f = r.andThen fun a => f (g a) := by
  unfold andThen
  cases hr : r.result with
  | error e => simp [map, hr, Except.map]
  | ok a => simp [map, hr, Except.map]

end Reading

/-! ## The list reader by the token it sees -/

section Items

variable {outer : List OpenList} {done : List Query} {w : Window}

theorem parseItems_last (hk : w.current.kind = .rparen) :
    parseItems [] done w = ⟨.ok done, w.advance, []⟩ := by
  unfold parseItems
  split
  · rfl
  all_goals simp_all

theorem parseItems_close (l : OpenList) (hk : w.current.kind = .rparen) :
    parseItems (l :: outer) done w =
      (parseItems outer (l.items ++ [.group l.combinator done]) w.advance.skipComma).after
        w.advance.skipComma := by
  conv_lhs => unfold parseItems
  split
  · rfl
  all_goals simp_all

theorem parseItems_open {c : Combinator} (hk : w.current.kind = .keyword (.combinator c)) :
    parseItems outer done w = match w.openList with
      | .error e => ⟨.error e, w, []⟩
      | .ok inner => parseItems (⟨c, done⟩ :: outer) [] inner := by
  conv_lhs => unfold parseItems
  split
  · simp_all
  · rename_i c' hc
    obtain rfl : c' = c := by simpa [hk] using hc.symm
    split
    · rename_i e he; simp only [he]
    · rename_i inner hi; simp only [hi]
  all_goals simp_all

theorem parseItems_reserved {r : Reserved} (hk : w.current.kind = .keyword (.reserved r)) :
    parseItems outer done w = ⟨.error (.unsupported r.word), w, []⟩ := by
  unfold parseItems
  split
  all_goals simp_all

theorem parseItems_filter (hp : w.current.kind ≠ .rparen)
    (hc : ∀ c, w.current.kind ≠ .keyword (.combinator c))
    (hr : ∀ r, w.current.kind ≠ .keyword (.reserved r)) :
    parseItems outer done w = match (parseFilter w).result with
      | .error e => ⟨.error e, (parseFilter w).window, []⟩
      | .ok q => (parseItems outer (done ++ [q]) (parseFilter w).window.skipComma).after
          (parseFilter w).window.skipComma := by
  conv_lhs => unfold parseItems
  split
  · simp_all
  · simp_all
  · simp_all
  · split
    · rename_i e he; simp only [he]
    · rename_i q hq; simp only [hq]

theorem parseQuery_filter (hc : ∀ c, w.current.kind ≠ .keyword (.combinator c))
    (hr : ∀ r, w.current.kind ≠ .keyword (.reserved r)) : parseQuery w = parseFilter w := by
  unfold parseQuery
  split
  · rename_i c hk; exact absurd hk (hc c)
  · rename_i r hk; exact absurd hk (hr r)
  · rfl

theorem items_parseFilter (w : Window) : (parseFilter w).items = [] := by
  unfold parseFilter
  split
  · split
    · rfl
    · dsimp only
      repeat' split
      all_goals rfl
  · rfl

/-- A list starts at the window, or a word is reserved there, or a filter has to start. -/
theorem Window.cases_query (w : Window) :
    (∃ c, w.current.kind = .keyword (.combinator c)) ∨
      (∃ r, w.current.kind = .keyword (.reserved r)) ∨
      ((∀ c, w.current.kind ≠ .keyword (.combinator c)) ∧
        ∀ r, w.current.kind ≠ .keyword (.reserved r)) := by
  by_cases hc : ∃ c, w.current.kind = .keyword (.combinator c)
  · exact .inl hc
  by_cases hr : ∃ r, w.current.kind = .keyword (.reserved r)
  · exact .inr (.inl hr)
  · exact .inr (.inr ⟨not_exists.mp hc, not_exists.mp hr⟩)

/-! ## The loop over the items of a list -/

/-- A list on the stack is taken up again when the lists above it are closed. The induction is on the
tokens left, as the reader's own recursion is. -/
theorem parseItems_append (inner : List OpenList) (l : OpenList) (outer : List OpenList)
    (done : List Query) (w : Window) :
    parseItems (inner ++ l :: outer) done w = (parseItems inner done w).andThen fun qs v =>
      (parseItems outer (l.items ++ [.group l.combinator qs]) v.skipComma).after v.skipComma := by
  fun_induction parseItems inner done w with
  | case1 done w hk =>
    rw [List.nil_append, parseItems_close l hk, Reading.ok_andThen]
  | case2 done w hk l' ls next ih =>
    rw [List.cons_append, parseItems_close l' hk, Reading.after_andThen, ← ih]
  | case3 inner done w c hk e ho =>
    rw [parseItems_open hk, ho, Reading.error_andThen]
  | case4 inner done w c hk v ho ih =>
    rw [parseItems_open hk, ho, ← ih]
    rfl
  | case5 inner done w r hk =>
    rw [parseItems_reserved hk, Reading.error_andThen]
  | case6 inner done w e hf hp hc hr =>
    rw [parseItems_filter hp hc hr, hf, Reading.error_andThen]
  | case7 inner done w q hf next hp hc hr ih =>
    rw [parseItems_filter hp hc hr, hf, Reading.after_andThen, ← ih]

/-- One turn of the loop: a query is read, and a comma after it is skipped. -/
theorem parseItems_turn (done : List Query) (hp : w.current.kind ≠ .rparen) :
    parseItems [] done w = (parseQuery w).andThen fun q v =>
      (parseItems [] (done ++ [q]) v.skipComma).after v.skipComma := by
  rcases w.cases_query with ⟨c, hk⟩ | ⟨r, hk⟩ | ⟨hc, hr⟩
  · have hquery : parseQuery w = (parseList w).map (.group c) := by simp only [parseQuery, hk]
    rw [parseItems_open hk, hquery, Reading.map_andThen, parseList]
    cases ho : w.openList with
    | error e => rfl
    | ok inner => exact parseItems_append [] ⟨c, done⟩ [] [] inner
  · have hquery : parseQuery w = ⟨.error (.unsupported r.word), w, []⟩ := by
      simp only [parseQuery, hk]
    rw [parseItems_reserved hk, hquery, Reading.error_andThen]
  · have hitems := items_parseFilter w
    rw [parseItems_filter hp hc hr, parseQuery_filter hc hr, Reading.andThen]
    cases hf : (parseFilter w).result with
    | error e => simp [hitems]
    | ok q => simp [hitems]

end Items

/-! ## Moving on -/

theorem DerivesFilter.length_eq {us : List Token} {q : Query} (h : DerivesFilter us q) :
    us.length = 6 := by
  cases h with
  | mk _ _ _ _ _ _ => rfl

/-- A list in brackets has a word and two brackets at least. -/
theorem Derives.three_le_length {us : List Token} {q : Query} (h : Derives us q) :
    3 ≤ us.length := by
  cases h with
  | filter h => rw [h.length_eq]; decide
  | group _ _ _ _ => simp

theorem Window.eq_ahead {w v : Window} {ts : List Token} (ht : w.tokens = ts ++ v.tokens)
    (hs : v.stop = w.stop) : v = w.ahead ts.length := by
  rw [ahead, ht, List.drop_left' rfl, ← hs]

/-- A query that is read takes the tokens that derive it, and stops after them. -/
theorem parseQuery_ahead {w : Window} {q : Query} (h : (parseQuery w).result = .ok q) :
    ∃ us, Derives us q ∧ w.tokens = us ++ (parseQuery w).window.tokens ∧
      (parseQuery w).window = w.ahead us.length := by
  have hfollows := Progress.parseQuery_follows w
  rw [Progress.Follows, h] at hfollows
  obtain ⟨us, hfeed, htokens, hstop⟩ := hfollows
  exact ⟨us, Progress.derives_of_feed hfeed, htokens, Window.eq_ahead htokens hstop⟩

/-- Each turn of the loop leaves fewer tokens. -/
theorem parseQuery_shorter {w : Window} {q : Query} (h : (parseQuery w).result = .ok q) :
    (parseQuery w).window.skipComma.tokens.length < w.tokens.length := by
  obtain ⟨us, hd, htokens, -⟩ := parseQuery_ahead h
  have hlength := congrArg List.length htokens
  have hthree := hd.three_le_length
  have hskip := Window.length_skipComma (parseQuery w).window
  rw [List.length_append] at hlength
  omega

/-! ## The descent as a relation -/

mutual

/-- Reading a query by descent comes to `r`. -/
inductive Descends : Window → Reading Query → Prop where
  | unopened {w : Window} {c : Combinator} {e : ParseError}
      (hk : w.current.kind = .keyword (.combinator c)) (ho : w.openList = .error e) :
      Descends w ⟨.error e, w, []⟩
  | group {w inner : Window} {c : Combinator} {r : Reading (List Query)}
      (hk : w.current.kind = .keyword (.combinator c)) (ho : w.openList = .ok inner)
      (h : DescendsItems [] inner r) : Descends w (r.map (.group c))
  | reserved {w : Window} {word : Reserved} (hk : w.current.kind = .keyword (.reserved word)) :
      Descends w ⟨.error (.unsupported word.word), w, []⟩
  | filter {w : Window} (hc : ∀ c, w.current.kind ≠ .keyword (.combinator c))
      (hr : ∀ r, w.current.kind ≠ .keyword (.reserved r)) : Descends w (parseFilter w)

/-- Reading the items of a list by descent, after those in `done`, comes to `r`. -/
inductive DescendsItems : List Query → Window → Reading (List Query) → Prop where
  | close {done : List Query} {w : Window} (hk : w.current.kind = .rparen) :
      DescendsItems done w ⟨.ok done, w.advance, []⟩
  | fail {done : List Query} {w : Window} {r : Reading Query} {e : ParseError}
      (hk : w.current.kind ≠ .rparen) (h : Descends w r) (he : r.result = .error e) :
      DescendsItems done w ⟨.error e, r.window, r.items⟩
  | turn {done : List Query} {w : Window} {r : Reading Query} {q : Query}
      {r' : Reading (List Query)} (hk : w.current.kind ≠ .rparen) (h : Descends w r)
      (hq : r.result = .ok q) (hl : DescendsItems (done ++ [q]) r.window.skipComma r') :
      DescendsItems done w ⟨r'.result, r'.window, r.items ++ r.window.skipComma :: r'.items⟩

end

mutual

theorem Descends.eq_parseQuery {w : Window} {r : Reading Query} :
    Descends w r → r = parseQuery w
  | .unopened hk ho => by simp only [parseQuery, hk, parseList, ho]; rfl
  | .group hk ho h => by simp only [parseQuery, hk, parseList, ho, h.eq_parseItems]
  | .reserved hk => by simp only [parseQuery, hk]
  | .filter hc hr => (parseQuery_filter hc hr).symm

theorem DescendsItems.eq_parseItems {done : List Query} {w : Window}
    {r : Reading (List Query)} : DescendsItems done w r → r = parseItems [] done w
  | .close hk => (parseItems_last hk).symm
  | .fail hk h he => by
    rw [h.eq_parseQuery] at he ⊢
    rw [parseItems_turn done hk, Reading.andThen, he]
  | .turn hk h hq hl => by
    rw [hl.eq_parseItems]
    rw [h.eq_parseQuery] at hq ⊢
    rw [parseItems_turn done hk, Reading.andThen, hq]
    rfl

end

/-- The items of a list are read to an end if all queries from there on are. The induction is on the
tokens left: every turn of the loop takes some. -/
theorem descendsItems_parseItems {w : Window} (done : List Query)
    (h : ∀ v : Window, v.tokens.length ≤ w.tokens.length → Descends v (parseQuery v)) :
    DescendsItems done w (parseItems [] done w) := by
  induction hn : w.tokens.length using Nat.strongRecOn generalizing done w with
  | ind n ih =>
    by_cases hk : w.current.kind = .rparen
    · rw [parseItems_last hk]
      exact .close hk
    · have hquery := h w (Nat.le_refl _)
      rw [parseItems_turn done hk, Reading.andThen]
      cases hr : (parseQuery w).result with
      | error e => exact .fail hk hquery hr
      | ok q =>
        have hlt := parseQuery_shorter hr
        have hrest := ih _ (hn ▸ hlt) (done ++ [q]) (fun v hv => h v (by omega)) rfl
        exact .turn hk hquery hr hrest

/-- From every window the descent ends. The induction is on the tokens left: a list that is opened
starts behind its bracket. -/
theorem descends_parseQuery (w : Window) : Descends w (parseQuery w) := by
  induction hn : w.tokens.length using Nat.strongRecOn generalizing w with
  | ind n ih =>
    rcases w.cases_query with ⟨c, hk⟩ | ⟨r, hk⟩ | ⟨hc, hr⟩
    · simp only [parseQuery, hk, parseList]
      cases ho : w.openList with
      | error e => exact .unopened hk ho
      | ok inner =>
        have hpos := Window.tokens_pos (w := w) (by rw [hk]; simp)
        have hinner := Window.length_openList ho
        exact .group hk ho (descendsItems_parseItems [] fun v hv => ih _ (by omega) v rfl)
    · simp only [parseQuery, hk]
      exact .reserved hk
    · rw [parseQuery_filter hc hr]
      exact .filter hc hr

theorem descends_iff {w : Window} {r : Reading Query} : Descends w r ↔ r = parseQuery w := by
  constructor
  · intro h
    exact h.eq_parseQuery
  · rintro rfl
    exact descends_parseQuery w

end Criteria
