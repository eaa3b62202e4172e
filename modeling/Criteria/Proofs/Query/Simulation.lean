import Mathlib
import Criteria.Proofs.Number.Written
import Criteria.Proofs.Query.Machine

/-!
# Criteria.Proofs.Query.Simulation

A machine does what a session does, on every text and whatever it is asked.

* `Machine.value_eq`: the table of readers picks the right one, and no numeral is refused by a
  reader that a session would read.
* `Machine.simulates_parseFilter`: filters, move by move.
* `Machine.parseQuery_mono`: what a reading comes to, it comes to with more turns as well.
* `Machine.simulates_parseQuery`: the descent of the machine follows `Descends`, so it ends, and a
  turn for each token is enough.
* `Machine.perform_spec`: all operations.
* `Machine.Reached` and `Reached.sees`: the machines that come of any operations see some window.
* `Machine.parse_points` and `Machine.run_points`: a text without surrogates is read as `parse` and
  a session read it.
* `Machine.perform_places`: the machines on the way through an operation.
-/

namespace Criteria

open Text

namespace Machine

/-! ## Values -/

section Values

variable {ps : List Point} {m : Machine} {w : Window}

theorem identifier_eq (h : m.current = w.current) :
    identifier m = some (w.identifier.mapError .parse, m) := by
  by_cases hk : w.current.kind = .ident
  · simp [identifier, Window.identifier, h, hk, Except.mapError]
  · simp [identifier, Window.identifier, h, hk, Except.mapError]
    rfl

theorem string_eq (h : m.current = w.current) :
    string m = some (w.string.mapError .parse, m) := by
  by_cases hk : w.current.kind = .str
  · simp [string, Window.string, h, hk, Except.mapError]
  · simp [string, Window.string, h, hk, Except.mapError]
    rfl

theorem boolean_eq (h : m.current = w.current) :
    boolean m = some (w.boolean.mapError .parse, m) := by
  by_cases htrue : w.current.kind = .keyword (.truth true)
  · simp [boolean, Window.boolean, h, htrue, Except.mapError]
  by_cases hfalse : w.current.kind = .keyword (.truth false)
  · simp [boolean, Window.boolean, h, hfalse, Except.mapError]
  · have hnone : w.boolean = .error (.expected .boolean w.current) := by
      unfold Window.boolean
      split
      · rename_i b hb
        cases b with
        | true => exact absurd hb htrue
        | false => exact absurd hb hfalse
      · rfl
    simp [boolean, hnone, h, htrue, hfalse, Except.mapError]

theorem integer_eq (h : Sees ps m w) : integer m = some (w.integer.mapError .parse, m) := by
  by_cases hk : w.current.kind = .int
  · have hlex : w.current.Lexical := h.lexical.current (by rw [hk]; simp)
    rw [Token.Lexical, hk] at hlex
    have hread := intOfText?_numeral hlex
    rw [String.ofList_toList] at hread
    have hmin : int64Min ≤ (digitsValue w.current.literal.toList : Int) := by
      rw [int64Min]
      omega
    by_cases hlen : maxNumeralLength < w.current.literal.toList.length
    · rw [if_pos hlen] at hread
      simp [integer, Window.integer, h.current, hk, hread, not_le.mpr hlen, Except.mapError]
    · rw [if_neg hlen] at hread
      by_cases hmax : (digitsValue w.current.literal.toList : Int) ≤ int64Max
      · simp [integer, Window.integer, h.current, hk, hread, not_lt.mp hlen, hmin, hmax,
          Except.mapError]
      · simp [integer, Window.integer, h.current, hk, hread, hmax, Except.mapError]
  · simp [integer, Window.integer, h.current, hk, Except.mapError]
    rfl

theorem float_eq (h : Sees ps m w) : float m = some (w.float.mapError .parse, m) := by
  by_cases hk : w.current.kind = .float
  · have hlex : w.current.Lexical := h.lexical.current (by rw [hk]; simp)
    rw [Token.Lexical, hk] at hlex
    obtain ⟨i, f, hlit, hi, hf⟩ := hlex
    have hread := floatOfText?_numeral hi hf
    rw [← hlit, String.ofList_toList] at hread
    by_cases hfinite : (Binary64.ofNumeral w.current.literal.toList).isFinite
    · simp [float, Window.float, h.current, hk, hread, hfinite, Except.mapError]
    · simp [float, Window.float, h.current, hk, hread, hfinite, Except.mapError]
  · simp [float, Window.float, h.current, hk, Except.mapError]
    rfl

theorem value_eq (h : Sees ps m w) : value m = some (w.value.mapError .parse, m) := by
  rw [value, get_bind, h.current, Window.value]
  cases hk : w.current.kind with
  | ident => exact map_apply _ (identifier_eq h.current)
  | int => exact integer_eq h
  | float => exact float_eq h
  | str => exact string_eq h.current
  | keyword k =>
    cases k with
    | truth b =>
      cases b with
      | true | false => exact boolean_eq h.current
    | comparator _ | combinator _ | reserved _ => rfl
  | illegal | eof | plus | minus | comma | lparen | rparen => rfl

theorem hasValue_eq (h : m.current = w.current) :
    (valueReaders.lookup m.current.kind).isSome = w.hasValue := by
  rw [h, Window.hasValue]
  cases w.current.kind with
  | keyword k =>
    cases k with
    | truth b => cases b <;> rfl
    | comparator _ | combinator _ | reserved _ => rfl
  | _ => rfl

end Values

/-! ## Filters -/

theorem comparators_lookup (op : Comparator) :
    comparators.lookup (.keyword (.comparator op)) = some op := by
  cases op <;> rfl

theorem comparators_lookup_none {kind : Token.Kind} (h : ∀ op, kind ≠ .keyword (.comparator op)) :
    comparators.lookup kind = none := by
  rw [List.lookup_eq_none_iff]
  intro e he
  obtain ⟨op, -, rfl⟩ := List.mem_map.mp he
  exact bne_iff_ne.mpr (h op)

theorem reservedNames_lookup (r : Reserved) :
    reservedNames.lookup (.keyword (.reserved r)) = some r.word := by
  cases r <;> rfl

theorem reservedKinds_contains {kind : Token.Kind} :
    reservedKinds.contains kind ↔ ∃ r, kind = .keyword (.reserved r) := by
  have hall : ∀ r, r ∈ Reserved.all := by
    intro r
    cases r <;> decide
  rw [List.contains_iff_mem, reservedKinds, List.mem_map]
  constructor
  · rintro ⟨r, -, rfl⟩
    exact ⟨r, rfl⟩
  · rintro ⟨r, rfl⟩
    exact ⟨r, hall r, rfl⟩

/-- The reading of a filter after its comparator, move by move. -/
def operandMoves (op : Comparator) (w : Window) : Reading Query :=
  (expected .lparen .lparen w).andThen fun _ v =>
  (moved v).andThen fun _ v =>
  (⟨v.identifier, v, []⟩ : Reading String).andThen fun field v =>
  (expected .comma .comma v).andThen fun _ v =>
  (moved v).andThen fun _ v =>
  (⟨v.value, v, []⟩ : Reading Value).andThen fun value v =>
  (expected .rparen .rparen v).andThen fun _ v =>
  (moved v).andThen fun _ v => ⟨.ok (.filter op field value), v, []⟩

theorem parseFilter_eq {w : Window} {op : Comparator}
    (hk : w.current.kind = .keyword (.comparator op)) :
    Criteria.parseFilter w = operandMoves op w := by
  simp only [Criteria.parseFilter, hk, operandMoves, expected]
  cases hb : w.expect .lparen .lparen with
  | error e => rfl
  | ok bracket =>
    simp only [Reading.ok_andThen, moved]
    cases hf : bracket.advance.identifier with
    | error e => rfl
    | ok field =>
      simp only [Reading.ok_andThen]
      cases hc : bracket.advance.expect .comma .comma with
      | error e => rfl
      | ok comma =>
        simp only [Reading.ok_andThen]
        cases hv : comma.advance.value with
        | error e => rfl
        | ok value =>
          simp only [Reading.ok_andThen]
          cases comma.advance.expect .rparen .rparen with
          | error e => rfl
          | ok close => rfl

/-- A token that was expected is followed by another one. -/
theorem simulates_nextAfter {ps : List Point} {m : Machine} {w : Window} {kind : Token.Kind}
    {what : Expectation} (hk : kind ≠ .eof) (hr : (expected kind what w).result = .ok ())
    (h : Sees ps m (expected kind what w).window) :
    Simulates ps next m (expected kind what w).window (moved (expected kind what w).window) :=
  simulates_next h (Window.tokens_pos (by rw [kind_of_expected hr]; exact hk))

theorem simulates_operands {ps : List Point} {m : Machine} {w : Window} (op : Comparator)
    (h : Sees ps m w) : Simulates ps (operands op) m w (operandMoves op w) := by
  refine (simulates_expectPeek h (by simp) _).bind fun _ m hr h => ?_
  refine (simulates_nextAfter (by simp) hr h).bind fun _ m _ h => ?_
  refine (Simulates.stay h (identifier_eq h.current)).bind fun field m _ h => ?_
  refine (simulates_expectPeek h (by simp) _).bind fun _ m hr h => ?_
  refine (simulates_nextAfter (by simp) hr h).bind fun _ m _ h => ?_
  refine (Simulates.stay h (value_eq h)).bind fun value m _ h => ?_
  refine (simulates_expectPeek h (by simp) _).bind fun _ m hr h => ?_
  refine (simulates_nextAfter (by simp) hr h).bind fun _ m _ h => ?_
  exact .stay h rfl

theorem simulates_parseFilter {ps : List Point} {m : Machine} {w : Window} (h : Sees ps m w) :
    Simulates ps parseFilter m w (Criteria.parseFilter w) := by
  by_cases hop : ∃ op, w.current.kind = .keyword (.comparator op)
  · obtain ⟨op, hk⟩ := hop
    have hrun : parseFilter m = operands op m := by
      rw [parseFilter, get_bind, h.current, hk, comparators_lookup]
    rw [parseFilter_eq hk]
    exact (simulates_operands op h).congr_run hrun.symm
  · have hnot : ∀ op, w.current.kind ≠ .keyword (.comparator op) := fun op hk => hop ⟨op, hk⟩
    have hrun : parseFilter m = some (.error (.parse (.expected .comparator w.current)), m) := by
      rw [parseFilter, get_bind, h.current, comparators_lookup_none hnot]
      rfl
    rw [parseFilter_of_other hnot]
    exact .stay h hrun

/-! ## Queries and lists -/

/-- The loop over a list, and the move over its closing bracket. -/
def closeList (n : Nat) (done : List Query) : Run (List Query) := do
  let qs ← items n done
  next
  return qs

section Turns

variable {n k : Nat}

theorem queryList_le (h : ∀ done, (items n done).Le (items k done)) :
    (queryList n).Le (queryList k) := by
  rw [queryList, queryList]
  exact (Run.Le.refl _).bind fun _ => (Run.Le.refl _).bind fun _ => (h []).bind fun _ => .refl _

theorem parseQuery_le (h : ∀ done, (items n done).Le (items k done)) :
    (parseQuery n).Le (parseQuery k) := by
  have hlist := queryList_le h
  rw [parseQuery, parseQuery]
  refine (Run.Le.refl _).bind fun m => ?_
  dsimp only
  split
  · exact hlist.bind fun _ => .refl _
  split
  · exact hlist.bind fun _ => .refl _
  · exact .refl _

/-- What a loop comes to, it comes to with more turns as well. -/
theorem items_mono (h : n ≤ k) (done : List Query) : (items n done).Le (items k done) := by
  induction n generalizing k done with
  | zero =>
    rw [items.eq_def 0, items.eq_def k]
    refine (Run.Le.refl _).bind fun m => ?_
    split
    · exact .refl _
    · intro _ _ _ hrun
      cases hrun
  | succ n ih =>
    obtain ⟨k, rfl⟩ := Nat.exists_eq_add_one_of_ne_zero (Nat.ne_zero_of_lt h)
    have hle : n ≤ k := Nat.le_of_succ_le_succ h
    rw [items.eq_def (n + 1), items.eq_def (k + 1)]
    refine (Run.Le.refl _).bind fun m => ?_
    split
    · exact .refl _
    · exact (parseQuery_le (ih hle)).bind fun _ => (Run.Le.refl _).bind fun _ => ih hle _

theorem parseQuery_mono (h : n ≤ k) : (parseQuery n).Le (parseQuery k) :=
  parseQuery_le (items_mono h)

theorem perform_mono (h : n ≤ k) (op : Session.Operation) : (perform n op).Le (perform k op) := by
  cases op with
  | query => exact (parseQuery_mono h).map _
  | list => exact (queryList_le (items_mono h)).map _
  | _ => exact .refl _

end Turns

section Lists

variable {ps : List Point} {n : Nat} {m : Machine} {w : Window}

theorem items_rparen {done : List Query} (hk : m.current.kind = .rparen) :
    items n done m = some (.ok done, m) := by
  rw [items.eq_def, get_bind, if_pos hk]
  rfl

theorem items_turn {done : List Query} (hk : m.current.kind ≠ .rparen) :
    items (n + 1) done m = (do
      let q ← parseQuery n
      skipComma
      items n (done ++ [q])) m := by
  rw [items, get_bind, if_neg hk]

theorem closeList_turn {done : List Query} (hk : m.current.kind ≠ .rparen) :
    closeList (n + 1) done m = (do
      let q ← parseQuery n
      skipComma
      closeList n (done ++ [q])) m := by
  rw [closeList, bind_congr (items_turn hk), bind_assoc]
  simp only [bind_assoc]
  rfl

theorem parseQuery_combinator {c : Combinator} (hk : m.current.kind = .keyword (.combinator c)) :
    parseQuery n m = (Query.group c <$> queryList n) m := by
  rw [parseQuery, get_bind, hk]
  cases c with
  | and => rfl
  | or => rfl

theorem parseQuery_reserved {r : Reserved} (hk : m.current.kind = .keyword (.reserved r)) :
    parseQuery n m = some (.error (.parse (.unsupported r.word)), m) := by
  have hcontains : reservedKinds.contains (.keyword (.reserved r)) :=
    reservedKinds_contains.mpr ⟨r, rfl⟩
  rw [parseQuery, get_bind, hk]
  by_cases hs : r = .sort
  · subst hs
    rfl
  · simp only [Token.Kind.keyword.injEq, Keyword.reserved.injEq, reduceCtorEq, if_false, if_neg hs,
      if_pos hcontains, refuseReserved, reservedNames_lookup]
    rfl

theorem parseQuery_filter (hc : ∀ c, m.current.kind ≠ .keyword (.combinator c))
    (hr : ∀ r, m.current.kind ≠ .keyword (.reserved r)) : parseQuery n m = parseFilter m := by
  have hnone : ¬reservedKinds.contains m.current.kind := by
    intro hcontains
    obtain ⟨r, hk⟩ := reservedKinds_contains.mp hcontains
    exact hr r hk
  rw [parseQuery, get_bind, if_neg (hc .and), if_neg (hc .or), if_neg (hr .sort), if_neg hnone]

/-- A list is opened by two moves. -/
theorem simulates_queryList (h : Sees ps m w) {r : Reading (List Query)}
    (hl : ∀ inner m', w.openList = .ok inner → Sees ps m' inner →
      Simulates ps (closeList n []) m' inner r) :
    Simulates ps (queryList n) m w (match w.openList with
      | .error e => ⟨.error e, w, []⟩
      | .ok _ => r) := by
  have hopen : queryList n = (do
      expectPeek .lparen .lparen
      next
      closeList n []) := by
    rw [queryList]
    rfl
  have hexpect : Simulates ps (expectPeek .lparen .lparen) m w (expected .lparen .lparen w) :=
    simulates_expectPeek h (by simp) .lparen
  rw [hopen, Window.openList]
  cases he : w.expect .lparen .lparen with
  | error e =>
    have hresult : expected .lparen .lparen w = ⟨.error e, w, []⟩ := by rw [expected, he]
    rw [hresult] at hexpect
    exact hexpect.bind (g := fun _ v => ⟨.ok [], v, []⟩) fun _ _ hok => by cases hok
  | ok v =>
    have hresult : expected .lparen .lparen w = ⟨.ok (), v, []⟩ := by rw [expected, he]
    have hinner : w.openList = .ok v.advance := by rw [Window.openList, he]
    have hnext := fun m hr => @simulates_nextAfter ps m w .lparen .lparen (by simp) hr
    rw [hresult] at hexpect hnext
    refine hexpect.bind (g := fun _ _ => r) fun _ m hr h => ?_
    exact (hnext m hr h).bind (g := fun _ _ => r) fun _ m' _ h' => hl _ m' hinner h'

end Lists

mutual

/-- As many turns as there are tokens are enough for a query. -/
theorem simulates_parseQuery_of_descends {ps : List Point} {n : Nat} {m : Machine} {w : Window}
    {r : Reading Query} (h : Sees ps m w) (hn : w.tokens.length ≤ n) :
    Descends w r → Simulates ps (parseQuery n) m w r
  | .unopened hk ho => by
    have hlist := simulates_queryList h (n := n) (r := ⟨.ok [], w, []⟩) fun inner _ ho' => by
      rw [ho] at ho'
      cases ho'
    rw [ho] at hlist
    exact (hlist.map _).congr_run (parseQuery_combinator (h.current ▸ hk)).symm
  | .group hk ho hd => by
    have hpos := Window.tokens_pos (w := w) (by rw [hk]; simp)
    have hinner := Window.length_openList ho
    have hlist := simulates_queryList h fun inner m' ho' h' => by
      rw [ho] at ho'
      cases ho'
      exact simulates_closeList_of_descends h' (n := n) (by omega) hd
    rw [ho] at hlist
    exact (hlist.map _).congr_run (parseQuery_combinator (h.current ▸ hk)).symm
  | .reserved hk => .stay h (parseQuery_reserved (h.current ▸ hk))
  | .filter hc hr =>
    (simulates_parseFilter h).congr_run (parseQuery_filter (h.current ▸ hc) (h.current ▸ hr)).symm

/-- A list may need one turn more, which fails at the end of input. -/
theorem simulates_closeList_of_descends {ps : List Point} {n : Nat} {m : Machine} {w : Window}
    {done : List Query} {r : Reading (List Query)} (h : Sees ps m w) (hn : w.tokens.length < n) :
    DescendsItems done w r → Simulates ps (closeList n done) m w r
  | .close hk => by
    have hrun : closeList n done m = ((fun _ => done) <$> next) m :=
      bind_ok (items_rparen (h.current ▸ hk))
    have hpos := Window.tokens_pos (w := w) (by rw [hk]; simp)
    exact ((simulates_next h hpos).map fun _ => done).congr_run hrun.symm
  | .fail (r := r) hk hd he => by
    obtain ⟨n, rfl⟩ := Nat.exists_eq_add_one_of_ne_zero (Nat.ne_zero_of_lt hn)
    have hturn := (simulates_parseQuery_of_descends h (n := n) (by omega) hd).bind
      (f := fun q => skipComma >>= fun _ => closeList n (done ++ [q]))
      (g := fun _ v => ⟨.ok [], v, []⟩) fun a _ hok => by
        rw [he] at hok
        cases hok
    rw [Reading.andThen, he] at hturn
    exact hturn.congr_run (closeList_turn (h.current ▸ hk)).symm
  | @DescendsItems.turn _ _ r _ r' hk hd hq hl => by
    obtain ⟨n, rfl⟩ := Nat.exists_eq_add_one_of_ne_zero (Nat.ne_zero_of_lt hn)
    have hshorter : r.window.skipComma.tokens.length < w.tokens.length := by
      rw [hd.eq_parseQuery] at hq ⊢
      exact parseQuery_shorter hq
    have hturn := (simulates_parseQuery_of_descends h (n := n) (by omega) hd).bind
      (f := fun q => skipComma >>= fun _ => closeList n (done ++ [q]))
      (g := fun _ _ => r') fun a m' hok h' => by
        rw [hq] at hok
        cases hok
        have hskip := (simulates_skipComma h').bind (f := fun _ => closeList n (done ++ [_]))
          (g := fun _ _ => r') fun _ m'' _ h'' =>
            simulates_closeList_of_descends h'' (by simp only; omega) hl
        exact hskip
    refine (hturn.congr ?_ ?_).congr_run (closeList_turn (h.current ▸ hk)).symm
    · rw [Reading.andThen, hq]
    · rw [Reading.andThen, hq]

end

section Operations

variable {ps : List Point} {n : Nat} {m : Machine} {w : Window}

theorem simulates_parseQuery (h : Sees ps m w) (hn : w.tokens.length ≤ n) :
    Simulates ps (parseQuery n) m w (Criteria.parseQuery w) :=
  simulates_parseQuery_of_descends h hn (descends_parseQuery w)

theorem simulates_parseList (h : Sees ps m w) (hn : w.tokens.length ≤ n) :
    Simulates ps (queryList n) m w (Criteria.parseList w) := by
  have hlist := simulates_queryList (r := Criteria.parseList w) h fun inner m' ho h' => by
    have hpos := Window.tokens_pos_of_openList ho
    have hinner := Window.length_openList ho
    rw [Criteria.parseList, ho]
    exact simulates_closeList_of_descends h' (n := n) (by omega)
      (descendsItems_parseItems [] fun v _ => descends_parseQuery v)
  refine hlist.congr ?_ ?_
  all_goals
    cases ho : w.openList with
    | error e => simp only [Criteria.parseList, ho]
    | ok inner => rfl

end Operations

end Machine

/-! ## Operations -/

/-- What a machine answers where a session replies. -/
def Session.Reply.outcome : Session.Reply → Except Stop Session.Reply
  | .failed e => .error (.parse e)
  | r => .ok r

namespace Machine

/-- The machine replies as the session does, and both are at the same place afterwards; or the
machine stops at a surrogate. -/
def Performs (ps : List Point) (n : Nat) (op : Session.Operation) (m : Machine) (σ : Session) :
    Prop :=
  ∃ us m₁, Takes m us m₁ ∧
    ((perform n op m = some ((σ.perform op).1.outcome, m₁) ∧ Sees ps m₁ (σ.perform op).2.window ∧
        m₁.errors = (σ.perform op).2.errors) ∨
      ∃ e m₂ v, Stops ps m₁ m₂ e ∧ perform n op m = some (.error (.unencodable e), m₂) ∧
        Sees ps m₂ v ∧ m₂.errors = σ.errors)

section Operations

variable {ps : List Point} {n : Nat} {m : Machine} {σ : Session}

theorem performs_of_simulates {α : Type} {op : Session.Operation} {x : Run α}
    {f : α → Session.Reply} {r : Reading α} (h : Simulates ps x m σ.window r)
    (he : m.errors = σ.errors) (hf : ∀ a, (f a).outcome = .ok (f a))
    (hx : perform n op = f <$> x)
    (hop : σ.perform op = (.of f r.result, { σ with window := r.window })) :
    Performs ps n op m σ := by
  have houtcome : (Session.Reply.of f r.result).outcome = (r.result.map f).mapError .parse := by
    cases r.result with
    | error e => rfl
    | ok a => exact hf a
  obtain ⟨us, m₁, htakes, herrors, hend⟩ := h.map f
  refine ⟨us, m₁, htakes, ?_⟩
  rw [hx, hop, houtcome, ← he]
  rcases hend with ⟨hrun, -, -, hsees⟩ | hstops
  · exact .inl ⟨hrun, hsees, herrors⟩
  · exact .inr hstops

/-- Whatever a machine is asked, it does as the session does, given a turn for each token. -/
theorem perform_spec (h : Sees ps m σ.window) (he : m.errors = σ.errors)
    (hn : σ.window.tokens.length ≤ n) (op : Session.Operation) : Performs ps n op m σ := by
  cases op with
  | query => exact performs_of_simulates (simulates_parseQuery h hn) he (fun _ => rfl) rfl rfl
  | filter => exact performs_of_simulates (simulates_parseFilter h) he (fun _ => rfl) rfl rfl
  | list => exact performs_of_simulates (simulates_parseList h hn) he (fun _ => rfl) rfl rfl
  | sort =>
    have hstay : Simulates ps parseSort m σ.window
        ⟨.error (.unsupported Reserved.sort.word), σ.window, []⟩ := .stay h rfl
    exact performs_of_simulates hstay he (fun _ => rfl) rfl rfl
  | identifier =>
    exact performs_of_simulates (.stay h (identifier_eq h.current)) he (fun _ => rfl) rfl rfl
  | integer => exact performs_of_simulates (.stay h (integer_eq h)) he (fun _ => rfl) rfl rfl
  | float => exact performs_of_simulates (.stay h (float_eq h)) he (fun _ => rfl) rfl rfl
  | string => exact performs_of_simulates (.stay h (string_eq h.current)) he (fun _ => rfl) rfl rfl
  | boolean => exact performs_of_simulates (.stay h (boolean_eq h.current)) he (fun _ => rfl) rfl rfl
  | hasValue =>
    refine ⟨[], m, .refl m, .inl ⟨?_, h, he⟩⟩
    rw [perform, get_bind, hasValue_eq h.current]
    rfl
  | next =>
    rcases h.next with ⟨m', hnext, hm', herrors⟩ | ⟨e, m', hstops, hm', herrors⟩
    · exact ⟨_, m', .next hnext (.refl m'), .inl ⟨bind_ok hnext, hm', herrors.trans he⟩⟩
    · exact ⟨[], m, .refl m,
        .inr ⟨e, m', _, hstops, bind_error hstops.1, hm', herrors.trans he⟩⟩

end Operations

/-! ## Beginnings -/

/-- A machine that is begun sees the tokens from its scanner on. -/
theorem start_spec {ps : List Point} {s : Scanner} (hs : s.Sound)
    (hrest : s.rest <:+ (Scanner.ofPoints ps).rest) :
    (∃ m, start { scanner := s } = some (.ok (), m) ∧ Sees ps m (Window.ofCursor s.cursor) ∧
        m.errors = []) ∨
      ∃ e m, start { scanner := s } = some (.error (.unencodable e), m) ∧
        .surrogate e.surrogate ∈ (Scanner.ofPoints ps).rest := by
  obtain ⟨s₁, hs₁, hrest₁, ⟨hnext₁, hcursor₁, -⟩ | ⟨n, hstops, -⟩⟩ :=
    next_spec (m := { scanner := s }) hs hrest
  · obtain ⟨s₂, hs₂, hrest₂, ⟨hnext₂, hcursor₂, -⟩ | ⟨n, hstops, -⟩⟩ :=
      next_spec (m := ⟨{ kind := .illegal }, s.cursor.next.1, s₁, []⟩) hs₁ hrest₁
    · refine .inl ⟨_, (bind_ok hnext₁).trans hnext₂, ⟨?_, ?_, ?_, hs₂, hrest₂, .inr ?_⟩, rfl⟩
      · exact Cursor.next_fst s.cursor
      · change s₁.cursor.next.1 = (Window.ofCursor s.cursor).advance.current
        rw [Cursor.next_fst, hcursor₁, ← Window.ofCursor_next]
      · exact Window.lexical_ofCursor s.cursor
      · rw [hcursor₂, Window.ofCursor_next, hcursor₁, Window.ofCursor_next]
    · exact .inr ⟨⟨n⟩, _, (bind_ok hnext₁).trans hstops.1, hstops.2⟩
  · exact .inr ⟨⟨n⟩, _, bind_error hstops.1, hstops.2⟩

/-- The scanners that come of taking tokens from the text, also after that failed. -/
inductive ScannerReached (ps : List Point) : Scanner → Prop where
  | start : ScannerReached ps (.ofPoints ps)
  | token {s s' : Scanner} {t : Token} (h : ScannerReached ps s) (ht : s.nextToken = .ok t s') :
      ScannerReached ps s'
  | failed {s s' : Scanner} {e : EncodeError} (h : ScannerReached ps s)
      (he : s.nextToken = .error e s') : ScannerReached ps s'

/-- The machines that come of any operations, also after one failed. -/
inductive Reached (ps : List Point) : Machine → Prop where
  | start {s : Scanner} {m : Machine} (hs : ScannerReached ps s)
      (h : Machine.start { scanner := s } = some (.ok (), m)) : Reached ps m
  | perform {n : Nat} {m m' : Machine} {op : Session.Operation} {r : Except Stop Session.Reply}
      (h : Reached ps m) (hp : Machine.perform n op m = some (r, m')) : Reached ps m'

theorem ScannerReached.sound {ps : List Point} {s : Scanner} (h : ScannerReached ps s) :
    s.Sound ∧ s.rest <:+ (Scanner.ofPoints ps).rest := by
  have hstep : ∀ {s s' : Scanner} {cs : List Char}, s.rest <:+ (Scanner.ofPoints ps).rest →
      s.Reads cs s' → s'.Sound ∧ s'.rest <:+ (Scanner.ofPoints ps).rest := fun hrest hreads =>
    ⟨hreads.sound, List.IsSuffix.trans ⟨_, hreads.rest.symm⟩ hrest⟩
  induction h with
  | start => exact ⟨.ofPoints ps, List.suffix_refl _⟩
  | token _ ht ih =>
    obtain ⟨cs, s₁, hreads, ⟨htoken, -⟩ | ⟨n, herror, -⟩⟩ := Scanner.nextToken_spec ih.1
    · rw [ht] at htoken
      cases htoken
      exact hstep ih.2 hreads
    · rw [ht] at herror
      cases herror
  | failed _ he ih =>
    obtain ⟨cs, s₁, hreads, ⟨htoken, -⟩ | ⟨n, herror, -⟩⟩ := Scanner.nextToken_spec ih.1
    · rw [he] at htoken
      cases htoken
    · rw [he] at herror
      cases herror
      exact hstep ih.2 hreads

/-- A machine that was reached stands at the place of some window, and has collected no errors. -/
theorem Reached.sees {ps : List Point} {m : Machine} (h : Reached ps m) :
    ∃ w, Sees ps m w ∧ m.errors = [] := by
  induction h with
  | start hs h =>
    obtain ⟨hsound, hrest⟩ := hs.sound
    rcases start_spec hsound hrest with ⟨m', hstart, hsees, herrors⟩ | ⟨e, m', hstart, -⟩
    · rw [hstart] at h
      cases h
      exact ⟨_, hsees, herrors⟩
    · rw [hstart] at h
      cases h
  | @perform n m m' op r _ hp ih =>
    obtain ⟨w, hsees, herrors⟩ := ih
    have hp := perform_mono (Nat.le_max_left n w.tokens.length) op _ _ _ hp
    obtain ⟨us, m₁, -, ⟨hrun, hsees', herrors'⟩ | ⟨e, m₂, v, -, hrun, hsees', herrors'⟩⟩ :=
      perform_spec (σ := { window := w }) hsees herrors (Nat.le_max_right n w.tokens.length) op
    · rw [hrun] at hp
      cases hp
      exact ⟨_, hsees', herrors'.trans (Session.perform_spec { window := w } op).2.1⟩
    · rw [hrun] at hp
      cases hp
      exact ⟨v, hsees', herrors'⟩

/-! ## Texts -/

theorem Window.length_ofText_le (s : String) : (Window.ofText s).tokens.length ≤ s.length := by
  refine Nat.le_trans (Cursor.length_remaining_le (Cursor.ofText s)) ?_
  exact (List.takeWhile_sublist _).length_le

/-- A text is read as if its surrogates were characters, unless one of them has to be passed. A turn
for each code point is enough. -/
theorem parse_spec {n : Nat} {ps : List Point} (hn : ps.length ≤ n) :
    parse n ps = some ((Criteria.parse (shownText ps)).mapError .parse) ∨
      ∃ e, parse n ps = some (.error (.unencodable e)) ∧
        .surrogate e.surrogate ∈ ps.takeWhile (· != Scanner.endMark) := by
  have hwindow : Window.ofCursor (Scanner.ofPoints ps).cursor = Window.ofText (shownText ps) := by
    rw [Scanner.cursor_ofPoints, Window.ofText]
  have hlength := Window.length_ofText_le (shownText ps)
  have hshown : (shownText ps).length = ps.length := by
    rw [shownText, String.length_ofList, List.length_map]
  rw [parse, ← Scanner.rest_ofPoints]
  rcases start_spec (.ofPoints ps) (List.suffix_refl _) with
    ⟨m, hstart, hsees, -⟩ | ⟨e, m, hstart, hmem⟩
  · rw [bind_ok hstart]
    rw [hwindow] at hsees
    obtain ⟨us, m₁, -, -, ⟨hrun, -⟩ | ⟨e, m₂, v, hstops, hrun, -⟩⟩ :=
      simulates_parseQuery (n := n) hsees (by omega)
    · rw [hrun]
      exact .inl rfl
    · exact .inr ⟨e, by rw [hrun]; rfl, hstops.2⟩
  · exact .inr ⟨e, by rw [bind_error hstart]; rfl, hmem⟩

/-- No more turns than code points are needed. -/
theorem exists_parse (ps : List Point) :
    ∃ r, ∀ n, ps.length ≤ n → parse n ps = some r := by
  have hrun : ∃ r, parse ps.length ps = some r := by
    rcases parse_spec (Nat.le_refl ps.length) with h | ⟨e, h, -⟩
    · exact ⟨_, h⟩
    · exact ⟨_, h⟩
  obtain ⟨r, hr⟩ := hrun
  refine ⟨r, ?_⟩
  intro n hn
  obtain ⟨⟨r', m'⟩, hread, rfl⟩ := Option.map_eq_some_iff.mp hr
  have hmore := (Run.Le.refl start).bind (fun _ => parseQuery_mono hn) _ _ _ hread
  rw [parse, hmore]
  rfl

theorem surrogate_not_mem_points (s : String) (n : Fin 0x800) :
    .surrogate n ∉ (points s).takeWhile (· != Scanner.endMark) := by
  intro hmem
  obtain ⟨c, -, hc⟩ := List.mem_map.mp ((List.takeWhile_sublist _).subset hmem)
  cases hc

theorem not_stops_points {s : String} {m m' : Machine} {e : EncodeError} :
    ¬Stops (points s) m m' e := by
  rintro ⟨-, hmem⟩
  rw [Scanner.rest_ofPoints] at hmem
  exact surrogate_not_mem_points s _ hmem

/-- A text without surrogates is read as `parse` reads it. -/
theorem parse_points {n : Nat} {s : String} (hn : s.length ≤ n) :
    parse n (points s) = some ((Criteria.parse s).mapError .parse) := by
  have hpoints : (points s).length ≤ n := by rwa [points, List.length_map]
  rcases parse_spec hpoints with h | ⟨e, -, hmem⟩
  · rwa [shownText_points] at h
  · exact absurd hmem (surrogate_not_mem_points s _)

theorem start_points (s : String) :
    ∃ m, start { scanner := .ofPoints (points s) } = some (.ok (), m) ∧
      Sees (points s) m (Window.ofText s) ∧ m.errors = [] := by
  rcases start_spec (.ofPoints (points s)) (List.suffix_refl _) with h | ⟨e, m, -, hmem⟩
  · rwa [Scanner.cursor_ofPoints, shownText_points] at h
  · rw [Scanner.rest_ofPoints] at hmem
    exact absurd hmem (surrogate_not_mem_points s _)

theorem perform_points {s : String} {n : Nat} {m : Machine} {σ : Session}
    (h : Sees (points s) m σ.window) (he : m.errors = σ.errors)
    (hn : σ.window.tokens.length ≤ n) (op : Session.Operation) :
    ∃ m', perform n op m = some ((σ.perform op).1.outcome, m') ∧
      Sees (points s) m' (σ.perform op).2.window ∧ m'.errors = (σ.perform op).2.errors := by
  obtain ⟨us, m₁, -, hrun | ⟨e, m₂, v, hstops, -⟩⟩ := perform_spec h he hn op
  · exact ⟨m₁, hrun⟩
  · exact absurd hstops not_stops_points

/-- On a text without surrogates a machine and a session reply alike, whatever they are asked, and
stand at the same place after each reply. -/
theorem run_points {s : String} {n : Nat} {m : Machine} {σ : Session}
    (h : Sees (points s) m σ.window) (he : m.errors = σ.errors)
    (hn : σ.window.tokens.length ≤ n) (ops : List Session.Operation) :
    ∃ rs, m.run n ops = some rs ∧
      List.Forall₂ (fun r r' => r.1 = r'.1.outcome ∧ Sees (points s) r.2 r'.2.window ∧
        r.2.errors = r'.2.errors) rs (σ.run ops) := by
  induction ops generalizing m σ with
  | nil => exact ⟨[], rfl, .nil⟩
  | cons op ops ih =>
    obtain ⟨m', hperform, hsees, herrors⟩ := perform_points h he hn op
    have honward := (σ.onward_perform op).length_le
    obtain ⟨rs, hrun, hall⟩ := ih hsees herrors (Nat.le_trans honward hn)
    refine ⟨((σ.perform op).1.outcome, m') :: rs, ?_, .cons ⟨rfl, hsees, herrors⟩ hall⟩
    rw [run, hperform]
    simp only [Option.bind_eq_bind, Option.bind_some, hrun]
    rfl

/-! ## On the way -/

/-- With each token that it takes a machine is one place further. -/
theorem Takes.sees {ps : List Point} {m m' : Machine} {us : List Token} {w : Window}
    (h : Takes m us m') (hs : Sees ps m w) : Sees ps m' (w.ahead us.length) := by
  induction h generalizing w with
  | refl m => exact hs
  | @next m m₁ m₂ us hm _ ih =>
    rcases hs.next with ⟨m', hnext, hsees, -⟩ | ⟨e, m', hstops, -⟩
    · rw [hm] at hnext
      cases hnext
      have hlast := ih hsees
      rwa [Window.advance_eq_ahead, Window.ahead_ahead, Nat.add_comm] at hlast
    · exact nomatch hm.symm.trans hstops.1

theorem Takes.split {m m' : Machine} {us vs : List Token} (h : Takes m (us ++ vs) m') :
    ∃ m₁, Takes m us m₁ ∧ Takes m₁ vs m' := by
  induction us generalizing m with
  | nil => exact ⟨m, .refl m, h⟩
  | cons u us ih =>
    cases h with
    | next hm hrest =>
      obtain ⟨m₁, hus, hvs⟩ := ih hrest
      exact ⟨m₁, .next hm hus, hvs⟩

/-- An operation takes tokens one by one, and all machines on the way, also those inside a filter,
stand at places of the stream of tokens. -/
theorem perform_places {s : String} {n k : Nat} {m : Machine}
    (h : Sees (points s) m ((Window.ofText s).ahead k))
    (hn : ((Window.ofText s).ahead k).tokens.length ≤ n) (op : Session.Operation) :
    ∃ r us m', perform n op m = some (r, m') ∧ Takes m us m' ∧
      ∀ vs ws, us = vs ++ ws → ∃ m₁, Takes m vs m₁ ∧ Takes m₁ ws m' ∧
        m₁.current = stream s (k + vs.length) ∧ m₁.peek = stream s (k + vs.length + 1) := by
  obtain ⟨us, m', htakes, ⟨hrun, -⟩ | ⟨e, m₂, v, hstops, -⟩⟩ :=
    perform_spec (σ := { window := (Window.ofText s).ahead k, errors := m.errors }) h rfl hn op
  · refine ⟨_, us, m', hrun, htakes, ?_⟩
    rintro vs ws rfl
    obtain ⟨m₁, hvs, hws⟩ := htakes.split
    have hsees := hvs.sees h
    rw [Window.ahead_ahead] at hsees
    exact ⟨m₁, hvs, hws, hsees.current.trans (Window.current_ahead s _),
      hsees.peek.trans (Window.peek_ahead s _)⟩
  · exact absurd hstops not_stops_points

end Machine
end Criteria
