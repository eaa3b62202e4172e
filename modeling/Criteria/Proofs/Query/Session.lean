import Mathlib
import Criteria.Proofs.Query.Progress
import Criteria.Query.Session

/-!
# Criteria.Proofs.Query.Session

Where a session stands, whatever it was asked before. Readings move a window on, or leave it where
it is, also when they fail.

* `Window.Refuses`: an expectation that fails at a window, with the token that it looks at there.
* `Reading.Steady`: the windows of a reading come one after the other, and the error speaks of a
  token in sight of the last one. `parseFilter_steady`, `parseItems_steady` and
  `parseQuery_steady` show it of every reading.
* `Session.trace`: all windows of a run, those on the way through a list included.
* `run_places`: the windows of any run are places of the stream of tokens, in order.
-/

namespace Criteria

namespace Window

/-- What is expected at the window is refused, with the token that was looked at: the next one for
brackets and commas, the current one for all else. -/
def Refuses (w : Window) : Expectation → Token → Prop
  | .lparen, t => t = w.peek ∧ w.expect .lparen .lparen = .error (.expected .lparen t)
  | .rparen, t => t = w.peek ∧ w.expect .rparen .rparen = .error (.expected .rparen t)
  | .comma, t => t = w.peek ∧ w.expect .comma .comma = .error (.expected .comma t)
  | .comparator, t =>
    t = w.current ∧ (parseFilter w).result = .error (.expected .comparator t)
  | .value, t => t = w.current ∧ w.value = .error (.expected .value t)
  | .identifier, t => t = w.current ∧ w.identifier = .error (.expected .identifier t)
  | .integer, t => t = w.current ∧ w.integer = .error (.expected .integer t)
  | .float, t => t = w.current ∧ w.float = .error (.expected .float t)
  | .string, t => t = w.current ∧ w.string = .error (.expected .string t)
  | .boolean, t => t = w.current ∧ w.boolean = .error (.expected .boolean t)
  | .token, _ | .query, _ | .more, _ => False

/-! ## Refusals -/

variable {w : Window} {e : ParseError} {what : Expectation} {t : Token}

theorem expect_error {kind : Token.Kind} (h : w.expect kind what = .error e) :
    e = .expected what w.peek := by
  unfold expect at h
  split at h
  · cases h
  · cases h; rfl

theorem openList_error (h : w.openList = .error e) :
    w.expect .lparen .lparen = .error e := by
  unfold openList at h
  split at h
  · rename_i he; cases h; exact he
  · cases h

theorem refuses_identifier (h : w.identifier = .error (.expected what t)) : w.Refuses what t := by
  have h' := h
  unfold identifier at h
  split at h
  · cases h
  · cases h; exact ⟨rfl, h'⟩

theorem refuses_integer (h : w.integer = .error (.expected what t)) : w.Refuses what t := by
  have h' := h
  unfold integer at h
  split at h
  · dsimp only at h
    split at h <;> cases h
  · cases h; exact ⟨rfl, h'⟩

theorem refuses_float (h : w.float = .error (.expected what t)) : w.Refuses what t := by
  have h' := h
  unfold float at h
  split at h
  · dsimp only at h
    split at h <;> cases h
  · cases h; exact ⟨rfl, h'⟩

theorem refuses_string (h : w.string = .error (.expected what t)) : w.Refuses what t := by
  have h' := h
  unfold string at h
  split at h
  · cases h
  · cases h; exact ⟨rfl, h'⟩

theorem refuses_boolean (h : w.boolean = .error (.expected what t)) : w.Refuses what t := by
  have h' := h
  unfold boolean at h
  split at h
  · cases h
  · cases h; exact ⟨rfl, h'⟩

/-- A value is looked for by the kind of the token, so no reader of one kind of value refuses it. -/
theorem refuses_value (h : w.value = .error (.expected what t)) : w.Refuses what t := by
  have h' := h
  unfold value at h
  split at h
  · rename_i hk; simp [identifier, hk, Except.map] at h
  · exact refuses_integer h
  · exact refuses_float h
  · exact refuses_string h
  · exact refuses_boolean h
  · cases h; exact ⟨rfl, h'⟩

/-! ## Windows further on -/

/-- The window `v` is `w`, or `w` some tokens further on. -/
def Onward (w v : Window) : Prop := ∃ n, v = w.ahead n

theorem Onward.refl (w : Window) : w.Onward w := ⟨0, rfl⟩

theorem Onward.trans {u v w : Window} (h : u.Onward v) (h' : v.Onward w) : u.Onward w := by
  obtain ⟨m, rfl⟩ := h
  obtain ⟨n, rfl⟩ := h'
  exact ⟨m + n, ahead_ahead u m n⟩

instance : Trans Onward Onward Onward := ⟨Onward.trans⟩

theorem onward_advance (w : Window) : w.Onward w.advance := ⟨1, advance_eq_ahead w⟩

theorem onward_skipComma (w : Window) : w.Onward w.skipComma := by
  unfold skipComma
  split
  · exact onward_advance w
  · exact .refl w

theorem onward_expect {v : Window} {kind : Token.Kind} (h : w.expect kind what = .ok v) :
    w.Onward v := by
  unfold expect at h
  split at h
  · cases h; exact onward_advance w
  · cases h

theorem onward_openList {v : Window} (h : w.openList = .ok v) : w.Onward v := by
  unfold openList at h
  split at h
  · cases h
  · rename_i he
    cases h
    exact (onward_expect he).trans (onward_advance _)

/-- A chain of windows may start further back. -/
theorem Onward.isChain {u v : Window} {ws : List Window} (h : u.Onward v)
    (hc : (v :: ws).IsChain Onward) : (u :: ws).IsChain Onward := by
  cases ws with
  | nil => exact .singleton u
  | cons x xs =>
    obtain ⟨hv, hxs⟩ := List.isChain_cons_cons.mp hc
    exact List.isChain_cons_cons.mpr ⟨h.trans hv, hxs⟩

theorem onward_single {v : Window} (h : w.Onward v) : [w, v].IsChain Onward :=
  List.isChain_cons_cons.mpr ⟨h, .singleton v⟩

end Window

/-! ## Readings -/

namespace Reading

variable {α β : Type}

/-- The windows of a reading: after each item of a list on the way, and the last one. -/
def windows (r : Reading α) : List Window := r.items ++ [r.window]

/-- A reading from `w` that only moves on. If it expected something in vain, it still does. -/
structure Steady (w : Window) (r : Reading α) : Prop where
  onward : (w :: r.windows).IsChain Window.Onward
  refuses : ∀ {what t}, r.result = .error (.expected what t) → r.window.Refuses what t

theorem Steady.onward_window {w : Window} {r : Reading α} (h : r.Steady w) : w.Onward r.window :=
  List.rel_of_pairwise_cons (List.isChain_iff_pairwise.mp h.onward) (by simp [windows])

theorem Steady.map {w : Window} {r : Reading α} (f : α → β) (h : r.Steady w) :
    (r.map f).Steady w := by
  refine ⟨h.onward, ?_⟩
  intro what t he
  cases hr : r.result with
  | ok a => rw [Reading.map, hr] at he; cases he
  | error e => rw [Reading.map, hr] at he; cases he; exact h.refuses hr

/-- A reading that goes on from a later window. -/
theorem Steady.back {w v : Window} {r : Reading α} (hw : w.Onward v) (h : r.Steady v) :
    r.Steady w :=
  ⟨hw.isChain h.onward, h.refuses⟩

theorem Steady.after {w v : Window} {r : Reading α} (hw : w.Onward v) (h : r.Steady v) :
    (r.after v).Steady w :=
  ⟨List.isChain_cons_cons.mpr ⟨hw, h.onward⟩, h.refuses⟩

theorem steady_ok {w v : Window} {a : α} (h : w.Onward v) :
    (⟨.ok a, v, []⟩ : Reading α).Steady w :=
  ⟨Window.onward_single h, fun he => by cases he⟩

theorem steady_error {w v : Window} {e : ParseError} (h : w.Onward v)
    (hr : ∀ {what t}, e = .expected what t → v.Refuses what t) :
    (⟨.error e, v, []⟩ : Reading α).Steady w :=
  ⟨Window.onward_single h, fun he => by cases he; exact hr rfl⟩

theorem steady_expect {w v : Window} {e : ParseError} {kind : Token.Kind} {what : Expectation}
    (h : w.Onward v) (he : v.expect kind what = .error e)
    (hr : v.expect kind what = .error (.expected what v.peek) → v.Refuses what v.peek) :
    (⟨.error e, v, []⟩ : Reading α).Steady w := by
  have hpeek := Window.expect_error he
  subst hpeek
  refine steady_error h ?_
  intro what' t heq
  cases heq
  exact hr he

end Reading

theorem parseFilter_of_other {w : Window}
    (h : ∀ op, w.current.kind ≠ .keyword (.comparator op)) :
    parseFilter w = ⟨.error (.expected .comparator w.current), w, []⟩ := by
  unfold parseFilter
  split
  · rename_i op hk; exact absurd hk (h op)
  · rfl

theorem parseFilter_steady (w : Window) : (parseFilter w).Steady w := by
  by_cases hop : ∃ op, w.current.kind = .keyword (.comparator op)
  · obtain ⟨op, hk⟩ := hop
    simp only [parseFilter, hk]
    split
    · rename_i e he
      exact Reading.steady_expect (.refl w) he fun h => ⟨rfl, h⟩
    · rename_i bracket hb
      have hname : w.Onward bracket.advance :=
        (Window.onward_expect hb).trans (Window.onward_advance bracket)
      split
      · rename_i e he
        exact Reading.steady_error hname fun h => Window.refuses_identifier (h ▸ he)
      · split
        · rename_i e he
          exact Reading.steady_expect hname he fun h => ⟨rfl, h⟩
        · rename_i comma hc
          have hvalue : w.Onward comma.advance :=
            (hname.trans (Window.onward_expect hc)).trans (Window.onward_advance comma)
          split
          · rename_i e he
            exact Reading.steady_error hvalue fun h => Window.refuses_value (h ▸ he)
          · split
            · rename_i e he
              exact Reading.steady_expect hvalue he fun h => ⟨rfl, h⟩
            · rename_i close hr
              exact Reading.steady_ok
                ((hvalue.trans (Window.onward_expect hr)).trans (Window.onward_advance close))
  · have herror := parseFilter_of_other fun op hk => hop ⟨op, hk⟩
    rw [herror]
    refine Reading.steady_error (.refl w) ?_
    intro what t h
    cases h
    exact ⟨rfl, by rw [herror]⟩

/-- The list reader is steady wherever it starts. The induction is on the tokens left, as its own
recursion is. -/
theorem parseItems_steady (outer : List OpenList) (done : List Query) (w : Window) :
    (parseItems outer done w).Steady w := by
  fun_induction parseItems outer done w with
  | case1 done w hk => exact Reading.steady_ok (Window.onward_advance w)
  | case2 done w hk l ls next ih =>
    exact ih.after ((Window.onward_advance w).trans (Window.onward_skipComma _))
  | case3 outer done w c hk e ho =>
    exact Reading.steady_expect (.refl w) (Window.openList_error ho) fun h => ⟨rfl, h⟩
  | case4 outer done w c hk inner ho ih => exact ih.back (Window.onward_openList ho)
  | case5 outer done w r hk => exact Reading.steady_error (.refl w) fun h => by cases h
  | case6 outer done w e hf hp hcm hr =>
    have h := parseFilter_steady w
    exact Reading.steady_error h.onward_window fun he => h.refuses (he ▸ hf)
  | case7 outer done w q hf next hp hcm hr ih =>
    exact ih.after ((parseFilter_steady w).onward_window.trans (Window.onward_skipComma _))

theorem parseList_steady (w : Window) : (parseList w).Steady w := by
  unfold parseList
  cases ho : w.openList with
  | error e =>
    exact Reading.steady_expect (.refl w) (Window.openList_error ho) fun h => ⟨rfl, h⟩
  | ok inner => exact (parseItems_steady [] [] inner).back (Window.onward_openList ho)

theorem parseQuery_steady (w : Window) : (parseQuery w).Steady w := by
  unfold parseQuery
  split
  · exact (parseList_steady w).map _
  · exact Reading.steady_error (.refl w) fun h => by cases h
  · exact parseFilter_steady w

/-! ## Sessions -/

namespace Session

/-- The windows on the way through the lists that an operation reads. -/
def passed (σ : Session) : Operation → List Window
  | .query => (parseQuery σ.window).items
  | .filter => (parseFilter σ.window).items
  | .list => (parseList σ.window).items
  | _ => []

/-- All windows of a run, in the order in which they are reached, the first one included. -/
def trace (σ : Session) : List Operation → List Window
  | [] => [σ.window]
  | op :: ops => σ.window :: (σ.passed op ++ (σ.perform op).2.trace ops)

/-- Operations that read the current token and leave the window as it is. -/
def Operation.isLook : Operation → Bool
  | .identifier | .integer | .float | .string | .boolean | .hasValue => true
  | .query | .filter | .sort | .list | .next => false

theorem failed_of {α : Type} {f : α → Reply} {r : Except ParseError α} {e : ParseError}
    (hf : ∀ a, f a ≠ .failed e) (h : Reply.of f r = .failed e) : r = .error e := by
  cases r with
  | ok a => exact absurd h (hf a)
  | error e' => cases h; rfl

/-- One operation: windows that come one after the other, no error collected, and an error handed
back that speaks of a token in sight. -/
theorem perform_spec (σ : Session) (op : Operation) :
    (σ.window :: (σ.passed op ++ [(σ.perform op).2.window])).IsChain Window.Onward ∧
      (σ.perform op).2.errors = σ.errors ∧
      ∀ what t, (σ.perform op).1 = .failed (.expected what t) →
        (σ.perform op).2.window.Refuses what t := by
  have hstay : [σ.window, σ.window].IsChain Window.Onward := Window.onward_single (.refl _)
  cases op with
  | query =>
    have h := parseQuery_steady σ.window
    exact ⟨h.onward, rfl, fun what t he => h.refuses (failed_of (by simp) he)⟩
  | filter =>
    have h := parseFilter_steady σ.window
    exact ⟨h.onward, rfl, fun what t he => h.refuses (failed_of (by simp) he)⟩
  | list =>
    have h := parseList_steady σ.window
    exact ⟨h.onward, rfl, fun what t he => h.refuses (failed_of (by simp) he)⟩
  | sort => exact ⟨hstay, rfl, fun what t he => by cases he⟩
  | identifier =>
    exact ⟨hstay, rfl, fun what t he => Window.refuses_identifier (failed_of (by simp) he)⟩
  | integer => exact ⟨hstay, rfl, fun what t he => Window.refuses_integer (failed_of (by simp) he)⟩
  | float => exact ⟨hstay, rfl, fun what t he => Window.refuses_float (failed_of (by simp) he)⟩
  | string => exact ⟨hstay, rfl, fun what t he => Window.refuses_string (failed_of (by simp) he)⟩
  | boolean => exact ⟨hstay, rfl, fun what t he => Window.refuses_boolean (failed_of (by simp) he)⟩
  | hasValue => exact ⟨hstay, rfl, fun what t he => by cases he⟩
  | next => exact ⟨Window.onward_single (Window.onward_advance _), rfl, fun what t he => by cases he⟩

theorem onward_perform (σ : Session) (op : Operation) : σ.window.Onward (σ.perform op).2.window :=
  List.rel_of_pairwise_cons (List.isChain_iff_pairwise.mp (σ.perform_spec op).1) (by simp)

theorem trace_isChain (σ : Session) (ops : List Operation) :
    ∃ ws, σ.trace ops = σ.window :: ws ∧ (σ.window :: ws).IsChain Window.Onward := by
  induction ops generalizing σ with
  | nil => exact ⟨[], rfl, .singleton _⟩
  | cons op ops ih =>
    obtain ⟨ws, hws, hchain⟩ := ih (σ.perform op).2
    refine ⟨_, rfl, ?_⟩
    rw [hws, ← List.cons_append]
    exact List.isChain_split.mpr ⟨(perform_spec σ op).1, hchain⟩

theorem run_refuses (σ : Session) (ops : List Operation) :
    ∀ r ∈ σ.run ops, r.2.errors = σ.errors ∧
      ∀ what t, r.1 = .failed (.expected what t) → r.2.window.Refuses what t := by
  induction ops generalizing σ with
  | nil => simp [run]
  | cons op ops ih =>
    obtain ⟨-, herrors, hrefuses⟩ := perform_spec σ op
    intro r hr
    rcases List.mem_cons.mp hr with rfl | hr
    · exact ⟨herrors, hrefuses⟩
    · obtain ⟨herrors', hrefuses'⟩ := ih _ r hr
      exact ⟨herrors'.trans herrors, hrefuses'⟩

end Session

/-- Windows that come one after the other have places that do. -/
theorem Window.exists_places {w : Window} {m : Nat} {ws : List Window}
    (h : (w.ahead m :: ws).IsChain Onward) :
    ∃ places, (m :: places).Pairwise (· ≤ ·) ∧ ws = places.map w.ahead := by
  induction ws generalizing m with
  | nil => exact ⟨[], by simp, rfl⟩
  | cons v vs ih =>
    obtain ⟨⟨n, rfl⟩, hvs⟩ := List.isChain_cons_cons.mp h
    rw [ahead_ahead] at hvs ⊢
    obtain ⟨places, hsorted, rfl⟩ := ih hvs
    refine ⟨(m + n) :: places, ?_, rfl⟩
    refine List.pairwise_cons.mpr ⟨?_, hsorted⟩
    intro k hk
    rcases List.mem_cons.mp hk with rfl | hk
    · omega
    · have := List.rel_of_pairwise_cons hsorted hk
      omega

/-- A session is begun after `k` tokens of a text and asked anything, in any order, also after it
failed. All windows of the run are places of the stream of tokens, the first one at `k`, and none
before an earlier one. No errors are collected. An error that expected something speaks of a token
in sight, which is not taken: expected again at once it is refused again. To look at a token moves
nothing. -/
theorem run_places (s : String) (k : Nat) (ops : List Session.Operation) :
    (∃ places, (k :: places).Pairwise (· ≤ ·) ∧
      List.Forall₂ (fun n w => w.current = stream s n ∧ w.peek = stream s (n + 1)) (k :: places)
        ((Session.ofCursor ((Cursor.ofText s).after k)).trace ops)) ∧
    (∀ r ∈ (Session.ofCursor ((Cursor.ofText s).after k)).run ops, r.2.errors = [] ∧
      ∀ what t, r.1 = .failed (.expected what t) → r.2.window.Refuses what t) ∧
    ∀ (σ : Session) (op : Session.Operation), op.isLook → (σ.perform op).2 = σ := by
  have hwindow : (Session.ofCursor ((Cursor.ofText s).after k)).window =
      (Window.ofText s).ahead k := Window.ofCursor_after (Cursor.ofText s) k
  refine ⟨?_, Session.run_refuses _ ops, ?_⟩
  · obtain ⟨ws, hws, hchain⟩ :=
      Session.trace_isChain (Session.ofCursor ((Cursor.ofText s).after k)) ops
    rw [hwindow] at hws hchain
    obtain ⟨places, hsorted, rfl⟩ := Window.exists_places hchain
    refine ⟨places, hsorted, ?_⟩
    rw [hws, ← List.map_cons, List.forall₂_map_right_iff, List.forall₂_same]
    intro n _
    exact ⟨Window.current_ahead s n, Window.peek_ahead s n⟩
  · intro σ op hop
    cases op with
    | identifier | integer | float | string | boolean | hasValue => rfl
    | query | filter | sort | list | next => cases hop

end Criteria
