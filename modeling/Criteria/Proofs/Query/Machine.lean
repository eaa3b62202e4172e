import Mathlib
import Criteria.Proofs.Query.Descent
import Criteria.Proofs.Query.Session
import Criteria.Proofs.Token.Scanner
import Criteria.Query.Machine

/-!
# Criteria.Proofs.Query.Machine

Machines step by step. A machine holds two tokens and a scanner, a session a window; each move of
the one is a move of the other, until the scanner comes to a surrogate.

* `Machine.Takes`: the moves of a machine, with the tokens that it passes.
* `Machine.Sees`: the machine and the window are at the same place. `Sees.next` moves both on.
* `Machine.Simulates`: what the machine comes to is what a reading comes to, over the same tokens,
  or it stops at a surrogate on the way. `Simulates.bind` puts two of them together.
-/

namespace Criteria

open Text

theorem Token.Leads.lexical {t : Token} {shape rest : List Char} (h : t.Leads shape rest) :
    t.Lexical := by
  cases h with
  | closed ht _ => exact ht
  | unclosed hk hq =>
    obtain ⟨kind, literal, pos⟩ := t
    subst hk
    exact hq

/-- All tokens left can be written down. -/
def Window.Lexical (w : Window) : Prop := ∀ t ∈ w.tokens, t.Lexical

theorem Window.Onward.length_le {w v : Window} (h : w.Onward v) :
    v.tokens.length ≤ w.tokens.length := by
  obtain ⟨n, rfl⟩ := h
  exact (List.drop_sublist n w.tokens).length_le

theorem Window.Lexical.onward {w v : Window} (h : w.Lexical) (hv : w.Onward v) : v.Lexical := by
  obtain ⟨n, rfl⟩ := hv
  exact fun t ht => h t (List.mem_of_mem_drop ht)

theorem Window.Lexical.current {w : Window} (h : w.Lexical) (hk : w.current.kind ≠ .eof) :
    w.current.Lexical := by
  obtain ⟨t, ts, ht⟩ := List.exists_cons_of_length_pos (Window.tokens_pos hk)
  have hc : w.current = t := by rw [Window.current, ht]; rfl
  rw [hc]
  exact h t (by simp [ht])

theorem Window.tokens_pos_of_openList {w inner : Window} (h : w.openList = .ok inner) :
    0 < w.tokens.length := by
  rw [List.length_pos_iff]
  intro hnil
  have hpeek : w.peek.kind ≠ .lparen := by simp [peek, eof, hnil]
  simp [openList, expect, hpeek] at h

theorem Window.lexical_ofCursor (c : Cursor) : (ofCursor c).Lexical := by
  obtain ⟨us, hts, hus⟩ := (munch_drain c).exists_split
  have htokens : (ofCursor c).tokens = us := (List.append_inj' hts rfl).1
  intro t ht
  obtain ⟨before, shape, after, -, hl, -⟩ := hus t (htokens ▸ ht)
  exact hl.lexical

namespace Machine

/-! ## What a machine does, step by step -/

section

variable {α β : Type} {x : Run α} {f : α → Run β} {m m' : Machine}

theorem bind_ok {a : α} (h : x m = some (.ok a, m')) : (x >>= f) m = f a m' := by
  have hbind : (x >>= f) m = (x m).bind fun p => ExceptT.bindCont f p.1 p.2 := rfl
  rw [hbind, h]
  rfl

theorem bind_error {e : Stop} (h : x m = some (.error e, m')) :
    (x >>= f) m = some (.error e, m') := by
  have hbind : (x >>= f) m = (x m).bind fun p => ExceptT.bindCont f p.1 p.2 := rfl
  rw [hbind, h]
  rfl

theorem bind_none (h : x m = none) : (x >>= f) m = none := by
  have hbind : (x >>= f) m = (x m).bind fun p => ExceptT.bindCont f p.1 p.2 := rfl
  rw [hbind, h]
  rfl

theorem bind_congr {x' : Run α} (h : x m = x' m) : (x >>= f) m = (x' >>= f) m := by
  have hbind : ∀ y : Run α, (y >>= f) m = (y m).bind fun p => ExceptT.bindCont f p.1 p.2 :=
    fun _ => rfl
  rw [hbind, hbind, h]

theorem map_apply {r : Except ParseError α} (k : α → β)
    (h : x m = some (r.mapError .parse, m')) :
    (k <$> x) m = some ((r.map k).mapError .parse, m') := by
  have hmap : k <$> x = x >>= fun a => pure (k a) := rfl
  rw [hmap]
  cases r with
  | error e => exact bind_error h
  | ok a => exact bind_ok h

@[simp] theorem get_bind (f : Machine → Run β) (m : Machine) : (get >>= f) m = f m m := rfl

@[simp] theorem modify_bind (g : Machine → Machine) (f : Unit → Run β) (m : Machine) :
    (modify g >>= f) m = f () (g m) := rfl

@[simp] theorem pure_apply (a : α) (m : Machine) : (pure a : Run α) m = some (.ok a, m) := rfl

@[simp] theorem fail_apply (e : ParseError) (m : Machine) :
    (fail e : Run α) m = some (.error (.parse e), m) := rfl

/-- What `x` comes to, `y` comes to as well. -/
def Run.Le (x y : Run α) : Prop :=
  ∀ m r m', x m = some (r, m') → y m = some (r, m')

theorem Run.Le.refl (x : Run α) : Le x x := fun _ _ _ h => h

theorem Run.Le.bind {y : Run α} {g : α → Run β} (hx : Le x y) (hf : ∀ a, Le (f a) (g a)) :
    Le (x >>= f) (y >>= g) := by
  intro m r m' h
  cases hrun : x m with
  | none =>
    rw [bind_none hrun] at h
    cases h
  | some p =>
    obtain ⟨e | a, m₁⟩ := p
    · rw [bind_error hrun] at h
      rw [bind_error (hx _ _ _ hrun), h]
    · rw [bind_ok hrun] at h
      rw [bind_ok (hx _ _ _ hrun)]
      exact hf a _ _ _ h

theorem Run.Le.map {y : Run α} (h : Le x y) (k : α → β) : Le (k <$> x) (k <$> y) :=
  h.bind (f := fun a => pure (k a)) fun _ => .refl _

end

theorem next_ok {m : Machine} {t : Token} {s : Scanner} (h : m.scanner.nextToken = .ok t s) :
    next m = some (.ok (), { m with current := m.peek, peek := t, scanner := s }) := by
  have hscan : scan { m with current := m.peek } =
      some (.ok t, { m with current := m.peek, scanner := s }) := by
    rw [scan, get_bind, h]
    rfl
  rw [next, modify_bind, bind_ok hscan]
  rfl

theorem next_error {m : Machine} {e : EncodeError} {s : Scanner}
    (h : m.scanner.nextToken = .error e s) :
    next m = some (.error (.unencodable e), { m with current := m.peek, scanner := s }) := by
  have hscan : scan { m with current := m.peek } =
      some (.error (.unencodable e), { m with current := m.peek, scanner := s }) := by
    rw [scan, get_bind, h]
    rfl
  rw [next, modify_bind, bind_error hscan]

theorem expectPeek_eq (kind : Token.Kind) (what : Expectation) (m : Machine) :
    expectPeek kind what m =
      if m.peek.kind = kind then next m else some (.error (.parse (.expected what m.peek)), m) := by
  by_cases hk : m.peek.kind = kind
  · have hnot : ¬m.peek.kind ≠ kind := not_not.mpr hk
    rw [if_pos hk, expectPeek, get_bind]
    simp only [if_neg hnot]
  · rw [if_neg hk, expectPeek, get_bind]
    simp only [if_pos hk]
    rfl

/-- From one machine to another by `next` alone; the tokens are those that it moves on from. -/
inductive Takes : Machine → List Token → Machine → Prop where
  | refl (m : Machine) : Takes m [] m
  | next {m m₁ m₂ : Machine} {us : List Token} (h : next m = some (.ok (), m₁))
      (hs : Takes m₁ us m₂) : Takes m (m.current :: us) m₂

theorem Takes.trans {m m' m'' : Machine} {us vs : List Token} (h : Takes m us m')
    (h' : Takes m' vs m'') : Takes m (us ++ vs) m'' := by
  induction h with
  | refl m => exact h'
  | next hm _ ih => exact .next hm (ih h')

/-! ## Places -/

/-- A machine on the text `ps` has the tokens of the window in sight. Its scanner goes on behind
them, unless it is stuck in front of a surrogate. -/
structure Sees (ps : List Point) (m : Machine) (w : Window) : Prop where
  current : m.current = w.current
  peek : m.peek = w.peek
  lexical : w.Lexical
  sound : m.scanner.Sound
  rest : m.scanner.rest <:+ (Scanner.ofPoints ps).rest
  onward : (∃ n, m.scanner.ch = .surrogate n) ∨
    Window.ofCursor m.scanner.cursor = w.advance.advance

/-- The scanner of the machine comes to a surrogate of the text when it is asked for a token. -/
def Stops (ps : List Point) (m m' : Machine) (e : EncodeError) : Prop :=
  next m = some (.error (.unencodable e), m') ∧ .surrogate e.surrogate ∈ (Scanner.ofPoints ps).rest

/-- One move: the token that the cursor takes, or a surrogate. -/
theorem next_spec {ps : List Point} {m : Machine} (hs : m.scanner.Sound)
    (hrest : m.scanner.rest <:+ (Scanner.ofPoints ps).rest) :
    ∃ s, s.Sound ∧ s.rest <:+ (Scanner.ofPoints ps).rest ∧
      ((next m = some (.ok (), ⟨m.peek, m.scanner.cursor.next.1, s, m.errors⟩) ∧
          s.cursor = m.scanner.cursor.next.2 ∧ ∀ n, m.scanner.ch ≠ .surrogate n) ∨
        ∃ n, Stops ps m ⟨m.peek, m.peek, s, m.errors⟩ ⟨n⟩ ∧ s.ch = .surrogate n) := by
  obtain ⟨cs, s, hreads, hfound⟩ := Scanner.nextToken_spec hs
  have hrest' : s.rest <:+ (Scanner.ofPoints ps).rest :=
    List.IsSuffix.trans ⟨_, hreads.rest.symm⟩ hrest
  refine ⟨s, hreads.sound, hrest', ?_⟩
  rcases hfound with ⟨htoken, hcursor⟩ | ⟨n, herror, hn⟩
  · refine .inl ⟨next_ok htoken, hcursor, ?_⟩
    intro n hn
    rw [Scanner.nextToken_surrogate hn] at htoken
    cases htoken
  · have hmem := hrest'.subset (Scanner.surrogate_mem hreads.sound hn)
    exact .inr ⟨n, ⟨next_error herror, hmem⟩, hn⟩

namespace Sees

variable {ps : List Point} {m : Machine} {w : Window}

/-- The window of a machine that is stuck: the token that came last, twice. -/
def stuck (w : Window) : Window := ⟨w.advance.tokens.take 1 ++ w.advance.tokens.take 1, w.stop⟩

theorem current_stuck (w : Window) : (stuck w).current = w.peek ∧ (stuck w).peek = w.peek := by
  obtain ⟨tokens, stop⟩ := w
  rcases tokens with _ | ⟨t, _ | ⟨u, us⟩⟩
  · exact ⟨rfl, rfl⟩
  · exact ⟨rfl, rfl⟩
  · exact ⟨rfl, rfl⟩

/-- To move on is to drop a token, or to stop at a surrogate. -/
theorem next (h : Sees ps m w) :
    (∃ m', Machine.next m = some (.ok (), m') ∧ Sees ps m' w.advance ∧ m'.errors = m.errors) ∨
      ∃ e m', Stops ps m m' e ∧ Sees ps m' (stuck w) ∧ m'.errors = m.errors := by
  have htail : w.advance.Lexical := h.lexical.onward (Window.onward_advance w)
  obtain ⟨s, hs, hrest, ⟨hnext, hcursor, hch⟩ | ⟨n, hstops, hn⟩⟩ := next_spec h.sound h.rest
  · have honward : Window.ofCursor m.scanner.cursor = w.advance.advance := by
      rcases h.onward with ⟨n, hn⟩ | honward
      · exact absurd hn (hch n)
      · exact honward
    refine .inl ⟨_, hnext, ⟨h.peek, ?_, htail, hs, hrest, .inr ?_⟩, rfl⟩
    · rw [Cursor.next_fst, honward]
      rfl
    · rw [hcursor, Window.ofCursor_next, honward]
  · obtain ⟨hcurrent, hpeek⟩ := current_stuck w
    refine .inr ⟨⟨n⟩, _, hstops, ?_, rfl⟩
    refine ⟨h.peek.trans hcurrent.symm, h.peek.trans hpeek.symm, ?_, hs, hrest, .inl ⟨n, hn⟩⟩
    intro t ht
    rcases List.mem_append.mp ht with ht | ht
    · exact htail t (List.mem_of_mem_take ht)
    · exact htail t (List.mem_of_mem_take ht)

end Sees

/-! ## Readings -/

/-- At the place of the window the machine does as the reading says: it passes the tokens that the
reading takes, comes to the same result and sees the same window. Or it passes some tokens and stops
at a surrogate. -/
def Simulates {α : Type} (ps : List Point) (x : Run α) (m : Machine) (w : Window)
    (r : Reading α) : Prop :=
  ∃ us m₁, Takes m us m₁ ∧ m₁.errors = m.errors ∧
    ((x m = some (r.result.mapError .parse, m₁) ∧ w.tokens = us ++ r.window.tokens ∧
        r.window.stop = w.stop ∧ Sees ps m₁ r.window) ∨
      ∃ e m₂ v, Stops ps m₁ m₂ e ∧ x m = some (.error (.unencodable e), m₂) ∧ Sees ps m₂ v ∧
        m₂.errors = m.errors)

namespace Simulates

variable {ps : List Point} {α β : Type} {x : Run α} {f : α → Run β} {m : Machine} {w : Window}
  {r : Reading α} {g : α → Window → Reading β}

theorem congr {r' : Reading α} (h : Simulates ps x m w r) (hr : r.result = r'.result)
    (hw : r.window = r'.window) : Simulates ps x m w r' := by
  rw [Simulates, ← hr, ← hw]
  exact h

theorem congr_run {x' : Run α} (h : Simulates ps x m w r) (hx : x m = x' m) :
    Simulates ps x' m w r := by
  rw [Simulates, ← hx]
  exact h

theorem bind (h : Simulates ps x m w r)
    (hf : ∀ a m', r.result = .ok a → Sees ps m' r.window →
      Simulates ps (f a) m' r.window (g a r.window)) :
    Simulates ps (x >>= f) m w (r.andThen g) := by
  obtain ⟨us, m₁, htakes, herrors, ⟨hx, htokens, hstop, hsees⟩ | ⟨e, m₂, v, hstops, hx, hsees, herrors'⟩⟩ := h
  · cases hr : r.result with
    | error e =>
      rw [hr] at hx
      refine ⟨us, m₁, htakes, herrors, .inl ⟨?_, ?_⟩⟩
      · rw [bind_error hx, Reading.andThen, hr]
        rfl
      · rw [Reading.andThen, hr]
        exact ⟨htokens, hstop, hsees⟩
    | ok a =>
      rw [hr] at hx
      obtain ⟨vs, m₂, htakes', herrors', hend⟩ := hf a m₁ hr hsees
      refine ⟨us ++ vs, m₂, htakes.trans htakes', herrors'.trans herrors, ?_⟩
      rw [bind_ok hx, Reading.andThen, hr]
      rcases hend with ⟨hy, htokens', hstop', hsees'⟩ | ⟨e, m₃, v, hstops, hy, hsees', herrors'⟩
      · refine .inl ⟨hy, ?_, hstop'.trans hstop, hsees'⟩
        rw [htokens, htokens', List.append_assoc]
      · exact .inr ⟨e, m₃, v, hstops, hy, hsees', herrors'.trans herrors⟩
  · exact ⟨us, m₁, htakes, herrors, .inr ⟨e, m₂, v, hstops, bind_error hx, hsees, herrors'⟩⟩

theorem exists_run (h : Simulates ps x m w r) : ∃ res m', x m = some (res, m') := by
  obtain ⟨us, m₁, -, -, ⟨hx, -⟩ | ⟨e, m₂, v, -, hx, -⟩⟩ := h
  · exact ⟨_, _, hx⟩
  · exact ⟨_, _, hx⟩

theorem of_ok {a : α} {m' : Machine} (h : Simulates ps x m w r) (hx : x m = some (.ok a, m')) :
    r.result = .ok a ∧ ∃ us, Takes m us m' ∧ w.tokens = us ++ r.window.tokens := by
  obtain ⟨us, m₁, htakes, -, ⟨hx', htokens, -⟩ | ⟨e, m₂, v, -, hx', -⟩⟩ := h
  · rw [hx] at hx'
    cases hr : r.result with
    | error e => rw [hr] at hx'; cases hx'
    | ok b => rw [hr] at hx'; cases hx'; exact ⟨rfl, us, htakes, htokens⟩
  · rw [hx] at hx'
    cases hx'

theorem of_error {e : Stop} {m' : Machine} (h : Simulates ps x m w r)
    (hx : x m = some (.error e, m')) :
    (∃ e', e = .parse e' ∧ r.result = .error e' ∧ Sees ps m' r.window) ∨
      ∃ e', e = .unencodable e' ∧ .surrogate e'.surrogate ∈ (Scanner.ofPoints ps).rest := by
  obtain ⟨us, m₁, -, -, ⟨hx', -, -, hsees⟩ | ⟨e', m₂, v, hstops, hx', -⟩⟩ := h
  · rw [hx] at hx'
    cases hr : r.result with
    | error e' => rw [hr] at hx'; cases hx'; exact .inl ⟨e', rfl, rfl, hsees⟩
    | ok b => rw [hr] at hx'; cases hx'
  · rw [hx] at hx'
    cases hx'
    exact .inr ⟨e', rfl, hstops.2⟩

/-- The machine stays where it is. -/
theorem stay (h : Sees ps m w) {e : Except ParseError α}
    (hx : x m = some (e.mapError .parse, m)) : Simulates ps x m w ⟨e, w, []⟩ :=
  ⟨[], m, .refl m, rfl, .inl ⟨hx, rfl, rfl, h⟩⟩

theorem map (h : Simulates ps x m w r) (k : α → β) : Simulates ps (k <$> x) m w (r.map k) := by
  have hbind := h.bind (f := fun a => pure (k a)) (g := fun a v => ⟨.ok (k a), v, []⟩)
    fun a m' _ hm' => .stay hm' rfl
  refine hbind.congr ?_ ?_
  all_goals
    rw [Reading.andThen, Reading.map]
    cases r.result <;> rfl

end Simulates

section Moves

variable {ps : List Point} {m : Machine} {w : Window}

/-- Moving on as a reading. -/
def moved (w : Window) : Reading Unit := ⟨.ok (), w.advance, []⟩

/-- Moving on to a token of a kind. -/
def expected (kind : Token.Kind) (what : Expectation) (w : Window) : Reading Unit :=
  match w.expect kind what with
  | .error e => ⟨.error e, w, []⟩
  | .ok v => ⟨.ok (), v, []⟩

theorem simulates_next (h : Sees ps m w) (hpos : 0 < w.tokens.length) :
    Simulates ps next m w (moved w) := by
  rcases h.next with ⟨m', hnext, hm', herrors⟩ | ⟨e, m', hstops, hm', herrors⟩
  · refine ⟨[m.current], m', .next hnext (.refl m'), herrors, .inl ⟨hnext, ?_, rfl, hm'⟩⟩
    obtain ⟨t, ts, ht⟩ := List.exists_cons_of_length_pos hpos
    rw [h.current]
    simp [moved, Window.current, Window.advance, ht]
  · exact ⟨[], m, .refl m, rfl, .inr ⟨e, m', _, hstops, hstops.1, hm', herrors⟩⟩

theorem simulates_expectPeek (h : Sees ps m w) {kind : Token.Kind} (hk : kind ≠ .eof)
    (what : Expectation) : Simulates ps (expectPeek kind what) m w (expected kind what w) := by
  have hrun := expectPeek_eq kind what m
  rw [h.peek] at hrun
  by_cases hpeek : w.peek.kind = kind
  · have hpos : 0 < w.advance.tokens.length := Window.tokens_pos (hpeek ▸ hk)
    rw [Window.length_advance] at hpos
    rw [if_pos hpeek] at hrun
    rw [expected, Window.expect, if_pos hpeek]
    exact (simulates_next h (by omega)).congr_run hrun.symm
  · rw [if_neg hpeek] at hrun
    rw [expected, Window.expect, if_neg hpeek]
    exact .stay h hrun

/-- After a token of a kind was expected it is the current one. -/
theorem kind_of_expected {kind : Token.Kind} {what : Expectation}
    (h : (expected kind what w).result = .ok ()) :
    (expected kind what w).window.current.kind = kind := by
  rw [expected, Window.expect] at h ⊢
  by_cases hpeek : w.peek.kind = kind
  · rw [if_pos hpeek]
    exact hpeek
  · rw [if_neg hpeek] at h
    cases h

theorem simulates_skipComma (h : Sees ps m w) :
    Simulates ps skipComma m w ⟨.ok (), w.skipComma, []⟩ := by
  by_cases hk : w.current.kind = .comma
  · have hrun : skipComma m = next m := by
      rw [skipComma, get_bind, if_pos (h.current ▸ hk)]
    rw [Window.skipComma, if_pos hk]
    exact (simulates_next h (Window.tokens_pos (by rw [hk]; simp))).congr_run hrun.symm
  · have hrun : skipComma m = some (.ok (), m) := by
      rw [skipComma, get_bind, if_neg (h.current ▸ hk)]
      rfl
    rw [Window.skipComma, if_neg hk]
    exact .stay h hrun

end Moves

end Machine
end Criteria
