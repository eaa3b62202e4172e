import Mathlib
import Criteria.Proofs.Query.Progress

/-!
# Criteria.Proofs.Query.Grammar

The grammar of queries as a derivation relation, and the steps of `Progress` against it.

* `Derives` and `DerivesAll`: which tokens stand for which query, and for which list of queries. A
  comma may follow every item of a list, and none has to.
* `Sentence` and `SentenceAll`: the same with a comma between items and nowhere else.
* `feed_of_derives` and `derives_of_feed`: the steps take tokens to a query exactly if the tokens
  derive it. `HasRead` is the invariant behind the second: what was read, for each progress.
* `parseQuery_of_derives`: a reader takes the query that the tokens left start with, and no more.
* `parseQuery_iff_derives`: what `parseQuery` gives is what a beginning of the text derives.
-/

namespace Criteria

/-- What a token stands for where a value has to be. -/
inductive Denotes (t : Token) : Value → Prop where
  | identifier (hk : t.kind = .ident) : Denotes t (.identifier t.literal)
  | string (hk : t.kind = .str) : Denotes t (.string t.literal)
  | boolean {b : Bool} (hk : t.kind = .keyword (.truth b)) : Denotes t (.boolean b)
  | integer (hk : t.kind = .int) (hn : t.literal.toList.length ≤ 4300)
      (hv : digitsValue t.literal.toList ≤ 2 ^ 63 - 1) :
      Denotes t (.integer (digitsValue t.literal.toList))
  | float (hk : t.kind = .float) (hf : (Binary64.ofNumeral t.literal.toList).isFinite) :
      Denotes t (.float (Binary64.ofNumeral t.literal.toList))

/-- `comparator ( identifier , value )`, token by token. -/
inductive DerivesFilter : List Token → Query → Prop where
  | mk {word lparen name comma value rparen : Token} {op : Comparator} {v : Value}
      (hw : word.kind = .keyword (.comparator op)) (ho : lparen.kind = .lparen)
      (hn : name.kind = .ident) (hc : comma.kind = .comma) (hv : Denotes value v)
      (hr : rparen.kind = .rparen) :
      DerivesFilter [word, lparen, name, comma, value, rparen] (.filter op name.literal v)

mutual

inductive Derives : List Token → Query → Prop where
  | filter {ts : List Token} {q : Query} (h : DerivesFilter ts q) : Derives ts q
  | group {word lparen rparen : Token} {c : Combinator} {ts : List Token} {qs : List Query}
      (hw : word.kind = .keyword (.combinator c)) (ho : lparen.kind = .lparen)
      (hl : DerivesAll ts qs) (hr : rparen.kind = .rparen) :
      Derives (word :: lparen :: (ts ++ [rparen])) (.group c qs)

inductive DerivesAll : List Token → List Query → Prop where
  | nil : DerivesAll [] []
  | item {ts us : List Token} {q : Query} {qs : List Query} (hq : Derives ts q)
      (hl : DerivesAll us qs) : DerivesAll (ts ++ us) (q :: qs)
  | itemComma {ts us : List Token} {comma : Token} {q : Query} {qs : List Query}
      (hq : Derives ts q) (hc : comma.kind = .comma) (hl : DerivesAll us qs) :
      DerivesAll (ts ++ comma :: us) (q :: qs)

end

mutual

inductive Sentence : List Token → Query → Prop where
  | filter {ts : List Token} {q : Query} (h : DerivesFilter ts q) : Sentence ts q
  | empty {word lparen rparen : Token} {c : Combinator} (hw : word.kind = .keyword (.combinator c))
      (ho : lparen.kind = .lparen) (hr : rparen.kind = .rparen) :
      Sentence [word, lparen, rparen] (.group c [])
  | group {word lparen rparen : Token} {c : Combinator} {ts : List Token} {qs : List Query}
      (hw : word.kind = .keyword (.combinator c)) (ho : lparen.kind = .lparen)
      (hl : SentenceAll ts qs) (hr : rparen.kind = .rparen) :
      Sentence (word :: lparen :: (ts ++ [rparen])) (.group c qs)

inductive SentenceAll : List Token → List Query → Prop where
  | single {ts : List Token} {q : Query} (hq : Sentence ts q) : SentenceAll ts [q]
  | cons {ts us : List Token} {comma : Token} {q : Query} {qs : List Query} (hq : Sentence ts q)
      (hc : comma.kind = .comma) (hl : SentenceAll us qs) :
      SentenceAll (ts ++ comma :: us) (q :: qs)

end

mutual

theorem Sentence.derives {ts : List Token} {q : Query} : Sentence ts q → Derives ts q
  | .filter h => .filter h
  | .empty hw ho hr => .group hw ho .nil hr
  | .group hw ho hl hr => .group hw ho hl.derivesAll hr

theorem SentenceAll.derivesAll {ts : List Token} {qs : List Query} :
    SentenceAll ts qs → DerivesAll ts qs
  | .single hq => by simpa using DerivesAll.item hq.derives .nil
  | .cons hq hc hl => .itemComma hq.derives hc hl.derivesAll

end

/-! ## Values and filters -/

namespace Token

theorem value_of_int {t : Token} (hk : t.kind = .int) :
    t.value = (⟨[t], 0⟩ : Window).integer := by
  have hc : (⟨[t], 0⟩ : Window).current = t := rfl
  simp only [value, Window.value, hc, hk]

theorem value_of_float {t : Token} (hk : t.kind = .float) :
    t.value = (⟨[t], 0⟩ : Window).float := by
  have hc : (⟨[t], 0⟩ : Window).current = t := rfl
  simp only [value, Window.value, hc, hk]

theorem value_int {t : Token} (hk : t.kind = .int) {v : Value} :
    t.value = .ok v ↔ (t.literal.toList.length ≤ maxNumeralLength ∧
      (digitsValue t.literal.toList : Int) ≤ int64Max) ∧
      v = .integer (digitsValue t.literal.toList) := by
  have hc : (⟨[t], 0⟩ : Window).current = t := rfl
  rw [value_of_int hk, Window.integer, hc, if_pos hk]
  dsimp only
  split
  · rename_i hn
    constructor
    · intro h
      cases h
      exact ⟨hn, rfl⟩
    · rintro ⟨-, rfl⟩
      rfl
  · rename_i hn
    constructor
    · intro h
      cases h
    · intro h
      exact absurd h.1 hn

theorem value_float {t : Token} (hk : t.kind = .float) {v : Value} :
    t.value = .ok v ↔ (Binary64.ofNumeral t.literal.toList).isFinite ∧
      v = .float (Binary64.ofNumeral t.literal.toList) := by
  have hc : (⟨[t], 0⟩ : Window).current = t := rfl
  rw [value_of_float hk, Window.float, hc, if_pos hk]
  dsimp only
  split
  · rename_i hf
    constructor
    · intro h
      cases h
      exact ⟨hf, rfl⟩
    · rintro ⟨-, rfl⟩
      rfl
  · rename_i hf
    constructor
    · intro h
      cases h
    · intro h
      exact absurd h.1 hf

theorem value_eq_ok_iff {t : Token} {v : Value} : t.value = .ok v ↔ Denotes t v := by
  have hc : (⟨[t], 0⟩ : Window).current = t := rfl
  constructor
  · intro h
    cases hk : t.kind with
    | int =>
      obtain ⟨⟨hn, hv⟩, rfl⟩ := (value_int hk).mp h
      rw [maxNumeralLength] at hn
      rw [int64Max] at hv
      exact .integer hk hn (by omega)
    | float =>
      obtain ⟨hf, rfl⟩ := (value_float hk).mp h
      exact .float hk hf
    | ident =>
      simp only [Token.value, Window.value, Window.identifier, hc, hk, if_true, Except.map] at h
      cases h; exact .identifier hk
    | str =>
      simp only [Token.value, Window.value, Window.string, hc, hk, if_true] at h
      cases h; exact .string hk
    | keyword k =>
      cases k with
      | truth b =>
        simp only [Token.value, Window.value, Window.boolean, hc, hk] at h
        cases h; exact .boolean hk
      | comparator _ | combinator _ | reserved _ => simp [Token.value, Window.value, hc, hk] at h
    | illegal | eof | plus | minus | comma | lparen | rparen =>
      simp [Token.value, Window.value, hc, hk] at h
  · intro h
    cases h with
    | identifier hk => simp [Token.value, Window.value, Window.identifier, hc, hk, Except.map]
    | string hk => simp [Token.value, Window.value, Window.string, hc, hk]
    | boolean hk => simp [Token.value, Window.value, Window.boolean, hc, hk]
    | integer hk hn hv =>
      refine (value_int hk).mpr ⟨⟨?_, ?_⟩, rfl⟩
      · rw [maxNumeralLength]; exact hn
      · rw [int64Max]; omega
    | float hk hf => exact (value_float hk).mpr ⟨hf, rfl⟩

end Token

namespace Progress

/-- The steps that read a filter, in any list. -/
theorem feed_filter {ts : List Token} {q : Query} (h : DerivesFilter ts q) {p : Progress}
    {outer : List OpenList} (hp : ∀ t ∈ ts.head?, p.step t = begin outer t) :
    p.feed ts = .ok (completed q outer) := by
  obtain ⟨hw, ho, hn, hc, hv, hr⟩ := h
  have hword := hp _ rfl
  rw [begin, hw] at hword
  have hvalue := Token.value_eq_ok_iff.mpr hv
  rw [feed_cons _ hword]
  simp [feed, step, require, ho, hn, hc, hvalue, hr]

/-! ## From derivations to steps -/

/-- A place where a query may start, in the lists `outer`. -/
def Expects (p : Progress) (outer : List OpenList) : Prop :=
  ∀ t, t.kind ≠ .rparen → t.kind ≠ .comma → p.step t = begin outer t

theorem expects_start : Expects .start [] := fun _ _ _ => rfl

theorem expects_items (comma : Bool) (l : OpenList) (outer : List OpenList) :
    Expects (.items comma l outer) (l :: outer) :=
  fun _ hr hc => step_items hr fun _ => hc

mutual

theorem feed_of_derives {ts : List Token} {q : Query} {p : Progress} {outer : List OpenList}
    (hp : Expects p outer) : Derives ts q → p.feed ts = .ok (completed q outer)
  | .filter h => by
    refine feed_filter h ?_
    cases h with
    | mk hw =>
      intro t ht
      rw [List.head?_cons, Option.mem_some_iff] at ht
      subst ht
      exact hp _ (by rw [hw]; simp) (by rw [hw]; simp)
  | .group hw ho hl hr => by
    have hword := hp _ (by rw [hw]; simp) (by rw [hw]; simp)
    rw [begin, hw] at hword
    obtain ⟨comma, hitems⟩ := feed_of_derivesAll false ⟨_, []⟩ outer hl
    rw [feed_cons _ hword, feed_cons _ (show step _ _ = .ok _ by rw [step, require, if_pos ho]),
      feed_append _ hitems, feed_cons _ (show step _ _ = .ok _ by rw [step, if_pos hr])]
    rfl

theorem feed_of_derivesAll {ts : List Token} {qs : List Query} (comma : Bool) (l : OpenList)
    (outer : List OpenList) : DerivesAll ts qs →
      ∃ comma', (items comma l outer).feed ts =
        .ok (.items comma' { l with items := l.items ++ qs } outer)
  | .nil => ⟨comma, by simp [feed]⟩
  | .item hq hl => by
    have hitem := feed_of_derives (expects_items comma l outer) hq
    obtain ⟨comma', hrest⟩ := feed_of_derivesAll true { l with items := l.items ++ [_] } outer hl
    refine ⟨comma', ?_⟩
    rw [feed_append _ hitem, completed, hrest]
    simp
  | .itemComma hq hc hl => by
    have hitem := feed_of_derives (expects_items comma l outer) hq
    obtain ⟨comma', hrest⟩ := feed_of_derivesAll false { l with items := l.items ++ [_] } outer hl
    refine ⟨comma', ?_⟩
    rw [feed_append _ hitem, completed, feed_cons _ (show step _ _ = .ok _ by simp [step, hc]; rfl),
      hrest]
    simp

end

/-! ## From steps to derivations -/

/-- Items of a list as they are read, one after the other; `comma` says whether one may come. -/
inductive Items : Bool → List Token → List Query → Prop where
  | nil : Items false [] []
  | query {comma : Bool} {ts us : List Token} {q : Query} {qs : List Query}
      (h : Items comma ts qs) (hq : Derives us q) : Items true (ts ++ us) (qs ++ [q])
  | comma {ts : List Token} {t : Token} {qs : List Query} (h : Items true ts qs)
      (hc : t.kind = .comma) : Items false (ts ++ [t]) qs

/-- What was read so far goes in front of what is derived after it. A comma belongs to the item
before it, so both continuations are carried. -/
theorem Items.append {comma : Bool} {ts : List Token} {qs : List Query} (h : Items comma ts qs) :
    (∀ us rs, DerivesAll us rs → DerivesAll (ts ++ us) (qs ++ rs)) ∧
      (comma = true → ∀ t us rs, t.kind = .comma → DerivesAll us rs →
        DerivesAll (ts ++ t :: us) (qs ++ rs)) := by
  induction h with
  | nil => exact ⟨fun us rs h => h, by simp⟩
  | query _ hq ih =>
    refine ⟨?_, ?_⟩
    · intro us rs hl
      simpa using ih.1 _ _ (.item hq hl)
    · intro _ t us rs hc hl
      simpa using ih.1 _ _ (.itemComma hq hc hl)
  | comma _ hc ih =>
    refine ⟨?_, by simp⟩
    intro us rs hl
    simpa using ih.2 rfl _ us rs hc hl

theorem Items.derivesAll {comma : Bool} {ts : List Token} {qs : List Query}
    (h : Items comma ts qs) : DerivesAll ts qs := by
  simpa using h.append.1 [] [] .nil

/-- The tokens that opened lists, with the items read in each. -/
inductive Opened : List Token → List OpenList → Prop where
  | nil : Opened [] []
  | cons {comma : Bool} {ts us : List Token} {word lparen : Token} {l : OpenList}
      {outer : List OpenList} (h : Opened ts outer) (hw : word.kind = .keyword (.combinator l.combinator))
      (ho : lparen.kind = .lparen) (hi : Items comma us l.items) :
      Opened (ts ++ word :: lparen :: us) (l :: outer)

/-- What was read when a progress is reached. -/
inductive HasRead : List Token → Progress → Prop where
  | start : HasRead [] .start
  | listOpen {ts : List Token} {outer : List OpenList} {word : Token} {c : Combinator}
      (h : Opened ts outer) (hw : word.kind = .keyword (.combinator c)) :
      HasRead (ts ++ [word]) (.listOpen c outer)
  | items {comma : Bool} {ts us : List Token} {outer : List OpenList} {word lparen : Token}
      {l : OpenList} (h : Opened ts outer) (hw : word.kind = .keyword (.combinator l.combinator))
      (ho : lparen.kind = .lparen) (hi : Items comma us l.items) :
      HasRead (ts ++ word :: lparen :: us) (.items comma l outer)
  | filterOpen {ts : List Token} {outer : List OpenList} {word : Token} {op : Comparator}
      (h : Opened ts outer) (hw : word.kind = .keyword (.comparator op)) :
      HasRead (ts ++ [word]) (.filterOpen op outer)
  | field {ts : List Token} {outer : List OpenList} {word lparen : Token} {op : Comparator}
      (h : Opened ts outer) (hw : word.kind = .keyword (.comparator op))
      (ho : lparen.kind = .lparen) : HasRead (ts ++ [word, lparen]) (.field op outer)
  | fieldComma {ts : List Token} {outer : List OpenList} {word lparen name : Token}
      {op : Comparator} (h : Opened ts outer) (hw : word.kind = .keyword (.comparator op))
      (ho : lparen.kind = .lparen) (hn : name.kind = .ident) :
      HasRead (ts ++ [word, lparen, name]) (.fieldComma op name.literal outer)
  | value {ts : List Token} {outer : List OpenList} {word lparen name comma : Token}
      {op : Comparator} (h : Opened ts outer) (hw : word.kind = .keyword (.comparator op))
      (ho : lparen.kind = .lparen) (hn : name.kind = .ident) (hc : comma.kind = .comma) :
      HasRead (ts ++ [word, lparen, name, comma]) (.value op name.literal outer)
  | filterClose {ts : List Token} {outer : List OpenList} {word lparen name comma value : Token}
      {op : Comparator} {v : Value} (h : Opened ts outer)
      (hw : word.kind = .keyword (.comparator op)) (ho : lparen.kind = .lparen)
      (hn : name.kind = .ident) (hc : comma.kind = .comma) (hv : Denotes value v) :
      HasRead (ts ++ [word, lparen, name, comma, value]) (.filterClose op name.literal v outer)
  | finished {ts : List Token} {q : Query} (h : Derives ts q) : HasRead ts (.finished q)

theorem hasRead_completed {ts us : List Token} {outer : List OpenList} {q : Query}
    (h : Opened ts outer) (hq : Derives us q) : HasRead (ts ++ us) (completed q outer) := by
  cases h with
  | nil => exact .finished hq
  | cons h hw ho hi =>
    have hitems := HasRead.items (l := ⟨_, _ ++ [q]⟩) h hw ho (.query hi hq)
    rw [completed]
    simpa using hitems

theorem require_ok {kind : Token.Kind} {what : Expectation} {p p' : Progress} {t : Token}
    (h : require kind what p t = .ok p') : t.kind = kind ∧ p' = p := by
  unfold require at h
  split at h
  · rename_i hk; cases h; exact ⟨hk, rfl⟩
  · cases h

theorem hasRead_begin {ts : List Token} {outer : List OpenList} {t : Token} {p : Progress}
    (h : Opened ts outer) (hs : begin outer t = .ok p) : HasRead (ts ++ [t]) p := by
  unfold begin at hs
  split at hs
  · rename_i c hk; cases hs; exact .listOpen h hk
  · rename_i op hk; cases hs; exact .filterOpen h hk
  · cases hs
  · cases hs

theorem HasRead.step {ts : List Token} {p p' : Progress} {t : Token} (h : HasRead ts p)
    (hs : p.step t = .ok p') : HasRead (ts ++ [t]) p' := by
  cases h with
  | start => exact hasRead_begin .nil hs
  | listOpen h hw =>
    obtain ⟨hk, rfl⟩ := require_ok hs
    simpa using HasRead.items (l := ⟨_, []⟩) h hw hk .nil
  | items h hw ho hi =>
    simp only [Progress.step] at hs
    split at hs
    · rename_i hk
      cases hs
      simpa using hasRead_completed h (.group hw ho hi.derivesAll hk)
    · split at hs
      · rename_i hk
        cases hs
        obtain ⟨rfl, hk⟩ := hk
        simpa using HasRead.items h hw ho (.comma hi hk)
      · exact hasRead_begin (.cons h hw ho hi) hs
  | filterOpen h hw =>
    obtain ⟨hk, rfl⟩ := require_ok hs
    simpa using HasRead.field h hw hk
  | field h hw ho =>
    obtain ⟨hk, rfl⟩ := require_ok hs
    simpa using HasRead.fieldComma h hw ho hk
  | fieldComma h hw ho hn =>
    obtain ⟨hk, rfl⟩ := require_ok hs
    simpa using HasRead.value h hw ho hn hk
  | value h hw ho hn hc =>
    simp only [Progress.step] at hs
    split at hs
    · cases hs
    · rename_i v hv
      cases hs
      simpa using HasRead.filterClose h hw ho hn hc (Token.value_eq_ok_iff.mp hv)
  | filterClose h hw ho hn hc hv =>
    obtain ⟨hk, rfl⟩ := require_ok hs
    simpa using hasRead_completed h (.filter (.mk hw ho hn hc hv hk))
  | finished h => cases hs

theorem HasRead.feed {ts us : List Token} {p p' : Progress} (h : HasRead ts p)
    (hs : p.feed us = .ok p') : HasRead (ts ++ us) p' := by
  induction us generalizing ts p with
  | nil => cases hs; simpa using h
  | cons t us ih =>
    unfold Progress.feed at hs
    split at hs
    · cases hs
    · rename_i p₁ h₁
      simpa using ih (h.step h₁) hs

theorem derives_of_feed {ts : List Token} {q : Query} (h : start.feed ts = .ok (.finished q)) :
    Derives ts q := by
  cases HasRead.start.feed h with
  | finished h => exact h

theorem feed_start_iff {ts : List Token} {q : Query} :
    start.feed ts = .ok (.finished q) ↔ Derives ts q :=
  ⟨derives_of_feed, feed_of_derives expects_start⟩

/-- Steps that were stopped after they could read a query have read it. -/
theorem Moves.finished {w w' : Window} {us vs : List Token} {q : Query} {p : Progress}
    {e : ParseError} (hm : Moves start w p w') (hs : p.step w'.current = .error e)
    (hw : w.tokens = us ++ vs) (hq : start.feed us = .ok (.finished q)) :
    p = .finished q ∧ w' = ⟨vs, w.stop⟩ := by
  obtain ⟨ts, hf, ht, hstop⟩ := hm
  obtain ⟨tokens, stop⟩ := w'
  cases hstop
  rcases List.append_eq_append_iff.mp (hw.symm.trans ht) with ⟨as, rfl, rfl⟩ | ⟨bs, rfl, rfl⟩
  · rw [feed_append _ hq] at hf
    cases as with
    | nil => cases hf; exact ⟨rfl, rfl⟩
    | cons a as => cases hf
  · rw [feed_append _ hf] at hq
    cases bs with
    | nil => cases hq; exact ⟨rfl, rfl⟩
    | cons b bs =>
      have hb : p.step b = .error e := hs
      simp only [feed, hb] at hq
      cases hq

/-- Where the tokens left start with a query, it is read, and the tokens after it are left. -/
theorem parseQuery_of_derives {w : Window} {us vs : List Token} {q : Query}
    (hw : w.tokens = us ++ vs) (hd : Derives us q) :
    (parseQuery w).result = .ok q ∧ (parseQuery w).window = ⟨vs, w.stop⟩ := by
  have hq := feed_start_iff.mpr hd
  have h := parseQuery_follows w
  unfold Follows at h
  split at h
  · rename_i r hr
    obtain ⟨heq, hwindow⟩ := Moves.finished h rfl hw hq
    cases heq
    exact ⟨hr, hwindow⟩
  · obtain ⟨p, w', hm, hs, hp⟩ := h
    exact absurd (Moves.finished hm hs hw hq).1 (hp q)

end Progress

/-! ## Texts -/

/-- A text is read as a query exactly if a beginning of its tokens derives the query. That
beginning and the query are unique, and the reader stops right after it. Sentences, which have
their commas between the items only, derive what they denote. -/
theorem parseQuery_iff_derives (s : String) :
    (∀ q, (parseQuery (Window.ofText s)).result = .ok q ↔ ∃ n, Derives (firstTokens s n) q) ∧
    (∀ m n q r, Derives (firstTokens s m) q → Derives (firstTokens s n) r → m = n ∧ q = r) ∧
    (∀ n q, Derives (firstTokens s n) q →
      (parseQuery (Window.ofText s)).window.current = stream s n ∧
      (parseQuery (Window.ofText s)).window.peek = stream s (n + 1)) ∧
    (∀ n q, Sentence (firstTokens s n) q → (parseQuery (Window.ofText s)).result = .ok q) := by
  have hiff : ∀ q, (parseQuery (Window.ofText s)).result = .ok q ↔
      ∃ n, Derives (firstTokens s n) q := by
    intro q
    rw [Progress.parseQuery_ok_iff]
    exact exists_congr fun n => Progress.feed_start_iff
  refine ⟨hiff, ?_, ?_, ?_⟩
  · intro m n q r hq hr
    exact Progress.finished_unique (Progress.feed_start_iff.mpr hq) (Progress.feed_start_iff.mpr hr)
  · intro n q hq
    obtain ⟨m, hm, hc, hp⟩ := Progress.parseQuery_ok ((hiff q).mpr ⟨n, hq⟩)
    obtain ⟨rfl, -⟩ := Progress.finished_unique hm (Progress.feed_start_iff.mpr hq)
    exact ⟨hc, hp⟩
  · intro n q hq
    exact (hiff q).mpr ⟨n, hq.derives⟩

end Criteria
