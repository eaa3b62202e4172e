import Criteria.Number.Written
import Criteria.ParseError
import Criteria.Query
import Criteria.Token.Window

/-!
# Criteria.Query.Parser

From tokens to queries:

    query   ::= and ( list ) | or ( list ) | comparator ( identifier , value )
    list    ::= nothing | query list | query , list
    value   ::= identifier | integer | float | string | true | false

Two tokens of the `Window` decide every step, and the first error ends the reading with the window
where it was. Lists are read with a stack of the lists around them, so that the nesting of a query
costs no nested calls and has no limit.

* `parseFilter`, `parseList` and `parseQuery` read from a window.
* `parse` reads the query at the start of a text; what follows it is left alone.
-/

namespace Criteria

/-- What reading from a window came to: a result, the window after it, and the windows after each
item of a list on the way. -/
structure Reading (α : Type) where
  result : Except ParseError α
  window : Window
  items : List Window := []

namespace Reading

def map {α β : Type} (f : α → β) (r : Reading α) : Reading β :=
  { result := r.result.map f, window := r.window, items := r.items }

/-- The same reading after one more item. -/
def after {α : Type} (w : Window) (r : Reading α) : Reading α :=
  { r with items := w :: r.items }

end Reading

namespace Window

/-- Moves on to the next token if it is of the given kind. -/
def expect (w : Window) (kind : Token.Kind) (what : Expectation) : Except ParseError Window :=
  if w.peek.kind = kind then .ok w.advance else .error (.expected what w.peek)

def identifier (w : Window) : Except ParseError String :=
  if w.current.kind = .ident then .ok w.current.literal
  else .error (.expected .identifier w.current)

def integer (w : Window) : Except ParseError Value :=
  if w.current.kind = .int then
    let digits := w.current.literal.toList
    if digits.length ≤ maxNumeralLength ∧ (digitsValue digits : Int) ≤ int64Max then
      .ok (.integer (digitsValue digits))
    else .error (.numeral .integer w.current.literal)
  else .error (.expected .integer w.current)

def float (w : Window) : Except ParseError Value :=
  if w.current.kind = .float then
    let x := Binary64.ofNumeral w.current.literal.toList
    if x.isFinite then .ok (.float x) else .error (.numeral .float w.current.literal)
  else .error (.expected .float w.current)

def string (w : Window) : Except ParseError Value :=
  if w.current.kind = .str then .ok (.string w.current.literal)
  else .error (.expected .string w.current)

def boolean (w : Window) : Except ParseError Value :=
  match w.current.kind with
  | .keyword (.truth b) => .ok (.boolean b)
  | _ => .error (.expected .boolean w.current)

/-- Whether the current token is a value. -/
def hasValue (w : Window) : Bool :=
  match w.current.kind with
  | .ident | .int | .float | .str | .keyword (.truth _) => true
  | _ => false

def value (w : Window) : Except ParseError Value :=
  match w.current.kind with
  | .ident => w.identifier.map .identifier
  | .int => w.integer
  | .float => w.float
  | .str => w.string
  | .keyword (.truth _) => w.boolean
  | _ => .error (.expected .value w.current)

/-- Moves over a bracket that opens a list. -/
def openList (w : Window) : Except ParseError Window :=
  match w.expect .lparen .lparen with
  | .error e => .error e
  | .ok w => .ok w.advance

/-- Moves over a comma if there is one. -/
def skipComma (w : Window) : Window :=
  if w.current.kind = .comma then w.advance else w

end Window

/-- Reads `comparator ( identifier , value )`. -/
def parseFilter (w : Window) : Reading Query :=
  match w.current.kind with
  | .keyword (.comparator op) =>
    match w.expect .lparen .lparen with
    | .error e => ⟨.error e, w, []⟩
    | .ok bracket =>
      let name := bracket.advance
      match name.identifier with
      | .error e => ⟨.error e, name, []⟩
      | .ok field =>
        match name.expect .comma .comma with
        | .error e => ⟨.error e, name, []⟩
        | .ok comma =>
          let literal := comma.advance
          match literal.value with
          | .error e => ⟨.error e, literal, []⟩
          | .ok value =>
            match literal.expect .rparen .rparen with
            | .error e => ⟨.error e, literal, []⟩
            | .ok close => ⟨.ok (.filter op field value), close.advance, []⟩
  | _ => ⟨.error (.expected .comparator w.current), w, []⟩

/-- A list around the one that is read: its combinator, and its items so far. -/
structure OpenList where
  combinator : Combinator
  items : List Query

namespace Window

theorem length_advance (w : Window) : w.advance.tokens.length = w.tokens.length - 1 := by
  simp [advance]

/-- A current token that is not the end is one of the tokens left. -/
theorem tokens_pos {w : Window} (h : w.current.kind ≠ .eof) : 0 < w.tokens.length := by
  rcases hw : w.tokens with _ | ⟨t, ts⟩
  · exact absurd (by simp [current, eof, hw]) h
  · simp

theorem length_skipComma (w : Window) : w.skipComma.tokens.length ≤ w.tokens.length := by
  unfold skipComma
  split
  · rw [length_advance]; omega
  · exact Nat.le_refl _

theorem length_expect {w w' : Window} {k : Token.Kind} {what : Expectation}
    (h : w.expect k what = .ok w') : w'.tokens.length = w.tokens.length - 1 := by
  unfold expect at h
  split at h
  · cases h; exact length_advance w
  · cases h

theorem length_openList {w w' : Window} (h : w.openList = .ok w') :
    w'.tokens.length = w.tokens.length - 2 := by
  unfold openList at h
  split at h
  · cases h
  · rename_i w₁ h₁
    cases h
    rw [length_advance, length_expect h₁]; omega

end Window

/-- A filter that was read takes at least one token. -/
theorem parseFilter_shorter {w : Window} {q : Query} (h : (parseFilter w).result = .ok q) :
    (parseFilter w).window.tokens.length < w.tokens.length := by
  unfold parseFilter at h ⊢
  split
  · rename_i op hk
    have hpos : 0 < w.tokens.length := Window.tokens_pos (by rw [hk]; simp)
    simp only [hk] at h
    split
    · rename_i e he; simp [he] at h
    · rename_i bracket hb
      simp only [hb] at h
      have h₁ := Window.length_expect hb
      dsimp only
      split
      · rename_i e he; simp [he] at h
      · rename_i field hf
        simp only [hf] at h
        split
        · rename_i e he; simp [he] at h
        · rename_i comma hc
          simp only [hc] at h
          have h₂ := Window.length_expect hc
          split
          · rename_i e he; simp [he] at h
          · rename_i value hv
            simp only [hv] at h
            split
            · rename_i e he; simp [he] at h
            · rename_i close hr
              have h₃ := Window.length_expect hr
              simp only [Window.length_advance] at *
              omega
  · rename_i hk
    split at h
    · rename_i op hop; exact absurd hop (hk op)
    · simp at h

/-- Reads the items of a list up to its closing bracket. `outer` are the lists around it, the
nearest first, and `done` are the items read so far. -/
def parseItems (outer : List OpenList) (done : List Query) (w : Window) : Reading (List Query) :=
  match _hk : w.current.kind with
  | .rparen =>
    match outer with
    | [] => ⟨.ok done, w.advance, []⟩
    | l :: ls =>
      let next := w.advance.skipComma
      (parseItems ls (l.items ++ [.group l.combinator done]) next).after next
  | .keyword (.combinator c) =>
    match _ho : w.openList with
    | .error e => ⟨.error e, w, []⟩
    | .ok inner => parseItems (⟨c, done⟩ :: outer) [] inner
  | .keyword (.reserved r) => ⟨.error (.unsupported r.word), w, []⟩
  | _ =>
    match _hf : (parseFilter w).result with
    | .error e => ⟨.error e, (parseFilter w).window, []⟩
    | .ok q =>
      let next := (parseFilter w).window.skipComma
      (parseItems outer (done ++ [q]) next).after next
termination_by w.tokens.length
decreasing_by
  · have hpos : 0 < w.tokens.length := Window.tokens_pos (by rw [_hk]; simp)
    have := Window.length_skipComma w.advance
    have := Window.length_advance w
    omega
  · have hpos : 0 < w.tokens.length := Window.tokens_pos (by rw [_hk]; simp)
    have := Window.length_openList _ho
    omega
  · have := parseFilter_shorter _hf
    have := Window.length_skipComma (parseFilter w).window
    omega

/-- Reads `( list )` after a combinator. -/
def parseList (w : Window) : Reading (List Query) :=
  match w.openList with
  | .error e => ⟨.error e, w, []⟩
  | .ok inner => parseItems [] [] inner

/-- Reads one query. -/
def parseQuery (w : Window) : Reading Query :=
  match w.current.kind with
  | .keyword (.combinator c) => (parseList w).map (.group c)
  | .keyword (.reserved r) => ⟨.error (.unsupported r.word), w, []⟩
  | _ => parseFilter w

/-- The query at the start of a text. -/
def parse (s : String) : Except ParseError Query :=
  (parseQuery (Window.ofText s)).result

end Criteria
