import Criteria.Text.Point
import Criteria.Token.Lexer

/-!
# Criteria.Token.Scanner

Scanning a text one code point at a time. A `Scanner` is an index into a text, with the number of
bytes before it and the code point there; past the end, and at the first NUL, it sees an end mark.
All its moves are made by `readChar`, which counts the bytes of the code point that it leaves. A
surrogate has none, so that no scanner gets past one.

* `readWhile` is the one loop; blanks, words, numbers and strings are stretches that it reads over.
* `nextToken` takes one token.
-/

namespace Criteria

open Text

structure Scanner where
  text : Array Point
  length : Nat
  index : Nat := 0
  position : Nat := 0
  ch : Point
  deriving DecidableEq, Repr

/-- The surrogate that was met has no bytes. -/
structure EncodeError where
  surrogate : Fin 0x800
  deriving DecidableEq, Repr

namespace Scanner

/-- What a scanner does, perhaps in vain; it stays where it came to. -/
abbrev Scan (α : Type) : Type := EStateM EncodeError Scanner α

section

variable {α : Type} (s : Scanner)

@[simp] theorem get_bind (f : Scanner → Scan α) : (get >>= f) s = f s s := rfl

@[simp] theorem modify_bind (g : Scanner → Scanner) (f : Unit → Scan α) :
    (modify g >>= f) s = f () (g s) := rfl

@[simp] theorem modify_apply (g : Scanner → Scanner) : (modify g : Scan Unit) s = .ok () (g s) := rfl

@[simp] theorem pure_apply (a : α) : (pure a : Scan α) s = .ok a s := rfl

end

def endMark : Point := .char Cursor.endMark

def charAt (s : Scanner) (i : Nat) : Point :=
  if i < s.length then s.text.getD i endMark else endMark

def peekChar (s : Scanner) : Point := s.charAt (s.index + 1)

/-- The start of a text. -/
def ofPoints (ps : List Point) : Scanner :=
  let s : Scanner :=
    { text := ps.toArray, length := ps.findIdx (· == endMark), ch := endMark }
  { s with ch := s.charAt 0 }

/-- Moves on by one code point. The bytes of the end mark are not counted, and the index stays in the
text. -/
def readChar : Scan Unit := do
  match (← get).ch with
  | .surrogate n => throw ⟨n⟩
  | .char c =>
    if c ≠ Cursor.endMark then modify fun s => { s with position := s.position + c.utf8Size }
    if (← get).index < (← get).length then modify fun s => { s with index := s.index + 1 }
    modify fun s => { s with ch := s.charAt s.index }

/-- How far it is to the end: two for each code point, and one until the end mark is seen. -/
def distance (s : Scanner) : Nat :=
  2 * (s.length - s.index) + if s.ch = endMark then 0 else 1

/-- The scanner after the character that it sees. -/
def past (s : Scanner) (c : Char) : Scanner :=
  let index := if s.index < s.length then s.index + 1 else s.index
  { s with
    index
    position := if c = Cursor.endMark then s.position else s.position + c.utf8Size
    ch := s.charAt index }

theorem readChar_surrogate {s : Scanner} {n : Fin 0x800} (h : s.ch = .surrogate n) :
    readChar s = .error ⟨n⟩ s := by
  rw [readChar, get_bind, h]
  rfl

theorem readChar_char {s : Scanner} {c : Char} (h : s.ch = .char c) :
    readChar s = .ok () (s.past c) := by
  rw [readChar, get_bind, h]
  by_cases hc : c = Cursor.endMark <;> by_cases hi : s.index < s.length <;>
    simp [past, charAt, hc, hi]

theorem distance_readChar {s s' : Scanner} (h : readChar s = .ok () s') (he : s.ch ≠ endMark) :
    s'.distance < s.distance := by
  cases hc : s.ch with
  | surrogate n => rw [readChar_surrogate hc] at h; cases h
  | char c =>
    rw [readChar_char hc] at h
    cases h
    simp only [distance, past, if_neg he]
    split
    · split <;> omega
    · rename_i hi
      have hlast : s.charAt s.index = endMark := if_neg hi
      simp only [hlast, if_true]
      omega

/-- Code points to read over. The end mark is none of them. -/
structure Stretch where
  holds : Point → Bool
  ends : holds endMark = false

namespace Stretch

def blanks : Stretch := ⟨Point.isAny isBlank, rfl⟩

def digits : Stretch := ⟨Point.isAny isDigit, rfl⟩

def word : Stretch := ⟨Point.isAny isWordChar, by decide⟩

/-- All but the closing quote. -/
def string : Stretch := ⟨fun p => p != .char '"' && p != endMark, rfl⟩

end Stretch

/-- Reads to the end of a stretch. -/
def readWhile (k : Stretch) (s : Scanner) : EStateM.Result EncodeError Scanner Unit :=
  if _hk : k.holds s.ch then
    match _h : readChar s with
    | .ok _ s' => readWhile k s'
    | .error e s' => .error e s'
  else .ok () s
termination_by s.distance
decreasing_by
  refine distance_readChar _h ?_
  intro he
  rw [he, k.ends] at _hk
  cases _hk

/-- The text between two places. -/
def slice (s : Scanner) (start stop : Nat) : String :=
  shownText (s.text.extract start stop).toList

/-- The text from where the scanner is to where `read` leaves it. -/
def taken (read : Scan Unit) : Scan String := do
  let start := (← get).index
  read
  return (← get).slice start (← get).index

/-- A letter, and letters and digits after it. -/
def readWord : Scan String := taken do
  readChar
  readWhile .word

def readNumber : Scan String := taken (readWhile .digits)

/-- The text after an opening quote, up to the closing one or to the end. -/
def readString : Scan String := do
  let start := (← get).index + 1
  readChar
  readWhile .string
  return (← get).slice start (← get).index

/-- A number has a fraction only where a digit follows the point. -/
def readNumeral (start : Nat) : Scan Token := do
  let whole ← readNumber
  if (← get).ch = .char '.' ∧ (← get).peekChar.isAny isDigit then
    readChar
    let part ← readNumber
    return ⟨.float, whole ++ "." ++ part, start⟩
  else return ⟨.int, whole, start⟩

/-- Moves past a token of one code point, or past a closing quote. -/
def closing (t : Token) : Scan Token := do
  readChar
  return t

/-- Takes the token that starts here. -/
def scanToken : Scan Token := do
  let start := (← get).position
  match (← get).ch with
  | .surrogate n => closing ⟨.illegal, shownText [.surrogate n], start⟩
  | .char c =>
    match Lexeme.punctuation? c with
    | some kind => closing ⟨kind, "", start⟩
    | none =>
      if c = '"' then
        let body ← readString
        closing ⟨.str, body, start⟩
      else if c = Cursor.endMark then closing ⟨.eof, "", start⟩
      else if isLetter c then return Token.ofWord (← readWord) start
      else if isDigit c then readNumeral start
      else closing ⟨.illegal, String.singleton c, start⟩

/-- Takes one token. -/
def nextToken : Scan Token := do
  readWhile .blanks
  scanToken

end Scanner
end Criteria
