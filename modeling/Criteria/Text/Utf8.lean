import Criteria.Text.Quoted

/-!
# Criteria.Text.Utf8

Reading bytes as text: strict UTF-8, where the first fault is reported with the bytes it covers, and
line ends of three kinds that all become a line feed.

* `Utf8.decode` accepts exactly the well-formed sequences (no surrogates, no overlong forms).
* `Utf8.length` counts the bytes of a text.
-/

namespace Criteria
namespace Text
namespace Utf8

/-- What can be wrong with a byte sequence. -/
inductive Fault where
  | start
  | continuation
  | truncated
  deriving DecidableEq, Repr

def Fault.reason : Fault → String
  | .start => "invalid start byte"
  | .continuation => "invalid continuation byte"
  | .truncated => "unexpected end of data"

/-- The first fault: `count` bytes from index `first` on, the first of which is `byte`, are not the
encoding of a character. -/
structure DecodeError where
  fault : Fault
  first : Nat
  count : Nat
  byte : UInt8
  deriving DecidableEq, Repr

def DecodeError.message (e : DecodeError) : String :=
  let place :=
    if e.count ≤ 1 then
      "byte 0x" ++ String.ofList (hex 2 e.byte.toNat) ++ " in position " ++ toString e.first
    else
      "bytes in position " ++ toString e.first ++ "-" ++ toString (e.first + e.count - 1)
  "'utf-8' codec can't decode " ++ place ++ ": " ++ e.fault.reason

/-- What a first byte announces: its own bits, the number of bytes that follow, and the bounds of
the next one. The bounds keep out overlong forms, surrogates and code points past the last. -/
structure Lead where
  bits : Nat
  follow : Nat
  low : UInt8 := 0x80
  high : UInt8 := 0xBF

def lead? (b : UInt8) : Option Lead :=
  let n := b.toNat
  if n < 0x80 then some { bits := n, follow := 0 }
  else if n < 0xC2 then none
  else if n < 0xE0 then some { bits := n - 0xC0, follow := 1 }
  else if n < 0xF0 then
    some { bits := n - 0xE0, follow := 2,
           low := if n = 0xE0 then 0xA0 else 0x80, high := if n = 0xED then 0x9F else 0xBF }
  else if n < 0xF5 then
    some { bits := n - 0xF0, follow := 3,
           low := if n = 0xF0 then 0x90 else 0x80, high := if n = 0xF4 then 0x8F else 0xBF }
  else none

/-- Reads `follow` bytes after the `seen` ones of a character and returns its code point and the
bytes after it. -/
def follow? (low high : UInt8) (seen code : Nat) :
    (follow : Nat) → List UInt8 → Except (Fault × Nat) (Nat × List UInt8)
  | 0, bytes => .ok (code, bytes)
  | _ + 1, [] => .error (.truncated, seen)
  | n + 1, b :: bytes =>
    if low ≤ b ∧ b ≤ high then
      follow? 0x80 0xBF (seen + 1) (code * 64 + (b.toNat - 0x80)) n bytes
    else .error (.continuation, seen)

theorem follow?_length {low high : UInt8} {seen code n : Nat} {bytes : List UInt8}
    {r : Nat × List UInt8} (h : follow? low high seen code n bytes = .ok r) :
    r.2.length ≤ bytes.length := by
  induction n generalizing low high seen code bytes with
  | zero => simp only [follow?, Except.ok.injEq] at h; subst h; simp
  | succ n ih =>
    cases bytes with
    | nil => simp [follow?] at h
    | cons b bytes =>
      simp only [follow?] at h
      split at h
      · have := ih h; simp only [List.length_cons]; omega
      · simp at h

/-- The text of the bytes from index `offset` on. -/
def decodeFrom (offset : Nat) (bytes : List UInt8) : Except DecodeError (List Char) :=
  match bytes with
  | [] => .ok []
  | b :: rest =>
    match lead? b with
    | none => .error ⟨.start, offset, 1, b⟩
    | some l =>
      match _h : follow? l.low l.high 1 l.bits l.follow rest with
      | .error (fault, seen) => .error ⟨fault, offset, seen, b⟩
      | .ok (code, after) =>
        match decodeFrom (offset + 1 + l.follow) after with
        | .error e => .error e
        | .ok cs => .ok (Char.ofNat code :: cs)
termination_by bytes.length
decreasing_by
  have hlen : after.length ≤ rest.length := follow?_length _h
  simp only [List.length_cons]
  omega

def decode (bytes : List UInt8) : Except DecodeError (List Char) :=
  decodeFrom 0 bytes

/-- The number of bytes that a text takes. -/
def length (cs : List Char) : Nat :=
  cs.foldr (fun c n => c.utf8Size + n) 0

end Utf8

/-- A return, alone or before a line feed, reads as a line feed. -/
def foldNewlines : List Char → List Char
  | [] => []
  | '\r' :: '\n' :: cs => '\n' :: foldNewlines cs
  | '\r' :: cs => '\n' :: foldNewlines cs
  | c :: cs => c :: foldNewlines cs

end Text
end Criteria
