import Criteria.Number.Binary64
import Criteria.Text.Digit
import Criteria.Text.Split
import Criteria.Text.Trim

/-!
# Criteria.Number.Written

Numbers as people write them in settings and documents: blanks around, a sign in front, single
underscores between digits.
-/

namespace Criteria

/-- The longest numeral of a whole number that is read at all. -/
def maxNumeralLength : Nat := 4300

def ofDigits (ds : List Nat) : Nat :=
  ds.foldl (fun n d => 10 * n + d) 0

/-- The digits of a numeral with single underscores between them. -/
def groupedDigits? (digit? : Char → Option Nat) (cs : List Char) : Option (List Nat) :=
  let groups := Text.splitOn '_' cs
  if groups.any List.isEmpty then none else groups.flatten.mapM digit?

/-- A sign in front of a numeral, and the rest; the sign is true for a minus. -/
def splitSign : List Char → Bool × List Char
  | '+' :: cs => (false, cs)
  | '-' :: cs => (true, cs)
  | cs => (false, cs)

def signed (negative : Bool) (n : Nat) : Int :=
  if negative then -(n : Int) else n

/-- A whole number with digits of any script. -/
def wholeNumber? (s : String) : Option Int :=
  let (negative, cs) := splitSign (Text.trim s.toList)
  (groupedDigits? Text.decimalDigit? cs).map fun ds => signed negative (ofDigits ds)

def intOfText? (s : String) : Option Int :=
  if maxNumeralLength < s.toList.countP (fun c => (Text.decimalDigit? c).isSome) then none
  else wholeNumber? s

/-- The digits of a part of a numeral that may be missing. -/
def partDigits? (cs : List Char) : Option (List Nat) :=
  if cs.isEmpty then some [] else groupedDigits? Text.decimalDigit? cs

/-- The exponent after its mark; without a mark it is zero. -/
def exponentOf? : List Char → Option Int
  | [] => some 0
  | _ :: cs =>
    let (negative, cs) := splitSign cs
    (groupedDigits? Text.decimalDigit? cs).map fun ds => signed negative (ofDigits ds)

def magnitude? (negative : Bool) (cs : List Char) : Option Binary64 := do
  let isMark := fun c : Char => c == 'e' || c == 'E'
  let body := cs.takeWhile fun c => !isMark c
  let whole ← partDigits? (body.takeWhile (· != '.'))
  let part ← partDigits? ((body.dropWhile (· != '.')).drop 1)
  let exponent ← exponentOf? (cs.dropWhile fun c => !isMark c)
  if whole.isEmpty && part.isEmpty then none
  else some (.ofDecimal negative (ofDigits (whole ++ part)) (exponent - part.length))

/-- The number nearest to a numeral, which may also be an infinity or no number. -/
def floatOfText? (s : String) : Option Binary64 :=
  let (negative, cs) := splitSign (Text.trim s.toList)
  match String.ofList (cs.map Char.toLower) with
  | "inf" | "infinity" => some (.infinity negative)
  | "nan" => some .nan
  | _ => magnitude? negative cs

def dropZeroFraction (cs : List Char) : List Char :=
  match cs.dropWhile (· != '.') with
  | '.' :: part => if part.all (· == '0') then cs.takeWhile (· != '.') else cs
  | _ => cs

/-- A numeral without the zeros in front, and the underscores among them. One character stays. -/
def dropZeros (cs : List Char) : List Char :=
  if cs.head? != some '0' then cs
  else
    match cs.dropWhile (fun c => c == '0' || c == '_') with
    | [] => cs.getLast?.toList
    | rest => rest

/-- The sign of a numeral with ASCII digits, and the rest. Zeros in front of a minus do not count. -/
def splitZerosAndSign (cs : List Char) : Bool × List Char :=
  match dropZeros cs with
  | '-' :: rest => (true, rest)
  | _ => splitSign cs

/-- A whole number with ASCII digits, perhaps with a fraction of zeros. -/
def plainWholeNumber? (s : String) : Option Int :=
  let cs := Text.trim s.toList
  let (negative, body) := splitZerosAndSign cs
  if maxNumeralLength < cs.length then none
  else
    (groupedDigits? Text.asciiDigit? (dropZeros (dropZeroFraction body))).map fun ds =>
      signed negative (ofDigits ds)

end Criteria
