import Criteria.Number.Binary64

/-!
# Criteria.Number.Decimal

The decimal text of numbers. `Binary64.ofNumeral` reads it. `Binary64.shortest` finds the fewest
digits that read back as the number, and among those the digits nearest to it; `Layout` says where
the point goes.

* `Layout.mixed` writes exponents outside 10⁻⁴ to 10¹⁶, as JSON and structure texts do.
* `Layout.plain` never writes one, as query texts do.
-/

namespace Criteria

section

-- `^` is the power of the core library here, whatever else is in scope.
attribute [local instance (high)] instPowNat

def digitsValue (cs : List Char) : Nat :=
  cs.foldl (fun n c => 10 * n + (c.toNat - 48)) 0

def Binary64.ofNumeral (numeral : List Char) : Binary64 :=
  let whole := numeral.takeWhile (· != '.')
  let part := (numeral.dropWhile (· != '.')).drop 1
  round false (digitsValue (whole ++ part)) (10 ^ part.length)

def digitsText (n : Nat) : List Char :=
  Nat.toDigits 10 n

def int64Min : Int := -2 ^ (63 : Nat)

/-- The greatest whole number that integers are read as and compared with. -/
def int64Max : Int := 2 ^ (63 : Nat) - 1

structure Decimal where
  digits : Nat
  exponent : Int
  deriving DecidableEq, Repr

namespace Binary64

/-- The numbers that round to a finite one other than zero, in halves of a unit: from `low` to
`high`, the ends included if `closed`, around `centre`. -/
structure Interval where
  low : Nat
  centre : Nat
  high : Nat
  closed : Bool

/-- Below a power of two the numbers lie twice as dense, so the lower half gap is smaller there. -/
def interval (x : Binary64) : Interval :=
  let below := if x.fraction.val = 0 ∧ 1 < x.exponent.val then x.step / 2 else x.step
  { low := 2 * x.units - below
    centre := 2 * x.units
    high := 2 * x.units + x.step
    closed := x.significand % 2 == 0 }

/-- Half a unit is one over this. -/
def halvesPerOne : Nat := 2 ^ (1075 : Nat)

/-- The decimals `n * 10 ^ exponent`: `n` stands for `n * den / num` halves of a unit. -/
structure Grid where
  exponent : Int
  num : Nat
  den : Nat

def Grid.of (exponent : Int) : Grid :=
  match exponent with
  | .ofNat n => ⟨exponent, 1, halvesPerOne * 10 ^ n⟩
  | .negSucc n => ⟨exponent, 10 ^ (n + 1), halvesPerOne⟩

def Grid.hits (g : Grid) (i : Interval) (n : Nat) : Bool :=
  if i.closed then i.low * g.num ≤ n * g.den && n * g.den ≤ i.high * g.num
  else i.low * g.num < n * g.den && n * g.den < i.high * g.num

/-- The point of the grid in the interval that is nearest to the centre, if there is one; a tie goes
to the even point. -/
def Grid.nearest? (g : Grid) (i : Interval) : Option Nat :=
  let n := i.centre * g.num / g.den
  let r := i.centre * g.num % g.den
  match g.hits i n, g.hits i (n + 1) with
  | false, false => none
  | true, false => some n
  | false, true => some (n + 1)
  | true, true =>
    if 2 * r < g.den then some n
    else if g.den < 2 * r then some (n + 1)
    else some (n + n % 2)

/-- The largest exponent not above `top` whose power of ten is at most the centre. -/
def leading (centre : Nat) : (fuel : Nat) → (top : Int) → Int
  | 0, top => top
  | fuel + 1, top =>
    let g := Grid.of top
    if g.den ≤ centre * g.num then top else leading centre fuel (top - 1)

/-- Tries one digit, two digits, and so on, `count` grids in all. -/
def firstHit (i : Interval) : (count : Nat) → (exponent : Int) → Decimal
  | 0, e => ⟨i.centre * (Grid.of e).num / (Grid.of e).den, e⟩
  | count + 1, e =>
    match (Grid.of e).nearest? i with
    | some n => ⟨n, e⟩
    | none => firstHit i count (e - 1)

def shortest (x : Binary64) : Decimal :=
  if x.units = 0 then ⟨0, 0⟩
  else
    let i := x.interval
    firstHit i 17 (leading i.centre 640 308)

end Binary64

/-- Which exponents of the first digit are written by moving the point. -/
structure Layout where
  positional : Int → Bool

def Layout.mixed : Layout := ⟨fun e => -4 ≤ e && e < 16⟩

def Layout.plain : Layout := ⟨fun _ => true⟩

/-- Digits with the point after the digit of weight `10 ^ 0`; zeros fill both sides, and at least
one digit stands on each. -/
def positionalText (ds : List Char) (exponent : Int) : List Char :=
  match exponent with
  | .ofNat e =>
    let whole := ds.take (e + 1) ++ List.replicate (e + 1 - ds.length) '0'
    let part := ds.drop (e + 1)
    whole ++ '.' :: (if part.isEmpty then ['0'] else part)
  | .negSucc e => '0' :: '.' :: (List.replicate e '0' ++ ds)

def exponentText (ds : List Char) (exponent : Int) : List Char :=
  let mantissa :=
    match ds with
    | d :: e :: es => d :: '.' :: e :: es
    | ds => ds
  let size := digitsText exponent.natAbs
  mantissa ++ 'e' :: (if exponent < 0 then '-' else '+') ::
    (List.replicate (2 - size.length) '0' ++ size)

/-- The digits of a decimal without the zeros at its end, and the exponent of the first. -/
def Decimal.digitsAndExponent (d : Decimal) : List Char × Int :=
  let ds := digitsText d.digits
  let kept := (ds.reverse.dropWhile (· == '0')).reverse
  (if kept.isEmpty then ['0'] else kept, d.exponent + ds.length - 1)

def Layout.finiteText (l : Layout) (x : Binary64) : List Char :=
  let (ds, e) := x.shortest.digitsAndExponent
  let magnitude := if l.positional e then positionalText ds e else exponentText ds e
  if x.negative then '-' :: magnitude else magnitude

def Layout.text (l : Layout) (x : Binary64) : String :=
  if x.isFinite then String.ofList (l.finiteText x)
  else if x.isNaN then "nan"
  else if x.negative then "-inf" else "inf"

end

def intText (n : Int) : String :=
  if n < 0 then String.ofList ('-' :: digitsText n.natAbs) else String.ofList (digitsText n.natAbs)

end Criteria
