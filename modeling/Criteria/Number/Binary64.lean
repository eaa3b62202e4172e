/-!
# Criteria.Number.Binary64

Double-precision numbers as data: a sign, an exponent field and a fraction field. Every finite one
is a whole number of units of 2⁻¹⁰⁷⁴, so that order and rounding are questions about `Nat`.

* `Binary64.units` is the magnitude in those units; an infinity has the first magnitude past the
  finite ones.
* `Binary64.round` is the number nearest to a quotient, a tie going to the even neighbour.
* `Binary64.key` orders all numbers but the NaNs; the two zeros share a key.
-/

namespace Criteria

section

-- `^` is the power of the core library here, whatever else is in scope.
attribute [local instance (high)] instPowNat

instance neZeroFraction : @NeZero Nat Zero.ofOfNat0 (2 ^ (52 : Nat)) := ⟨by decide⟩

/-- A number of the 64-bit binary format. -/
structure Binary64 where
  negative : Bool
  exponent : Fin 2048
  fraction : Fin (2 ^ (52 : Nat))
  deriving DecidableEq, Repr

namespace Binary64

def zero : Binary64 := ⟨false, 0, 0⟩

def infinity (negative : Bool) : Binary64 := ⟨negative, 2047, 0⟩

def nan : Binary64 := ⟨false, 2047, Fin.ofNat (2 ^ (52 : Nat)) (2 ^ (51 : Nat))⟩

def isFinite (x : Binary64) : Bool := x.exponent != 2047

def isNaN (x : Binary64) : Bool := x.exponent == 2047 && x.fraction != 0

/-- The whole number that the exponent scales. -/
def significand (x : Binary64) : Nat :=
  if x.exponent.val = 0 then x.fraction.val else 2 ^ (52 : Nat) + x.fraction.val

/-- The distance to the next larger magnitude, in units. -/
def step (x : Binary64) : Nat :=
  2 ^ (x.exponent.val - 1)

/-- The magnitude, in units of 2⁻¹⁰⁷⁴. -/
def units (x : Binary64) : Nat :=
  x.significand * x.step

/-- The first number of units that is not finite. -/
def unitsLimit : Nat := 2 ^ (2098 : Nat)

/-- The number of that many units; it has to be one that the format can hold. -/
def ofUnits (negative : Bool) (u : Nat) : Binary64 :=
  if u < 2 ^ (52 : Nat) then ⟨negative, 0, Fin.ofNat (2 ^ (52 : Nat)) u⟩
  else if u < unitsLimit then
    let scale := Nat.log2 u - 52
    ⟨negative, Fin.ofNat 2048 (scale + 1), Fin.ofNat (2 ^ (52 : Nat)) (u / 2 ^ scale)⟩
  else infinity negative

/-- The whole number nearest to `num / den`, a tie going to the even one. -/
def roundDiv (num den : Nat) : Nat :=
  let q := num / den
  let r := num % den
  if 2 * r < den then q
  else if den < 2 * r then q + 1
  else q + q % 2

/-- The number nearest to `num / den`, with the given sign. -/
def round (negative : Bool) (num den : Nat) : Binary64 :=
  let scaled := num * 2 ^ (1074 : Nat)
  let scale := Nat.log2 (scaled / den) - 52
  ofUnits negative (roundDiv scaled (den * 2 ^ scale) * 2 ^ scale)

/-- The number nearest to `digits * 10 ^ exponent`, with the given sign. -/
def ofDecimal (negative : Bool) (digits : Nat) (exponent : Int) : Binary64 :=
  match exponent with
  | .ofNat n => round negative (digits * 10 ^ n) 1
  | .negSucc n => round negative digits (10 ^ (n + 1))

/-- The number nearest to a whole one, unless that is past the finite numbers. -/
def ofInt? (n : Int) : Option Binary64 :=
  let x := round (n < 0) n.natAbs 1
  if x.isFinite then some x else none

/-- A whole number that orders as the number does, in units. -/
def key (x : Binary64) : Int :=
  if x.negative then -(x.units : Int) else x.units

/-- The whole number that it is, if it is one. -/
def toInt? (x : Binary64) : Option Int :=
  if x.isFinite && x.units % 2 ^ (1074 : Nat) == 0 then some (x.key / 2 ^ (1074 : Nat)) else none

/-- Numeric equality: the zeros agree and a NaN equals nothing. -/
def same (x y : Binary64) : Bool :=
  !x.isNaN && !y.isNaN && x.key == y.key

def less (x y : Binary64) : Bool :=
  !x.isNaN && !y.isNaN && x.key < y.key

end Binary64

end

end Criteria
