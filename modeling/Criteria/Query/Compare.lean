import Criteria.Query

/-!
# Criteria.Query.Compare

Comparing a value taken from a document with the value of a filter. Numbers compare with numbers
only, and a truth value is not a number.

* `Comparator.holds` relates the two first: incomparable, or known to be equal or not, or ordered as
  numbers. A comparator then accepts some of these relations.
* `Value.eq` to `Value.ge` are the comparisons by name. They bring the document's value to the kind
  of the filter's with `Value.coerce`, and then test it.
-/

namespace Criteria

/-- How a document's value stands to the value of a filter. -/
inductive Relation where
  | incomparable
  | unequal
  | equal
  | below
  | level
  | above
  deriving DecidableEq, Repr

namespace Relation

def ofEquality (b : Bool) : Relation :=
  if b then .equal else .unequal

def ofInts (candidate literal : Int) : Relation :=
  if candidate < literal then .below
  else if candidate = literal then .level
  else .above

/-- A NaN is unequal to everything. -/
def ofFloats (candidate literal : Binary64) : Relation :=
  if candidate.less literal then .below
  else if candidate.same literal then .level
  else if literal.less candidate then .above
  else .unequal

def ofWhole (candidate : Int) (literal : Binary64) : Relation :=
  (Binary64.ofInt? candidate).elim .incomparable fun x => .ofFloats x literal

end Relation

namespace Value

def relation (v : Value) (candidate : Json) : Relation :=
  match v, candidate with
  | .identifier s, .string t => .ofEquality (t == s)
  | .string s, .string t => .ofEquality (t == s)
  | .boolean a, .bool b => .ofEquality (b == a)
  | .integer n, .int m =>
    if int64Min ≤ m ∧ m ≤ int64Max then .ofInts m n else .incomparable
  | .float x, .float y => .ofFloats y x
  | .float x, .int m => .ofWhole m x
  | _, _ => .incomparable

/-- A document's value as one of the kind of `v`, if it can be one. -/
def coerce (v : Value) (candidate : Json) : Option Value :=
  match v, candidate with
  | .identifier _, .string t => some (.identifier t)
  | .string _, .string t => some (.string t)
  | .boolean _, .bool b => some (.boolean b)
  | .integer _, .int m => if int64Min ≤ m ∧ m ≤ int64Max then some (.integer m) else none
  | .float _, .float y => some (.float y)
  | .float _, .int m => (Binary64.ofInt? m).map .float
  | _, _ => none

def isNumber : Value → Bool
  | .integer _ | .float _ => true
  | _ => false

/-- Only numbers are in order. -/
def less : Value → Value → Bool
  | .integer a, .integer b => a < b
  | .float a, .float b => a.less b
  | _, _ => false

def atMost (u v : Value) : Bool :=
  u.less v || (u.isNumber && u.same v)

def eq (v : Value) (candidate : Json) : Bool :=
  (v.coerce candidate).any fun u => u.same v

def ne (v : Value) (candidate : Json) : Bool :=
  (v.coerce candidate).any fun u => !u.same v

def lt (v : Value) (candidate : Json) : Bool :=
  (v.coerce candidate).any fun u => u.less v

def le (v : Value) (candidate : Json) : Bool :=
  (v.coerce candidate).any fun u => u.atMost v

def gt (v : Value) (candidate : Json) : Bool :=
  (v.coerce candidate).any fun u => v.less u

def ge (v : Value) (candidate : Json) : Bool :=
  (v.coerce candidate).any fun u => v.atMost u

def named? : String → Option (Value → Json → Bool)
  | "eq" => some eq
  | "ne" => some ne
  | "le" => some le
  | "ge" => some ge
  | "lt" => some lt
  | "gt" => some gt
  | _ => none

end Value

def Comparator.accepts : Comparator → Relation → Bool
  | .eq, .equal | .eq, .level => true
  | .ne, .unequal | .ne, .below | .ne, .above => true
  | .lt, .below => true
  | .gt, .above => true
  | .le, .below | .le, .level => true
  | .ge, .above | .ge, .level => true
  | _, _ => false

/-- Reads as `candidate op literal`. -/
def Comparator.holds (op : Comparator) (literal : Value) (candidate : Json) : Bool :=
  op.accepts (literal.relation candidate)

/-- Compares a document's value with that of a filter; no other query has one. -/
def Query.compare? (q : Query) (candidate : Json) : Option Bool :=
  match q with
  | .filter op _ value => .some (op.holds value candidate)
  | _ => .none

end Criteria
