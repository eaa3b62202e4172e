import Mathlib
import Criteria.Proofs.Query.Compare

/-!
# Criteria.Proofs.Query.Comparable

The six comparisons one by one, and what they say of values of each kind.

* `Value.Reads`: which values compare, and as what the document's value counts.
* `comparison_cases`: no comparison holds of values that do not compare. Those that do are equal or
  not. Numbers are also in order, unless there is a NaN among them.
-/

namespace Criteria

open Binary64

namespace Value

/-! ## What compares -/

def isNaN : Value → Bool
  | .float x => x.isNaN
  | _ => false

/-- The place of a number in the order of all numbers. -/
def number? : Value → Option Extended
  | .integer n => some (wholeNumber n)
  | .float x => if x.isNaN then none else some x.value
  | _ => none

/-- A document's value counts as a value of the query's kind. Texts go with identifiers and strings,
whole numbers of 64 bits with integers. All numbers go with floats: a whole one as the number
nearest to it, unless it is past the finite numbers. -/
inductive Reads : Value → Json → Value → Prop where
  | identifier {path t : String} : Reads (.identifier path) (.string t) (.identifier t)
  | string {s t : String} : Reads (.string s) (.string t) (.string t)
  | boolean {a b : Bool} : Reads (.boolean a) (.bool b) (.boolean b)
  | integer {n m : ℤ} (h : -2 ^ 63 ≤ m ∧ m ≤ 2 ^ 63 - 1) : Reads (.integer n) (.int m) (.integer m)
  | float {x y : Binary64} : Reads (.float x) (.float y) (.float y)
  | whole {x y : Binary64} {m : ℤ} (hm : |m| < 2 ^ 1024 - 2 ^ 970) (hy : y.Nearest m)
      (hs : y.negative = decide (m < 0)) : Reads (.float x) (.int m) (.float y)

def Comparable (v : Value) (candidate : Json) : Prop :=
  ∃ u, v.Reads candidate u

end Value

/-! ## Relations -/

section

variable {x y : Binary64}

theorem accepts_ofEquality (op : Comparator) (b : Bool) :
    op.accepts (.ofEquality b) = match op with
      | .eq => b
      | .ne => !b
      | _ => false := by
  cases b <;> cases op <;> rfl

theorem accepts_ofInts (op : Comparator) (m n : ℤ) :
    op.accepts (.ofInts m n) ↔ op.Relates m n := by
  rw [Relation.ofInts]
  rcases lt_trichotomy m n with h | h | h
  · rw [if_pos h]
    cases op <;> simp [Comparator.accepts, Comparator.Relates, h.le, h, h.ne]
  · rw [if_neg h.not_lt, if_pos h]
    cases op <;> simp [Comparator.accepts, Comparator.Relates, h]
  · rw [if_neg h.not_gt, if_neg h.ne']
    cases op <;> simp [Comparator.accepts, Comparator.Relates, h.le, h, h.ne']

theorem ofFloats_nan (h : x.isNaN ∨ y.isNaN) : Relation.ofFloats y x = .unequal := by
  have hless : y.less x = false ∧ x.less y = false ∧ y.same x = false := by
    rcases h with h | h <;> simp [less, same, h]
  simp [Relation.ofFloats, hless]

theorem accepts_unequal (op : Comparator) : op.accepts .unequal ↔ op = .ne := by
  cases op <;> decide

end

namespace Value

variable {u v : Value} {c : Json}

theorem negative_ofInt {n : ℤ} {y : Binary64} (h : ofInt? n = some y) :
    y.negative = decide (n < 0) := by
  simp only [ofInt?] at h
  split at h
  · cases h
    exact negative_round _ _ _
  · cases h

theorem reads_iff : v.Reads c u ↔ v.coerce c = some u := by
  constructor
  · intro h
    cases h with
    | identifier | string | boolean | float => rfl
    | integer h => exact if_pos h
    | @whole x y m hm hy hs =>
      obtain ⟨z, hz⟩ := Option.isSome_iff_exists.mp (isSome_ofInt.mpr hm)
      rw [hy.eq (nearest_ofInt hz) (hs.trans (negative_ofInt hz).symm)]
      simp [coerce, hz]
  · intro h
    unfold coerce at h
    split at h
    · cases h; exact .identifier
    · cases h; exact .string
    · cases h; exact .boolean
    · split at h
      · rename_i hm
        cases h
        exact .integer hm
      · cases h
    · cases h; exact .float
    · obtain ⟨y, hy, rfl⟩ := Option.map_eq_some_iff.mp h
      exact .whole (isSome_ofInt.mp (hy ▸ rfl)) (nearest_ofInt hy) (negative_ofInt hy)
    · cases h

end Value

/-! ## Comparators -/

/-- What a comparator says of a document's value once it is of the kind of the query's value. -/
def Comparator.test : Comparator → Value → Value → Bool
  | .eq, u, v => u.same v
  | .ne, u, v => !u.same v
  | .lt, u, v => u.less v
  | .le, u, v => u.atMost v
  | .gt, u, v => v.less u
  | .ge, u, v => v.atMost u

theorem named_word (op : Comparator) :
    Value.named? op.word = some fun v c => (v.coerce c).any fun u => op.test u v := by
  cases op <;> rfl

theorem test_integer (op : Comparator) (m n : ℤ) :
    op.test (.integer m) (.integer n) ↔ op.Relates m n := by
  cases op <;>
    simp [Comparator.test, Comparator.Relates, Value.same, Value.less, Value.atMost,
      Value.isNumber, le_iff_lt_or_eq, @eq_comm _ n]

theorem test_float {x y : Binary64} (hx : x.isNaN = false) (hy : y.isNaN = false)
    (op : Comparator) : op.test (.float y) (.float x) ↔ op.Relates y.value x.value := by
  have hless := less_iff hy hx
  have hsame := same_iff hy hx
  cases op <;>
    simp [Comparator.test, Comparator.Relates, Value.same, Value.less, Value.atMost,
      Value.isNumber, hless, hsame, less_iff hx hy, same_iff hx hy, le_iff_lt_or_eq,
      ← Bool.not_eq_true]

theorem test_nan {x y : Binary64} (h : y.isNaN ∨ x.isNaN) (op : Comparator) :
    op.test (.float y) (.float x) ↔ op = .ne := by
  rcases h with h | h <;> cases op <;>
    simp [Comparator.test, Value.same, Value.less, Value.atMost, same, less, h]

theorem accepts_integers (op : Comparator) (m n : ℤ) :
    op.accepts (.ofInts m n) = op.test (.integer m) (.integer n) := by
  rw [Bool.eq_iff_iff, accepts_ofInts, test_integer]

theorem accepts_floats (op : Comparator) (x y : Binary64) :
    op.accepts (.ofFloats y x) = op.test (.float y) (.float x) := by
  rw [Bool.eq_iff_iff]
  by_cases h : y.isNaN ∨ x.isNaN
  · rw [ofFloats_nan h.symm, accepts_unequal, test_nan h]
  · rw [not_or, Bool.not_eq_true, Bool.not_eq_true] at h
    rw [accepts_ofFloats h.2 h.1, test_float h.2 h.1]

/-- Relating values and accepting the relation is testing the value that the document's counts as. -/
theorem holds_eq_any (op : Comparator) (v : Value) (c : Json) :
    op.holds v c = (v.coerce c).any fun u => op.test u v := by
  unfold Comparator.holds Value.relation
  split
  · rw [accepts_ofEquality]
    cases op <;> rfl
  · rw [accepts_ofEquality]
    cases op <;> rfl
  · rw [accepts_ofEquality]
    cases op <;> rfl
  · rename_i n m
    by_cases hm : int64Min ≤ m ∧ m ≤ int64Max
    · rw [Value.coerce, if_pos hm, if_pos hm, accepts_integers]
      rfl
    · rw [Value.coerce, if_neg hm, if_neg hm]
      cases op <;> rfl
  · exact accepts_floats op _ _
  · rename_i x m
    rw [Value.coerce, Relation.ofWhole]
    cases ofInt? m with
    | none => cases op <;> rfl
    | some y => exact accepts_floats op x y
  · have hnone : v.coerce c = none := by
      unfold Value.coerce
      split <;> simp_all
    rw [hnone]
    cases op <;> rfl

theorem holds_of_reads {u v : Value} {c : Json} (h : v.Reads c u) (op : Comparator) :
    op.holds v c = op.test u v := by
  rw [holds_eq_any, Value.reads_iff.mp h, Option.any_some]

/-! ## Values that are equal or not, and numbers -/

namespace Value.Reads

variable {u v : Value} {c : Json}

theorem test_of_not_number (h : v.Reads c u) (hv : v.isNumber = false) (op : Comparator) :
    op.test u v = match op with
      | .eq => decide (u = v)
      | .ne => decide (u ≠ v)
      | _ => false := by
  cases h with
  | identifier | string | boolean =>
    cases op <;> simp [Comparator.test, same, less, atMost, isNumber, Bool.beq_eq_decide_eq]
  | integer | float | whole => cases hv

theorem exists_floats (h : v.Reads c u) (hn : u.isNaN ∨ v.isNaN) :
    ∃ x y, v = .float x ∧ u = .float y ∧ (y.isNaN ∨ x.isNaN) := by
  cases h with
  | identifier | string | boolean | integer => simp [isNaN] at hn
  | float | whole => exact ⟨_, _, rfl, rfl, hn⟩

end Value.Reads

theorem relates_wholeNumber (op : Comparator) (m n : ℤ) :
    op.Relates (wholeNumber m) (wholeNumber n) ↔ op.Relates m n := by
  cases op <;> simp [Comparator.Relates, wholeNumber]

/-- Numbers compare as their places in the order. -/
theorem Value.Reads.exists_number {u v : Value} {c : Json} (h : v.Reads c u) (hv : v.isNumber)
    (hun : u.isNaN = false) (hvn : v.isNaN = false) :
    ∃ a b, u.number? = some a ∧ v.number? = some b ∧
      ∀ op : Comparator, op.holds v c ↔ op.Relates a b := by
  have htest := holds_of_reads h
  have hfloat : ∀ x y : Binary64, u = .float y → v = .float x →
      ∃ a b, u.number? = some a ∧ v.number? = some b ∧
        ∀ op : Comparator, op.holds v c ↔ op.Relates a b := by
    rintro x y rfl rfl
    have hy : y.isNaN = false := hun
    have hx : x.isNaN = false := hvn
    refine ⟨y.value, x.value, by simp [number?, hy], by simp [number?, hx], ?_⟩
    intro op
    rw [htest, test_float hx hy]
  cases h with
  | identifier | string | boolean => cases hv
  | @integer n m h =>
    refine ⟨_, _, rfl, rfl, ?_⟩
    intro op
    rw [htest, test_integer, relates_wholeNumber]
  | float => exact hfloat _ _ rfl rfl
  | whole => exact hfloat _ _ rfl rfl

/-- Of three comparators one holds, in every order. -/
theorem existsUnique_relates {α : Type} [LinearOrder α] (a b : α) :
    ∃! op : Comparator, op ∈ [Comparator.lt, .eq, .gt] ∧ op.Relates a b := by
  rcases lt_trichotomy a b with h | h | h
  · refine ⟨.lt, ⟨by simp, h⟩, ?_⟩
    rintro op ⟨hop, hr⟩
    fin_cases hop
    · rfl
    · exact absurd hr h.ne
    · exact absurd hr h.not_gt
  · refine ⟨.eq, ⟨by simp, h⟩, ?_⟩
    rintro op ⟨hop, hr⟩
    fin_cases hop
    · exact absurd hr h.not_lt
    · rfl
    · exact absurd hr h.not_gt
  · refine ⟨.gt, ⟨by simp, h⟩, ?_⟩
    rintro op ⟨hop, hr⟩
    fin_cases hop
    · exact absurd hr h.not_gt
    · exact absurd hr h.ne'
    · rfl

/-- What the comparisons say, by their comparators as by their words. None holds of values that do
not compare, and only there are `eq` and `ne` both false. Texts and truth values are equal or not.
Numbers are below, equal or above, as their places in the order are, and of a NaN only `ne` holds. -/
theorem comparison_cases (field : String) (v : Value) (c : Json) :
    (∀ op : Comparator, (Query.filter op field v).compare? c = some (op.holds v c) ∧
      (Value.named? op.word).map (fun m => m v c) = some (op.holds v c)) ∧
    (¬ v.Comparable c → ∀ op : Comparator, op.holds v c = false) ∧
    (∀ u, v.Reads c u → v.isNumber = false →
      (Comparator.eq.holds v c ↔ u = v) ∧ (Comparator.ne.holds v c ↔ u ≠ v) ∧
      ∀ op ∈ [Comparator.lt, .le, .gt, .ge], op.holds v c = false) ∧
    (∀ u, v.Reads c u → v.isNumber → u.isNaN = false → v.isNaN = false →
      (∃ a b, u.number? = some a ∧ v.number? = some b ∧
        ∀ op : Comparator, op.holds v c ↔ op.Relates a b) ∧
      (∃! op : Comparator, op ∈ [Comparator.lt, .eq, .gt] ∧ op.holds v c) ∧
      Comparator.le.holds v c = (Comparator.lt.holds v c || Comparator.eq.holds v c) ∧
      Comparator.ge.holds v c = (Comparator.gt.holds v c || Comparator.eq.holds v c) ∧
      Comparator.ne.holds v c = !Comparator.eq.holds v c) ∧
    (∀ u, v.Reads c u → u.isNaN ∨ v.isNaN → ∀ op : Comparator, op.holds v c ↔ op = .ne) ∧
    ((Comparator.eq.holds v c = false ∧ Comparator.ne.holds v c = false) ↔ ¬ v.Comparable c) := by
  have hnone : ¬ v.Comparable c → ∀ op : Comparator, op.holds v c = false := by
    intro h op
    have hcoerce : v.coerce c = none :=
      Option.eq_none_iff_forall_ne_some.mpr fun u hu => h ⟨u, Value.reads_iff.mpr hu⟩
    rw [holds_eq_any, hcoerce, Option.any_none]
  refine ⟨?_, hnone, ?_, ?_, ?_, ?_⟩
  · intro op
    refine ⟨rfl, ?_⟩
    rw [named_word, Option.map_some, holds_eq_any]
  · intro u h hv
    simp only [holds_of_reads h, h.test_of_not_number hv]
    simp
  · intro u h hv hun hvn
    obtain ⟨a, b, ha, hb, hholds⟩ := h.exists_number hv hun hvn
    refine ⟨⟨a, b, ha, hb, hholds⟩, ?_, ?_, ?_, ?_⟩
    · simpa only [hholds] using existsUnique_relates a b
    · rw [Bool.eq_iff_iff, Bool.or_eq_true, hholds, hholds, hholds]
      exact le_iff_lt_or_eq
    · rw [Bool.eq_iff_iff, Bool.or_eq_true, hholds, hholds, hholds]
      exact le_iff_lt_or_eq.trans (or_congr_right eq_comm)
    · rw [Bool.eq_iff_iff, Bool.not_eq_true', ← Bool.not_eq_true, hholds, hholds]
      rfl
  · intro u h hn op
    obtain ⟨x, y, rfl, rfl, hxy⟩ := h.exists_floats hn
    rw [holds_of_reads h, test_nan hxy]
  · refine ⟨?_, fun h => ⟨hnone h _, hnone h _⟩⟩
    rintro ⟨heq, hne⟩ ⟨u, h⟩
    rw [holds_of_reads h] at heq hne
    simp_all [Comparator.test]

end Criteria
