import Mathlib
import Criteria.Query

/-!
# Criteria.Proofs.Query.Encoding

The JSON form of a query tells it apart from all others.

* `Json.Same`: equality of JSON values. The members of an object stand in no order.
* `Query.ofJson?`: reads the JSON form of a query, whatever the order of its members.
* `Query.ofJson?_iff`: it reads the values that are equal to the JSON form of a query and no others.
* `toJson_faithful`: queries with equal JSON forms are the same.
-/

namespace Criteria

/-! ## Equality of JSON values -/

namespace Json

/-- Equality of JSON values. Objects agree if they have the same value under each name. Whole numbers
and floats differ, and so do the zeros. -/
inductive Same : Json → Json → Prop where
  | null : Same .null .null
  | bool {b : Bool} : Same (.bool b) (.bool b)
  | int {n : ℤ} : Same (.int n) (.int n)
  | float {x : Binary64} : Same (.float x) (.float x)
  | string {s : String} : Same (.string s) (.string s)
  | array {xs ys : List Json} (h : List.Forall₂ Same xs ys) : Same (.array xs) (.array ys)
  | object {xs ys : List (String × Json)}
      (h : ∀ name : String, Option.Rel Same (xs.lookup name) (ys.lookup name)) :
      Same (.object xs) (.object ys)

/-- Whether an object has no other names than these. -/
def hasOnly (names : List String) (members : List (String × Json)) : Bool :=
  members.all fun m => names.contains m.1

namespace Same

mutual

theorem refl : ∀ j : Json, j.Same j
  | .null => .null
  | .bool _ => .bool
  | .int _ => .int
  | .float _ => .float
  | .string _ => .string
  | .array items => .array (forall₂_refl items)
  | .object members => .object (lookup_refl members)

theorem forall₂_refl : ∀ js : List Json, List.Forall₂ Same js js
  | [] => .nil
  | j :: js => .cons (refl j) (forall₂_refl js)

theorem lookup_refl : ∀ (ms : List (String × Json)) (name : String),
    Option.Rel Same (ms.lookup name) (ms.lookup name)
  | [], _ => .none
  | (key, j) :: ms, name => by
    rw [List.lookup_cons]
    split
    · exact .some (refl j)
    · exact lookup_refl ms name

end

variable {j k : Json} {ms fs : List (String × Json)}

theorem string_iff {s : String} : j.Same (.string s) ↔ j = .string s := by
  refine ⟨fun h => ?_, fun h => h ▸ .string⟩
  cases h
  rfl

theorem mem_of_lookup {name : String} (h : ms.lookup name = some j) : (name, j) ∈ ms := by
  obtain ⟨front, rest, rfl, -⟩ := List.lookup_eq_some_iff.mp h
  simp

theorem lookup_ne_none {m : String × Json} (h : m ∈ ms) : ms.lookup m.1 ≠ none := by
  intro hnone
  simpa using List.lookup_eq_none_iff.mp hnone m h

theorem lookup_of_mem (hnodup : (fs.map Prod.fst).Nodup) {f : String × Json} (h : f ∈ fs) :
    fs.lookup f.1 = some f.2 := by
  induction fs with
  | nil => cases h
  | cons g gs ih =>
    rw [List.map_cons, List.nodup_cons] at hnodup
    rcases List.mem_cons.mp h with rfl | h
    · rw [List.lookup_cons, beq_self_eq_true]
    · have hne : f.1 ≠ g.1 := by
        intro heq
        exact hnodup.1 (List.mem_map.mpr ⟨f, h, heq⟩)
      rw [List.lookup_cons, beq_false_of_ne hne]
      exact ih hnodup.2 h

/-- An object is equal to one with distinct names if it has these names and no others, with equal
values. -/
theorem object_iff (hnodup : (fs.map Prod.fst).Nodup) :
    j.Same (.object fs) ↔ ∃ ms, j = .object ms ∧ hasOnly (fs.map Prod.fst) ms ∧
      ∀ f ∈ fs, ∃ k, ms.lookup f.1 = some k ∧ k.Same f.2 := by
  simp only [hasOnly, List.all_eq_true, List.contains_iff_mem]
  constructor
  · intro h
    cases h with
    | @object ms _ h =>
      refine ⟨ms, rfl, ?_, ?_⟩
      · intro m hm
        have hrel := h m.1
        cases hlookup : fs.lookup m.1 with
        | none =>
          rw [hlookup] at hrel
          cases hms : ms.lookup m.1 with
          | none => exact absurd hms (lookup_ne_none hm)
          | some k => rw [hms] at hrel; cases hrel
        | some k => exact List.mem_map.mpr ⟨_, mem_of_lookup hlookup, rfl⟩
      · intro f hf
        have hrel := h f.1
        rw [lookup_of_mem hnodup hf] at hrel
        cases hms : ms.lookup f.1 with
        | none => rw [hms] at hrel; cases hrel
        | some k =>
          rw [hms] at hrel
          cases hrel with
          | some hs => exact ⟨k, rfl, hs⟩
  · rintro ⟨ms, rfl, honly, hall⟩
    refine .object ?_
    intro name
    cases hlookup : fs.lookup name with
    | none =>
      have hms : ms.lookup name = none := by
        rw [List.lookup_eq_none_iff] at hlookup ⊢
        intro m hm
        obtain ⟨f, hf, heq⟩ := List.mem_map.mp (honly m hm)
        exact heq ▸ hlookup f hf
      rw [hms]
      exact .none
    | some k =>
      obtain ⟨j, hj, hs⟩ := hall _ (mem_of_lookup hlookup)
      rw [hj]
      exact .some hs

end Same

end Json

/-! ## Reading -/

/-- Reads the JSON form of a value. -/
def Value.ofJson? : Json → Option Value
  | .object ms =>
    if Json.hasOnly ["type", "value"] ms then
      match ms.lookup "type", ms.lookup "value" with
      | some (.string "identifier"), some (.string path) => some (.identifier path)
      | some (.string "string"), some (.string s) => some (.string s)
      | some (.string "boolean"), some (.bool b) => some (.boolean b)
      | some (.string "integer"), some (.int n) => some (.integer n)
      | some (.string "float"), some (.float x) => some (.float x)
      | _, _ => none
    else none
  | _ => none

namespace Query

def filterOfJson? : Json → Option Query
  | .object ms =>
    if Json.hasOnly ["op", "field", "value"] ms then
      match ms.lookup "op", ms.lookup "field", (ms.lookup "value").bind Value.ofJson? with
      | some (.string word), some (.string field), some v =>
        (Comparator.ofWord? word).map fun op => .filter op field v
      | _, _, _ => Option.none
    else Option.none
  | _ => Option.none

def sortOfJson? : Json → Option Query
  | .object ms =>
    if Json.hasOnly ["direction", "value"] ms then
      match ms.lookup "direction", (ms.lookup "value").bind Value.ofJson? with
      | some (.string sign), some v => (Direction.ofSign? sign).map fun d => .sort d v
      | _, _ => Option.none
    else Option.none
  | _ => Option.none

mutual

/-- Reads the JSON form of a query: an object without members, or with a single one that says what
the query is. -/
def ofJson? : Json → Option Query
  | .object [] => some .none
  | .object (("and", .array items) :: ms) =>
    if Json.hasOnly ["and"] ms then (ofJsons? items).map (.group .and) else Option.none
  | .object (("or", .array items) :: ms) =>
    if Json.hasOnly ["or"] ms then (ofJsons? items).map (.group .or) else Option.none
  | .object (("filter", j) :: ms) => if Json.hasOnly ["filter"] ms then filterOfJson? j else Option.none
  | .object (("sort", j) :: ms) => if Json.hasOnly ["sort"] ms then sortOfJson? j else Option.none
  | _ => Option.none

def ofJsons? : List Json → Option (List Query)
  | [] => some []
  | j :: js =>
    match ofJson? j, ofJsons? js with
    | some q, some qs => some (q :: qs)
    | _, _ => Option.none

end

end Query

/-! ## What is read -/

section

variable {j : Json}

theorem Value.same_operand {v : Value} : j.Same v.operand ↔ j = v.operand := by
  constructor
  · intro h
    cases v <;> cases h <;> rfl
  · rintro rfl
    exact .refl _

theorem Value.ofJson?_iff {v : Value} : ofJson? j = some v ↔ j.Same v.toJson := by
  rw [toJson, Json.Same.object_iff (by simp)]
  simp only [List.map_cons, List.map_nil, List.forall_mem_cons, List.not_mem_nil,
    IsEmpty.forall_iff, implies_true, and_true, Json.Same.string_iff, same_operand,
    exists_eq_right]
  constructor
  · intro h
    unfold ofJson? at h
    split at h
    · rename_i ms
      split at h
      · rename_i honly
        refine ⟨ms, rfl, honly, ?_⟩
        split at h
        all_goals cases h
        all_goals rename_i htype hvalue
        all_goals exact ⟨htype, hvalue⟩
      · cases h
    · cases h
  · rintro ⟨ms, rfl, honly, htype, hvalue⟩
    rw [ofJson?, if_pos honly, htype, hvalue]
    cases v <;> rfl

namespace Query

variable {q : Query}

theorem filterOfJson?_iff : filterOfJson? j = some q ↔
    ∃ op field v, q = .filter op field v ∧ j.Same (.object
      [("op", .string op.word), ("field", .string field), ("value", v.toJson)]) := by
  constructor
  · intro h
    unfold filterOfJson? at h
    split at h
    · split at h
      · rename_i ms honly
        split at h
        · rename_i word field v hop hfield hvalue
          obtain ⟨op, hword, rfl⟩ := Option.map_eq_some_iff.mp h
          obtain ⟨k, hk, hv⟩ := Option.bind_eq_some_iff.mp hvalue
          have hw : op.word = word := by simpa using List.find?_some hword
          refine ⟨op, field, v, rfl, (Json.Same.object_iff (by simp)).mpr ⟨ms, rfl, honly, ?_⟩⟩
          simp [hop, hfield, hk, hw, Json.Same.string_iff, Value.ofJson?_iff.mp hv]
        · cases h
      · cases h
    · cases h
  · rintro ⟨op, field, v, rfl, h⟩
    obtain ⟨ms, rfl, honly, hms⟩ := (Json.Same.object_iff (by simp)).mp h
    simp only [List.forall_mem_cons, Json.Same.string_iff, exists_eq_right] at hms
    obtain ⟨hop, hfield, ⟨k, hk, hv⟩, -⟩ := hms
    have hvalue : (ms.lookup "value").bind Value.ofJson? = some v := by
      rw [hk, Option.bind_some, Value.ofJson?_iff.mpr hv]
    have hword : Comparator.ofWord? op.word = some op := by cases op <;> decide
    simp only [List.map_cons, List.map_nil] at honly
    rw [filterOfJson?, if_pos honly, hop, hfield, hvalue]
    simp only [hword, Option.map_some]

theorem sortOfJson?_iff : sortOfJson? j = some q ↔
    ∃ d v, q = .sort d v ∧
      j.Same (.object [("direction", .string d.sign), ("value", v.toJson)]) := by
  constructor
  · intro h
    unfold sortOfJson? at h
    split at h
    · split at h
      · rename_i ms honly
        split at h
        · rename_i sign v hdirection hvalue
          obtain ⟨d, hsign, rfl⟩ := Option.map_eq_some_iff.mp h
          obtain ⟨k, hk, hv⟩ := Option.bind_eq_some_iff.mp hvalue
          have hs : d.sign = sign := by simpa using List.find?_some hsign
          refine ⟨d, v, rfl, (Json.Same.object_iff (by simp)).mpr ⟨ms, rfl, honly, ?_⟩⟩
          simp [hdirection, hk, hs, Json.Same.string_iff, Value.ofJson?_iff.mp hv]
        · cases h
      · cases h
    · cases h
  · rintro ⟨d, v, rfl, h⟩
    obtain ⟨ms, rfl, honly, hms⟩ := (Json.Same.object_iff (by simp)).mp h
    simp only [List.forall_mem_cons, Json.Same.string_iff, exists_eq_right] at hms
    obtain ⟨hdirection, ⟨k, hk, hv⟩, -⟩ := hms
    have hvalue : (ms.lookup "value").bind Value.ofJson? = some v := by
      rw [hk, Option.bind_some, Value.ofJson?_iff.mpr hv]
    have hsign : Direction.ofSign? d.sign = some d := by cases d <;> decide
    simp only [List.map_cons, List.map_nil] at honly
    rw [sortOfJson?, if_pos honly, hdirection, hvalue]
    simp only [hsign, Option.map_some]

/-- An object equal to one with a single member starts with that member. -/
theorem single_iff {name : String} {k : Json} : j.Same (.object [(name, k)]) ↔
    ∃ i ms, j = .object ((name, i) :: ms) ∧ Json.hasOnly [name] ms ∧ i.Same k := by
  rw [Json.Same.object_iff (by simp)]
  simp only [List.map_cons, List.map_nil, List.forall_mem_singleton]
  constructor
  · rintro ⟨ms, rfl, honly, i, hi, hs⟩
    cases ms with
    | nil => cases hi
    | cons m ms =>
      obtain ⟨key, j⟩ := m
      simp only [Json.hasOnly, List.all_cons, Bool.and_eq_true, List.contains_iff_mem,
        List.mem_singleton] at honly
      obtain ⟨rfl, honly⟩ := honly
      rw [List.lookup_cons, beq_self_eq_true] at hi
      cases hi
      exact ⟨i, ms, rfl, honly, hs⟩
  · rintro ⟨i, ms, rfl, honly, hs⟩
    refine ⟨_, rfl, ?_, i, ?_, hs⟩
    · simpa [Json.hasOnly] using honly
    · rw [List.lookup_cons, beq_self_eq_true]

mutual

/-- What is read is equal to the JSON form of the query. -/
theorem same_of_ofJson? {j : Json} {q : Query} (h : ofJson? j = some q) : j.Same q.toJson := by
  unfold ofJson? at h
  split at h
  · cases h
    exact .refl _
  · split at h
    · rename_i honly
      obtain ⟨qs, hqs, rfl⟩ := Option.map_eq_some_iff.mp h
      exact single_iff.mpr ⟨_, _, rfl, honly, .array (same_of_ofJsons? hqs)⟩
    · cases h
  · split at h
    · rename_i honly
      obtain ⟨qs, hqs, rfl⟩ := Option.map_eq_some_iff.mp h
      exact single_iff.mpr ⟨_, _, rfl, honly, .array (same_of_ofJsons? hqs)⟩
    · cases h
  · split at h
    · rename_i honly
      obtain ⟨op, field, v, rfl, hs⟩ := filterOfJson?_iff.mp h
      exact single_iff.mpr ⟨_, _, rfl, honly, hs⟩
    · cases h
  · split at h
    · rename_i honly
      obtain ⟨d, v, rfl, hs⟩ := sortOfJson?_iff.mp h
      exact single_iff.mpr ⟨_, _, rfl, honly, hs⟩
    · cases h
  · cases h
termination_by sizeOf j

theorem same_of_ofJsons? {js : List Json} {qs : List Query} (h : ofJsons? js = some qs) :
    List.Forall₂ Json.Same js (toJsons qs) := by
  unfold ofJsons? at h
  split at h
  · cases h
    exact .nil
  · split at h
    · rename_i hq hqs
      cases h
      exact .cons (same_of_ofJson? hq) (same_of_ofJsons? hqs)
    · cases h
termination_by sizeOf js

end

mutual

/-- What is equal to the JSON form of a query is read as it. -/
theorem ofJson?_of_same : ∀ (q : Query) {j : Json}, j.Same q.toJson → ofJson? j = some q
  | .group c items, j, h => by
    obtain ⟨i, ms, rfl, honly, hi⟩ := single_iff.mp h
    cases hi with
    | array hitems =>
      have hread := ofJsons?_of_same items hitems
      cases c <;> rw [Combinator.word] at honly ⊢ <;>
        rw [ofJson?, if_pos honly, hread, Option.map_some]
  | .filter op field v, j, h => by
    obtain ⟨i, ms, rfl, honly, hi⟩ := single_iff.mp h
    rw [ofJson?, if_pos honly]
    exact filterOfJson?_iff.mpr ⟨_, _, _, rfl, hi⟩
  | .sort d v, j, h => by
    obtain ⟨i, ms, rfl, honly, hi⟩ := single_iff.mp h
    rw [ofJson?, if_pos honly]
    exact sortOfJson?_iff.mpr ⟨_, _, rfl, hi⟩
  | .none, j, h => by
    obtain ⟨ms, rfl, honly, -⟩ := (Json.Same.object_iff (by simp)).mp h
    cases ms with
    | nil => rfl
    | cons m ms => simp [Json.hasOnly] at honly

theorem ofJsons?_of_same : ∀ (qs : List Query) {js : List Json},
    List.Forall₂ Json.Same js (toJsons qs) → ofJsons? js = some qs
  | [], js, h => by
    cases h
    rfl
  | q :: qs, js, h => by
    cases h with
    | cons hq hqs => rw [ofJsons?, ofJson?_of_same q hq, ofJsons?_of_same qs hqs]

end

theorem ofJson?_iff : ofJson? j = some q ↔ j.Same q.toJson :=
  ⟨same_of_ofJson?, ofJson?_of_same q⟩

end Query

end

/-- Queries have equal JSON forms only if they are the same, and each can be read back: from what is
equal to its JSON form and from nothing else. -/
theorem toJson_faithful (q : Query) :
    (∀ r : Query, q.toJson.Same r.toJson ↔ q = r) ∧
    ∀ j : Json, Query.ofJson? j = some q ↔ j.Same q.toJson := by
  refine ⟨?_, fun j => Query.ofJson?_iff⟩
  intro r
  constructor
  · intro h
    have hread := Query.ofJson?_iff.mpr (Json.Same.refl q.toJson)
    rw [Query.ofJson?_iff.mpr h] at hread
    cases hread
    rfl
  · rintro rfl
    exact .refl _

end Criteria
