import Mathlib
import Criteria.Command.Run
import Criteria.Proofs.Command.Source
import Criteria.Proofs.Json.Written
import Criteria.Proofs.Query.RoundTrip

/-!
# Criteria.Proofs.Report.Dumped

What becomes of an envelope in the library that it is handed to before it is written.

* `Dump.Faithful`: what is relied on. No value is changed, and none is refused that is not nested
  too deeply. `Dump.faithful_limited`: the library of the program keeps to it.
* `Json.Finite` and `Json.depth` of everything that a command reports.
* `Dump.Faithful.dumped_eq`: an envelope comes out as it went in if its data do.
-/

namespace Criteria

theorem mapM_eq_self {α ε : Type} {f : α → Except ε α} {as : List α} (h : ∀ a ∈ as, f a = .ok a) :
    as.mapM f = .ok as := by
  induction as with
  | nil => rfl
  | cons a as ih =>
    obtain ⟨ha, has⟩ := List.forall_mem_cons.mp h
    rw [List.mapM_cons, ha, ih has]
    rfl

namespace Json

/-! ## Depth -/

theorem depths_le_iff {items : List Json} {n : Nat} :
    depths items ≤ n ↔ ∀ j ∈ items, j.depth ≤ n := by
  induction items with
  | nil => simp [depths]
  | cons j js ih => simp [depths, ih]

theorem memberDepths_le_iff {members : List (String × Json)} {n : Nat} :
    memberDepths members ≤ n ↔ ∀ m ∈ members, m.2.depth ≤ n := by
  induction members with
  | nil => simp [memberDepths]
  | cons m ms ih => simp [memberDepths, ih]

theorem depth_array_le {items : List Json} {n : Nat} (h : ∀ j ∈ items, j.depth ≤ n) :
    (array items).depth ≤ n + 1 := by
  simpa [depth] using depths_le_iff.mpr h

theorem depth_object_le {members : List (String × Json)} {n : Nat}
    (h : ∀ m ∈ members, m.2.depth ≤ n) : (object members).depth ≤ n + 1 := by
  simpa [depth] using memberDepths_le_iff.mpr h

theorem depth_strings_le (ss : List String) : (strings ss).depth ≤ 2 := by
  refine depth_array_le (List.forall_mem_map.mpr ?_)
  intro s _
  simp [depth]

/-! ## Numbers that have a text -/

theorem Finite.ofOption {α : Type} {f : α → Json} (h : ∀ a, (f a).Finite) (o : Option α) :
    (Json.ofOption f o).Finite := by
  cases o with
  | none => exact .null
  | some a => exact h a

theorem finite_strings (ss : List String) : (Json.strings ss).Finite := by
  refine .array (List.forall_mem_map.mpr ?_)
  intro s _
  exact .string s

end Json

theorem Value.Canonical.finite_toJson {v : Value} (h : v.Canonical) : v.toJson.Finite := by
  have hoperand : v.operand.Finite := by
    cases v with
    | identifier path => exact .string path
    | string s => exact .string s
    | boolean b => exact .bool b
    | integer n => exact .int n
    | float x => exact .float h.1
  refine .object ?_
  simp [hoperand, Json.Finite.string]

theorem Query.toJsons_eq_map (qs : List Query) : toJsons qs = qs.map toJson := by
  induction qs with
  | nil => rfl
  | cons q qs ih => rw [toJsons, ih, List.map_cons]

theorem Query.Canonical.finite_toJson {q : Query} (h : q.Canonical) : q.toJson.Finite := by
  induction h with
  | @group c items _ ih =>
    have hitems : (Json.array (toJsons items)).Finite := by
      rw [toJsons_eq_map]
      exact .array (List.forall_mem_map.mpr ih)
    refine .object ?_
    simp [hitems]
  | @filter op field v _ hv =>
    have hfilter : (Json.object
        [("op", .string op.word), ("field", .string field), ("value", v.toJson)]).Finite := by
      refine .object ?_
      simp [hv.finite_toJson, Json.Finite.string]
    refine .object ?_
    simp [hfilter]

namespace Command

theorem finite_tokenData (t : Token) : (tokenData t).Finite := by
  refine .object ?_
  simp [Json.Finite.string, Json.Finite.int]

theorem depth_tokenData_le (t : Token) : (tokenData t).depth ≤ 2 := by
  refine Json.depth_object_le ?_
  simp [Json.depth]

theorem finite_versionData (host : Host) : (versionData host).Finite := by
  have hgrammar : (Json.object (grammar.map fun e => (e.1, Json.strings e.2))).Finite :=
    .object (List.forall_mem_map.mpr fun e _ => Json.finite_strings e.2)
  refine .object ?_
  simpa [Json.Finite.string] using hgrammar

theorem depth_versionData_le (host : Host) : (versionData host).depth ≤ 4 := by
  have hgrammar : (Json.object (grammar.map fun e => (e.1, Json.strings e.2))).depth ≤ 3 :=
    Json.depth_object_le (List.forall_mem_map.mpr fun e _ => Json.depth_strings_le e.2)
  refine Json.depth_object_le ?_
  simpa [Json.depth] using hgrammar

theorem finite_queryData {q : Query} (h : q.Canonical) : (queryData q).Finite := by
  refine .object ?_
  simp [h.finite_toJson, Json.Finite.string]

end Command

/-! ## Errors -/

/-- An error whose details are values that are not nested. -/
def ErrorInfo.Flat (e : ErrorInfo) : Prop :=
  ∀ details, e.details = some details → ∀ m ∈ details, m.2.Finite ∧ m.2.depth = 1

theorem ErrorInfo.Flat.finite_toJson {e : ErrorInfo} (h : e.Flat) : e.toJson.Finite := by
  have hhint : (Json.ofOption Json.string e.hint).Finite := .ofOption Json.Finite.string e.hint
  have hdetails : (Json.ofOption Json.object e.details).Finite := by
    cases hd : e.details with
    | none => exact .null
    | some details => exact .object fun m hm => (h details hd m hm).1
  refine .object ?_
  simp [hdetails, hhint, Json.Finite.string]

theorem ParseError.flat_details (e : ParseError) :
    ∀ m ∈ e.details, m.2.Finite ∧ m.2.depth = 1 := by
  cases e <;> simp [details, Json.Finite.string, Json.Finite.int, Json.depth]

theorem Failure.flat_parse (e : ParseError) : (parse e).info.Flat := by
  rintro details hdetails
  cases e <;> cases hdetails <;> exact ParseError.flat_details _

theorem Failure.OfSource.flat_info {e : Failure} (h : e.OfSource) : e.info.Flat := by
  intro details hdetails
  cases h with
  | undecodable => cases hdetails
  | @command e _ _ hpath =>
    obtain hnone | ⟨path, hpath⟩ := hpath
    · exact absurd (hnone.symm.trans hdetails) (by simp)
    · cases hpath.symm.trans hdetails
      simp [Json.Finite.string, Json.depth]

/-! ## The library -/

/-- What is relied on of the library: it changes no value, and refuses none that is not nested too
deeply. Its limit leaves room for lists of flat objects in the data. -/
structure Dump.Faithful (limit : Nat) (dump : Dump) : Prop where
  room : 4 ≤ limit
  same : ∀ {j k : Json}, j.Finite → dump j = .ok k → k = j
  shallow : ∀ {j : Json}, j.depth ≤ limit → ∃ k, dump j = .ok k

theorem Dump.faithful_limited {limit : Nat} (h : 4 ≤ limit) : (Dump.limited limit).Faithful limit where
  room := h
  same := by
    intro j k _ hk
    unfold limited at hk
    split at hk
    · cases hk; rfl
    · cases hk
  shallow := by
    intro j hj
    exact ⟨j, if_pos hj⟩

/-- The library of the program can be relied on. -/
theorem Command.Libraries.faithful_standard : standard.dump.Faithful dumpLimit :=
  Dump.faithful_limited (by decide)

namespace Dump.Faithful

variable {limit : Nat} {dump : Dump}

theorem dump_eq (h : dump.Faithful limit) {j : Json} (hj : j.Finite) (hd : j.depth ≤ limit) :
    dump j = .ok j := by
  obtain ⟨k, hk⟩ := h.shallow hd
  rw [hk, h.same hj hk]

theorem limit_lt (h : dump.Faithful limit) {j : Json} {reason : String}
    (hj : dump j = .error reason) : limit < j.depth := by
  by_contra hd
  obtain ⟨k, hk⟩ := h.shallow (Nat.le_of_not_lt hd)
  exact nomatch hk.symm.trans hj

theorem dumped_info (h : dump.Faithful limit) {i : ErrorInfo} (hi : i.Flat) :
    i.dumped dump = .ok i := by
  have hroom := h.room
  obtain ⟨type, message, hint, details⟩ := i
  cases details with
  | none => rfl
  | some details =>
    have hmember : ∀ m ∈ details, (do return (m.1, ← dump m.2)) = Except.ok m := by
      intro m hm
      obtain ⟨hfinite, hdepth⟩ := hi details rfl m hm
      rw [h.dump_eq hfinite (by omega)]
      rfl
    have hdetails := mapM_eq_self hmember
    simp only [ErrorInfo.dumped, Option.mapM_some, hdetails]
    rfl

/-- An envelope comes out as it went in if its data do and its error is flat. -/
theorem dumped_eq (h : dump.Faithful limit) {e : Envelope} (hdata : dump e.data = .ok e.data)
    (hflat : ∀ i, e.error = some i → i.Flat) : e.dumped dump = .ok e := by
  obtain ⟨ok, command, data, warnings, figures, error⟩ := e
  cases error with
  | none =>
    simp only [Envelope.dumped, hdata]
    rfl
  | some i =>
    have hinfo := h.dumped_info (hflat i rfl)
    simp only [Envelope.dumped, hdata, Option.mapM_some, hinfo]
    rfl

end Dump.Faithful

theorem Envelope.dumped_error {dump : Dump} {e : Envelope} {reason : String}
    (h : dump e.data = .error reason) : e.dumped dump = .error reason := by
  rw [dumped, h]
  rfl

theorem Envelope.finite_toJson {e : Envelope} (hd : e.data.Finite)
    (he : ∀ i, e.error = some i → i.Flat) : e.toJson.Finite := by
  have herror : (Json.ofOption ErrorInfo.toJson e.error).Finite := by
    cases hi : e.error with
    | none => exact .null
    | some i => exact (he i hi).finite_toJson
  have hlength : (Json.ofOption Json.int e.figures.inputLength).Finite :=
    .ofOption Json.Finite.int _
  have hfigures : e.figures.toJson.Finite := by
    refine .object ?_
    simp [hlength, Json.Finite.int]
  refine .object ?_
  simp [hd, herror, hfigures, Json.finite_strings, Json.Finite.bool, Json.Finite.string]

end Criteria
