import Mathlib
import Criteria.Command.Source
import Criteria.Proofs.Text.Utf8

/-!
# Criteria.Proofs.Command.Source

Getting at the text of a query.

* `Failure.OfSource`: the failures on the way. `Source.choose_error` and `Source.read_error`: there
  are no others.
* `Source.textOf_bytes` and `Source.exists_error`: which bytes have a text, and that what is written
  is read back but for its returns.
-/

namespace Criteria

open Text

/-- A failure to get at the query. -/
inductive Failure.OfSource : Failure → Prop where
  | command {e : CommandError} (hcode : e.exitCode = 2)
      (htype : e.type = "io_error" ∨ e.type = "usage_error")
      (hdetails : e.details = none ∨ ∃ path, e.details = some [("path", .string path)]) :
      OfSource (.command e)
  | undecodable {message : String} : OfSource (.internal "UnicodeDecodeError" message)

theorem Failure.OfSource.exitCode_ne {e : Failure} (h : e.OfSource) : e.exitCode ≠ 0 := by
  cases h with
  | command hcode => simp [exitCode, hcode]
  | undecodable => simp [exitCode]

namespace Command
namespace Source

/-! ## Bytes and texts -/

theorem textOf_bytes (s : String) :
    textOf (Utf8.bytes s) = .ok (String.ofList (foldNewlines s.toList)) := by
  have hdecode : Utf8.decode (Utf8.bytes s) = .ok s.toList := by
    rw [Utf8.decode_eq_ok_iff, String.ofList_toList]
  rw [textOf, hdecode]

theorem not_mem_textOf {bs : List UInt8} {s : String} (h : textOf bs = .ok s) :
    '\r' ∉ s.toList := by
  unfold textOf at h
  split at h
  · cases h
  · cases h
    rw [String.toList_ofList]
    exact not_mem_foldNewlines _

theorem exists_error {bs : List UInt8} (h : ¬∃ s, bs = Utf8.bytes s) :
    ∃ e, textOf bs = .error e := by
  unfold textOf
  cases hdecode : Utf8.decode bs with
  | error e => exact ⟨e, rfl⟩
  | ok cs => exact absurd ⟨_, Utf8.decode_eq_ok_iff.mp hdecode⟩ h

/-! ## Failures -/

theorem choose_error {query : Option String} {file : Option Path} {e : Failure}
    (h : choose query file = .error e) : e.OfSource := by
  unfold choose at h
  split at h
  · cases h
  · split at h <;> cases h
  · cases h
  · split at h
    · cases h
    · cases h
      exact .command rfl (.inr rfl) (.inl rfl)

theorem ofSource_fileFailure (path : Path) (reason : String) :
    (fileFailure path reason).OfSource :=
  .command rfl (.inl rfl) (.inr ⟨path.text, rfl⟩)

theorem read_error {folder : Folder} {stdin : Input} {source : Source} {e : Failure}
    (h : source.read folder stdin = .error e) : e.OfSource := by
  cases source with
  | argument text => cases h
  | file path =>
    simp only [read, readFile] at h
    split at h
    · cases h
      exact ofSource_fileFailure _ _
    · split at h
      · cases h
        exact ofSource_fileFailure _ _
      · cases h
  | stdin =>
    simp only [read] at h
    cases stdin with
    | broken =>
      cases h
      exact .command rfl (.inl rfl) (.inl rfl)
    | bytes bs =>
      simp only [readStdin] at h
      split at h
      · cases h
        exact .undecodable
      · cases h

end Source
end Command
end Criteria
