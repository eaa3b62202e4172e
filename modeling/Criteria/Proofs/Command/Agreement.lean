import Mathlib
import Criteria.Proofs.Command.Presentation

/-!
# Criteria.Proofs.Command.Agreement

The same bytes on the standard input and in a file.

* `Job.readingFrom`: a job with another source for its query.
* `Job.errorType`: the type of the error that is reported, if there is one. `Tells` and `Job.tells`:
  it is there to be seen.
* `run_sources`: bytes with a text come to the same wherever they are read. Bytes without one are a
  failure to read a file, but an internal error on the standard input.
-/

namespace Criteria
namespace Command

open Text

namespace Job

/-- The job with another source for its query. -/
def readingFrom (job : Job) (source : Source) : Job :=
  { job with source := .ok source }

def errorType (libs : Libraries) (job : Job) (stdin : Input) (host : Host) : Option String :=
  ((job.settled libs stdin host).envelope job.command 0).error.map ErrorInfo.type

/-- A command that reads a query finds out the same where it reads the same. -/
theorem finding_congr {job job' : Job} {stdin stdin' : Input} (host host' : Host)
    (hc : job.command = job'.command) (hne : job.command ≠ .version)
    (ht : job.text stdin = job'.text stdin') : job.finding stdin host = job'.finding stdin' host' := by
  rw [finding, finding, ht, ← hc]
  cases hcommand : job.command with
  | version => exact absurd hcommand hne
  | parse | tokens => cases job'.text stdin' <;> rfl

theorem finding_unread {job : Job} {stdin : Input} {e : Failure} (host : Host)
    (hne : job.command ≠ .version) (ht : job.text stdin = .error e) :
    job.finding stdin host = { result := .error e } := by
  rw [finding, ht]
  cases hcommand : job.command with
  | version => exact absurd hcommand hne
  | parse | tokens => rfl

theorem text_stdin {job : Job} {bs : List UInt8} {s : String} (h : Source.textOf bs = .ok s) :
    (job.readingFrom .stdin).text (.bytes bs) = .ok s := by
  simp [text, readingFrom, Source.read, Source.readStdin, h]

theorem text_file {job : Job} {path : Path} {bs : List UInt8} {s : String}
    (hfile : job.folder.read path = .ok bs) (h : Source.textOf bs = .ok s) (stdin : Input) :
    (job.readingFrom (.file path)).text stdin = .ok s := by
  simp [text, readingFrom, Source.read, Source.readFile, hfile, h]

theorem text_stdin_undecodable {job : Job} {bs : List UInt8} {e : Utf8.DecodeError}
    (h : Source.textOf bs = .error e) :
    (job.readingFrom .stdin).text (.bytes bs) =
      .error (.internal "UnicodeDecodeError" e.message) := by
  simp [text, readingFrom, Source.read, Source.readStdin, h]

theorem text_file_undecodable {job : Job} {path : Path} {bs : List UInt8} {e : Utf8.DecodeError}
    (hfile : job.folder.read path = .ok bs) (h : Source.textOf bs = .error e) (stdin : Input) :
    (job.readingFrom (.file path)).text stdin = .error (Source.fileFailure path e.message) := by
  simp [text, readingFrom, Source.read, Source.readFile, hfile, h]

end Job

/-- The type of the error can be told from an outcome. JSON has it as a member of the error, and the
other formats its title, at the head of what is said after the notes. -/
structure Tells (s : ViewSettings) (notes : List Log.Record) (o : Outcome) (type : Option String) :
    Prop where
  json : s.output = .json → ∃ j : Json, o.streams.out = j.text ++ "\n" ∧
    j.at? ["error", "type"] = type.map .string
  err : s.output ≠ .json → ∀ t, type = some t → ∃ message rest, o.streams.err =
    (if 2 ≤ s.verbosity then String.join (notes.map Log.Record.screenText) else "") ++
      (Text.onScreen (errorTitle t ++ ": " ++ message) ++ rest)

theorem Job.tells {libs : Libraries} {limit : Nat} (hlibs : libs.dump.Faithful limit) {job : Job}
    (hj : Planned job) (stdin : Input) (host : Host) (durationMs : Nat) :
    Tells job.view (job.notes libs stdin host) (job.run libs stdin host durationMs)
      (job.errorType libs stdin host) := by
  have htype : job.errorType libs stdin host =
      ((job.settled libs stdin host).envelope job.command durationMs).error.map
        ErrorInfo.type := by
    unfold errorType Finding.envelope
    cases (job.settled libs stdin host).result <;> rfl
  constructor
  · intro ho
    rw [Job.run_json hlibs hj ho, htype]
    exact ⟨_, rfl, by rw [Envelope.errorType_toJson, Option.map_map]; rfl⟩
  · intro ho t ht
    rw [htype] at ht
    rw [Job.err_run hlibs hj, Job.screenText_diary hj]
    generalize (job.settled libs stdin host).envelope job.command durationMs = e at *
    obtain ⟨i, hi, rfl⟩ := Option.map_eq_some_iff.mp ht
    refine ⟨i.message, Notice.texts ((e.said job.view).drop 1), ?_⟩
    have hsaid : e.said job.view = .headline i.type i.message :: (e.said job.view).drop 1 := by
      simp [Envelope.said, Envelope.notices, ho, hi, ErrorInfo.notices]
    conv_lhs => rw [hsaid]
    simp [Notice.texts, Notice.text, Notice.lead, Notice.content]

/-- Reading bytes from the standard input and from a file: what a command makes of a text does not
depend on where the text is from, but the reader of the standard input lets bytes that have no text
through as an internal error, where the reader of files tells that the input cannot be read. -/
theorem run_sources {libs : Libraries} {limit : Nat} (hlibs : libs.dump.Faithful limit)
    {a b : Call} {job : Job} {path : Path} {bs : List UInt8}
    (ha : a.plan = .start (job.readingFrom .stdin))
    (hb : b.plan = .start (job.readingFrom (.file path))) (hne : job.command ≠ .version)
    (hin : a.stdin = .bytes bs) (hfile : job.folder.read path = .ok bs) :
    let typeA := (job.readingFrom .stdin).errorType libs a.stdin a.host
    let typeB := (job.readingFrom (.file path)).errorType libs b.stdin b.host
    Tells job.view ((job.readingFrom .stdin).notes libs a.stdin a.host) (run libs a) typeA ∧
    Tells job.view ((job.readingFrom (.file path)).notes libs b.stdin b.host) (run libs b) typeB ∧
    ((∃ s, bs = Utf8.bytes s) →
      (run libs a).exitCode = (run libs b).exitCode ∧ typeA = typeB ∧
      SameButTime a.durationMs b.durationMs (run libs a).streams.out (run libs b).streams.out ∧
      (run libs a).streams.err = (run libs b).streams.err) ∧
    ((¬∃ s, bs = Utf8.bytes s) →
      (run libs a).exitCode = 1 ∧ typeA = some "internal_error" ∧
      (run libs b).exitCode = 2 ∧ typeB = some "io_error") := by
  intro typeA typeB
  have hja := planned_of_plan ha
  have hjb := planned_of_plan hb
  rw [run_of_plan libs ha, run_of_plan libs hb]
  refine ⟨Job.tells hlibs hja _ _ _, Job.tells hlibs hjb _ _ _, ?_, ?_⟩
  · rintro ⟨s, rfl⟩
    have htexta := @Job.text_stdin job _ _ (Source.textOf_bytes s)
    have htextb := Job.text_file hfile (Source.textOf_bytes s) b.stdin
    rw [← hin] at htexta
    have hfinding : (job.readingFrom .stdin).finding a.stdin a.host =
        (job.readingFrom (.file path)).finding b.stdin b.host :=
      Job.finding_congr _ _ rfl hne (htexta.trans htextb.symm)
    have hsettled : (job.readingFrom .stdin).settled libs a.stdin a.host =
        (job.readingFrom (.file path)).settled libs b.stdin b.host := by
      rw [Job.settled, Job.settled, hfinding]
      rfl
    have hnotes : (job.readingFrom .stdin).notes libs a.stdin a.host =
        (job.readingFrom (.file path)).notes libs b.stdin b.host := by
      rw [Job.notes, Job.notes, hsettled, htexta, htextb]
      rfl
    refine ⟨?_, ?_, Job.sameButTime_run hlibs hja hjb _ _ hfinding rfl rfl, ?_⟩
    · rw [Job.exitCode_run hlibs hja, Job.exitCode_run hlibs hjb, hsettled]
    · simp only [typeA, typeB, Job.errorType, hsettled]
      rfl
    · rw [Job.err_run hlibs hja, Job.err_run hlibs hjb, Job.diary, Job.diary, hnotes, hsettled,
        Envelope.said, Envelope.said, Finding.notices_envelope _ _ a.durationMs b.durationMs]
      rfl
  · intro hbytes
    obtain ⟨e, he⟩ := Source.exists_error hbytes
    have htexta := @Job.text_stdin_undecodable job _ _ he
    have htextb := Job.text_file_undecodable hfile he b.stdin
    rw [← hin] at htexta
    have hfindinga := @Job.finding_unread (job.readingFrom .stdin) _ _ a.host hne htexta
    have hfindingb := @Job.finding_unread (job.readingFrom (.file path)) _ _ b.host hne htextb
    rw [Job.exitCode_run hlibs hja, Job.exitCode_run hlibs hjb]
    simp only [typeA, typeB, Job.errorType, Job.settled, hfindinga, hfindingb]
    exact ⟨rfl, rfl, rfl, rfl⟩

/-- The call that reads the standard input, next to a file with the same bytes. -/
def fromStdin (bs : List UInt8) : Call :=
  { args := ["parse"], folder := { files := [({ names := ["q"] }, bs)] }, stdin := .bytes bs }

/-- The call that reads the file. -/
def fromFile (bs : List UInt8) : Call :=
  { args := ["parse", "-f", "q"], folder := { files := [({ names := ["q"] }, bs)] } }

theorem path_fromFile (bs : List UInt8) :
    path? "--file" (fromFile bs).folder (some "q") = .ok (some { names := ["q"] }) := by
  have hname : Path.ofText "q" = { names := ["q"] } := by cbv
  have hfile : (fromFile bs).folder.isDirectory { names := ["q"] } = false := rfl
  simp [path?, hname, hfile]

theorem task_fromFile (bs : List UInt8) :
    Task.read .parse ["-f", "q"] [] (fromFile bs).folder =
      .ok (.work none (some { names := ["q"] })) := by
  have hread : Task.read .parse ["-f", "q"] [] (fromFile bs).folder =
      (path? "--file" (fromFile bs).folder (some "q")).bind fun file => .ok (.work none file) := rfl
  rw [hread, path_fromFile]
  rfl

theorem plan_from (bs : List UInt8) :
    ∃ job : Job, job.command = .parse ∧ job.folder.read { names := ["q"] } = .ok bs ∧
      (fromStdin bs).plan = .start (job.readingFrom .stdin) ∧
      (fromFile bs).plan = .start (job.readingFrom (.file { names := ["q"] })) := by
  have hplan : (fromFile bs).plan =
      planTask [] {} .parse ["-f", "q"] (fromFile bs).folder (.configure {} 0 none) := rfl
  refine ⟨{ command := .parse, view := {}, folder := (fromFile bs).folder
            journal := .configure {} 0 none, source := .ok .stdin }, rfl, rfl, rfl, ?_⟩
  rw [hplan, planTask, task_fromFile]
  rfl

/-- A byte that starts no character. -/
theorem run_sources_stray :
    (run .standard (fromStdin [0xff])).exitCode = 1 ∧
      (run .standard (fromFile [0xff])).exitCode = 2 := by
  have hbytes : ¬∃ s, [0xff] = Utf8.bytes s := by
    rintro ⟨s, hs⟩
    have hdecode : Utf8.decode [0xff] = .ok s.toList := by
      rw [Utf8.decode_eq_ok_iff, String.ofList_toList, hs]
    have hstray : Utf8.decode [0xff] = .error ⟨.start, 0, 1, 0xff⟩ := by cbv
    rw [hstray] at hdecode
    cases hdecode
  obtain ⟨job, hc, hfile, ha, hb⟩ := plan_from [0xff]
  obtain ⟨-, -, -, hstray⟩ :=
    run_sources Libraries.faithful_standard ha hb (by simp [hc]) rfl hfile
  obtain ⟨ha, -, hb, -⟩ := hstray hbytes
  exact ⟨ha, hb⟩

end Command
end Criteria
