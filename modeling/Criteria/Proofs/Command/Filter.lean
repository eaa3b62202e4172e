import Mathlib
import Criteria.Proofs.Command.Outcome
import Criteria.Proofs.Query.Text

/-!
# Criteria.Proofs.Command.Filter

The `parse` command with the output as text, from bytes to bytes.

* `Job.not_mem_text`: what is read from bytes holds no return.
* `parseFinding_line`: what the command finds out about the text of a query on a line of its own.
* `parse_filter`: what the command prints it prints again when it reads it.
-/

namespace Criteria
namespace Command

open Text

/-! ## Bytes and texts -/

theorem Job.not_mem_text {job : Job} {stdin : Input} {s : String}
    (hs : job.source = .ok .stdin ∨ ∃ path, job.source = .ok (.file path))
    (h : job.text stdin = .ok s) : '\r' ∉ s.toList := by
  rcases hs with hs | ⟨path, hs⟩
  · simp only [text, hs, Source.read] at h
    cases stdin with
    | broken => cases h
    | bytes bs =>
      simp only [Source.readStdin] at h
      split at h
      · cases h
      · rename_i htext
        cases h
        exact Source.not_mem_textOf htext
  · simp only [text, hs, Source.read, Source.readFile] at h
    split at h
    · cases h
    · split at h
      · cases h
      · rename_i htext
        cases h
        exact Source.not_mem_textOf htext

/-! ## Findings of the command -/

theorem Job.exists_query {job : Job} (hj : Planned job) (hc : job.command = .parse)
    {stdin : Input} {host : Host} (h : (job.finding stdin host).exitCode = 0) :
    ∃ s q report, job.text stdin = .ok s ∧ parse s = .ok q ∧
      (job.finding stdin host).result = .ok report ∧ report.data = queryData q := by
  have hfound := job.found stdin host
  unfold Finding.exitCode at h
  generalize (job.finding stdin host).result = result,
    (job.finding stdin host).warnings = warnings at *
  cases hfound with
  | version hcommand => simp [hc] at hcommand
  | unread _ ht => exact absurd h (Job.text_error hj ht).exitCode_ne
  | tokens hcommand _ => simp [hc] at hcommand
  | unparsed _ _ _ => simp [Failure.exitCode] at h
  | @query s q _ ht hp => exact ⟨s, q, _, ht, hp, rfl, rfl⟩

/-- The line that a query is printed as is read to its end. -/
theorem parseFinding_line {q : Query} (h : q.Canonical) :
    (parseFinding (q.text ++ "\n")).result =
        .ok { data := queryData q, inputLength := some (q.text ++ "\n").length } ∧
      (parseFinding (q.text ++ "\n")).warnings = [] := by
  have hblank : ∀ c ∈ ['\n'], isBlank c := by simp [isBlank]
  have hparse := h.alone.parse_append hblank
  have hline : q.text ++ String.ofList ['\n'] = q.text ++ "\n" := rfl
  rw [hline] at hparse
  simp [parseFinding, hparse.1, trailingWarnings, hparse.2]

/-! ## There and back -/

/-- The command with bytes on the standard input. -/
def textFilter (s : String) : Call :=
  { args := ["--output", "text", "parse"], stdin := .bytes (Utf8.bytes s) }

theorem plan_textFilter (s : String) :
    (textFilter s).plan = .start
      { command := .parse, view := { output := .text }, folder := {}
        journal := .configure {} 0 none, source := .ok .stdin } :=
  rfl

theorem exitCode_textFilter {s : String} {q : Query}
    (h : parse (String.ofList (foldNewlines s.toList)) = .ok q) :
    (run .standard (textFilter s)).exitCode = 0 := by
  have hresult : (parseQuery (Window.ofText (String.ofList (foldNewlines s.toList)))).result =
    .ok q := h
  rw [run_of_plan .standard (plan_textFilter s), Job.exitCode_run_shown .standard (by decide),
    Job.finding]
  simp [Job.text, Source.read, textFilter, Source.readStdin, Source.textOf_bytes,
    CommandName.finding, parseFinding, hresult, Finding.exitCode]

/-- The query that the command reads from bytes it prints, and prints again when it reads what it
printed. Nothing is said then but what a verbose run notes. -/
theorem parse_filter {libs : Libraries} {first again : Call} {job job' : Job}
    (h : first.plan = .start job) (hc : job.command = .parse) (ho : job.view.output = .text)
    (hs : job.source = .ok .stdin ∨ ∃ path, job.source = .ok (.file path))
    (hexit : (run libs first).exitCode = 0)
    (h' : again.plan = .start job') (hc' : job'.command = .parse)
    (ho' : job'.view.output = .text) (hs' : job'.source = .ok .stdin)
    (hin : again.stdin = .bytes (Utf8.bytes (run libs first).streams.out)) :
    (run libs again).exitCode = 0 ∧ (run libs again).streams.out = (run libs first).streams.out ∧
      (job'.view.verbosity < 2 → (run libs again).streams.err = "") := by
  have htext : job.view.output ≠ .json := by rw [ho]; decide
  have htext' : job'.view.output ≠ .json := by rw [ho']; decide
  rw [run_of_plan libs h, Job.exitCode_run_shown libs htext] at hexit
  obtain ⟨s, q, report, hread, hq, hresult, hdata⟩ := Job.exists_query (planned_of_plan h) hc hexit
  have hshown : (job.settled libs first.stdin first.host).Shown job.command job.view.output
      (q.text ++ "\n") := by
    simp only [Finding.Shown, Job.settled_of_ne libs htext, hresult, hdata, hc, ho]
    exact dataView_query .text q
  have hout : (run libs first).streams.out = q.text ++ "\n" := by
    rw [run_of_plan libs h, Job.run_shown libs htext _ hshown]
  have hreturn : '\r' ∉ (q.text ++ "\n").toList := by
    have htail : "\n".toList = ['\n'] := rfl
    intro hr
    rw [String.toList_append, htail, List.mem_append] at hr
    rcases hr with hr | hr
    · rcases mem_text_of_parse hq hr with hplain | hr
      · have hword : isWordChar '\r' = false := isWordChar_of_isBlank (by decide)
        simp [IsPlain, hword] at hplain
      · exact Job.not_mem_text hs hread hr
    · exact absurd hr (by decide)
  have hread' : job'.text again.stdin = .ok (q.text ++ "\n") := by
    simp only [Job.text, hs', hin, hout, Source.read, Source.readStdin, Source.textOf_bytes,
      foldNewlines_eq_self hreturn, String.ofList_toList]
  have hfinding' : job'.finding again.stdin again.host = parseFinding (q.text ++ "\n") := by
    rw [Job.finding, hc', hread']
    rfl
  obtain ⟨hresult', hwarnings'⟩ := parseFinding_line (canonical_of_parse hq)
  rw [← hfinding'] at hresult' hwarnings'
  have hshown' : (job'.settled libs again.stdin again.host).Shown job'.command job'.view.output
      (q.text ++ "\n") := by
    simp only [Finding.Shown, Job.settled_of_ne libs htext', hresult', hc', ho']
    exact dataView_query .text q
  rw [run_of_plan libs h', Job.run_shown libs htext' _ hshown', Job.settled_of_ne libs htext']
  refine ⟨?_, hout.symm, ?_⟩
  · simp only [Finding.exitCode, hresult']
  · intro hv
    simp [Job.screenText_diary_quiet (planned_of_plan h') hv, Finding.envelope, hresult', hwarnings',
      successEnvelope, Envelope.said, Envelope.notices, Notice.texts]

/-- Line ends in a string, blanks between tokens, and more input after the query. -/
theorem parse_filter_lines :
    let first := textFilter "eq( a,\"\r\n\r\") or"
    (run .standard first).exitCode = 0 ∧
      (run .standard (textFilter (run .standard first).streams.out)).exitCode = 0 ∧
      (run .standard (textFilter (run .standard first).streams.out)).streams.out = (run .standard first).streams.out ∧
      ((0 : Int) < 2 → (run .standard (textFilter (run .standard first).streams.out)).streams.err = "") := by
  have hparse : parse (String.ofList (foldNewlines "eq( a,\"\r\n\r\") or".toList)) =
      .ok (.filter .eq "a" (.string "\n\n")) := by cbv
  have hexit := exitCode_textFilter hparse
  exact ⟨hexit, parse_filter (plan_textFilter _) rfl rfl (.inl rfl) hexit (plan_textFilter _) rfl rfl
    rfl rfl⟩

end Command
end Criteria
