import Mathlib
import Criteria.Proofs.Command.Source
import Criteria.Proofs.Log
import Criteria.Proofs.Report.View

/-!
# Criteria.Proofs.Command.Outcome

What a run of a command comes to, told from what the command found out.

* `Planned` and `planned_of_plan`: what is known of every job that a command line starts.
* `Job.text_error`: a job without a text failed to get at its query.
* `Found` and `Job.found`: the five things that a job can find out.
* `Finding.settled` and `Job.settled_cases`: data that are refused as JSON turn a finding into a
  failure.
* `Failure.Known` and `Job.known_of_settled`: the failures that a job can end with.
* `Finding.envelope`, `Finding.exitCode` and `Finding.notes`: what a finding is reported as.
* `Job.exists_shown`: what a command found out can be shown in every format.
* `Job.run_json` and `Job.run_shown`: the whole outcome, in JSON and in the other formats.
-/

namespace Criteria

open Log

namespace Command

/-! ## Jobs -/

/-- A job as command lines start it: the query comes from one place at most, and the log was opened
for the verbosity of the view. -/
structure Planned (job : Job) : Prop where
  source : ∃ query file, job.source = Source.choose query file
  journal : ∃ file, job.journal = Journal.configure {} job.view.verbosity file

theorem planned_of_plan {args : List String} {env : Environment} {folder : Folder} {job : Job}
    (h : plan args env folder = .start job) : Planned job := by
  unfold plan at h
  split at h
  · cases h
  · cases h
  · cases h
  · rename_i options c args' hoptions
    split at h
    · cases h
    · rename_i folder' journal hlog
      have hjournal : ∃ file, journal = Journal.configure {} options.view.verbosity file := by
        unfold openLog at hlog
        dsimp only at hlog
        split at hlog
        · cases hlog; exact ⟨none, rfl⟩
        · split at hlog
          · cases hlog
          · cases hlog; exact ⟨some _, rfl⟩
      unfold planTask at h
      split at h
      · cases h
      · cases h
      · cases h
        exact ⟨⟨_, _, rfl⟩, hjournal⟩

theorem Job.text_error {job : Job} (hj : Planned job) {stdin : Input} {e : Failure}
    (h : job.text stdin = .error e) : e.OfSource := by
  unfold text at h
  split at h
  · rename_i hs
    cases h
    obtain ⟨query, file, hsource⟩ := hj.source
    exact Source.choose_error (hsource.symm.trans hs)
  · exact Source.read_error h

/-! ## Findings -/

/-- What the command of the job finds out. -/
def Job.finding (job : Job) (stdin : Input) (host : Host) : Finding :=
  job.command.finding host (job.text stdin)

/-- The results of a job and the warnings with them: the version, a failure to get at the query, the
tokens, and an error or a query. -/
inductive Found (job : Job) (stdin : Input) (host : Host) :
    Except Failure Report → List String → Prop where
  | version (hc : job.command = .version) :
      Found job stdin host (.ok { data := versionData host }) []
  | unread {e : Failure} (hc : job.command ≠ .version) (ht : job.text stdin = .error e) :
      Found job stdin host (.error e) []
  | tokens {s : String} (hc : job.command = .tokens) (ht : job.text stdin = .ok s) :
      Found job stdin host (.ok
        { data := .object [("tokens", .array ((tokenize s).map tokenData))]
          inputLength := some s.length }) []
  | unparsed {s : String} {e : ParseError} (hc : job.command = .parse)
      (ht : job.text stdin = .ok s) (hp : parse s = .error e) :
      Found job stdin host (.error (.parse e)) []
  | query {s : String} {q : Query} (hc : job.command = .parse) (ht : job.text stdin = .ok s)
      (hp : parse s = .ok q) :
      Found job stdin host (.ok { data := queryData q, inputLength := some s.length })
        (trailingWarnings (parseQuery (Window.ofText s)).window)

theorem Job.found (job : Job) (stdin : Input) (host : Host) :
    Found job stdin host (job.finding stdin host).result (job.finding stdin host).warnings := by
  unfold finding
  cases hc : job.command with
  | version => exact .version hc
  | tokens =>
    cases ht : job.text stdin with
    | error e => exact .unread (by simp [hc]) ht
    | ok s => exact .tokens hc ht
  | parse =>
    cases ht : job.text stdin with
    | error e => exact .unread (by simp [hc]) ht
    | ok s =>
      simp only [CommandName.finding, parseFinding]
      cases hp : (parseQuery (Window.ofText s)).result with
      | error e => exact .unparsed hc ht hp
      | ok q => exact .query hc ht hp

theorem Found.finite {job : Job} {stdin : Input} {host : Host} {report : Report}
    {warnings : List String} (h : Found job stdin host (.ok report) warnings) :
    report.data.Finite := by
  cases h with
  | version _ => exact finite_versionData host
  | @tokens s _ _ =>
    have htokens : (Json.array ((tokenize s).map tokenData)).Finite :=
      .array (List.forall_mem_map.mpr fun t _ => finite_tokenData t)
    refine .object ?_
    simpa using htokens
  | query _ _ hp => exact finite_queryData (canonical_of_parse hp)

/-- Only the data of queries are nested deeply. -/
theorem Found.depth_le {job : Job} {stdin : Input} {host : Host} {report : Report}
    {warnings : List String} (h : Found job stdin host (.ok report) warnings)
    (hc : job.command ≠ .parse) : report.data.depth ≤ 4 := by
  cases h with
  | version _ => exact depth_versionData_le host
  | @tokens s _ _ =>
    have htokens : (Json.array ((tokenize s).map tokenData)).depth ≤ 3 :=
      Json.depth_array_le (List.forall_mem_map.mpr fun t _ => depth_tokenData_le t)
    refine Json.depth_object_le ?_
    simpa using htokens
  | query hparse _ _ => exact absurd hparse hc

namespace Finding

/-- What is left of a finding when it is shown: data that are refused as JSON make it a failure. -/
def settled (dump : Dump) (output : OutputFormat) (f : Finding) : Finding :=
  match f.result with
  | .error _ => f
  | .ok report =>
    if output = .json then
      match dump report.data with
      | .ok _ => f
      | .error reason => { f with result := .error (viewFailure (.refused reason)) }
    else f

theorem settled_of_error {dump : Dump} {output : OutputFormat} {f : Finding} {e : Failure}
    (h : f.result = .error e) : f.settled dump output = f := by
  simp [settled, h]

theorem settled_of_ne {dump : Dump} {output : OutputFormat} (h : output ≠ .json) (f : Finding) :
    f.settled dump output = f := by
  unfold settled
  split
  · rfl
  · rw [if_neg h]

theorem settled_of_ok {dump : Dump} {output : OutputFormat} {f : Finding} {report : Report}
    {k : Json} (h : f.result = .ok report) (hk : dump report.data = .ok k) :
    f.settled dump output = f := by
  simp [settled, h, hk]

theorem settled_of_refused {dump : Dump} {f : Finding} {report : Report} {reason : String}
    (h : f.result = .ok report) (hr : dump report.data = .error reason) :
    f.settled dump .json = { f with result := .error (viewFailure (.refused reason)) } := by
  simp [settled, h, hr]

def envelope (c : CommandName) (durationMs : Nat) (f : Finding) : Envelope :=
  match f.result with
  | .ok report => successEnvelope c durationMs f.warnings report
  | .error e => failureEnvelope c durationMs f.warnings e

def exitCode (f : Finding) : Int :=
  match f.result with
  | .ok _ => 0
  | .error e => e.exitCode

/-- All that is noted of it: what was noted on the way, and a failure. -/
def notes (c : CommandName) (verbosity : Int) (trace : Failure → String) (f : Finding) :
    List Record :=
  match f.result with
  | .ok _ => f.records
  | .error e => f.records ++ [failureRecord c verbosity e (trace e)]

/-- The text is its data in a format other than JSON; a failure has none. -/
def Shown (c : CommandName) (output : OutputFormat) (f : Finding) (out : String) : Prop :=
  match f.result with
  | .ok report => dataView output c.word report.data = .ok out
  | .error _ => out = ""

end Finding

namespace Job

section

variable (libs : Libraries) (job : Job) (stdin : Input) (host : Host)

/-- What the job comes to in the format that it is shown in. -/
def settled : Finding :=
  (job.finding stdin host).settled libs.dump job.view.output

/-- All that is noted of the job. -/
def notes : List Record :=
  (job.settled libs stdin host).notes job.command job.view.verbosity
    (libs.trace job.command (job.text stdin))

/-- The journal when the run is over. -/
def diary : Journal :=
  job.journal.writeAll (job.notes libs stdin host)

end

variable {libs : Libraries} {job : Job} {stdin : Input} {host : Host}

/-- A finding stays as it is, with data that are written if they are asked for as JSON; or its data
are refused then. -/
theorem settled_cases (libs : Libraries) (job : Job) (stdin : Input) (host : Host) :
    (job.settled libs stdin host = job.finding stdin host ∧
      ∀ report, (job.finding stdin host).result = .ok report → job.view.output = .json →
        ∃ k, libs.dump report.data = .ok k) ∨
    (job.view.output = .json ∧ ∃ report reason, (job.finding stdin host).result = .ok report ∧
      libs.dump report.data = .error reason ∧
      job.settled libs stdin host =
        { job.finding stdin host with result := .error (viewFailure (.refused reason)) }) := by
  unfold settled
  cases hresult : (job.finding stdin host).result with
  | error e => exact .inl ⟨Finding.settled_of_error hresult, by simp⟩
  | ok report =>
    by_cases ho : job.view.output = .json
    · cases hdump : libs.dump report.data with
      | ok k =>
        refine .inl ⟨Finding.settled_of_ok hresult hdump, ?_⟩
        rintro _ ⟨⟩ _
        exact ⟨k, hdump⟩
      | error reason =>
        rw [ho]
        exact .inr ⟨rfl, report, reason, rfl, hdump, Finding.settled_of_refused hresult hdump⟩
    · exact .inl ⟨Finding.settled_of_ne ho _, fun _ _ h => absurd h ho⟩

/-- A report that is shown is what was found. -/
theorem found_of_settled {report : Report} (h : (job.settled libs stdin host).result = .ok report) :
    job.settled libs stdin host = job.finding stdin host ∧
      Found job stdin host (.ok report) (job.settled libs stdin host).warnings := by
  obtain ⟨hsame, -⟩ | ⟨-, _, reason, -, -, hrefused⟩ := job.settled_cases libs stdin host
  · have hfound := job.found stdin host
    rw [← hsame, h] at hfound
    exact ⟨hsame, hfound⟩
  · rw [hrefused] at h
    cases h

end Job

end Command

/-- The failures of a job: to get at its query, to read it, and to have its data written. -/
inductive Failure.Known : Failure → Prop where
  | source {e : Failure} (h : e.OfSource) : Known e
  | parse (e : ParseError) : Known (.parse e)
  | refused (reason : String) : Known (Command.viewFailure (.refused reason))

theorem Failure.Known.exitCode_ne {e : Failure} (h : e.Known) : e.exitCode ≠ 0 := by
  cases h with
  | source h => exact h.exitCode_ne
  | parse e => simp [exitCode]
  | refused reason => simp [exitCode, Command.viewFailure]

theorem Failure.Known.flat_info {e : Failure} (h : e.Known) : e.info.Flat := by
  cases h with
  | source h => exact h.flat_info
  | parse e => exact flat_parse e
  | refused reason => exact fun _ hdetails => nomatch hdetails

namespace Command

theorem Found.known {job : Job} (hj : Planned job) {stdin : Input} {host : Host} {e : Failure}
    {warnings : List String} (h : Found job stdin host (.error e) warnings) : e.Known := by
  cases h with
  | unread _ ht => exact .source (Job.text_error hj ht)
  | unparsed _ _ _ => exact .parse _

namespace Job

variable {libs : Libraries} {limit : Nat} {job : Job} {stdin : Input} {host : Host}

theorem known_of_settled (hj : Planned job) {e : Failure}
    (h : (job.settled libs stdin host).result = .error e) : e.Known := by
  obtain ⟨hsame, -⟩ | ⟨-, report, reason, -, -, hrefused⟩ := job.settled_cases libs stdin host
  · have hfound := job.found stdin host
    rw [← hsame, h] at hfound
    exact hfound.known hj
  · rw [hrefused] at h
    cases h
    exact .refused reason

theorem exists_shown (libs : Libraries) (job : Job) (stdin : Input) (host : Host)
    (output : OutputFormat) :
    ∃ out, (job.settled libs stdin host).Shown job.command output out := by
  obtain ⟨hsame, -⟩ | ⟨-, report, reason, -, -, hrefused⟩ := job.settled_cases libs stdin host
  · have hfound := job.found stdin host
    rw [hsame]
    unfold Finding.Shown
    generalize (job.finding stdin host).result = result,
      (job.finding stdin host).warnings = warnings at *
    cases hfound with
    | version hc => exact ⟨_, by rw [hc]; exact dataView_version output host⟩
    | unread _ _ => exact ⟨"", rfl⟩
    | @tokens s hc _ => exact ⟨_, by rw [hc]; exact dataView_tokens output (tokenize s)⟩
    | unparsed _ _ _ => exact ⟨"", rfl⟩
    | @query _ q hc _ _ => exact ⟨_, by rw [hc]; exact dataView_query output q⟩
  · exact ⟨"", by rw [hrefused]; rfl⟩

/-- The data of an envelope are written as they are when they are asked for as JSON. -/
theorem dump_settled (hlibs : libs.dump.Faithful limit) (ho : job.view.output = .json)
    {report : Report} (h : (job.settled libs stdin host).result = .ok report) :
    libs.dump report.data = .ok report.data := by
  obtain ⟨hsame, hfound⟩ := found_of_settled h
  rw [hsame] at h
  obtain ⟨-, hdumped⟩ | ⟨-, _, reason, hresult, -, hrefused⟩ := job.settled_cases libs stdin host
  · obtain ⟨k, hk⟩ := hdumped report h ho
    rw [hk, hlibs.same hfound.finite hk]
  · rw [← hsame, hrefused] at hresult
    cases hresult

theorem dumped_envelope (hlibs : libs.dump.Faithful limit) (hj : Planned job)
    (ho : job.view.output = .json) (durationMs : Nat) :
    ((job.settled libs stdin host).envelope job.command durationMs).dumped libs.dump =
      .ok ((job.settled libs stdin host).envelope job.command durationMs) := by
  have hroom := hlibs.room
  unfold Finding.envelope
  split
  · rename_i report hresult
    exact hlibs.dumped_eq (dump_settled hlibs ho hresult) (by simp [successEnvelope])
  · rename_i e hresult
    refine hlibs.dumped_eq (hlibs.dump_eq .null ?_) ?_
    · simp [failureEnvelope, Json.depth]
      omega
    · rintro _ ⟨⟩
      exact (known_of_settled hj hresult).flat_info

/-! ## Runs -/

theorem run_of_emit {streams : Streams} {durationMs : Nat}
    (h : emit libs.dump job.view ((job.settled libs stdin host).envelope job.command durationMs) =
      .ok streams) :
    job.run libs stdin host durationMs =
      { exitCode := (job.settled libs stdin host).exitCode
        streams := { streams with err := (job.diary libs stdin host).screenText ++ streams.err }
        logs := (job.diary libs stdin host).files } := by
  have hrun : job.run libs stdin host durationMs = conclude libs job.view job.command
    (job.text stdin) durationMs job.journal (job.finding stdin host) := rfl
  rw [hrun, diary, notes]
  obtain ⟨hsame, -⟩ | ⟨ho, report, reason, hresult, hdump, hrefused⟩ :=
    job.settled_cases libs stdin host
  · rw [hsame] at h ⊢
    cases hresult : (job.finding stdin host).result with
    | ok report =>
      simp only [Finding.envelope, hresult] at h
      simp [conclude, h, Finding.exitCode, Finding.notes, hresult]
    | error e =>
      simp only [Finding.envelope, hresult] at h
      simp [conclude, concludeFailure, h, Finding.exitCode, Finding.notes, hresult,
        Journal.writeAll]
  · -- the report is not written, and then its failure is
    have hfirst : emit libs.dump job.view (successEnvelope job.command durationMs
        (job.finding stdin host).warnings report) = .error (.refused reason) :=
      emit_refused ho (Envelope.dumped_error hdump)
    rw [hrefused] at h ⊢
    simp only [Finding.envelope] at h
    simp [conclude, concludeFailure, hresult, hfirst, h, Finding.exitCode, Finding.notes,
      Journal.writeAll]

theorem run_json (hlibs : libs.dump.Faithful limit) (hj : Planned job)
    (hs : job.view.output = .json) (stdin : Input) (host : Host) (durationMs : Nat) :
    job.run libs stdin host durationMs =
      { exitCode := (job.settled libs stdin host).exitCode
        streams :=
          { out :=
              ((job.settled libs stdin host).envelope job.command durationMs).toJson.text ++ "\n"
            err := (job.diary libs stdin host).screenText }
        logs := (job.diary libs stdin host).files } := by
  rw [run_of_emit (emit_json hs (dumped_envelope hlibs hj hs durationMs))]
  simp

theorem emit_shown (libs : Libraries) (durationMs : Nat) {s : ViewSettings} (hs : s.output ≠ .json)
    {c : CommandName} {f : Finding} {out : String} (hout : f.Shown c s.output out) :
    emit libs.dump s (f.envelope c durationMs) =
      .ok { out, err := Notice.texts ((f.envelope c durationMs).said s) } := by
  obtain ⟨result, warnings, records⟩ := f
  cases result with
  | ok report => exact emit_data hs _ rfl rfl hout
  | error e =>
    cases hout
    exact emit_error hs _ rfl rfl

theorem run_shown (libs : Libraries) (hs : job.view.output ≠ .json) (durationMs : Nat)
    {out : String} (hout : (job.settled libs stdin host).Shown job.command job.view.output out) :
    job.run libs stdin host durationMs =
      { exitCode := (job.settled libs stdin host).exitCode
        streams :=
          { out
            err := (job.diary libs stdin host).screenText ++ Notice.texts
              (((job.settled libs stdin host).envelope job.command durationMs).said job.view) }
        logs := (job.diary libs stdin host).files } := by
  rw [run_of_emit (emit_shown libs durationMs hs hout)]

/-- Other formats than JSON leave a finding as it is. -/
theorem settled_of_ne (libs : Libraries) (hs : job.view.output ≠ .json) (stdin : Input)
    (host : Host) : job.settled libs stdin host = job.finding stdin host :=
  Finding.settled_of_ne hs _

theorem exitCode_run_shown (libs : Libraries) (hs : job.view.output ≠ .json) (stdin : Input)
    (host : Host) (durationMs : Nat) :
    (job.run libs stdin host durationMs).exitCode = (job.finding stdin host).exitCode := by
  obtain ⟨out, hout⟩ := job.exists_shown libs stdin host job.view.output
  rw [run_shown libs hs durationMs hout, settled_of_ne libs hs]

theorem exitCode_run (hlibs : libs.dump.Faithful limit) (hj : Planned job) (stdin : Input)
    (host : Host) (durationMs : Nat) :
    (job.run libs stdin host durationMs).exitCode = (job.settled libs stdin host).exitCode := by
  by_cases hs : job.view.output = .json
  · rw [run_json hlibs hj hs]
  · rw [exitCode_run_shown libs hs, settled_of_ne libs hs]

theorem err_run (hlibs : libs.dump.Faithful limit) (hj : Planned job) (stdin : Input)
    (host : Host) (durationMs : Nat) :
    (job.run libs stdin host durationMs).streams.err = (job.diary libs stdin host).screenText ++
      Notice.texts
        (((job.settled libs stdin host).envelope job.command durationMs).said job.view) := by
  by_cases hs : job.view.output = .json
  · rw [run_json hlibs hj hs]
    simp [Envelope.said, Envelope.notices, hs, Notice.texts]
  · obtain ⟨out, hout⟩ := job.exists_shown libs stdin host job.view.output
    rw [run_shown libs hs durationMs hout]

/-- The notes are on the screen from the second verbosity on. -/
theorem screenText_diary (hj : Planned job) (libs : Libraries) (stdin : Input) (host : Host) :
    (job.diary libs stdin host).screenText =
      if 2 ≤ job.view.verbosity then
        String.join ((job.notes libs stdin host).map Record.screenText)
      else "" := by
  obtain ⟨file, hjournal⟩ := hj.journal
  rw [diary, hjournal, Journal.screenText_configure]

theorem screenText_diary_quiet (hj : Planned job) (hv : job.view.verbosity < 2) (libs : Libraries)
    (stdin : Input) (host : Host) : (job.diary libs stdin host).screenText = "" := by
  rw [screenText_diary hj, if_neg (by omega)]

end Job

theorem run_of_plan {call : Call} {job : Job} (libs : Libraries) (h : call.plan = .start job) :
    run libs call = job.run libs call.stdin call.host call.durationMs := by
  rw [Command.run, h]

end Command
end Criteria
