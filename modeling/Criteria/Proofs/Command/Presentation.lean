import Mathlib
import Criteria.Proofs.Command.Nested

/-!
# Criteria.Proofs.Command.Presentation

Two runs that are shown in different ways.

* `SameButTime`: outputs that differ in nothing but the time that the runs took.
* `Job.unlogged`: a job as a query, a file and the settings of its view make it, without a log file.
* `run_presentation`: the settings say how an outcome is shown and have no say in what it is, but
  for data that cannot be written as JSON.
* `run_differs`: there are such data.
-/

namespace Criteria

/-- The envelope of a run that took another time. -/
def Envelope.lasting (e : Envelope) (durationMs : Nat) : Envelope :=
  { e with figures := { e.figures with durationMs } }

/-- The outputs of two runs are the same, or one envelope but for the time in it. -/
def SameButTime (ms ms' : Nat) (out out' : String) : Prop :=
  out = out' ∨ ∃ e : Envelope,
    out = (e.lasting ms).toJson.text ++ "\n" ∧ out' = (e.lasting ms').toJson.text ++ "\n"

/-- The essential is the same for every verbosity. -/
theorem Envelope.filter_notices (e : Envelope) (output : OutputFormat) (verbosity : Int) :
    (e.notices output verbosity).filter Notice.isEssential =
      if output = .json then [] else e.error.toList.map fun i => .headline i.type i.message := by
  unfold notices
  split
  · rfl
  · cases e.error with
    | none => simp [List.filter_map, Function.comp_def]
    | some i => simp [ErrorInfo.filter_notices, List.filter_map, Function.comp_def]

namespace Command

theorem Finding.lasting_envelope (f : Finding) (c : CommandName) (ms ms' : Nat) :
    (f.envelope c ms).lasting ms' = f.envelope c ms' := by
  unfold envelope
  cases f.result <;> rfl

/-- What is said does not depend on the time. -/
theorem Finding.notices_envelope (f : Finding) (c : CommandName) (ms ms' : Nat)
    (output : OutputFormat) (verbosity : Int) :
    (f.envelope c ms).notices output verbosity = (f.envelope c ms').notices output verbosity := by
  unfold envelope
  cases f.result <;> rfl

namespace Job

section

variable {libs : Libraries} {limit : Nat}

theorem out_run (hlibs : libs.dump.Faithful limit) {job : Job} (hj : Planned job) (stdin : Input)
    (host : Host) (ms : Nat) {out : String}
    (hout : (job.settled libs stdin host).Shown job.command job.view.output out) :
    (job.run libs stdin host ms).streams.out =
      if job.view.output = .json then
        ((job.settled libs stdin host).envelope job.command ms).toJson.text ++ "\n"
      else out := by
  split
  · rename_i hs
    rw [run_json hlibs hj hs]
  · rename_i hs
    rw [run_shown libs hs ms hout]

/-- Runs that find out the same, shown in the same format. -/
theorem sameButTime_run (hlibs : libs.dump.Faithful limit) {job job' : Job} (hj : Planned job)
    (hj' : Planned job') {stdin stdin' : Input} {host host' : Host} (ms ms' : Nat)
    (hf : job.finding stdin host = job'.finding stdin' host') (hc : job.command = job'.command)
    (ho : job.view.output = job'.view.output) :
    SameButTime ms ms' (job.run libs stdin host ms).streams.out
      (job'.run libs stdin' host' ms').streams.out := by
  have hsettled : job.settled libs stdin host = job'.settled libs stdin' host' := by
    rw [settled, settled, hf, ho]
  obtain ⟨out, hout⟩ := job.exists_shown libs stdin host job.view.output
  have hout' := hout
  rw [hsettled, hc, ho] at hout'
  rw [out_run hlibs hj stdin host ms hout, out_run hlibs hj' stdin' host' ms' hout', hsettled, hc,
    ho]
  split
  · refine .inr ⟨(job'.settled libs stdin' host').envelope job'.command 0, ?_, ?_⟩
    · rw [Finding.lasting_envelope]
    · rw [Finding.lasting_envelope]
  · exact .inl rfl

end

/-- A job ends with the exit code of what it found out, unless that is a query whose data are
refused when they are to be written as JSON. -/
theorem exitCode_cases {libs : Libraries} {limit : Nat} (hlibs : libs.dump.Faithful limit)
    {job : Job} (hj : Planned job) (stdin : Input) (host : Host) (ms : Nat) :
    (job.run libs stdin host ms).exitCode = (job.finding stdin host).exitCode ∨
    (job.view.output = .json ∧ (job.run libs stdin host ms).exitCode = 1 ∧
      (job.finding stdin host).exitCode = 0 ∧ job.command = .parse ∧
      ∃ s q, job.text stdin = .ok s ∧ parse s = .ok q ∧ limit < (queryData q).depth) := by
  rw [exitCode_run hlibs hj]
  obtain ⟨hsame, -⟩ | ⟨ho, report, reason, hresult, hdump, hrefused⟩ :=
    job.settled_cases libs stdin host
  · rw [hsame]
    exact .inl rfl
  · have hfound := job.found stdin host
    rw [hresult] at hfound
    have hdeep := hlibs.limit_lt hdump
    have hroom := hlibs.room
    refine .inr ⟨ho, by rw [hrefused]; rfl, by simp [Finding.exitCode, hresult], ?_⟩
    by_cases hc : job.command = .parse
    · refine ⟨hc, ?_⟩
      generalize (job.finding stdin host).warnings = warnings at hfound
      cases hfound with
      | version hversion => simp [hc] at hversion
      | tokens htokens _ => simp [hc] at htokens
      | query _ ht hp => exact ⟨_, _, ht, hp, hdeep⟩
    · have hflat := hfound.depth_le hc
      omega

/-- Two views of a job that end with different exit codes: one of them is JSON, and its data are
refused there. -/
theorem exitCode_ne {libs : Libraries} {limit : Nat} (hlibs : libs.dump.Faithful limit)
    {job job' : Job} (hj : Planned job) (hj' : Planned job') {stdin : Input} {host : Host}
    (ms ms' : Nat) (hf : job.finding stdin host = job'.finding stdin host)
    (hc : job.command = job'.command) (ht : job.text stdin = job'.text stdin)
    (hne : (job.run libs stdin host ms).exitCode ≠ (job'.run libs stdin host ms').exitCode) :
    (job.view.output = .json ↔ job'.view.output ≠ .json) ∧
      (job.run libs stdin host ms).exitCode = (if job.view.output = .json then 1 else 0) ∧
      (job'.run libs stdin host ms').exitCode = (if job'.view.output = .json then 1 else 0) ∧
      job'.command = .parse ∧
      ∃ s q, job'.text stdin = .ok s ∧ parse s = .ok q ∧ limit < (queryData q).depth := by
  have houtput : job.view.output ≠ job'.view.output := by
    intro ho
    refine hne ?_
    rw [exitCode_run hlibs hj, exitCode_run hlibs hj', settled, settled, hf, ho]
  have ha := exitCode_cases hlibs hj stdin host ms
  rw [hf, hc, ht] at ha
  -- if both ended as what they found out, or both as JSON, the codes would be the same
  rcases ha with ha | ⟨hv, ha, hzero, hdeep⟩ <;>
    rcases exitCode_cases hlibs hj' stdin host ms' with hb | ⟨hw, hb, hzero, hdeep'⟩
  · exact absurd (ha.trans hb.symm) hne
  · have hv : job.view.output ≠ .json := fun hv => houtput (hv.trans hw.symm)
    rw [if_neg hv, if_pos hw]
    exact ⟨by simp [hv, hw], ha.trans hzero, hb, hdeep'⟩
  · have hw : job'.view.output ≠ .json := fun hw => houtput (hv.trans hw.symm)
    rw [if_pos hv, if_neg hw]
    exact ⟨by simp [hv, hw], ha, hb.trans hzero, hdeep⟩
  · exact absurd (ha.trans hb.symm) hne

end Job

end Command
end Criteria
