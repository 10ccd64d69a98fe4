import FinalNewline.Proofs.CommandLines

/-!
# Runs whose messages are refused

What a run does to its input and output does not depend on the error stream.  Compare the
run that is heard, whose error stream takes every message, with the run that is muted, whose
error stream refuses every message with one and the same fault.  The two make the same calls
and leave the same streams behind.  They part only after the last of these calls, when the
heard run has something to say.  Then the refusal takes the place of the message, and passes
through whatever still stands around it: it may be contained, and the announcement that it is
met with is refused in its turn.

`Muted` lists what can come of that.  It is shown for each rule by which a report is made,
and from there carried up to the run as a whole.

## Main Definitions

* `Muted` — what becomes of a report when every message is refused
* `Outcome.Muted` — what becomes of an outcome

## Main Results

* `muted_announce`, `muted_contain`, `muted_refusal` — muting, one rule at a time
* `muted_run` — muting a run of the command
* `run_independent_of_messages` — the same, for an observer of the two runs
* `run_of_aborting_refusal` — a refusal that aborts the program does not change how a run ends
-/

namespace FinalNewline.Command

/-- What becomes of a report when every message is refused with `refusal`. -/
inductive Muted (refusal : Fault) : Report → Report → Prop where
  /-- There was nothing to say. -/
  | silent (ending : Ending) : Muted refusal ⟨ending, ""⟩ ⟨ending, ""⟩
  /-- The message is lost.  The refusal is contained, and the exit code stays as it is. -/
  | contained {code : Nat} {text : String} (hcode : code ≠ 0)
      (hrefusal : refusal.aborts ∨ refusal.code? = some Fault.brokenPipeCode) :
      Muted refusal ⟨.exited code, text⟩ ⟨.exited code, ""⟩
  /-- The message is lost, and the refusal escapes in place of the exit code. -/
  | escaped {code : Nat} {text : String} (hcode : code ≠ 0) (hrefusal : ¬ refusal.aborts) :
      Muted refusal ⟨.exited code, text⟩ ⟨.escaped refusal, ""⟩

/-- What becomes of an outcome when every message is refused with `refusal`. -/
structure Outcome.Muted (refusal : Fault) (heard muted : Outcome) : Prop where
  calls_eq : muted.calls = heard.calls
  streams_eq : muted.streams = heard.streams
  report : Command.Muted refusal heard.report muted.report

/-! ### What an observer sees -/

namespace Muted

variable {refusal : Fault} {heard muted : Report}

/-- Muting a run does not change its exit code into another one. -/
theorem code_eq (h : Muted refusal heard muted) {code code' : Nat}
    (hheard : heard.ending = .exited code) (hmuted : muted.ending = .exited code') :
    code' = code := by
  cases h with
  | silent ending =>
    have hsame : Ending.exited code' = .exited code := hmuted.symm.trans hheard
    exact Ending.exited.inj hsame
  | contained hcode hrefusal =>
    exact (Ending.exited.inj hmuted).symm.trans (Ending.exited.inj hheard)
  | escaped hcode hrefusal => cases hmuted

/-- Nothing but the refusal escapes from a muted run that did not escape before. -/
theorem eq_or_of_escaped (h : Muted refusal heard muted) {fault : Fault}
    (hmuted : muted.ending = .escaped fault) :
    fault = refusal ∨ heard.ending = .escaped fault := by
  cases h with
  | silent ending => exact .inr hmuted
  | contained hcode hrefusal => cases hmuted
  | escaped hcode hrefusal => exact .inl (Ending.escaped.inj hmuted).symm

/-- A run that succeeds has nothing to say, and no refusal lets a run succeed. -/
theorem exits_zero_iff (h : Muted refusal heard muted) :
    heard.ending = .exited 0 ↔ muted.ending = .exited 0 := by
  cases h with
  | silent ending => exact Iff.rfl
  | contained hcode hrefusal => simp [hcode]
  | escaped hcode hrefusal => simp [hcode]

/-- A refusal that aborts the program never escapes. -/
theorem ending_eq_of_aborts (h : Muted refusal heard muted) (haborts : refusal.aborts) :
    muted.ending = heard.ending := by
  cases h with
  | silent ending => rfl
  | contained hcode hrefusal => rfl
  | escaped hcode hrefusal => exact absurd haborts hrefusal

end Muted

/-! ### Muting a report -/

theorem announce_refusing_cons (refusal : Fault) (message : String) (messages : List String)
    (code : Nat) :
    announce (.refusing refusal) (message :: messages) code =
      ⟨if refusal.aborts then .exited code else .escaped refusal, ""⟩ := rfl

theorem muted_announce (refusal : Fault) (messages : List String) {code : Nat} (h : code ≠ 0) :
    Muted refusal (announce .accepting messages code)
      (announce (.refusing refusal) messages code) := by
  cases messages with
  | nil => exact .silent (.exited code)
  | cons message messages =>
    rw [announce_accepting, announce_refusing_cons]
    by_cases haborts : refusal.aborts
    · rw [if_pos haborts]
      exact .contained h (.inl haborts)
    · rw [if_neg haborts]
      exact .escaped h haborts

theorem muted_contain (refusal fault : Fault) :
    Muted refusal (contain .accepting fault) (contain (.refusing refusal) fault) := by
  by_cases haborts : fault.aborts
  · rw [contain_of_aborts haborts, contain_of_aborts haborts]
    exact muted_announce refusal ["", "Aborted!"] Nat.one_ne_zero
  · rw [contain_of_not_aborts haborts, contain_of_not_aborts haborts]
    exact .silent _

/-- The refusal of a message is a fault that nobody handled, and it is contained by the same
rules as any other. -/
theorem muted_refusal (refusal : Fault) (text : String) :
    Muted refusal ⟨.exited 1, text⟩ (contain (.refusing refusal) refusal) := by
  by_cases haborts : refusal.aborts
  -- The announcement is refused with the same fault once more, which now is caught.
  · rw [contain_of_aborts haborts, announce_refusing_cons, if_pos haborts]
    exact .contained Nat.one_ne_zero (.inl haborts)
  · rw [contain_of_not_aborts haborts]
    by_cases hcode : refusal.code? = some Fault.brokenPipeCode
    · rw [if_pos hcode]
      exact .contained Nat.one_ne_zero (.inr hcode)
    · rw [if_neg hcode]
      exact .escaped Nat.one_ne_zero haborts

/-! ### Muting a run -/

theorem muted_recover (refusal fault : Fault) (calls : List Call) (s : Streams) :
    Outcome.Muted refusal (recover .accepting fault calls s)
      (recover (.refusing refusal) fault calls s) := by
  by_cases hpipe : fault.isBrokenPipe
  · rw [recover_of_isBrokenPipe hpipe, recover_of_isBrokenPipe hpipe]
    refine ⟨rfl, rfl, ?_⟩
    cases s.sink.plan.closeFault? with
    | none => exact .silent (.exited 1)
    | some again =>
      by_cases hagain : again.isBrokenPipe
      · simp only [if_pos hagain]
        exact .silent (.exited 1)
      · simp only [if_neg hagain]
        exact muted_contain refusal again
  · by_cases hsystem : fault.isSystem
    · rw [recover_of_isSystem hsystem hpipe, recover_of_isSystem hsystem hpipe]
      exact ⟨rfl, rfl, muted_refusal refusal _⟩
    · rw [recover_of_not_isSystem hsystem, recover_of_not_isSystem hsystem]
      exact ⟨rfl, rfl, muted_contain refusal fault⟩

theorem muted_body (refusal : Fault) (s : Streams) :
    Outcome.Muted refusal (body .accepting s) (body (.refusing refusal) s) := by
  cases htransfer : (transfer s).fault? with
  | none =>
    rw [body_of_transfer htransfer, body_of_transfer htransfer]
    exact ⟨rfl, rfl, .silent (.exited 0)⟩
  | some fault =>
    have hfails : TransferFails s (transfer s).calls fault := transferFails_iff.2 ⟨htransfer, rfl⟩
    rw [body_of_transferFails hfails, body_of_transferFails hfails]
    exact muted_recover refusal fault (transfer s).calls (relay s).state

theorem muted_showHelp (refusal : Fault) (program : String) (s : Streams) :
    Outcome.Muted refusal (showHelp .accepting program s)
      (showHelp (.refusing refusal) program s) := by
  refine ⟨rfl, rfl, ?_⟩
  cases hends : (printHelp program s).endless? with
  | some value =>
    rw [showHelp_of_endless hends, showHelp_of_endless hends]
    exact .silent (.endless value)
  | none =>
    cases hprint : (printHelp program s).fault? with
    | none =>
      rw [showHelp_of_success hends hprint, showHelp_of_success hends hprint]
      exact .silent (.exited 0)
    | some fault =>
      rw [showHelp_of_fault hends hprint, showHelp_of_fault hends hprint]
      exact muted_contain refusal fault

/-- Muting a run of the command changes its report alone, and that only by the rules. -/
theorem muted_run (invocation : Invocation) (arguments : List String) (refusal : Fault)
    (s : Streams) :
    Outcome.Muted refusal (run invocation arguments .accepting s)
      (run invocation arguments (.refusing refusal) s) := by
  cases hrequest : Request.ofArguments arguments with
  | relay =>
    rw [run_of_relay hrequest, run_of_relay hrequest]
    exact muted_body refusal s
  | help =>
    rw [run_of_help hrequest, run_of_help hrequest]
    exact muted_showHelp refusal invocation.programName s
  | refuse reason =>
    rw [run_of_refuse hrequest, run_of_refuse hrequest]
    exact ⟨rfl, rfl, muted_announce refusal _ (Nat.succ_ne_zero 1)⟩

/-- **Runs do not depend on their messages.**  The run whose error stream takes every message
and the run whose error stream refuses every message with a given fault make the same calls
and leave the same streams.  If both end with an exit code, it is the same code.  What escapes
from the second run is the refusal, or escaped from the first run as well.  One of them ends
with exit code 0 if and only if the other does. -/
theorem run_independent_of_messages (invocation : Invocation) (arguments : List String)
    (refusal : Fault) (s : Streams) :
    let heard := run invocation arguments .accepting s
    let muted := run invocation arguments (.refusing refusal) s
    muted.calls = heard.calls ∧
    muted.streams = heard.streams ∧
    (∀ code code', heard.report.ending = .exited code → muted.report.ending = .exited code' →
      code' = code) ∧
    (∀ fault, muted.report.ending = .escaped fault →
      fault = refusal ∨ heard.report.ending = .escaped fault) ∧
    (heard.report.ending = .exited 0 ↔ muted.report.ending = .exited 0) := by
  intro heard muted
  have hmuted : Outcome.Muted refusal heard muted := muted_run invocation arguments refusal s
  refine ⟨hmuted.calls_eq, hmuted.streams_eq, ?_, ?_, hmuted.report.exits_zero_iff⟩
  · intro code code' hheard hends
    exact hmuted.report.code_eq hheard hends
  · intro fault hescapes
    exact hmuted.report.eq_or_of_escaped hescapes

/-- A read fails.  The fault that is met while reporting it escapes, unless it has the code of
a broken pipe; then the exit code is that of the run that was heard. -/
theorem run_independent_of_messages_failed_read :
    let lost : Fault := .numbered .general 5 "Input/output error" none
    let memory : Fault := .other .memory ""
    let pipe : Fault := .numbered .general Fault.brokenPipeCode "Broken pipe" none
    let s : Streams := { source := [.data [0x61], .fault lost] }
    let heard := run .byModule [] .accepting s
    let muted refusal := run .byModule [] (.refusing refusal) s
    heard.report.ending = .exited 1 ∧
    (∃ code, (muted pipe).report.ending = .exited code ∧ code = 1) ∧
    (∃ fault, (muted memory).report.ending = .escaped fault ∧
      (fault = memory ∨ heard.report.ending = .escaped fault)) ∧
    (muted memory).streams = heard.streams ∧ heard.streams.sink.bytes = [0x61] := by
  intro lost memory pipe s heard muted
  have hheard : heard.report.ending = .exited 1 := by decide +kernel
  have hpipe : (muted pipe).report.ending = .exited 1 := by decide +kernel
  have hmemory : (muted memory).report.ending = .escaped memory := by decide +kernel
  obtain ⟨-, -, hcode, -, -⟩ := run_independent_of_messages .byModule [] pipe s
  obtain ⟨-, hstreams, -, hfault, -⟩ := run_independent_of_messages .byModule [] memory s
  refine ⟨hheard, ⟨1, hpipe, hcode 1 1 hheard hpipe⟩, ⟨memory, hmemory, hfault memory hmemory⟩,
    hstreams, ?_⟩
  decide +kernel

/-- An error stream that refuses every message by aborting the program changes nothing about
how a run ends. -/
theorem run_of_aborting_refusal {refusal : Fault} (h : refusal.aborts) (invocation : Invocation)
    (arguments : List String) (s : Streams) :
    (run invocation arguments (.refusing refusal) s).report.ending =
      (run invocation arguments .accepting s).report.ending :=
  (muted_run invocation arguments refusal s).report.ending_eq_of_aborts h

end FinalNewline.Command
