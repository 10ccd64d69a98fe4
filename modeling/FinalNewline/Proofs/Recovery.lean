import FinalNewline.Proofs.Lines
import FinalNewline.Proofs.Transfers

/-!
# How a run ends that has failed

A run that fails may fail again while it recovers: the sink may refuse to be closed, and
the error stream may refuse the message.  The fault that is handled and the fault that
is met while handling it are unrelated, and so are the kind of a fault and its code; all
pairs have to be told apart.

`Contained` and `Recovers` list the cases, one rule for each.  Their premises say all
there is to know about the faults concerned, and no rule has a premise about the rules
before it.  The run that is made follows the rules, and they leave it no choice.

## Main Definitions

* `Contained` — how a run ends with a fault that nobody handled
* `Recovers` — what follows a transfer that failed

## Main Results

* `recover_of_recovers`, `exists_recovers`, `Recovers.unique` — the rules describe the
  recovery that is made, leave no case out and leave no choice
* `run_recovers` — a run whose transfer fails
* `run_of_system_faults` — the only fault of the system that escapes from a run
-/

namespace FinalNewline.Command

/-! ### Faults that nobody handled -/

/-- How a run ends with a fault that nobody handled. -/
inductive Contained (errors : ErrorStream) : Fault → Report → Prop where
  /-- A fault that aborts the program is announced. -/
  | announced {fault : Fault} (haborts : fault.aborts) (herrors : errors = .accepting) :
      Contained errors fault ⟨.exited 1, "\nAborted!\n"⟩
  /-- The announcement is refused, with another fault that aborts the program. -/
  | unannounced {fault refusal : Fault} (haborts : fault.aborts)
      (herrors : errors = .refusing refusal) (hrefusal : refusal.aborts) :
      Contained errors fault ⟨.exited 1, ""⟩
  /-- The announcement is refused, with a fault that does not abort the program. -/
  | replaced {fault refusal : Fault} (haborts : fault.aborts)
      (herrors : errors = .refusing refusal) (hrefusal : ¬ refusal.aborts) :
      Contained errors fault ⟨.escaped refusal, ""⟩
  /-- A fault that carries the code of a broken pipe ends the run in silence. -/
  | silenced {fault : Fault} (hcode : fault.code? = some Fault.brokenPipeCode) :
      Contained errors fault ⟨.exited 1, ""⟩
  /-- All other faults escape. -/
  | escaped {fault : Fault} (haborts : ¬ fault.aborts)
      (hcode : fault.code? ≠ some Fault.brokenPipeCode) :
      Contained errors fault ⟨.escaped fault, ""⟩

theorem contain_of_aborts {fault : Fault} (h : fault.aborts) (errors : ErrorStream) :
    contain errors fault = announce errors ["", "Aborted!"] 1 :=
  if_pos h

theorem contain_of_not_aborts {fault : Fault} (h : ¬ fault.aborts) (errors : ErrorStream) :
    contain errors fault =
      ⟨if fault.code? = some Fault.brokenPipeCode then .exited 1 else .escaped fault, ""⟩ := by
  rw [contain, if_neg h]
  split
  · rfl
  · rfl

/-- What is said when a run is aborted. -/
theorem announce_aborted :
    announce .accepting ["", "Aborted!"] 1 = ⟨.exited 1, "\nAborted!\n"⟩ := by
  have hempty : plain "" = "" := plain_of_not_mem (by decide)
  have haborted : plain "Aborted!" = "Aborted!" := plain_of_not_mem (by decide)
  simp only [announce, ErrorStream.say, line_eq, hempty, haborted]
  rfl

/-- The rules describe how faults that nobody handled are contained. -/
theorem contained_iff {errors : ErrorStream} {fault : Fault} {report : Report} :
    Contained errors fault report ↔ report = contain errors fault := by
  constructor
  · rintro (⟨haborts, rfl⟩ | ⟨haborts, rfl, hrefusal⟩ | ⟨haborts, rfl, hrefusal⟩ | hcode |
      ⟨haborts, hcode⟩)
    · rw [contain_of_aborts haborts, announce_aborted]
    · rw [contain_of_aborts haborts]
      simp [announce, hrefusal]
    · rw [contain_of_aborts haborts]
      simp [announce, hrefusal]
    -- A fault with a code comes from the system, and so does not abort the program.
    · have haborts := Fault.not_aborts_of_isSystem (Fault.isSystem_of_code? hcode)
      rw [contain_of_not_aborts (by simp [haborts]), if_pos hcode]
    · rw [contain_of_not_aborts haborts, if_neg hcode]
  · rintro rfl
    by_cases haborts : fault.aborts
    · rw [contain_of_aborts haborts]
      cases errors with
      | accepting => rw [announce_aborted]; exact .announced haborts rfl
      | refusing refusal =>
        by_cases hrefusal : refusal.aborts
        · simpa [announce, hrefusal] using Contained.unannounced haborts rfl hrefusal
        · simpa [announce, hrefusal] using Contained.replaced haborts rfl hrefusal
    · rw [contain_of_not_aborts haborts]
      by_cases hcode : fault.code? = some Fault.brokenPipeCode
      · rw [if_pos hcode]
        exact .silenced hcode
      · rw [if_neg hcode]
        exact .escaped haborts hcode

/-! ### Recovering from a transfer that failed -/

/-- What follows a transfer that failed: how the run ends, and the calls that it still
makes.  A close, if there is one, goes as `closeFault?` says. -/
inductive Recovers (errors : ErrorStream) (closeFault? : Option Fault) :
    Fault → Report → List Call → Prop where
  /-- The pipe is broken, and the sink is closed without further trouble. -/
  | closed {fault : Fault} (hpipe : fault.isBrokenPipe)
      (hclose : ∀ again, closeFault? = some again → again.isBrokenPipe) :
      Recovers errors closeFault? fault ⟨.exited 1, ""⟩ [.close closeFault?]
  /-- The pipe is broken, and the close fails for another reason. -/
  | notClosed {fault again : Fault} {report : Report} (hpipe : fault.isBrokenPipe)
      (hclose : closeFault? = some again) (hagain : ¬ again.isBrokenPipe)
      (hcontained : Contained errors again report) :
      Recovers errors closeFault? fault report [.close (some again)]
  /-- Another fault of the system is reported. -/
  | reported {fault : Fault} (hsystem : fault.isSystem) (hpipe : ¬ fault.isBrokenPipe)
      (herrors : errors = .accepting) :
      Recovers errors closeFault? fault
        ⟨.exited 1, "Error: " ++ plain fault.message ++ "\n"⟩ []
  /-- Another fault of the system is not reported, because the error stream fails. -/
  | notReported {fault again : Fault} {report : Report} (hsystem : fault.isSystem)
      (hpipe : ¬ fault.isBrokenPipe) (herrors : errors = .refusing again)
      (hcontained : Contained errors again report) :
      Recovers errors closeFault? fault report []
  /-- A fault that does not come from the system is not handled. -/
  | notHandled {fault : Fault} {report : Report} (hsystem : ¬ fault.isSystem)
      (hcontained : Contained errors fault report) :
      Recovers errors closeFault? fault report []

theorem recover_of_isBrokenPipe {fault : Fault} (h : fault.isBrokenPipe) (errors : ErrorStream)
    (calls : List Call) (s : Streams) :
    recover errors fault calls s =
      ⟨match s.sink.plan.closeFault? with
        | none => { ending := .exited 1 }
        | some again =>
          if again.isBrokenPipe then { ending := .exited 1 } else contain errors again,
       calls ++ [.close s.sink.plan.closeFault?], s.close.2⟩ :=
  if_pos h

theorem recover_of_isSystem {fault : Fault} (hsystem : fault.isSystem)
    (hpipe : ¬ fault.isBrokenPipe) (errors : ErrorStream) (calls : List Call) (s : Streams) :
    recover errors fault calls s =
      ⟨match errors with
        | .accepting => ⟨.exited 1, "Error: " ++ plain fault.message ++ "\n"⟩
        | .refusing again => contain errors again, calls, s⟩ := by
  rw [recover, if_neg hpipe, if_pos hsystem]
  cases errors with
  | accepting => simp only [ErrorStream.say, line_error, String.append_empty]
  | refusing again => rfl

theorem recover_of_not_isSystem {fault : Fault} (h : ¬ fault.isSystem) (errors : ErrorStream)
    (calls : List Call) (s : Streams) :
    recover errors fault calls s = ⟨contain errors fault, calls, s⟩ := by
  have hpipe : ¬ fault.isBrokenPipe := fun hpipe => h (Fault.isSystem_of_isBrokenPipe hpipe)
  rw [recover, if_neg hpipe, if_neg h]

section Recovery

variable {errors : ErrorStream} {closeFault? : Option Fault} {fault : Fault} {report : Report}
  {after : List Call} {s : Streams}

/-- The rules leave no case out. -/
theorem exists_recovers (errors : ErrorStream) (closeFault? : Option Fault) (fault : Fault) :
    ∃ report after, Recovers errors closeFault? fault report after := by
  by_cases hsystem : fault.isSystem
  · by_cases hpipe : fault.isBrokenPipe
    · by_cases hclose : ∀ again, closeFault? = some again → again.isBrokenPipe
      · exact ⟨_, _, .closed hpipe hclose⟩
      · obtain ⟨again, hagain⟩ := Classical.not_forall.1 hclose
        obtain ⟨hsome, hother⟩ := Classical.not_imp.1 hagain
        exact ⟨_, _, .notClosed hpipe hsome hother (contained_iff.2 rfl)⟩
    · cases errors with
      | accepting => exact ⟨_, _, .reported hsystem hpipe rfl⟩
      | refusing again => exact ⟨_, _, .notReported hsystem hpipe rfl (contained_iff.2 rfl)⟩
  · exact ⟨_, _, .notHandled hsystem (contained_iff.2 rfl)⟩

/-- What follows the rules is the recovery that is made.  It closes the sink if the pipe
is broken, and does nothing else to the streams. -/
theorem recover_of_recovers (h : Recovers errors s.sink.plan.closeFault? fault report after)
    (calls : List Call) :
    recover errors fault calls s =
      ⟨report, calls ++ after, if fault.isBrokenPipe then s.close.2 else s⟩ := by
  cases h with
  | closed hpipe hclose =>
    rw [recover_of_isBrokenPipe hpipe, if_pos hpipe]
    cases hsome : s.sink.plan.closeFault? with
    | none => rfl
    | some again => simp [hclose again hsome]
  | notClosed hpipe hclose hagain hcontained =>
    rw [recover_of_isBrokenPipe hpipe, if_pos hpipe, hclose, contained_iff.1 hcontained]
    simp [hagain]
  | reported hsystem hpipe herrors =>
    rw [recover_of_isSystem hsystem hpipe, if_neg hpipe, List.append_nil, herrors]
  | notReported hsystem hpipe herrors hcontained =>
    rw [if_neg hpipe, List.append_nil, contained_iff.1 hcontained, herrors,
      recover_of_isSystem hsystem hpipe]
  | notHandled hsystem hcontained =>
    have hpipe : ¬ fault.isBrokenPipe := fun hpipe =>
      hsystem (Fault.isSystem_of_isBrokenPipe hpipe)
    rw [recover_of_not_isSystem hsystem, if_neg hpipe, List.append_nil,
      contained_iff.1 hcontained]

/-- The rules leave no choice. -/
theorem Recovers.unique {other : Report} {following : List Call}
    (h : Recovers errors closeFault? fault report after)
    (hother : Recovers errors closeFault? fault other following) :
    report = other ∧ after = following := by
  -- Both are the recovery that is made on any streams with such a close.
  let s : Streams := { sink := { plan := { closeFault? } } }
  have hmade := recover_of_recovers (s := s) h []
  rw [recover_of_recovers (s := s) hother []] at hmade
  obtain ⟨hreport, hafter, -⟩ := Outcome.mk.inj hmade
  exact ⟨hreport.symm, hafter.symm⟩

end Recovery

/-! ### Whole runs -/

theorem body_of_transferFails {s : Streams} {calls : List Call} {fault : Fault}
    (h : TransferFails s calls fault) (errors : ErrorStream) :
    body errors s = recover errors fault calls (relay s).state := by
  obtain ⟨hfault, hcalls⟩ := transferFails_iff.1 h
  simp only [body, hfault, hcalls, state_transfer]

theorem body_of_transfer {s : Streams} (h : (transfer s).fault? = none) (errors : ErrorStream) :
    body errors s = ⟨{ ending := .exited 0 }, (transfer s).calls, (transfer s).state⟩ := by
  simp only [body, h]

/-- A run whose transfer fails ends as the rules say, on the streams that the relay has
left. -/
theorem exists_run_eq (invocation : Invocation) (errors : ErrorStream) {s : Streams}
    {calls : List Call} {fault : Fault} (h : TransferFails s calls fault) :
    ∃ report after, Recovers errors s.sink.plan.closeFault? fault report after ∧
      run invocation [] errors s =
        ⟨report, calls ++ after,
          if fault.isBrokenPipe then (relay s).state.close.2 else (relay s).state⟩ := by
  obtain ⟨report, after, hrules⟩ := exists_recovers errors s.sink.plan.closeFault? fault
  refine ⟨report, after, hrules, ?_⟩
  rw [← plan_relay s] at hrules
  exact (body_of_transferFails h errors).trans (recover_of_recovers hrules calls)

/-- **A run whose transfer fails.**  The transcript is that of the transfer, which ends
with the first fault of all and has not closed the sink, and behind it the calls of the
recovery.  The recovery is made by the rules, which say how the run ends, what it leaves
on the error stream and whether the sink is closed. -/
theorem run_recovers (invocation : Invocation) (errors : ErrorStream) (s : Streams)
    {calls : List Call} {fault : Fault} (h : TransferFails s calls fault) :
    let outcome := run invocation [] errors s
    FailsWith calls fault ∧
    (∀ call ∈ calls, call.isClose = false) ∧
    (∃ after, outcome.calls = calls ++ after ∧
      ∀ report following,
        Recovers errors s.sink.plan.closeFault? fault report following ↔
          report = outcome.report ∧ following = after) ∧
    outcome.streams.source = (relay s).state.source ∧
    outcome.streams.sink.bytes = (relay s).state.sink.bytes ∧
    outcome.streams.sink.closed = (s.sink.closed || fault.isBrokenPipe) := by
  intro outcome
  obtain ⟨made, after, hmade, hrun⟩ := exists_run_eq invocation errors h
  have houtcome : outcome = _ := hrun
  refine ⟨h.failsWith, h.not_isClose, ⟨after, by rw [houtcome], ?_⟩, ?_⟩
  · intro report following
    rw [houtcome]
    constructor
    · intro hother
      exact hother.unique hmade
    · rintro ⟨rfl, rfl⟩
      exact hmade
  · rw [houtcome]
    -- Whether the sink was closed by the recovery is all that the two cases differ in.
    by_cases hpipe : fault.isBrokenPipe
    · simp only [hpipe, if_true, Bool.or_true]
      exact ⟨rfl, rfl, rfl⟩
    · simp [hpipe, closed_relay]

/-- A flush fails with a fault that has the code of a broken pipe but is of another kind:
it is reported, and the sink stays open. -/
theorem run_recovers_reported :
    let fault : Fault := .numbered .connection 32 "gone" none
    let s : Streams :=
      { source := [.data [0x61]], sink := { plan := { flushFault? := some fault } } }
    let outcome := run .byModule [] .accepting s
    TransferFails s ((relay s).calls ++ [.flush (some fault)]) fault ∧
      outcome.report = ⟨.exited 1, "Error: [Errno 32] gone\n"⟩ ∧
      outcome.streams.sink.closed = false := by
  intro fault s outcome
  have hfails : TransferFails s ((relay s).calls ++ [.flush (some fault)]) fault :=
    .byFlush (by decide +kernel) rfl
  obtain ⟨-, -, ⟨after, -, honly⟩, -, -, hclosed⟩ := run_recovers .byModule .accepting s hfails
  have hplain : plain fault.message = "[Errno 32] gone" := plain_of_not_mem (by decide)
  obtain ⟨hreport, -⟩ := (honly _ _).1 (.reported rfl (by decide) rfl)
  refine ⟨hfails, ?_, hclosed⟩
  rw [hplain] at hreport
  exact hreport.symm

/-! ### Runs on which only the system fails -/

/-- How the rules end a run on which only the system fails, and all messages arrive. -/
theorem Recovers.ending {closeFault? : Option Fault} {fault : Fault} {report : Report}
    {after : List Call} (h : Recovers .accepting closeFault? fault report after)
    (hsystem : fault.isSystem)
    (hclose : ∀ again, closeFault? = some again → again.isSystem) :
    (∀ again, report.ending = .escaped again ↔ fault.isBrokenPipe ∧ closeFault? = some again ∧
      ¬ again.isBrokenPipe ∧ again.code? ≠ some Fault.brokenPipeCode) ∧
    ((∀ again, report.ending ≠ .escaped again) → report.ending = .exited 1) ∧
    (fault.isBrokenPipe → report.text = "") := by
  cases h with
  | closed hpipe hbroken =>
    refine ⟨?_, fun _ => rfl, fun _ => rfl⟩
    intro again
    constructor
    · intro hending
      simp at hending
    · rintro ⟨-, hsome, hagain, -⟩
      exact absurd (hbroken again hsome) hagain
  | @notClosed again _ hpipe hsome hagain hcontained =>
    have haborts : again.aborts = false := Fault.not_aborts_of_isSystem (hclose again hsome)
    -- Here alone a fault escapes: nobody handles what the close raises.
    cases hcontained with
    | announced haborting => simp [haborts] at haborting
    | unannounced haborting => simp [haborts] at haborting
    | replaced haborting => simp [haborts] at haborting
    | silenced hcode =>
      refine ⟨?_, fun _ => rfl, fun _ => rfl⟩
      intro other
      constructor
      · intro hending
        simp at hending
      · rintro ⟨-, hother, -, hcode'⟩
        obtain rfl := Option.some.inj (hsome.symm.trans hother)
        exact absurd hcode hcode'
    | escaped _ hcode =>
      refine ⟨?_, ?_, fun _ => rfl⟩
      · intro other
        constructor
        · rintro ⟨⟩
          exact ⟨hpipe, hsome, hagain, hcode⟩
        · rintro ⟨-, hother, -⟩
          rw [Option.some.inj (hsome.symm.trans hother)]
      · intro hnone
        exact absurd rfl (hnone again)
  | reported _ hpipe _ =>
    refine ⟨?_, fun _ => rfl, fun hbroken => absurd hbroken hpipe⟩
    intro again
    constructor
    · intro hending
      simp at hending
    · rintro ⟨hbroken, -⟩
      exact absurd hbroken hpipe
  | notReported _ _ herrors _ => simp at herrors
  | notHandled hother _ => exact absurd hsystem hother

/-- **A run on which only the system fails**, and whose messages arrive.  One fault can
escape from it: that of the close that follows a broken pipe, unless this is itself a
broken pipe by its kind or by its code.  Otherwise the run ends with an exit code, which
tells whether a call has failed.  A broken pipe is never reported. -/
theorem run_of_system_faults (invocation : Invocation) (s : Streams)
    (hsystem : ∀ fault, s.CanRaise fault → fault.isSystem) :
    let outcome := run invocation [] .accepting s
    let first? := firstFault? outcome.calls
    (∀ fault, outcome.report.ending = .escaped fault ↔
      (∃ first, first? = some first ∧ first.isBrokenPipe) ∧
        s.sink.plan.closeFault? = some fault ∧ ¬ fault.isBrokenPipe ∧
        fault.code? ≠ some Fault.brokenPipeCode) ∧
    ((∀ fault, outcome.report.ending ≠ .escaped fault) →
      outcome.report.ending = .exited (if first? = none then 0 else 1)) ∧
    (∀ first, first? = some first → first.isBrokenPipe → outcome.report.text = "") := by
  intro outcome first?
  cases htransfer : (transfer s).fault? with
  | none =>
    have houtcome : outcome = ⟨{ ending := .exited 0 }, (transfer s).calls, (transfer s).state⟩ :=
      body_of_transfer htransfer .accepting
    have hfirst : first? = none := by
      show firstFault? outcome.calls = none
      rw [houtcome, firstFault?_transfer, htransfer]
    rw [hfirst, houtcome]
    simp
  | some fault =>
    have hfails : TransferFails s (transfer s).calls fault := transferFails_iff.2 ⟨htransfer, rfl⟩
    have hclose : ∀ again, s.sink.plan.closeFault? = some again → again.isSystem :=
      fun again hagain => hsystem again (.inr (.inr (.inr hagain)))
    obtain ⟨made, after, hmade, hrun⟩ := exists_run_eq invocation .accepting hfails
    have houtcome : outcome = _ := hrun
    obtain ⟨hescapes, hexits, htext⟩ := hmade.ending (hsystem fault hfails.canRaise) hclose
    have hfirst : first? = some fault := by
      show firstFault? outcome.calls = some fault
      rw [houtcome, firstFault?_append, firstFault?_of_failsWith hfails.failsWith]
      rfl
    rw [hfirst, houtcome]
    refine ⟨?_, ?_, ?_⟩
    · simpa using hescapes
    · simpa using hexits
    · simpa using htext

/-- Pipe and close fail in the same way but for the kind of the fault: its code alone
keeps the second fault from escaping. -/
theorem run_of_system_faults_silenced :
    let s : Streams :=
      { source := [.data [0x61]]
        sink :=
          { plan :=
              { refusals := [⟨0, .numbered .general 32 "gone" none, 0⟩]
                closeFault? := some (.numbered .connection 32 "gone" none) } } }
    let outcome := run .byModule [] .accepting s
    (∀ fault, s.CanRaise fault → fault.isSystem) ∧ outcome.report.ending = .exited 1 := by
  intro s outcome
  have hnamed : ∀ fault ∈ s.source.faults ++ s.sink.plan.faults, fault.isSystem := by decide
  have hsystem : ∀ fault, s.CanRaise fault → fault.isSystem :=
    fun fault hfault => hnamed fault hfault.mem_faults
  obtain ⟨hescapes, hexits, -⟩ := run_of_system_faults .byModule s hsystem
  have hstays : ∀ fault, outcome.report.ending ≠ .escaped fault := by
    intro fault hending
    obtain ⟨-, hclose, -, hcode⟩ := (hescapes fault).1 hending
    obtain rfl := Option.some.inj hclose
    exact hcode rfl
  have hfirst : firstFault? outcome.calls ≠ none := by decide +kernel
  refine ⟨hsystem, (hexits hstays).trans ?_⟩
  rw [if_neg hfirst]

/-- A write finds the pipe broken, and the close that follows finds no space left: the
second fault escapes, and the run does not end with an exit code. -/
theorem run_escaping_close :
    let s : Streams :=
      { source := [.data [0x61]]
        sink :=
          { plan :=
              { refusals := [⟨0, .numbered .brokenPipe 32 "Broken pipe" none, 0⟩]
                closeFault? := some (.numbered .general 28 "No space left on device" none) } } }
    let outcome := run (.script "postnl") [] .accepting s
    (∀ fault, s.CanRaise fault → fault.isSystem) ∧
      firstFault? outcome.calls = some (.numbered .brokenPipe 32 "Broken pipe" none) ∧
      outcome.report.ending = .escaped (.numbered .general 28 "No space left on device" none) := by
  intro s outcome
  have hnamed : ∀ fault ∈ s.source.faults ++ s.sink.plan.faults, fault.isSystem := by decide
  refine ⟨fun fault hfault => hnamed fault hfault.mem_faults, ?_, ?_⟩
  · decide +kernel
  · decide +kernel

end FinalNewline.Command
