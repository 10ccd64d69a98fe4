import FinalNewline.Proofs.CallOrder
import FinalNewline.Proofs.Prints

/-!
# Runs that succeed

Exit code 0 is a promise: the arguments were understood, and what was asked for was done.
A relay keeps it in the strictest way, since none of its calls may fail.  The help text is
allowed interruptions, as long as each interrupted write is made again and that has an end.
A run without end keeps no promise and breaks none.  Only the help text can make one.

What a successful relay has done can be told without looking at plans or at faults that
were never met: it read up to the end of the stream, and no write on its way was refused.

## Main Definitions

* `Command.Ending.Fails` — a run has ended, and not with exit code 0

## Main Results

* `bytes_relay_of_success`, `relay_data_of_success` — what a relay that came to its end
  has stored
* `Command.Contained.fails`, `Command.Recovers.fails` — what contains a fault or recovers from
  it ends the run, and not with exit code 0
* `Command.run_succeeds` — when a run succeeds, and what it has done then
-/

namespace FinalNewline

/-- What waits as data is part of what the queue holds. -/
theorem Source.pendingBytes_le_length_bytes (source : Source) :
    source.pendingBytes ≤ source.bytes.length := by
  induction source with
  | nil => exact Nat.le_refl 0
  | cons event rest ih =>
    have hbytes : Source.bytes (event :: rest) = event.bytes ++ Source.bytes rest := rfl
    rw [hbytes, List.length_append]
    cases event with
    | data bytes => exact Nat.add_le_add_left ih bytes.length
    | _ => exact Nat.le_add_left_of_le ih

/-- A cap leaves values as they are that are not longer. -/
theorem Plan.clip_of_length_le {plan : Plan} {x : Bytes}
    (h : ∀ cap, plan.cap? = some cap → x.length ≤ cap) : plan.clip x = x := by
  unfold clip
  cases hcap : plan.cap? with
  | none => rfl
  | some cap => exact List.take_of_length_le (h cap hcap)

/-- If every value read is a single byte, so is every value written. -/
theorem length_of_mem_finishing {values : List Bytes} (h : ∀ x ∈ values, x.length = 1) :
    ∀ x ∈ finishing values, x.length = 1 := by
  intro x hx
  rcases List.mem_append.1 hx with hx | hx
  · exact h x hx
  · obtain ⟨-, rfl⟩ : _ ∧ x = terminator := by simpa using hx
    rfl

/-! ### Relays that come to their end -/

/-- A copy that fails nowhere closes with the end of its stream, and reads no more. -/
theorem Concludes.exists_end {owed : Bool} {ending : List Call} (h : Concludes owed ending none) :
    ∃ received after, ending = .read received :: after ∧ received.value = [] ∧
      ∀ call ∈ after, call.isRead = false := by
  cases h with
  | @complete received hend => exact ⟨received, [], rfl, hend, by simp⟩
  | @terminate received hend => exact ⟨received, _, rfl, hend, by simp [Call.isRead]⟩

/-- The last read of a relay that came to its end found the end of the stream. -/
theorem exists_last_read {σ : Type} [Channel σ] {s : σ} (h : (relay s).fault? = none) :
    ∃ before received after, (relay s).calls = before ++ .read received :: after ∧
      received.value = [] ∧ ∀ call ∈ after, call.isRead = false := by
  obtain ⟨values, ending, hcalls, -, hconcludes⟩ := exists_converses s
  rw [h] at hconcludes
  obtain ⟨received, after, rfl, hend, hafter⟩ := hconcludes.exists_end
  exact ⟨exchanges values, received, after, hcalls, hend, hafter⟩

/-- What a relay that came to its end has stored: all that it read, and the terminator if
one was owed, each as far as the cap lets it. -/
theorem bytes_relay_of_success {s : Streams} (h : (relay s).fault? = none) :
    (relay s).state.sink.bytes =
      s.sink.bytes ++ ((finishing s.source.values).map s.sink.plan.clip).flatten := by
  have hcopies := copies_relay s
  have hfirst : firstFault? (relay s).calls = none := hcopies.firstFault?_calls.trans h
  rw [hcopies.state_eq_replay, Streams.bytes_replay,
    Plan.accepted_of_not_refused (hcopies.answers.not_refused hfirst),
    hcopies.written_of_success h]
  rfl

/-- A relay of data that came to its end has left nothing to read, and has stored the
normalised data, unless not even single bytes are accepted. -/
theorem relay_data_of_success {s : Streams} (h : (relay s).fault? = none)
    (hdata : s.source.IsData) (hcap : ∀ cap, s.sink.plan.cap? = some cap → 1 ≤ cap) :
    (relay s).state.source.bytes = [] ∧
      (relay s).state.sink.bytes = s.sink.bytes ++ normalize s.source.bytes := by
  constructor
  · have hbooks := (copies_relay s).bytes_obtained
    rw [(copies_relay s).obtained_of_success h, Source.flatten_values_of_data hdata] at hbooks
    exact List.append_right_eq_self.1 hbooks.symm
  · -- Every value is a single byte, the terminator included, and so is accepted whole.
    have hclip : (finishing s.source.values).map s.sink.plan.clip = finishing s.source.values := by
      refine (List.map_congr_left (g := id) fun x hx => ?_).trans (List.map_id _)
      refine Plan.clip_of_length_le fun cap hcap' => ?_
      rw [length_of_mem_finishing (Source.length_of_mem_values_of_data hdata) x hx]
      exact hcap cap hcap'
    rw [bytes_relay_of_success h, hclip, flatten_finishing, finished_of_isData hdata]

namespace Command

/-! ### Runs that fail -/

/-- The run has ended, and not with exit code 0. -/
def Ending.Fails : Ending → Prop
  | exited code => code ≠ 0
  | escaped _ => True
  | endless _ => False

theorem Ending.Fails.ne_exited_zero {ending : Ending} (h : ending.Fails) :
    ending ≠ .exited 0 := by
  rintro rfl
  exact h rfl

theorem Ending.Fails.ne_endless {ending : Ending} (h : ending.Fails) (value : Bytes) :
    ending ≠ .endless value := by
  rintro rfl
  exact h

/-- A fault that was left to itself makes the run fail. -/
theorem Contained.fails {errors : ErrorStream} {fault : Fault} {report : Report}
    (h : Contained errors fault report) : report.ending.Fails := by
  cases h with
  | announced haborts herrors => exact Nat.one_ne_zero
  | unannounced haborts herrors hrefusal => exact Nat.one_ne_zero
  | replaced haborts herrors hrefusal => trivial
  | silenced hcode => exact Nat.one_ne_zero
  | escaped haborts hcode => trivial

theorem contain_fails (errors : ErrorStream) (fault : Fault) :
    (contain errors fault).ending.Fails :=
  (contained_iff.2 rfl : Contained errors fault (contain errors fault)).fails

/-- No recovery keeps the run from failing. -/
theorem Recovers.fails {errors : ErrorStream} {closeFault? : Option Fault} {fault : Fault}
    {report : Report} {after : List Call} (h : Recovers errors closeFault? fault report after) :
    report.ending.Fails := by
  cases h with
  | closed hpipe hclose => exact Nat.one_ne_zero
  | notClosed hpipe hclose hagain hcontained => exact hcontained.fails
  | reported hsystem hpipe herrors => exact Nat.one_ne_zero
  | notReported hsystem hpipe herrors hcontained => exact hcontained.fails
  | notHandled hsystem hcontained => exact hcontained.fails

/-- A run that fails still does so after an announcement. -/
theorem announce_fails {code : Nat} (h : code ≠ 0) (errors : ErrorStream)
    (messages : List String) : (announce errors messages code).ending.Fails := by
  unfold announce
  cases hsaid : (errors.say messages).2 with
  | none => simpa [hsaid, Ending.Fails] using h
  | some fault => by_cases haborts : fault.aborts <;> simp [hsaid, haborts, h, Ending.Fails]

/-- A relay run with a transfer that fails does so itself. -/
theorem body_fails {s : Streams} {fault : Fault} (h : (transfer s).fault? = some fault)
    (errors : ErrorStream) : (body errors s).report.ending.Fails := by
  obtain ⟨report, after, hrecovers, hrun⟩ :=
    exists_run_eq .byModule errors (transferFails_iff.2 ⟨h, rfl⟩)
  have hbody : body errors s = _ := hrun
  rw [hbody]
  exact hrecovers.fails

/-! ### Exit code 0 -/

/-- A relay run succeeds if and only if its transfer does. -/
theorem body_exits_zero_iff (errors : ErrorStream) (s : Streams) :
    (body errors s).report.ending = .exited 0 ↔ (transfer s).fault? = none := by
  cases htransfer : (transfer s).fault? with
  | none => simp [body_of_transfer htransfer errors]
  | some fault => simpa using (body_fails htransfer errors).ne_exited_zero

/-- A relay run has an end. -/
theorem body_ending_ne_endless (errors : ErrorStream) (s : Streams) (value : Bytes) :
    (body errors s).report.ending ≠ .endless value := by
  cases htransfer : (transfer s).fault? with
  | none => simp [body_of_transfer htransfer errors]
  | some fault => exact (body_fails htransfer errors).ne_endless value

/-- A relay run raises a fault in one of its calls if and only if its transfer does. -/
theorem firstFault?_body (errors : ErrorStream) (s : Streams) :
    firstFault? (body errors s).calls = none ↔ (transfer s).fault? = none := by
  have hcalls : (body errors s).calls = _ := calls_run .byModule errors s
  rw [hcalls, firstFault?_append, firstFault?_transfer]
  cases (transfer s).fault? <;> simp

/-- A failed call of a relay run is never made again. -/
theorem resumes_body_iff (errors : ErrorStream) (s : Streams) :
    Resumes (body errors s).calls ↔ (transfer s).fault? = none := by
  constructor
  · intro hresumes
    rw [Option.eq_none_iff_forall_ne_some]
    intro fault htransfer
    have hfails : TransferFails s (transfer s).calls fault :=
      transferFails_iff.2 ⟨htransfer, rfl⟩
    obtain ⟨before, call, hsplit, -, hcall⟩ := hfails.failsWith
    have hcalls : (body errors s).calls = _ := calls_run .byModule errors s
    rw [hcalls, hsplit, List.append_assoc] at hresumes
    refine not_resumes hcall ?_ hresumes
    by_cases hpipe : fault.isBrokenPipe <;> simp [htransfer, hpipe]
  · intro htransfer
    exact resumes_of_firstFault? ((firstFault?_body errors s).2 htransfer)

/-! ### The help text -/

section Help

variable {errors : ErrorStream} {program : String} {s : Streams}

theorem prints_printHelp (program : String) (s : Streams) :
    Streams.Prints Streams.bufferSize (line (helpText program)) s (printHelp program s) :=
  s.prints_print Streams.bufferSize _

theorem showHelp_of_endless {value : Bytes} (h : (printHelp program s).endless? = some value)
    (errors : ErrorStream) :
    (showHelp errors program s).report = { ending := .endless value } := by
  simp only [showHelp, h]

theorem showHelp_of_success (hends : (printHelp program s).endless? = none)
    (h : (printHelp program s).fault? = none) (errors : ErrorStream) :
    (showHelp errors program s).report = { ending := .exited 0 } := by
  simp only [showHelp, hends, h]

theorem showHelp_of_fault {fault : Fault} (hends : (printHelp program s).endless? = none)
    (h : (printHelp program s).fault? = some fault) (errors : ErrorStream) :
    (showHelp errors program s).report = contain errors fault := by
  simp only [showHelp, hends, h]

/-- A run that shows the help text has no end exactly when its print has none. -/
theorem showHelp_endless_iff {value : Bytes} :
    (showHelp errors program s).report.ending = .endless value ↔
      (printHelp program s).endless? = some value := by
  cases hends : (printHelp program s).endless? with
  | some other => simp [showHelp_of_endless hends]
  | none =>
    cases hfault : (printHelp program s).fault? with
    | none => simp [showHelp_of_success hends hfault]
    | some fault =>
      simpa [showHelp_of_fault hends hfault] using (contain_fails errors fault).ne_endless value

/-- It succeeds if it has an end, and each call that failed was made again. -/
theorem showHelp_exits_zero_iff :
    (showHelp errors program s).report.ending = .exited 0 ↔
      (∀ value, (showHelp errors program s).report.ending ≠ .endless value) ∧
        Resumes (showHelp errors program s).calls := by
  cases hends : (printHelp program s).endless? with
  | some value => simp [showHelp_of_endless hends]
  | none =>
    have hiff : _ ↔ Resumes (showHelp errors program s).calls :=
      (prints_printHelp program s).succeeds_iff hends
    rw [← hiff]
    cases hfault : (printHelp program s).fault? with
    | none => simp [showHelp_of_success hends hfault]
    | some fault =>
      simpa [showHelp_of_fault hends hfault] using (contain_fails errors fault).ne_exited_zero

/-- Some interruptions do not keep the help text from being printed. -/
theorem showHelp_of_interruptions (h : s.sink.plan.OnlyInterrupts) :
    (showHelp errors program s).report = { ending := .exited 0 } := by
  obtain ⟨hends, hfault⟩ := (prints_printHelp program s).succeeds h
  exact showHelp_of_success hends hfault errors

/-- If the first write of a print that has an end fails, whatever it is given, then its fault is
the first of all. -/
theorem firstFault?_showHelp {fault : Fault} (hends : (printHelp program s).endless? = none)
    (h : ∀ x, (s.write x).1 = some fault) :
    firstFault? (showHelp errors program s).calls = some fault := by
  obtain ⟨x, hhead⟩ := (prints_printHelp program s).exists_head? hends
  exact firstFault?_of_head? hhead (h x)

/-- If all writes are interrupted, then the run has no end. -/
theorem showHelp_of_interruptsFrom (h : s.sink.plan.InterruptsFrom s.sink.calls) :
    ∃ value, showHelp errors program s = ⟨{ ending := .endless value }, [], s⟩ := by
  obtain ⟨value, hprint⟩ :=
    Streams.print_of_interruptsFrom h Streams.bufferSize (line (helpText program))
  have hprint : printHelp program s = _ := hprint
  exact ⟨value, by rw [showHelp, hprint]; rfl⟩

end Help

/-! ### Runs -/

/-- A transfer that succeeds has made the calls of its relay and one flush, and left the
streams that the relay left. -/
theorem transfer_of_success {s : Streams} (h : (transfer s).fault? = none) :
    (relay s).fault? = none ∧ (transfer s).calls = (relay s).calls ++ [.flush none] := by
  cases hrelay : (relay s).fault? with
  | some fault =>
    rw [transfer_of_relayFault hrelay, hrelay] at h
    simp at h
  | none =>
    rw [transfer_of_relay hrelay] at h ⊢
    have hflush : s.sink.plan.flushFault? = none := h
    exact ⟨rfl, by rw [hflush]⟩

theorem run_of_relay {arguments : List String} (h : Request.ofArguments arguments = .relay)
    (invocation : Invocation) (errors : ErrorStream) (s : Streams) :
    run invocation arguments errors s = body errors s := by
  rw [run, h]

theorem run_of_help {arguments : List String} (h : Request.ofArguments arguments = .help)
    (invocation : Invocation) (errors : ErrorStream) (s : Streams) :
    run invocation arguments errors s = showHelp errors invocation.programName s := by
  rw [run, h]

theorem run_of_refuse {arguments : List String} {reason : UsageError}
    (h : Request.ofArguments arguments = .refuse reason)
    (invocation : Invocation) (errors : ErrorStream) (s : Streams) :
    run invocation arguments errors s =
      ⟨announce errors (reason.messages invocation.programName) 2, [], s⟩ := by
  rw [run, h]

/-- **Runs that succeed.**  A run ends with exit code 0 if and only if it has an end, its
arguments were understood, and each call that failed was an interrupted write that the next call
made again.  A run without end was asked for help, and goes on with a value of which every
further write is interrupted.  Where help was not asked for, no call of a run that succeeds has
failed at all.  A run that succeeds in relaying has read up to the end of the stream, has flushed
once and left the sink open, has said nothing, and leaves the streams as the relay alone does.
If all of its input was data, then nothing of it is left to read, and the sink holds the
normalised input. -/
theorem run_succeeds (invocation : Invocation) (arguments : List String) (errors : ErrorStream)
    (s : Streams) :
    let request := Request.ofArguments arguments
    let outcome := run invocation arguments errors s
    let relayed := relay s
    (outcome.report.ending = .exited 0 ↔
      (∀ value, outcome.report.ending ≠ .endless value) ∧
      (∀ reason, request ≠ .refuse reason) ∧ Resumes outcome.calls) ∧
    (∀ value, outcome.report.ending = .endless value →
      request = .help ∧ outcome.streams.Endless value) ∧
    (request ≠ .help →
      (outcome.report.ending = .exited 0 ↔
        (∀ reason, request ≠ .refuse reason) ∧ firstFault? outcome.calls = none)) ∧
    (request = .relay → outcome.report.ending = .exited 0 →
      (∃ before received after, relayed.calls = before ++ .read received :: after ∧
        received.value = [] ∧ ∀ call ∈ after, call.isRead = false) ∧
      outcome.calls = relayed.calls ++ [.flush none] ∧
      outcome.streams.sink.closed = s.sink.closed ∧
      outcome.report.text = "" ∧
      outcome.streams.sink.bytes = relayed.state.sink.bytes ∧
      outcome.streams.source = relayed.state.source ∧
      (s.source.IsData → (∀ cap, s.sink.plan.cap? = some cap → 1 ≤ cap) →
        outcome.streams.source.bytes = [] ∧ outcome.streams.source.pendingBytes = 0 ∧
        outcome.streams.sink.bytes = s.sink.bytes ++ normalize s.source.bytes)) := by
  intro request outcome relayed
  cases hrequest : request with
  | refuse reason =>
    have houtcome : outcome = _ := run_of_refuse hrequest invocation errors s
    have hfails : outcome.report.ending.Fails := by
      rw [houtcome]
      exact announce_fails (by decide) errors _
    simp [hfails.ne_exited_zero, hfails.ne_endless]
  | help =>
    have houtcome : outcome = _ := run_of_help hrequest invocation errors s
    rw [houtcome]
    refine ⟨?_, ?_, by simp, by simp⟩
    · simpa using showHelp_exits_zero_iff
    · intro value hvalue
      refine ⟨rfl, ?_⟩
      exact (prints_printHelp invocation.programName s).endless_state
        (showHelp_endless_iff.1 hvalue)
  | relay =>
    have houtcome : outcome = _ := run_of_relay hrequest invocation errors s
    have hends := body_exits_zero_iff errors s
    rw [houtcome]
    refine ⟨?_, ?_, ?_, ?_⟩
    · simpa [resumes_body_iff, body_ending_ne_endless] using hends
    · exact fun value hvalue => absurd hvalue (body_ending_ne_endless errors s value)
    · simpa [firstFault?_body] using hends
    · intro _ hending
      have htransfer := hends.1 hending
      obtain ⟨hrelay, hcalls⟩ := transfer_of_success htransfer
      rw [body_of_transfer htransfer errors, state_transfer]
      refine ⟨exists_last_read hrelay, hcalls, closed_relay s, rfl, rfl, rfl, ?_⟩
      intro hdata hcap
      obtain ⟨hnothing, hstored⟩ := relay_data_of_success hrelay hdata hcap
      refine ⟨hnothing, ?_, hstored⟩
      have := (relay s).state.source.pendingBytes_le_length_bytes
      rw [hnothing] at this
      exact Nat.le_zero.1 this

/-- The input ends just before the limit, and the cap lets single bytes pass.  The help text does
not arrive where each write is interrupted, and the run that was asked for it has no end. -/
theorem run_succeeds_within_limit :
    let s : Streams :=
      { source := [.data [0x61], .data [], .data [0x62]]
        sink := { plan := { limit? := some 3, cap? := some 1 } } }
    let interruption : Fault := .numbered .interrupted 4 "Interrupted system call" none
    let t : Streams := { sink := { plan := { limit? := some 0, limitFault := interruption } } }
    let outcome := run .byModule [] (.refusing (.other .memory "")) s
    let endless := run .byModule [helpOption] .accepting t
    s.source.IsData ∧ (∀ cap, s.sink.plan.cap? = some cap → 1 ≤ cap) ∧
      outcome.report.ending = .exited 0 ∧ outcome.streams.sink.bytes = [0x61, 0x62, 0x0A] ∧
      ∃ value, endless.report.ending = .endless value ∧ endless.streams.Endless value := by
  intro s interruption t outcome endless
  have hdata : s.source.IsData := by simp [s, Source.IsData]
  have hcap : ∀ cap, s.sink.plan.cap? = some cap → 1 ≤ cap := by simp [s]
  obtain ⟨-, -, hexits, hdone⟩ := run_succeeds .byModule [] (.refusing (.other .memory "")) s
  have hending : outcome.report.ending = .exited 0 :=
    (hexits (by decide)).2 ⟨by simp [Request.ofArguments, Arguments.scan], by decide +kernel⟩
  obtain ⟨-, -, -, -, -, -, hstored⟩ := hdone rfl hending
  have hinterrupted : t.sink.plan.InterruptsFrom t.sink.calls := by decide
  obtain ⟨value, hvalue⟩ : ∃ value, endless.report.ending = .endless value := by
    have hrequest : Request.ofArguments [helpOption] = .help := by decide
    have hendless : endless = _ := run_of_help hrequest .byModule .accepting t
    obtain ⟨value, hshown⟩ := showHelp_of_interruptsFrom hinterrupted
    exact ⟨value, by rw [hendless, hshown]⟩
  obtain ⟨-, hgoesOn, -, -⟩ := run_succeeds .byModule [helpOption] .accepting t
  refine ⟨hdata, hcap, hending, (hstored hdata hcap).2.2.trans ?_, value, hvalue,
    (hgoesOn value hvalue).2⟩
  decide

/-- The first write of the help text is interrupted and made again: the run succeeds, and
yet one of its calls has failed. -/
theorem run_succeeds_interrupted :
    let interruption : Fault := .numbered .interrupted 4 "Interrupted system call" none
    let s : Streams := { sink := { plan := { refusals := [⟨0, interruption, 0⟩] } } }
    let request := Request.ofArguments [helpOption]
    let outcome := run (.script "postnl") [helpOption] .accepting s
    outcome.report.ending = .exited 0 ∧ firstFault? outcome.calls = some interruption ∧
      ¬ (outcome.report.ending = .exited 0 ↔
        (∀ reason, request ≠ .refuse reason) ∧ firstFault? outcome.calls = none) := by
  intro interruption s request outcome
  have hrequest : request = .help := by decide
  have houtcome : outcome = _ := run_of_help hrequest (.script "postnl") .accepting s
  have hinterrupts : s.sink.plan.OnlyInterrupts := ⟨by decide, rfl, rfl⟩
  have hending : outcome.report.ending = .exited 0 := by
    rw [houtcome, showHelp_of_interruptions hinterrupts]
  have hfirst : firstFault? outcome.calls = some interruption := by
    rw [houtcome]
    exact firstFault?_showHelp ((prints_printHelp _ s).succeeds hinterrupts).1 fun _ => rfl
  refine ⟨hending, hfirst, ?_⟩
  intro hiff
  have hnone := (hiff.1 hending).2
  rw [hfirst] at hnone
  simp at hnone

end Command

end FinalNewline
