import FinalNewline.Proofs.Prints
import FinalNewline.Proofs.Transfers
import Mathlib.Data.List.Forall2

/-!
# Sources that reads cannot tell apart

All that is ever learned about a source is how it answers reads.  If two sources answer alike
and go on to do so, then runs on them, with the same sink, proceed in lockstep: they make the
same calls, end with the same fault, and leave sinks that are the same and sources that are
again alike.  This holds of a relay, of a session and of the command as a whole.

What it means for sources to be alike is left open.  It is a relation that reads preserve, and
that is also preserved when events are queued behind the sources, since a session does that.

## Main Definitions

* `Source.Indistinct` — relations between sources that reads cannot tell apart
* `Streams.Alike`, `Run.Alike`, `Step.Alike`, `Command.Outcome.Alike` — what it is for the
  rest to be alike

## Main Results

* `Copies.exists_alike`, `relay_alike` — relays in lockstep
* `Streams.session_alike` — sessions in lockstep
* `Command.run_alike` — runs of the command in lockstep
-/

namespace FinalNewline

/-- Reads cannot tell related sources apart: they answer alike, stay related, and stay so
when related events are queued behind them. -/
structure Source.Indistinct (R : Source → Source → Prop) : Prop where
  refl : ∀ source, R source source
  answer_eq : ∀ {source other}, R source other → source.read.1 = other.read.1
  rest : ∀ {source other}, R source other → R source.read.2 other.read.2
  append : ∀ {source other events others}, R source other → R events others →
    R (source ++ events) (other ++ others)

variable {R : Source → Source → Prop}

/-- The sinks are the same, and the sources are related. -/
structure Streams.Alike (R : Source → Source → Prop) (s s' : Streams) : Prop where
  sink_eq : s.sink = s'.sink
  source : R s.source s'.source

/-- Streams that are alike are two sources in front of one sink. -/
theorem Streams.Alike.exists_sources {s s' : Streams} (h : s.Alike R s') :
    ∃ sink source source', s = ⟨source, sink⟩ ∧ s' = ⟨source', sink⟩ ∧ R source source' := by
  obtain ⟨source, sink⟩ := s
  obtain ⟨source', sink'⟩ := s'
  obtain ⟨hsink, hsource⟩ := h
  obtain rfl : sink = sink' := hsink
  exact ⟨sink, source, source', rfl, rfl, hsource⟩

/-- The runs made the same calls, ended in the same way, and left streams that are alike. -/
structure Run.Alike (R : Source → Source → Prop) (run run' : Run Streams) : Prop where
  calls_eq : run.calls = run'.calls
  fault?_eq : run.fault? = run'.fault?
  state : run.state.Alike R run'.state

theorem Run.Alike.after {run run' : Run Streams} (h : run.Alike R run') (past : List Call) :
    (run.after past).Alike R (run'.after past) :=
  ⟨congrArg (past ++ ·) h.calls_eq, h.fault?_eq, h.state⟩

/-! ### Relays -/

theorem Streams.Alike.exists_read (hR : Source.Indistinct R) {s s' t : Streams}
    {answer : Except Fault Received} (h : s.Alike R s') (hread : Channel.read s = (answer, t)) :
    ∃ t', Channel.read s' = (answer, t') ∧ t.Alike R t' := by
  obtain ⟨rfl, rfl⟩ := Prod.mk.inj hread
  refine ⟨(Channel.read s').2, Prod.ext ?_ rfl, h.sink_eq, hR.rest h.source⟩
  exact (hR.answer_eq h.source).symm

theorem Streams.Alike.exists_write {s s' t : Streams} {x : Bytes} {fault? : Option Fault}
    (h : s.Alike R s') (hwrite : Channel.write s x = (fault?, t)) :
    ∃ t', Channel.write s' x = (fault?, t') ∧ t.Alike R t' := by
  obtain ⟨sink, source, source', rfl, rfl, hsource⟩ := h.exists_sources
  obtain ⟨rfl, rfl⟩ := Prod.mk.inj hwrite
  exact ⟨_, rfl, rfl, hsource⟩

/-- A copy can be made in the same way on streams that are alike. -/
theorem Copies.exists_alike (hR : Source.Indistinct R) {owed : Bool} {s s' : Streams}
    {run : Run Streams} (h : Copies owed s run) (halike : s.Alike R s') :
    ∃ run', Copies owed s' run' ∧ run.Alike R run' := by
  induction h generalizing s' with
  | readFault hread =>
    obtain ⟨t', hread', ht⟩ := halike.exists_read hR hread
    exact ⟨_, .readFault hread', rfl, rfl, ht⟩
  | complete hread hend =>
    obtain ⟨t', hread', ht⟩ := halike.exists_read hR hread
    exact ⟨_, .complete hread' hend, rfl, rfl, ht⟩
  | terminate hread hend hwrite =>
    obtain ⟨t', hread', ht⟩ := halike.exists_read hR hread
    obtain ⟨u', hwrite', hu⟩ := ht.exists_write hwrite
    exact ⟨_, .terminate hread' hend hwrite', rfl, rfl, hu⟩
  | writeFault hread hvalue hwrite =>
    obtain ⟨t', hread', ht⟩ := halike.exists_read hR hread
    obtain ⟨u', hwrite', hu⟩ := ht.exists_write hwrite
    exact ⟨_, .writeFault hread' hvalue hwrite', rfl, rfl, hu⟩
  | step hread hvalue hwrite hrest ih =>
    obtain ⟨t', hread', ht⟩ := halike.exists_read hR hread
    obtain ⟨u', hwrite', hu⟩ := ht.exists_write hwrite
    obtain ⟨run', hrest', hrun⟩ := ih hu
    exact ⟨_, .step hread' hvalue hwrite' hrest', hrun.after _⟩

/-- Relays on streams that are alike proceed in lockstep. -/
theorem relay_alike (hR : Source.Indistinct R) {s s' : Streams} (h : s.Alike R s') :
    (relay s).Alike R (relay s') := by
  obtain ⟨run', hcopies, hrun⟩ := (copies_relay s).exists_alike hR h
  obtain rfl : run' = relay s' := hcopies.eq_copy
  exact hrun

/-! ### Sessions -/

/-- The steps are the same, or they feed events that are related. -/
inductive Step.Alike (R : Source → Source → Prop) : Step → Step → Prop where
  | same (step : Step) : Alike R step step
  | feed {events others : List Event} (h : R events others) : Alike R (.feed events) (.feed others)

/-- A step has the same answer on streams that are alike, and leaves them alike. -/
theorem Streams.step_alike (hR : Source.Indistinct R) {s s' : Streams} (h : s.Alike R s')
    {step step' : Step} (hstep : step.Alike R step') :
    (s.step step).1 = (s'.step step').1 ∧ (s.step step).2.Alike R (s'.step step').2 := by
  have hrelay := relay_alike hR h
  obtain ⟨sink, source, source', rfl, rfl, hsource⟩ := h.exists_sources
  cases hstep with
  | feed hevents => exact ⟨rfl, rfl, hR.append hsource hevents⟩
  | same step =>
    cases step with
    | relay => exact ⟨congrArg₂ Reply.relayed hrelay.calls_eq hrelay.fault?_eq, hrelay.state⟩
    | feed events => exact ⟨rfl, rfl, hR.append hsource (hR.refl events)⟩
    | plan plan => exact ⟨rfl, rfl, hsource⟩
    | drain => exact ⟨rfl, rfl, hsource⟩
    | loop => exact ⟨rfl, rfl, hR.append hsource (hR.refl _)⟩

/-- Sessions on streams that are alike, with steps that are alike, proceed in lockstep. -/
theorem Streams.session_alike (hR : Source.Indistinct R) {s s' : Streams} (h : s.Alike R s')
    {steps steps' : List Step} (hsteps : List.Forall₂ (Step.Alike R) steps steps') :
    List.Forall₂ (fun entry entry' => entry.1 = entry'.1 ∧ entry.2.Alike R entry'.2)
      (s.session steps) (s'.session steps') := by
  induction hsteps generalizing s s' with
  | nil => exact .nil
  | cons hstep _ ih =>
    have hfirst := Streams.step_alike hR h hstep
    exact .cons hfirst (ih hfirst.2)

/-! ### Runs of the command -/

theorem Run.Alike.thenFlush {run run' : Run Streams} (h : run.Alike R run') :
    run.thenFlush.Alike R run'.thenFlush := by
  cases hfault : run.fault? with
  | some fault =>
    rw [Run.thenFlush_of_fault hfault, Run.thenFlush_of_fault (h.fault?_eq ▸ hfault)]
    exact h
  | none =>
    rw [Run.thenFlush_of_success hfault, Run.thenFlush_of_success (h.fault?_eq ▸ hfault),
      h.calls_eq, h.state.sink_eq]
    exact ⟨rfl, rfl, h.state⟩

namespace Command

/-- The runs ended in the same way, said the same and made the same calls, and left streams
that are alike. -/
structure Outcome.Alike (R : Source → Source → Prop) (outcome outcome' : Outcome) : Prop where
  report_eq : outcome.report = outcome'.report
  calls_eq : outcome.calls = outcome'.calls
  streams : outcome.streams.Alike R outcome'.streams

/-- A recovery looks at the sink alone, and only to close it. -/
theorem recover_alike {s s' : Streams} (h : s.Alike R s') (errors : ErrorStream) (fault : Fault)
    (calls : List Call) :
    (recover errors fault calls s).Alike R (recover errors fault calls s') := by
  obtain ⟨sink, source, source', rfl, rfl, hsource⟩ := h.exists_sources
  unfold recover
  by_cases hpipe : fault.isBrokenPipe
  · simp only [if_pos hpipe]
    exact ⟨rfl, rfl, rfl, hsource⟩
  · by_cases hsystem : fault.isSystem
    · simp only [if_neg hpipe, if_pos hsystem]
      exact ⟨rfl, rfl, rfl, hsource⟩
    · simp only [if_neg hpipe, if_neg hsystem]
      exact ⟨rfl, rfl, rfl, hsource⟩

theorem body_alike (hR : Source.Indistinct R) {s s' : Streams} (h : s.Alike R s')
    (errors : ErrorStream) : (body errors s).Alike R (body errors s') := by
  have htransfer : (transfer s).Alike R (transfer s') := (relay_alike hR h).thenFlush
  unfold body
  simp only [htransfer.calls_eq, htransfer.fault?_eq]
  cases (transfer s').fault? with
  | none => exact ⟨rfl, rfl, htransfer.state⟩
  | some fault => exact recover_alike htransfer.state errors fault _

/-- A print does not depend on the source at all. -/
theorem showHelp_alike {s s' : Streams} (h : s.Alike R s') (errors : ErrorStream)
    (program : String) : (showHelp errors program s).Alike R (showHelp errors program s') := by
  obtain ⟨sink, source, source', rfl, rfl, hsource⟩ := h.exists_sources
  have hprint : printHelp program ⟨source', sink⟩ =
      (printHelp program ⟨source, sink⟩).withSource source' :=
    Streams.print_with_source Streams.bufferSize ⟨source, sink⟩ (line (helpText program)) source'
  have hkept : (printHelp program ⟨source, sink⟩).state.source = source :=
    Streams.source_print Streams.bufferSize ⟨source, sink⟩ (line (helpText program))
  unfold showHelp
  rw [hprint]
  cases hcase : printHelp program ⟨source, sink⟩ with
  | ended run =>
    rw [hcase] at hkept
    exact ⟨rfl, rfl, rfl, hkept ▸ hsource⟩
  | endless calls state value =>
    rw [hcase] at hkept
    exact ⟨rfl, rfl, rfl, hkept ▸ hsource⟩

/-- Runs of the command on streams that are alike proceed in lockstep. -/
theorem run_alike (hR : Source.Indistinct R) {s s' : Streams} (h : s.Alike R s')
    (invocation : Invocation) (arguments : List String) (errors : ErrorStream) :
    (run invocation arguments errors s).Alike R (run invocation arguments errors s') := by
  unfold run
  cases Request.ofArguments arguments with
  | relay => exact body_alike hR h errors
  | help => exact showHelp_alike h errors _
  | refuse reason => exact ⟨rfl, rfl, h⟩

end Command

end FinalNewline
