import FinalNewline.Proofs.Exchanges
import FinalNewline.Proofs.Recovery

/-!
# The order of calls

The calls of a run come in an order that no fault can disturb.  The relay reads and writes
in turns and never has more than one value in hand; the command flushes once if the relay
came to its end, and closes once if a pipe was found broken.

Statements about every moment of a run are statements about the prefixes of its
transcript.  Those on which calls may follow which others are pairwise: they relate each
call to all that come behind it.

## Main Definitions

* `InStep` — the values written keep up with the values obtained
* `Call.endsStream`, `Call.isRead` — what the pairwise statements speak of

## Main Results

* `Converses.inStep` — relays are in step at every moment
* `Command.calls_run` — the transcript of a run of the command
* `Command.calls_in_order` — all that is known about the order of calls
-/

namespace FinalNewline

/-! ### Reads and writes in step -/

/-- The values written keep up with the values obtained. -/
inductive InStep (calls : List Call) : Prop where
  /-- All values obtained have been written, and nothing else. -/
  | even (h : written calls = obtained calls)
  /-- One value has been obtained, but not yet written. -/
  | outstanding (x : Bytes) (h : obtained calls = written calls ++ [x])
  /-- The stream has ended, and a terminator has been written on top of the values. -/
  | terminated {received : Received} (hread : .read received ∈ calls)
      (hend : received.value = []) (h : written calls = obtained calls ++ [terminator])

/-- An exchange in front changes nothing. -/
theorem InStep.exchange {calls : List Call} (h : InStep calls) {x : Bytes} (hx : x ≠ []) :
    InStep (.read (.bytes x) :: .write x none :: calls) := by
  have hobtained : obtained (.read (.bytes x) :: .write x none :: calls) =
      x :: obtained calls :=
    obtained_cons_read_bytes hx _
  cases h with
  | even h => exact .even (by rw [hobtained, ← h]; rfl)
  | outstanding y h => exact .outstanding y (by rw [hobtained, h]; rfl)
  | terminated hread hend h =>
    refine .terminated (List.mem_cons_of_mem _ (List.mem_cons_of_mem _ hread)) hend ?_
    rw [hobtained, List.cons_append, ← h]
    rfl

/-- Calls behind that neither obtain nor write anything change nothing. -/
theorem InStep.append {calls after : List Call} (h : InStep calls)
    (hobtained : obtained after = []) (hwritten : written after = []) :
    InStep (calls ++ after) := by
  cases h with
  | even h => exact .even (by simpa [hobtained, hwritten] using h)
  | outstanding x h => exact .outstanding x (by simpa [hobtained, hwritten] using h)
  | terminated hread hend h =>
    exact .terminated (List.mem_append_left after hread) hend
      (by simpa [hobtained, hwritten] using h)

/-- A value that was obtained last is outstanding. -/
theorem inStep_singleton_read (received : Received) : InStep [.read received] := by
  by_cases hvalue : received.value = []
  · exact .even (obtained_cons_of_end hvalue []).symm
  · exact .outstanding received.value (obtained_cons_of_value hvalue [])

/-- A closing is in step at every moment. -/
theorem Concludes.inStep {owed : Bool} {ending : List Call} {fault? : Option Fault}
    (h : Concludes owed ending fault?) {moment : List Call} (hmoment : moment <+: ending) :
    InStep moment := by
  -- A moment of a closing is its beginning, the moment behind its read, or its end.
  cases h with
  | readFault fault =>
    rcases List.prefix_cons_iff.1 hmoment with rfl | ⟨rest, rfl, hrest⟩
    · exact .even rfl
    · obtain rfl := List.prefix_nil.1 hrest
      exact .even rfl
  | @writeFault _ x hvalue fault =>
    rcases List.prefix_cons_iff.1 hmoment with rfl | ⟨rest, rfl, hrest⟩
    · exact .even rfl
    rcases List.prefix_cons_iff.1 hrest with rfl | ⟨last, rfl, hlast⟩
    · exact inStep_singleton_read _
    · obtain rfl := List.prefix_nil.1 hlast
      refine .even ?_
      rw [obtained_cons_read_bytes hvalue]
      rfl
  | @complete received hend =>
    rcases List.prefix_cons_iff.1 hmoment with rfl | ⟨rest, rfl, hrest⟩
    · exact .even rfl
    · obtain rfl := List.prefix_nil.1 hrest
      exact inStep_singleton_read received
  | @terminate received hend fault? =>
    rcases List.prefix_cons_iff.1 hmoment with rfl | ⟨rest, rfl, hrest⟩
    · exact .even rfl
    rcases List.prefix_cons_iff.1 hrest with rfl | ⟨last, rfl, hlast⟩
    · exact inStep_singleton_read received
    · obtain rfl := List.prefix_nil.1 hlast
      refine .terminated List.mem_cons_self hend ?_
      rw [obtained_cons_of_end hend]
      rfl

/-- Exchanges in front of a transcript that is in step at every moment. -/
theorem inStep_of_prefix_exchanges {values : List Bytes} (hvalues : ∀ x ∈ values, x ≠ [])
    {ending : List Call} (hending : ∀ moment, moment <+: ending → InStep moment)
    {moment : List Call} (hmoment : moment <+: exchanges values ++ ending) : InStep moment := by
  induction values generalizing moment with
  | nil => exact hending moment hmoment
  | cons x xs ih =>
    have hx : x ≠ [] := hvalues x List.mem_cons_self
    rcases List.prefix_cons_iff.1 hmoment with rfl | ⟨rest, rfl, hrest⟩
    · exact .even rfl
    rcases List.prefix_cons_iff.1 hrest with rfl | ⟨later, rfl, hlater⟩
    · exact inStep_singleton_read _
    · exact (ih (fun y hy => hvalues y (List.mem_cons_of_mem x hy)) hlater).exchange hx

/-- A relay is in step at every moment. -/
theorem Converses.inStep {values : List Bytes} {ending calls : List Call}
    {fault? : Option Fault} (h : Converses values ending calls fault?) {moment : List Call}
    (hmoment : moment <+: calls) : InStep moment := by
  rw [h.calls_eq] at hmoment
  exact inStep_of_prefix_exchanges h.ne_nil (fun _ => h.concludes.inStep) hmoment

/-- Calls behind that neither obtain nor write anything leave all moments in step. -/
theorem inStep_of_prefix_append {calls after : List Call}
    (hcalls : ∀ moment, moment <+: calls → InStep moment)
    (hafter : ∀ call ∈ after, call.obtained? = none ∧ call.written? = none)
    {moment : List Call} (hmoment : moment <+: calls ++ after) : InStep moment := by
  rw [List.prefix_iff_eq_take.1 hmoment, List.take_append]
  have hmem : ∀ call ∈ after.take (moment.length - calls.length),
      call.obtained? = none ∧ call.written? = none :=
    fun call hcall => hafter call (List.mem_of_mem_take hcall)
  exact (hcalls _ (List.take_prefix _ calls)).append
    (List.filterMap_eq_nil_iff.2 fun call hcall => (hmem call hcall).1)
    (List.filterMap_eq_nil_iff.2 fun call hcall => (hmem call hcall).2)

/-! ### Calls behind others -/

/-- Is the call a read, whether or not it failed? -/
def Call.isRead : Call → Bool
  | read _ => true
  | readFault _ => true
  | _ => false

/-- Is the call a flush? -/
def Call.isFlush : Call → Bool
  | flush _ => true
  | _ => false

/-- Did the call find the end of the stream? -/
def Call.endsStream : Call → Bool
  | read received => received.value == []
  | _ => false

/-- Nothing is read behind the end of the stream. -/
def StopsReading (calls : List Call) : Prop :=
  calls.Pairwise fun earlier later => earlier.endsStream → later.isRead = false

/-- Calls without a read behind others that stop reading. -/
theorem StopsReading.append {calls after : List Call} (h : StopsReading calls)
    (hafter : ∀ call ∈ after, call.isRead = false) : StopsReading (calls ++ after) := by
  refine List.pairwise_append.2 ⟨h, ?_, fun _ _ later hlater _ => hafter later hlater⟩
  exact List.Pairwise.imp_of_mem (fun _ hlater _ _ => hafter _ hlater)
    (List.pairwise_of_forall fun _ _ => trivial)

theorem Concludes.stopsReading {owed : Bool} {ending : List Call} {fault? : Option Fault}
    (h : Concludes owed ending fault?) : StopsReading ending := by
  cases h with
  | readFault fault => exact List.pairwise_singleton _ _
  | writeFault hvalue fault => simp [StopsReading, Call.isRead]
  | complete hend => exact List.pairwise_singleton _ _
  | terminate hend fault? => simp [StopsReading, Call.isRead]

/-- A relay reads nothing behind the end of its stream. -/
theorem Converses.stopsReading {values : List Bytes} {ending calls : List Call}
    {fault? : Option Fault} (h : Converses values ending calls fault?) : StopsReading calls := by
  obtain ⟨rfl, hvalues, hconcludes⟩ := h
  generalize owes false values = owed at hconcludes
  induction values with
  | nil => exact hconcludes.stopsReading
  | cons x xs ih =>
    have hx : x ≠ [] := hvalues x List.mem_cons_self
    -- Neither call of an exchange finds the end of the stream.
    refine .cons ?_ (.cons ?_ (ih fun y hy => hvalues y (List.mem_cons_of_mem x hy)))
    · intro later hlater hend
      simp [Call.endsStream, Received.value, hx] at hend
    · intro later hlater hend
      simp [Call.endsStream] at hend

/-- A copy never flushes the sink. -/
theorem Copies.not_isFlush {σ : Type} [Channel σ] {owed : Bool} {s : σ} {run : Run σ}
    (h : Copies owed s run) : ∀ call ∈ run.calls, call.isFlush = false := by
  induction h with
  | readFault hread => simp [Call.isFlush]
  | complete hread hend => simp [Call.isFlush]
  | terminate hread hend hwrite => simp [Call.isFlush]
  | writeFault hread hvalue hwrite => simp [Call.isFlush]
  | step hread hvalue hwrite hrest ih => simpa [Run.after, Call.isFlush] using ih

/-- The only call behind one that failed is a close, and only if the fault was a broken
pipe. -/
def OnlyCloses (calls : List Call) : Prop :=
  calls.Pairwise fun earlier later =>
    ∀ fault, earlier.fault? = some fault → fault.isBrokenPipe ∧ later.isClose

/-- In a transcript without faults there is nothing to show. -/
theorem onlyCloses_of_firstFault? {calls : List Call} (h : firstFault? calls = none) :
    OnlyCloses calls := by
  refine List.Pairwise.imp_of_mem ?_ (List.pairwise_of_forall fun _ _ => trivial)
  intro earlier later hearlier _ _ fault hfault
  rw [firstFault?_eq_none_iff.1 h earlier hearlier] at hfault
  simp at hfault

/-- Behind a transcript that ends with its only fault, a close may stand if the pipe was
found broken. -/
theorem FailsWith.onlyCloses {calls : List Call} {fault : Fault} (h : FailsWith calls fault)
    {after : List Call}
    (hafter : after = [] ∨ fault.isBrokenPipe ∧ ∃ close?, after = [.close close?]) :
    OnlyCloses (calls ++ after) := by
  obtain ⟨before, call, rfl, hbefore, hcall⟩ := h
  rw [List.append_assoc]
  refine List.pairwise_append.2 ⟨onlyCloses_of_firstFault? hbefore, ?_, ?_⟩
  · rcases hafter with rfl | ⟨hpipe, close?, rfl⟩
    · exact List.pairwise_singleton _ _
    · refine List.pairwise_pair.2 fun raised hraised => ⟨?_, rfl⟩
      rwa [← Option.some.inj (hcall.symm.trans hraised)]
  · intro earlier hearlier later _ raised hraised
    rw [firstFault?_eq_none_iff.1 hbefore earlier hearlier] at hraised
    simp at hraised

namespace Command

/-! ### The transcript of a run -/

/-- The rules of recovery close the sink if the pipe was found broken, and else make no
call. -/
theorem Recovers.calls_eq {errors : ErrorStream} {closeFault? : Option Fault} {fault : Fault}
    {report : Report} {after : List Call} (h : Recovers errors closeFault? fault report after) :
    after = if fault.isBrokenPipe then [.close closeFault?] else [] := by
  cases h with
  | closed hpipe hclose => rw [if_pos hpipe]
  | notClosed hpipe hclose hagain hcontained => rw [if_pos hpipe, hclose]
  | reported hsystem hpipe herrors => rw [if_neg hpipe]
  | notReported hsystem hpipe herrors hcontained => rw [if_neg hpipe]
  | notHandled hsystem hcontained =>
    rw [if_neg fun hpipe => hsystem (Fault.isSystem_of_isBrokenPipe hpipe)]

/-- The calls of a run are those of its transfer, and a close behind them if a pipe was
found broken. -/
theorem calls_run (invocation : Invocation) (errors : ErrorStream) (s : Streams) :
    (run invocation [] errors s).calls =
      (transfer s).calls ++
        if (transfer s).fault?.any Fault.isBrokenPipe then [.close s.sink.plan.closeFault?]
        else [] := by
  cases htransfer : (transfer s).fault? with
  | none =>
    have hrun : run invocation [] errors s = _ := body_of_transfer htransfer errors
    rw [hrun]
    simp
  | some fault =>
    obtain ⟨report, after, hrecovers, hrun⟩ :=
      exists_run_eq invocation errors (transferFails_iff.2 ⟨htransfer, rfl⟩)
    rw [hrun, hrecovers.calls_eq]
    simp

/-- The calls of a transfer are those of its relay, and a flush behind them if the relay
came to its end. -/
theorem calls_transfer (s : Streams) :
    (transfer s).calls =
      (relay s).calls ++
        if (relay s).fault? = none then [.flush s.sink.plan.flushFault?] else [] := by
  cases hrelay : (relay s).fault? with
  | none => rw [transfer_of_relay hrelay, if_pos rfl]
  | some fault => rw [transfer_of_relayFault hrelay, if_neg (by simp), List.append_nil]

theorem onlyCloses_run (invocation : Invocation) (errors : ErrorStream) (s : Streams) :
    OnlyCloses (run invocation [] errors s).calls := by
  rw [calls_run]
  cases htransfer : (transfer s).fault? with
  | none =>
    refine onlyCloses_of_firstFault? ?_
    rw [firstFault?_append, firstFault?_transfer, htransfer]
    rfl
  | some fault =>
    have hfails : TransferFails s (transfer s).calls fault :=
      transferFails_iff.2 ⟨htransfer, rfl⟩
    refine hfails.failsWith.onlyCloses ?_
    by_cases hpipe : fault.isBrokenPipe
    · exact .inr ⟨hpipe, s.sink.plan.closeFault?, by simp [hpipe]⟩
    · exact .inl (by simp [hpipe])

/-- **The order of calls.**  A relay makes exchanges and closes in one of four ways, which
the last value exchanged decides where the stream has ended; it neither flushes nor closes
the sink.  A run of the command is a relay, a flush if the relay came to its end, and a
close if relay or flush found a pipe broken.  So at every moment the values written are
those that were obtained, but for one value in hand or the terminator at the end; nothing
is read behind the end of the stream; and nothing follows a call that failed but a close
behind a broken pipe. -/
theorem calls_in_order (invocation : Invocation) (errors : ErrorStream) (s : Streams) :
    let relayed := relay s
    let flushes := if relayed.fault? = none then [Call.flush s.sink.plan.flushFault?] else []
    let first? := firstFault? (relayed.calls ++ flushes)
    let closes :=
      if first?.any Fault.isBrokenPipe then [Call.close s.sink.plan.closeFault?] else []
    let calls := (run invocation [] errors s).calls
    (∃ values ending,
      Converses values ending relayed.calls relayed.fault? ∧
      (owes false values = true ↔ ∃ last, values.getLast? = some last ∧ last ≠ terminator) ∧
      ∀ values' ending' fault?, Converses values' ending' relayed.calls fault? →
        values' = values ∧ ending' = ending) ∧
    (∀ call ∈ relayed.calls, call.isFlush = false ∧ call.isClose = false) ∧
    calls = relayed.calls ++ flushes ++ closes ∧
    (∀ moment, moment <+: calls → InStep moment) ∧
    StopsReading calls ∧
    OnlyCloses calls := by
  intro relayed flushes first? closes calls
  obtain ⟨values, ending, hconverses⟩ := exists_converses s
  have hfirst : first? = (transfer s).fault? := by
    rw [← firstFault?_transfer, calls_transfer]
  have hcalls : calls = relayed.calls ++ flushes ++ closes := by
    show (run invocation [] errors s).calls = _ ++ if first?.any _ then _ else _
    rw [calls_run, calls_transfer, hfirst]
  have hquiet : ∀ call ∈ flushes ++ closes,
      call.obtained? = none ∧ call.written? = none ∧ call.isRead = false := by
    intro call hcall
    rcases List.mem_append.1 hcall with hflush | hclose
    · obtain ⟨-, rfl⟩ : _ ∧ call = .flush _ := by simpa [flushes] using hflush
      exact ⟨rfl, rfl, rfl⟩
    · obtain ⟨-, rfl⟩ : _ ∧ call = .close _ := by simpa [closes] using hclose
      exact ⟨rfl, rfl, rfl⟩
  refine ⟨⟨values, ending, hconverses, owes_false_iff, ?_⟩, ?_, hcalls, ?_, ?_,
    onlyCloses_run invocation errors s⟩
  · intro values' ending' fault? h
    exact hconverses.unique h
  · intro call hcall
    exact ⟨(copies_relay s).not_isFlush call hcall, (copies_relay s).not_isClose call hcall⟩
  · intro moment hmoment
    rw [hcalls, List.append_assoc] at hmoment
    exact inStep_of_prefix_append (fun _ => hconverses.inStep)
      (fun call hcall => ⟨(hquiet call hcall).1, (hquiet call hcall).2.1⟩) hmoment
  · rw [hcalls, List.append_assoc]
    exact hconverses.stopsReading.append fun call hcall => (hquiet call hcall).2.2

end Command

end FinalNewline
