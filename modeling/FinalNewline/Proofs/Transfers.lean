import FinalNewline.Command.Run
import FinalNewline.Proofs.Copies
import FinalNewline.Proofs.Plans
import FinalNewline.Proofs.Sources

/-!
# How a transfer fails

A transfer is a relay and, if that went well, a flush.  There are thus two ways for it to
fail, and in both of them the fault belongs to the last call of its transcript.  Neither
the relay nor the flush closes the sink, and the flush leaves the streams as they are, so
whoever has to recover finds the streams that the relay has left.

Whatever fault is raised on some streams was there from the start: the source held it as
an event, or the plan of the sink named it.

## Main Definitions

* `TransferFails` — the two ways for a transfer to fail
* `Streams.CanRaise` — the faults that calls on some streams can raise

## Main Results

* `transferFails_iff` — these are the transfers that fail
* `TransferFails.failsWith`, `TransferFails.not_isClose` — their transcripts
* `TransferFails.canRaise` — their faults
-/

namespace FinalNewline

/-! ### Calls that close the sink -/

/-- Does the call close the sink? -/
def Call.isClose : Call → Bool
  | close _ => true
  | _ => false

/-- A copy never closes the sink. -/
theorem Copies.not_isClose {σ : Type} [Channel σ] {owed : Bool} {s : σ} {run : Run σ}
    (h : Copies owed s run) : ∀ call ∈ run.calls, call.isClose = false := by
  induction h with
  | readFault hread => simp [Call.isClose]
  | complete hread hend => simp [Call.isClose]
  | terminate hread hend hwrite => simp [Call.isClose]
  | writeFault hread hvalue hwrite => simp [Call.isClose]
  | step hread hvalue hwrite hrest ih => simpa [Run.after, Call.isClose] using ih

/-- After a transcript the sink is closed if it was so before, or if a call closed it. -/
theorem Streams.closed_replay (s : Streams) (calls : List Call) :
    (s.replay calls).sink.closed = (s.sink.closed || calls.any Call.isClose) := by
  induction calls generalizing s with
  | nil => simp
  | cons call calls ih =>
    rw [replay_cons, ih]
    cases call with
    | read received => rfl
    | readFault fault => rfl
    | write value fault? => rfl
    | flush fault? => rfl
    | close fault? => simp [replayCall, close, Sink.close, Call.isClose]

/-- A relay leaves the sink open or closed, as it finds it. -/
theorem closed_relay (s : Streams) : (relay s).state.sink.closed = s.sink.closed := by
  have hopen : (relay s).calls.any Call.isClose = false := by
    rw [List.any_eq_false]
    intro call hcall
    simp [(copies_relay s).not_isClose call hcall]
  rw [(copies_relay s).state_eq_replay, Streams.closed_replay, hopen, Bool.or_false]

/-- A relay does not change the plan of the sink. -/
theorem plan_relay (s : Streams) : (relay s).state.sink.plan = s.sink.plan := by
  rw [(copies_relay s).state_eq_replay, Streams.plan_replay]

/-! ### The faults that can be raised -/

/-- Some call on a sink under the plan can raise the fault: a write, the flush or the
close. -/
def Plan.CanRaise (plan : Plan) (fault : Fault) : Prop :=
  (∃ call x, (plan.respond call x).2 = some fault) ∨
    plan.flushFault? = some fault ∨ plan.closeFault? = some fault

/-- Some call on the streams can raise the fault. -/
def Streams.CanRaise (s : Streams) (fault : Fault) : Prop :=
  fault ∈ s.source.faults ∨ s.sink.plan.CanRaise fault

/-- The faults that a plan names, whether or not a call can raise them. -/
def Plan.faults (plan : Plan) : List Fault :=
  plan.refusals.map Refusal.fault ++ (plan.limit?.map fun _ => plan.limitFault).toList ++
    plan.flushFault?.toList ++ plan.closeFault?.toList

/-- A write that fails does so with a fault that the plan names. -/
theorem Plan.mem_faults_of_respond {plan : Plan} {call : Nat} {x : Bytes} {fault : Fault}
    (h : (plan.respond call x).2 = some fault) : fault ∈ plan.faults := by
  rw [respond_snd, Option.map_eq_some_iff] at h
  obtain ⟨refusal, hrefused, rfl⟩ := h
  unfold refusalAt? at hrefused
  cases hown : plan.refusal? call with
  | some own =>
    have hmem : own ∈ plan.refusals := List.mem_reverse.1 (List.mem_of_find?_eq_some hown)
    obtain rfl : own = refusal := by simpa [hown] using hrefused
    simp only [faults, List.mem_append]
    exact .inl (.inl (.inl (List.mem_map_of_mem hmem)))
  | none =>
    rw [hown, Option.none_or] at hrefused
    split at hrefused
    · rename_i hlimit
      obtain ⟨limit, hsome, -⟩ := (Option.any_eq_true _ _).1 hlimit
      obtain rfl := Option.some.inj hrefused
      simp [faults, hsome]
    · simp at hrefused

/-- A fault that can be raised is held by the source or named by the plan. -/
theorem Streams.CanRaise.mem_faults {s : Streams} {fault : Fault} (h : s.CanRaise fault) :
    fault ∈ s.source.faults ++ s.sink.plan.faults := by
  rcases h with hsource | ⟨call, x, hwrite⟩ | hflush | hclose
  · exact List.mem_append_left _ hsource
  · exact List.mem_append_right _ (Plan.mem_faults_of_respond hwrite)
  · simp [Plan.faults, hflush]
  · simp [Plan.faults, hclose]

theorem Streams.canRaise_of_write {s t u : Streams} {answer : Except Fault Received} {x : Bytes}
    {fault : Fault} (hread : Channel.read s = (answer, t))
    (hwrite : Channel.write t x = (some fault, u)) : s.CanRaise fault := by
  refine .inr (.inl ⟨t.sink.calls, x, ?_⟩)
  rw [← sink_of_read hread]
  exact (fault_of_write hwrite).symm

/-- The fault with which a copy ends is one that its streams can raise. -/
theorem Copies.canRaise {owed : Bool} {s : Streams} {run : Run Streams} {fault : Fault}
    (h : Copies owed s run) (hfault : run.fault? = some fault) : s.CanRaise fault := by
  induction h with
  | readFault hread =>
    obtain rfl := Option.some.inj hfault
    refine .inl ?_
    rw [Source.faults_of_readFault (Streams.source_of_read hread)]
    exact List.mem_cons_self
  | complete hread hend => simp at hfault
  | terminate hread hend hwrite =>
    obtain rfl : _ = some fault := hfault
    exact Streams.canRaise_of_write hread hwrite
  | writeFault hread hvalue hwrite =>
    obtain rfl := Option.some.inj hfault
    exact Streams.canRaise_of_write hread hwrite
  | step hread hvalue hwrite hrest ih =>
    have := ih hfault
    rwa [Streams.CanRaise, Streams.source_of_write hwrite, Streams.plan_of_write hwrite,
      Streams.sink_of_read hread, ← Source.faults_of_read (Streams.source_of_read hread)] at this

namespace Command

/-! ### Failing transfers -/

/-- The two ways for a transfer to fail, with the calls it has made by then. -/
inductive TransferFails (s : Streams) : List Call → Fault → Prop where
  /-- The relay fails. -/
  | byRelay {fault : Fault} (hrelay : (relay s).fault? = some fault) :
      TransferFails s (relay s).calls fault
  /-- The relay goes well, but the flush fails. -/
  | byFlush {fault : Fault} (hrelay : (relay s).fault? = none)
      (hflush : s.sink.plan.flushFault? = some fault) :
      TransferFails s ((relay s).calls ++ [.flush (some fault)]) fault

variable {s : Streams} {calls : List Call} {fault : Fault}

theorem transfer_of_relayFault (h : (relay s).fault? = some fault) : transfer s = relay s := by
  rw [transfer, Run.thenFlush, h]

theorem transfer_of_relay (h : (relay s).fault? = none) :
    transfer s = ⟨(relay s).calls ++ [.flush s.sink.plan.flushFault?],
      s.sink.plan.flushFault?, (relay s).state⟩ := by
  have hflush : (relay s).state.flush = (s.sink.plan.flushFault?, (relay s).state) := by
    rw [← plan_relay s]
    rfl
  rw [transfer, Run.thenFlush, h]
  simp only [hflush]

/-- The flush leaves the streams as they are. -/
theorem state_transfer (s : Streams) : (transfer s).state = (relay s).state := by
  cases h : (relay s).fault? with
  | some fault => rw [transfer_of_relayFault h]
  | none => rw [transfer_of_relay h]

/-- These are the transfers that fail, and the calls that they make. -/
theorem transferFails_iff :
    TransferFails s calls fault ↔
      (transfer s).fault? = some fault ∧ (transfer s).calls = calls := by
  constructor
  · rintro (hrelay | ⟨hrelay, hflush⟩)
    · rw [transfer_of_relayFault hrelay]
      exact ⟨hrelay, rfl⟩
    · rw [transfer_of_relay hrelay, hflush]
      exact ⟨rfl, rfl⟩
  · rintro ⟨hfault, rfl⟩
    cases hrelay : (relay s).fault? with
    | some earlier =>
      rw [transfer_of_relayFault hrelay] at hfault ⊢
      exact .byRelay hfault
    | none =>
      rw [transfer_of_relay hrelay] at hfault ⊢
      have hflush : s.sink.plan.flushFault? = some fault := hfault
      simpa [hflush] using TransferFails.byFlush hrelay hflush

/-- A transfer makes no further call once one has failed. -/
theorem TransferFails.failsWith (h : TransferFails s calls fault) : FailsWith calls fault := by
  cases h with
  | byRelay hrelay => exact (copies_relay s).failsWith hrelay
  | byFlush hrelay hflush =>
    exact ⟨_, _, rfl, (copies_relay s).firstFault?_calls.trans hrelay, rfl⟩

/-- A transfer never closes the sink. -/
theorem TransferFails.not_isClose (h : TransferFails s calls fault) :
    ∀ call ∈ calls, call.isClose = false := by
  intro call hcall
  cases h with
  | byRelay hrelay => exact (copies_relay s).not_isClose call hcall
  | byFlush hrelay hflush =>
    rcases List.mem_append.1 hcall with hcall | hcall
    · exact (copies_relay s).not_isClose call hcall
    · obtain rfl := List.mem_singleton.1 hcall
      rfl

/-- A transfer fails with a fault that its streams can raise. -/
theorem TransferFails.canRaise (h : TransferFails s calls fault) : s.CanRaise fault := by
  cases h with
  | byRelay hrelay => exact (copies_relay s).canRaise hrelay
  | byFlush hrelay hflush => exact .inr (.inr (.inl hflush))

/-- A transfer that does not fail makes no call that fails. -/
theorem firstFault?_transfer (s : Streams) :
    firstFault? (transfer s).calls = (transfer s).fault? := by
  cases h : (transfer s).fault? with
  | some fault =>
    have hfails : TransferFails s (transfer s).calls fault := transferFails_iff.2 ⟨h, rfl⟩
    exact firstFault?_of_failsWith hfails.failsWith
  | none =>
    cases hrelay : (relay s).fault? with
    | some fault => rw [transfer_of_relayFault hrelay, hrelay] at h; simp at h
    | none =>
      rw [transfer_of_relay hrelay] at h ⊢
      rw [firstFault?_append, (copies_relay s).firstFault?_calls, hrelay]
      simpa [firstFault?_cons, Call.fault?] using h

end Command

end FinalNewline
