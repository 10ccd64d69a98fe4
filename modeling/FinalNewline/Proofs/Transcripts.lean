import FinalNewline.Session

/-!
# Reading transcripts

A transcript says more than which calls were made.  The values that its writes were
given are the output that was meant, its first fault is the one that decides how a run
ends, and replaying its calls on the streams on which they were made leads to the
streams that they left.

## Main Definitions

* `written` — the values given to the writes of a transcript
* `firstFault?`, `FailsWith` — the first fault of a transcript, and transcripts that end
  with their only fault
* `Streams.replay` — the streams that a transcript leaves

## Design Notes

`Streams.replay` does not look at how a call went according to the transcript: the
streams answer every call in their own way.  That the answers agree is a fact about
runs, not part of the definition.
-/

namespace FinalNewline

/-! ### The values written -/

/-- The value that a call was given to write, if it is a write. -/
def Call.written? : Call → Option Bytes
  | write value _ => some value
  | _ => none

/-- The values given to the writes of a transcript, in order. -/
def written (calls : List Call) : List Bytes :=
  calls.filterMap Call.written?

@[simp]
theorem written_nil : written [] = [] := rfl

@[simp]
theorem written_append (before after : List Call) :
    written (before ++ after) = written before ++ written after :=
  List.filterMap_append

@[simp]
theorem written_cons_read (received : Received) (calls : List Call) :
    written (.read received :: calls) = written calls := rfl

@[simp]
theorem written_cons_readFault (fault : Fault) (calls : List Call) :
    written (.readFault fault :: calls) = written calls := rfl

@[simp]
theorem written_cons_write (value : Bytes) (fault? : Option Fault) (calls : List Call) :
    written (.write value fault? :: calls) = value :: written calls := rfl

@[simp]
theorem written_cons_flush (fault? : Option Fault) (calls : List Call) :
    written (.flush fault? :: calls) = written calls := rfl

@[simp]
theorem written_cons_close (fault? : Option Fault) (calls : List Call) :
    written (.close fault? :: calls) = written calls := rfl

theorem Call.written?_eq_some_iff {call : Call} {x : Bytes} :
    call.written? = some x ↔ ∃ fault?, call = .write x fault? := by
  cases call <;> simp [written?]

/-- A transcript can be split at each of its writes. -/
theorem exists_eq_append_write {calls : List Call} {front back : List Bytes} {x : Bytes}
    (h : written calls = front ++ x :: back) :
    ∃ before fault? after, calls = before ++ .write x fault? :: after ∧ written before = front := by
  obtain ⟨first, rest, rfl, hfirst, hrest⟩ := List.filterMap_eq_append_iff.1 h
  obtain ⟨quiet, call, after, rfl, hquiet, hcall, -⟩ := List.filterMap_eq_cons_iff.1 hrest
  obtain ⟨fault?, rfl⟩ := Call.written?_eq_some_iff.1 hcall
  refine ⟨first ++ quiet, fault?, after, (List.append_assoc _ _ _).symm, ?_⟩
  have hquiet : written quiet = [] := List.filterMap_eq_nil_iff.2 hquiet
  rw [written_append, hquiet, List.append_nil]
  exact hfirst

/-! ### The first fault -/

/-- The first fault that was raised by a call of a transcript. -/
def firstFault? (calls : List Call) : Option Fault :=
  calls.findSome? Call.fault?

/-- The last call of the transcript raised this fault, and no other call raised one. -/
def FailsWith (calls : List Call) (fault : Fault) : Prop :=
  ∃ before call, calls = before ++ [call] ∧ firstFault? before = none ∧
    call.fault? = some fault

@[simp]
theorem firstFault?_nil : firstFault? [] = none := rfl

theorem firstFault?_cons (call : Call) (calls : List Call) :
    firstFault? (call :: calls) = call.fault?.or (firstFault? calls) := by
  cases h : call.fault? <;> simp [firstFault?, h]

theorem firstFault?_append (before after : List Call) :
    firstFault? (before ++ after) = (firstFault? before).or (firstFault? after) :=
  List.findSome?_append

theorem firstFault?_eq_none_iff {calls : List Call} :
    firstFault? calls = none ↔ ∀ call ∈ calls, call.fault? = none :=
  List.findSome?_eq_none_iff

theorem firstFault?_of_failsWith {calls : List Call} {fault : Fault}
    (h : FailsWith calls fault) : firstFault? calls = some fault := by
  obtain ⟨before, call, rfl, hbefore, hcall⟩ := h
  simp [firstFault?_append, firstFault?_cons, hbefore, hcall]

theorem firstFault?_of_head? {calls : List Call} {call : Call} {fault : Fault}
    (h : calls.head? = some call) (hcall : call.fault? = some fault) :
    firstFault? calls = some fault := by
  obtain ⟨rest, rfl⟩ := List.head?_eq_some_iff.1 h
  rw [firstFault?_cons, hcall]
  rfl

theorem failsWith_singleton {call : Call} {fault : Fault} (h : call.fault? = some fault) :
    FailsWith [call] fault :=
  ⟨[], call, rfl, rfl, h⟩

/-- A call without a fault may precede. -/
theorem FailsWith.cons {call : Call} {calls : List Call} {fault : Fault}
    (hcall : call.fault? = none) (h : FailsWith calls fault) :
    FailsWith (call :: calls) fault := by
  obtain ⟨before, last, rfl, hbefore, hlast⟩ := h
  refine ⟨call :: before, last, rfl, ?_, hlast⟩
  rw [firstFault?_cons, hcall, hbefore]
  rfl

/-! ### Single calls on streams -/

namespace Streams

theorem source_of_read {s t : Streams} {answer : Except Fault Received}
    (h : Channel.read s = (answer, t)) : s.source.read = (answer, t.source) := by
  obtain ⟨rfl, rfl⟩ := Prod.mk.inj h
  rfl

theorem sink_of_read {s t : Streams} {answer : Except Fault Received}
    (h : Channel.read s = (answer, t)) : t.sink = s.sink := by
  obtain ⟨-, rfl⟩ := Prod.mk.inj h
  rfl

theorem source_of_write {s t : Streams} {x : Bytes} {fault? : Option Fault}
    (h : Channel.write s x = (fault?, t)) : t.source = s.source := by
  obtain ⟨-, rfl⟩ := Prod.mk.inj h
  rfl

theorem fault_of_write {s t : Streams} {x : Bytes} {fault? : Option Fault}
    (h : Channel.write s x = (fault?, t)) :
    fault? = (s.sink.plan.respond s.sink.calls x).2 :=
  (congrArg Prod.fst h).symm

theorem plan_of_write {s t : Streams} {x : Bytes} {fault? : Option Fault}
    (h : Channel.write s x = (fault?, t)) : t.sink.plan = s.sink.plan := by
  obtain ⟨-, rfl⟩ := Prod.mk.inj h
  rfl

/-! ### Replaying a transcript -/

/-- The streams after a call like this one. -/
def replayCall (s : Streams) : Call → Streams
  | .read _ => s.read.2
  | .readFault _ => s.read.2
  | .write value _ => (s.write value).2
  | .flush _ => s.flush.2
  | .close _ => s.close.2

/-- The streams after calls like those of a transcript. -/
def replay (s : Streams) (calls : List Call) : Streams :=
  calls.foldl replayCall s

@[simp]
theorem replay_nil (s : Streams) : s.replay [] = s := rfl

@[simp]
theorem replay_cons (s : Streams) (call : Call) (calls : List Call) :
    s.replay (call :: calls) = (s.replayCall call).replay calls := rfl

theorem replay_append (s : Streams) (before after : List Call) :
    s.replay (before ++ after) = (s.replay before).replay after :=
  List.foldl_append

theorem source_replayCall_congr {s s' : Streams} (h : s.source = s'.source) (call : Call) :
    (s.replayCall call).source = (s'.replayCall call).source := by
  cases call with
  | read received => exact congrArg (·.read.2) h
  | readFault fault => exact congrArg (·.read.2) h
  | write value fault? => exact h
  | flush fault? => exact h
  | close fault? => exact h

/-- What a transcript leaves in the source depends on the source alone. -/
theorem source_replay_congr {s s' : Streams} (h : s.source = s'.source) (calls : List Call) :
    (s.replay calls).source = (s'.replay calls).source := by
  induction calls generalizing s s' with
  | nil => exact h
  | cons call calls ih => exact ih (source_replayCall_congr h call)

theorem plan_replayCall (s : Streams) (call : Call) :
    (s.replayCall call).sink.plan = s.sink.plan := by
  cases call <;> rfl

/-- No call changes the plan of the sink. -/
@[simp]
theorem plan_replay (s : Streams) (calls : List Call) :
    (s.replay calls).sink.plan = s.sink.plan := by
  induction calls generalizing s with
  | nil => rfl
  | cons call calls ih => rw [replay_cons, ih, plan_replayCall]

end Streams

end FinalNewline
