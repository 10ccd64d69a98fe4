import FinalNewline.Session

/-!
# Printing texts

A text goes to a byte stream through a small buffer, and the buffer shows in the calls
that the stream gets to see.

Before its first text the buffer is handed an empty one, to find out whether the stream
takes texts at all, and this empty text waits in the buffer.  A text that fits into the
buffer joins it, and both are written in one call.  A text that does not fit makes the
buffer write out first what it holds, which is a call that writes nothing, and is then
written in a call of its own.

A write that is interrupted is repeated, with all its bytes, even if some of them were
accepted.  Neither the relay nor a flush does such a thing.  Nothing but another answer ends
the repetition, and a plan can interrupt every write from some call on.  A print that comes
to such a write has no end.  It is told apart from the prints that end, however long they
take, by looking ahead in the plan.

## Main Definitions

* `Plan.InterruptsFrom` — every write from some call on is interrupted
* `Print` — how a print goes: to an end, or on and on
* `Streams.insist` — a write that is repeated as long as it is interrupted
* `Streams.print` — a text, and the flush behind it
-/

namespace FinalNewline

/-- Does the fault say that a call was interrupted, and may be made again? -/
def Fault.isInterruption (e : Fault) : Bool :=
  e.code? == some 4

namespace Plan

/-! ### Looking ahead in a plan -/

/-- Does the plan interrupt this write call?  It does not matter what is written. -/
def interrupts (plan : Plan) (call : Nat) : Bool :=
  (plan.respond call []).2.any Fault.isInterruption

/-- The plan interrupts every write call from this one on. -/
def InterruptsFrom (plan : Plan) (call : Nat) : Prop :=
  ∀ later, call ≤ later → plan.interrupts later

/-- The write call behind the last one that has a refusal of its own. -/
def refusalsEnd (plan : Plan) : Nat :=
  plan.refusals.foldr (fun refusal bound => max (refusal.call + 1) bound) 0

/-- Are so many write calls interrupted, from this one on? -/
def interruptsNext (plan : Plan) (call : Nat) : Nat → Bool
  | 0 => true
  | count + 1 => plan.interrupts call && plan.interruptsNext (call + 1) count

theorem fault_respond (plan : Plan) (call : Nat) (x y : Bytes) :
    (plan.respond call x).2 = (plan.respond call y).2 := by
  unfold respond
  split
  · rfl
  · split
    · rfl
    · split <;> rfl

theorem any_respond (plan : Plan) (call : Nat) (x : Bytes) :
    (plan.respond call x).2.any Fault.isInterruption = plan.interrupts call := by
  rw [interrupts, plan.fault_respond call x []]

theorem call_lt_refusalsEnd {plan : Plan} {refusal : Refusal} (h : refusal ∈ plan.refusals) :
    refusal.call < plan.refusalsEnd := by
  unfold refusalsEnd
  generalize plan.refusals = refusals at h
  induction refusals with
  | nil => simp at h
  | cons first refusals ih =>
    rw [List.foldr_cons]
    rcases List.mem_cons.1 h with rfl | h
    · omega
    · have := ih h
      omega

theorem refusal?_of_refusalsEnd_le {plan : Plan} {call : Nat} (h : plan.refusalsEnd ≤ call) :
    plan.refusal? call = none := by
  rw [refusal?, List.find?_eq_none]
  intro refusal hmem hcall
  have hlt := call_lt_refusalsEnd (List.mem_reverse.1 hmem)
  have hsame : refusal.call = call := by simpa using hcall
  omega

/-- Behind the last refusal, a call is interrupted by the limit alone, and so are all that
follow it. -/
theorem interruptsFrom_of_refusalsEnd_le {plan : Plan} {call : Nat}
    (h : plan.refusalsEnd ≤ call) (hcall : plan.interrupts call) : plan.InterruptsFrom call := by
  intro later hlater
  have hnow := refusal?_of_refusalsEnd_le h
  have hthen := refusal?_of_refusalsEnd_le (Nat.le_trans h hlater)
  unfold interrupts respond at hcall ⊢
  simp only [hnow, hthen] at hcall ⊢
  cases hlimit : plan.limit? with
  | none =>
    rw [hlimit] at hcall
    cases hcap : plan.cap? <;> simp [hcap] at hcall
  | some limit =>
    rw [hlimit] at hcall
    by_cases hle : limit ≤ call
    · have hle' : limit ≤ later := Nat.le_trans hle hlater
      simpa [hle, hle'] using hcall
    · cases hcap : plan.cap? <;> simp [hle, hcap] at hcall

theorem InterruptsFrom.of_succ {plan : Plan} {call : Nat} (h : plan.InterruptsFrom (call + 1))
    (hcall : plan.interrupts call) : plan.InterruptsFrom call := by
  intro later hlater
  rcases Nat.eq_or_lt_of_le hlater with rfl | hlater
  · exact hcall
  · exact h later hlater

theorem interruptsNext_iff {plan : Plan} {call count : Nat} :
    plan.interruptsNext call count ↔ ∀ i < count, plan.interrupts (call + i) := by
  induction count generalizing call with
  | zero => simp [interruptsNext]
  | succ count ih =>
    rw [interruptsNext, Bool.and_eq_true, ih]
    constructor
    · rintro ⟨hcall, hnext⟩ i hi
      cases i with
      | zero => exact hcall
      | succ i =>
        have := hnext i (Nat.lt_of_succ_lt_succ hi)
        rwa [Nat.add_right_comm] at this
    · intro h
      refine ⟨h 0 (Nat.succ_pos count), fun i hi => ?_⟩
      have := h (i + 1) (Nat.succ_lt_succ hi)
      rwa [← Nat.add_assoc, Nat.add_right_comm] at this

/-- It suffices to look one call further than the last refusal. -/
theorem interruptsNext_refusalsEnd_iff {plan : Plan} {call : Nat} :
    plan.interruptsNext call (plan.refusalsEnd - call + 1) ↔ plan.InterruptsFrom call := by
  rw [interruptsNext_iff]
  constructor
  · intro h later hlater
    by_cases hnear : later - call < plan.refusalsEnd - call + 1
    · have := h (later - call) hnear
      rwa [Nat.add_sub_cancel' hlater] at this
    · have hlast := h (plan.refusalsEnd - call) (Nat.lt_succ_self _)
      refine interruptsFrom_of_refusalsEnd_le ?_ hlast later ?_ <;> omega
  · intro h i _
    exact h (call + i) (Nat.le_add_right call i)

instance (plan : Plan) (call : Nat) : Decidable (plan.InterruptsFrom call) :=
  decidable_of_iff _ interruptsNext_refusalsEnd_iff

end Plan

namespace Run

/-- The same run with a flush behind it, unless the run has failed. -/
def thenFlush (run : Run Streams) : Run Streams :=
  match run.fault? with
  | some _ => run
  | none =>
    let flushed := run.state.flush
    ⟨run.calls ++ [.flush flushed.1], flushed.1, flushed.2⟩

end Run

/-- How a print goes. -/
inductive Print where
  /-- It comes to an end, well or with a fault. -/
  | ended (run : Run Streams)
  /-- It has no end.  Behind the calls made so far, on the streams as they were left, one
  value is written over and over. -/
  | endless (calls : List Call) (state : Streams) (value : Bytes)

namespace Print

/-- The calls made, those that are made over and over apart. -/
def calls : Print → List Call
  | ended run => run.calls
  | endless calls _ _ => calls

/-- The fault with which the print ended, if it did so. -/
def fault? : Print → Option Fault
  | ended run => run.fault?
  | endless _ _ _ => none

/-- The streams that the calls left. -/
def state : Print → Streams
  | ended run => run.state
  | endless _ state _ => state

/-- The value that is written over and over, if the print has no end. -/
def endless? : Print → Option Bytes
  | ended _ => none
  | endless _ _ value => some value

/-- The same print, preceded by other calls. -/
def after (past : List Call) : Print → Print
  | ended run => .ended (run.after past)
  | endless calls state value => .endless (past ++ calls) state value

/-- The same print with a flush behind it, unless it has failed or has no end. -/
def thenFlush : Print → Print
  | ended run => .ended run.thenFlush
  | endless calls state value => .endless calls state value

section After

variable (past : List Call) (print : Print)

@[simp]
theorem calls_after : (print.after past).calls = past ++ print.calls := by
  cases print <;> rfl

@[simp]
theorem fault?_after : (print.after past).fault? = print.fault? := by
  cases print <;> rfl

@[simp]
theorem state_after : (print.after past).state = print.state := by
  cases print <;> rfl

@[simp]
theorem endless?_after : (print.after past).endless? = print.endless? := by
  cases print <;> rfl

end After

end Print

namespace Streams

/-- Writes a value, and writes it again as long as the write is interrupted, which it is not
for ever.  The calls made so far are `past`. -/
def persist (past : Array Call) (s : Streams) (x : Bytes)
    (h : ¬ s.sink.plan.InterruptsFrom s.sink.calls) : Run Streams :=
  let written := s.write x
  let past := past.push (.write x written.1)
  if again : written.1.any Fault.isInterruption then
    have interrupted : s.sink.plan.interrupts s.sink.calls := s.sink.plan.any_respond _ x ▸ again
    persist past written.2 x fun later => h (later.of_succ interrupted)
  else ⟨past.toList, written.1, written.2⟩
termination_by s.sink.plan.refusalsEnd - s.sink.calls
decreasing_by
  have early : s.sink.calls < s.sink.plan.refusalsEnd :=
    Nat.lt_of_not_le fun hle => h (Plan.interruptsFrom_of_refusalsEnd_le hle interrupted)
  simp only [write, Sink.write]
  omega

/-- Writes a value, and writes it again as long as the write is interrupted. -/
def insist (s : Streams) (x : Bytes) : Print :=
  if h : s.sink.plan.InterruptsFrom s.sink.calls then .endless [] s x
  else .ended (persist #[] s x h)

/-- Writes values one after another, up to the first that fails or is written without
end. -/
def insistAll (s : Streams) : List Bytes → Print
  | [] => .ended ⟨[], none, s⟩
  | x :: xs =>
    match s.insist x with
    | .endless calls state value => .endless calls state value
    | .ended run =>
      match run.fault? with
      | some _ => .ended run
      | none => (insistAll run.state xs).after run.calls

/-- The most bytes that a text may have to join what waits in the buffer.  Buffers of this
size differ by one byte here: some write out what waits already before a text that would fill
them.  What is shown of prints holds for every number. -/
def bufferSize : Nat := 8192

/-- The values in which a text reaches the byte stream, through a buffer that a text of at
most `size` bytes may join. -/
def pieces (size : Nat) (text : Bytes) : List Bytes :=
  if text.length ≤ size then [text] else [[], text]

/-- Prints a text through such a buffer, and flushes the sink. -/
def print (size : Nat) (s : Streams) (text : String) : Print :=
  (s.insistAll (pieces size (encodeText text))).thenFlush

end Streams

end FinalNewline
