import FinalNewline.Transcript

/-!
# Sinks

A sink stores the bytes written to it, as far as its plan lets it.  The plan numbers
the write calls from zero and says for each of them how many bytes are accepted and
whether the call fails.  A call that fails may have accepted some bytes, and a call
that succeeds may have accepted fewer than it was given: neither is told to the
writer.

## Main Definitions

* `Plan` — which calls on a sink fail, and how much it accepts
* `Plan.respond` — what a plan says about one write call
* `Sink` — a plan, how far it has been followed, and the bytes stored
* `Sink.write`, `Sink.flush`, `Sink.close`, `Sink.drain` — the calls on a sink
-/

namespace FinalNewline

/-- A write call that is to fail: its number, its fault, and how many of the bytes it
was given are accepted all the same. -/
structure Refusal where
  call : Nat
  fault : Fault
  kept : Nat := 0
  deriving DecidableEq

/-- Which calls on a sink fail, and how much it accepts. -/
structure Plan where
  /-- Single write calls that fail. -/
  refusals : List Refusal := []
  /-- From this write call on, all fail. -/
  limit? : Option Nat := none
  /-- With this fault. -/
  limitFault : Fault := .system .general (.text "write failed")
  /-- A successful write call accepts at most this many bytes. -/
  cap? : Option Nat := none
  /-- The fault of every flush. -/
  flushFault? : Option Fault := none
  /-- The fault of every close. -/
  closeFault? : Option Fault := none
  deriving DecidableEq

namespace Plan

/-- The refusal of a write call, if it has one.  When several have its number, the
last of them counts. -/
def refusal? (plan : Plan) (call : Nat) : Option Refusal :=
  plan.refusals.reverse.find? (fun refusal => refusal.call == call)

/-- The bytes of `x` that write call number `call` accepts, and its fault if it fails.
A refusal of just this call comes before the limit, and the limit before the cap. -/
def respond (plan : Plan) (call : Nat) (x : Bytes) : Bytes × Option Fault :=
  match plan.refusal? call with
  | some refusal => (x.take refusal.kept, some refusal.fault)
  | none =>
    if plan.limit?.any (· ≤ call) then ([], some plan.limitFault)
    else
      match plan.cap? with
      | some cap => (x.take cap, none)
      | none => (x, none)

end Plan

/-- A destination of bytes: its plan, the number of its next write call, the bytes it
has stored, and whether it was closed. -/
structure Sink where
  plan : Plan := {}
  calls : Nat := 0
  stored : Array UInt8 := #[]
  closed : Bool := false
  deriving DecidableEq

namespace Sink

/-- The bytes stored, in the order of their writing. -/
def bytes (sink : Sink) : Bytes :=
  sink.stored.toList

/-- Writes a byte string, as far as the plan accepts it. -/
def write (sink : Sink) (x : Bytes) : Option Fault × Sink :=
  let response := sink.plan.respond sink.calls x
  (response.2,
    { sink with calls := sink.calls + 1, stored := sink.stored ++ response.1 })

/-- Flushes the sink, which changes nothing. -/
def flush (sink : Sink) : Option Fault × Sink :=
  (sink.plan.flushFault?, sink)

/-- Closes the sink, which then counts as closed even if that failed. -/
def close (sink : Sink) : Option Fault × Sink :=
  (sink.plan.closeFault?, { sink with closed := true })

/-- Puts the sink under a new plan, whose calls are numbered from zero. -/
def replan (sink : Sink) (plan : Plan) : Sink :=
  { sink with plan, calls := 0 }

/-- Takes out the bytes stored. -/
def drain (sink : Sink) : Bytes × Sink :=
  (sink.bytes, { sink with stored := #[] })

@[simp]
theorem bytes_write (sink : Sink) (x : Bytes) :
    (sink.write x).2.bytes = sink.bytes ++ (sink.plan.respond sink.calls x).1 := by
  simp [write, bytes]

@[simp]
theorem bytes_drain (sink : Sink) : sink.drain.2.bytes = [] := rfl

@[simp]
theorem bytes_replan (sink : Sink) (plan : Plan) : (sink.replan plan).bytes = sink.bytes := rfl

end Sink

end FinalNewline
