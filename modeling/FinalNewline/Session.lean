import FinalNewline.Relay
import FinalNewline.Sink
import FinalNewline.Source

/-!
# Sessions

A session works on one source and one sink through a list of steps.  Relays are
interleaved with steps that feed the source, put the sink under a new plan, or take
bytes out of it, so that a session shows what a relay leaves behind for the next one.

## Main Definitions

* `Streams` — a source and a sink, which form a channel
* `Step`, `Reply` — the steps of a session and what they answer
* `Streams.step`, `Streams.session` — one step, and a list of them
-/

namespace FinalNewline

/-- A source to read from and a sink to write to. -/
structure Streams where
  source : Source := []
  sink : Sink := {}
  deriving DecidableEq

namespace Streams

/-- Reads from the source. -/
def read (s : Streams) : Except Fault Received × Streams :=
  let result := s.source.read
  (result.1, { s with source := result.2 })

/-- Writes to the sink. -/
def write (s : Streams) (x : Bytes) : Option Fault × Streams :=
  let result := s.sink.write x
  (result.1, { s with sink := result.2 })

/-- Flushes the sink. -/
def flush (s : Streams) : Option Fault × Streams :=
  let result := s.sink.flush
  (result.1, { s with sink := result.2 })

/-- Closes the sink. -/
def close (s : Streams) : Option Fault × Streams :=
  let result := s.sink.close
  (result.1, { s with sink := result.2 })

instance : Channel Streams where
  read := read
  write := write
  unread s := s.source.unread
  unread_read_lt := by
    intro s t r h hv
    obtain ⟨hr, rfl⟩ : s.source.read.1 = .ok r ∧ { s with source := s.source.read.2 } = t := by
      simpa [read] using h
    exact Source.unread_read_lt (Prod.ext hr rfl) hv
  unread_write_le _ _ := Nat.le_refl _

end Streams

/-- The steps of a session. -/
inductive Step where
  /-- Relay from the source to the sink. -/
  | relay
  /-- Queue more events at the source. -/
  | feed (events : List Event)
  /-- Put the sink under a new plan. -/
  | plan (plan : Plan)
  /-- Take the stored bytes out of the sink. -/
  | drain
  /-- Take the stored bytes out of the sink and queue them at the source as data. -/
  | loop
  deriving DecidableEq

/-- What a step of a session answers. -/
inductive Reply where
  | relayed (calls : List Call) (fault? : Option Fault)
  | done
  | drained (bytes : Bytes)
  deriving DecidableEq

namespace Streams

/-- Takes one step of a session. -/
def step (s : Streams) : Step → Reply × Streams
  | .relay =>
    let run := FinalNewline.relay s
    (.relayed run.calls run.fault?, run.state)
  | .feed events => (.done, { s with source := s.source ++ events })
  | .plan plan => (.done, { s with sink := s.sink.replan plan })
  | .drain =>
    let drained := s.sink.drain
    (.drained drained.1, { s with sink := drained.2 })
  | .loop =>
    let drained := s.sink.drain
    (.done, { source := s.source ++ [.data drained.1], sink := drained.2 })

/-- Takes the steps of a session one after another, and gives for each of them its
answer and the streams it left. -/
def session (s : Streams) : List Step → List (Reply × Streams)
  | [] => []
  | step :: steps =>
    let result := s.step step
    result :: session result.2 steps

end Streams

end FinalNewline
