import FinalNewline.Transcript

/-!
# Sources

A source is a queue of events, each of which says how coming reads are answered.
Bytes that arrive as `data` are handed out one at a time, as they are asked for; a
`chunk` is handed out whole, however much was asked for.  The end of the stream is not
final: a source may report it and have more to give later.

## Main Definitions

* `Event`, `Source` — events and queues of them
* `Source.read` — the next read
* `Source.unread` — how many bytes reads can still bring
* `Source.pendingBytes`, `Source.pendingEvents` — what an observer of the queue sees
-/

namespace FinalNewline

/-- How coming reads are answered. -/
inductive Event where
  /-- By the next of these bytes, until there are none left. -/
  | data (bytes : Bytes)
  /-- By all of these bytes at once. -/
  | chunk (bytes : Bytes)
  /-- By the end of the stream, once. -/
  | ending
  /-- By nothing at all, once. -/
  | absence
  /-- By a fault, once. -/
  | fault (fault : Fault)
  deriving DecidableEq

/-- The bytes an event brings. -/
def Event.bytes : Event → Bytes
  | data bytes => bytes
  | chunk bytes => bytes
  | _ => []

/-- A queue of events, next event first. -/
abbrev Source := List Event

namespace Source

/-- Reads from the queue.  Data that is used up is passed over, and a queue with no
events left reports the end of the stream as often as it is asked. -/
def read : Source → Except Fault Received × Source
  | [] => (.ok (.bytes []), [])
  | .data [] :: rest => read rest
  | .data (b :: bytes) :: rest => (.ok (.bytes [b]), .data bytes :: rest)
  | .chunk bytes :: rest => (.ok (.bytes bytes), rest)
  | .ending :: rest => (.ok (.bytes []), rest)
  | .absence :: rest => (.ok .nothing, rest)
  | .fault fault :: rest => (.error fault, rest)

/-- The bytes that the queue holds, in order. -/
def bytes (source : Source) : Bytes :=
  source.flatMap Event.bytes

/-- How many bytes reads can still bring. -/
def unread : Source → Nat
  | [] => 0
  | event :: rest => event.bytes.length + unread rest

/-- How many bytes wait as data; those in chunks are not counted. -/
def pendingBytes : Source → Nat
  | [] => 0
  | .data bytes :: rest => bytes.length + pendingBytes rest
  | _ :: rest => pendingBytes rest

/-- How many events wait.  Data that is used up does not count at the front of the
queue, where the next read passes over it, but counts behind. -/
def pendingEvents : Source → Nat
  | .data [] :: rest => pendingEvents rest
  | source => source.length

/-- A non-empty read brings bytes that then wait no longer. -/
theorem unread_read_lt {source rest : Source} {received : Received}
    (h : source.read = (.ok received, rest)) (hv : received.value ≠ []) :
    rest.unread < source.unread := by
  fun_induction read source with
  | case1 =>
    obtain ⟨rfl, rfl⟩ : Received.bytes [] = received ∧ [] = rest := by simpa using h
    exact absurd rfl hv
  | case2 tail ih => simpa [unread, Event.bytes] using ih h
  | case3 b bytes tail =>
    obtain ⟨rfl, rfl⟩ : Received.bytes [b] = received ∧ .data bytes :: tail = rest := by
      simpa using h
    simp only [unread, Event.bytes, List.length_cons]
    omega
  | case4 bytes tail =>
    obtain ⟨rfl, rfl⟩ : Received.bytes bytes = received ∧ tail = rest := by
      simpa using h
    have : 0 < bytes.length := List.length_pos_iff.2 hv
    simp only [unread, Event.bytes]
    omega
  | case5 tail =>
    obtain ⟨rfl, rfl⟩ : Received.bytes [] = received ∧ tail = rest := by simpa using h
    exact absurd rfl hv
  | case6 tail =>
    obtain ⟨rfl, rfl⟩ : Received.nothing = received ∧ tail = rest := by simpa using h
    exact absurd rfl hv
  | case7 => simp_all

end Source

end FinalNewline
