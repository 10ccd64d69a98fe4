import FinalNewline.Transcript

/-!
# The relay

The relay reads one value at a time and writes it before it reads the next.  When the
stream ends, it writes a terminator if one is owed: if something was copied, and the
value copied last was not exactly the terminator.  A fault of either side ends the
relay at once, with no terminator; the relay never flushes, closes or tries again.

What the relay reads from and writes to is one state with two operations, a
`Channel`.  Source and destination are not kept apart, because they may share parts of
that state: a buffer that is relayed to itself has one position for both.

The class also holds the reason why a relay comes to an end.  Only finitely many bytes
can be read before the stream ends; each non-empty read makes them fewer, and a write
does not make them more.

## Main Definitions

* `Channel` — states that can be read from and written to
* `Run` — how a sequence of calls went: its transcript, its fault and the state left
* `relay` — the relay
-/

namespace FinalNewline

/-- States that can be read from and written to, with finitely many bytes to read. -/
class Channel (σ : Type) where
  /-- Reads the next value. -/
  read : σ → Except Fault Received × σ
  /-- Writes a value, and gives the fault if that failed. -/
  write : σ → Bytes → Option Fault × σ
  /-- A bound on the bytes that reads can still bring. -/
  unread : σ → Nat
  /-- A non-empty read lowers the bound. -/
  unread_read_lt : ∀ {s t : σ} {r : Received},
    read s = (.ok r, t) → r.value ≠ [] → unread t < unread s
  /-- A write does not raise the bound. -/
  unread_write_le : ∀ (s : σ) (x : Bytes), unread (write s x).2 ≤ unread s

/-- How a sequence of calls went: the calls in order, the fault that ended it if one
did, and the state it left. -/
structure Run (σ : Type) where
  calls : List Call
  fault? : Option Fault
  state : σ

/-- The same run, preceded by other calls. -/
def Run.after {σ : Type} (past : List Call) (run : Run σ) : Run σ :=
  { run with calls := past ++ run.calls }

section Relay

variable {σ : Type} [Channel σ]

/-- The end of the stream: a terminator is written if one is owed. -/
def settle (past : Array Call) (owed : Bool) (s : σ) : Run σ :=
  if owed then
    let written := Channel.write s terminator
    ⟨(past.push (.write terminator written.1)).toList, written.1, written.2⟩
  else ⟨past.toList, none, s⟩

/-- Copies value by value.  The calls made so far are `past`, and `owed` tells whether
the stream, were it to end now, would lack a terminator. -/
def copy (past : Array Call) (owed : Bool) (s : σ) : Run σ :=
  match h : Channel.read s with
  | (.error fault, t) => ⟨(past.push (.readFault fault)).toList, some fault, t⟩
  | (.ok received, t) =>
    let past := past.push (.read received)
    if hv : received.value = [] then settle past owed t
    else
      let written := Channel.write t received.value
      match written.1 with
      | some fault =>
        ⟨(past.push (.write received.value (some fault))).toList, some fault, written.2⟩
      | none =>
        have : Channel.unread written.2 < Channel.unread s :=
          Nat.lt_of_le_of_lt (Channel.unread_write_le t received.value)
            (Channel.unread_read_lt h hv)
        copy (past.push (.write received.value none)) (received.value != terminator) written.2
termination_by Channel.unread s

/-- Copies all that can be read, up to the end of the stream, and ends it with a
terminator if it is not empty and has none. -/
def relay (s : σ) : Run σ :=
  copy #[] false s

/-! ### What a copy does, by the outcome of its first calls -/

theorem copy_of_readFault {past : Array Call} {owed : Bool} {s t : σ} {fault : Fault}
    (h : Channel.read s = (.error fault, t)) :
    copy past owed s = ⟨past.toList ++ [.readFault fault], some fault, t⟩ := by
  rw [copy]
  split
  · simp_all
  · simp_all

theorem copy_of_end {past : Array Call} {owed : Bool} {s t : σ} {received : Received}
    (h : Channel.read s = (.ok received, t)) (hv : received.value = []) :
    copy past owed s = settle (past.push (.read received)) owed t := by
  rw [copy]
  split
  · simp_all
  · simp_all

theorem copy_of_writeFault {past : Array Call} {owed : Bool} {s t : σ}
    {received : Received} {fault : Fault}
    (h : Channel.read s = (.ok received, t)) (hv : received.value ≠ [])
    (hw : (Channel.write t received.value).1 = some fault) :
    copy past owed s =
      ⟨past.toList ++ [.read received, .write received.value (some fault)], some fault,
        (Channel.write t received.value).2⟩ := by
  rw [copy]
  split
  · simp_all
  · rename_i received' t' h'
    obtain ⟨rfl, rfl⟩ : received' = received ∧ t' = t := by simp_all
    simp [hv, hw]

theorem copy_of_write {past : Array Call} {owed : Bool} {s t : σ} {received : Received}
    (h : Channel.read s = (.ok received, t)) (hv : received.value ≠ [])
    (hw : (Channel.write t received.value).1 = none) :
    copy past owed s =
      copy ((past.push (.read received)).push (.write received.value none))
        (received.value != terminator) (Channel.write t received.value).2 := by
  rw [copy]
  split
  · simp_all
  · rename_i received' t' h'
    obtain ⟨rfl, rfl⟩ : received' = received ∧ t' = t := by simp_all
    simp [hv, hw]

theorem settle_eq_after (past : Array Call) (owed : Bool) (s : σ) :
    settle past owed s = (settle #[] owed s).after past.toList := by
  cases owed <;> simp [settle, Run.after]

/-- The calls made so far only precede those of the copy, and do not change it. -/
theorem copy_eq_after (past : Array Call) (owed : Bool) (s : σ) :
    copy past owed s = (copy #[] owed s).after past.toList := by
  induction hn : Channel.unread s using Nat.strongRecOn generalizing past owed s with
  | ind n ih =>
    rcases h : Channel.read s with ⟨result, t⟩
    cases result with
    | error fault => simp [copy_of_readFault h, Run.after]
    | ok received =>
      by_cases hv : received.value = []
      · rw [copy_of_end h hv, copy_of_end h hv, settle_eq_after,
          settle_eq_after (Array.push #[] _)]
        simp [Run.after]
      · cases hw : (Channel.write t received.value).1 with
        | some fault => simp [copy_of_writeFault h hv hw, Run.after]
        | none =>
          have fewer : Channel.unread (Channel.write t received.value).2 < n :=
            hn ▸ Nat.lt_of_le_of_lt (Channel.unread_write_le t received.value)
              (Channel.unread_read_lt h hv)
          rw [copy_of_write h hv hw, copy_of_write h hv hw, ih _ fewer _ _ _ rfl,
            ih _ fewer (Array.push (Array.push #[] _) _) _ _ rfl]
          simp [Run.after]

end Relay

end FinalNewline
