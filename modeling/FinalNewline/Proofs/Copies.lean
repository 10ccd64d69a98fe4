import FinalNewline.Proofs.Transcripts

/-!
# Copies as a relation

`copy` is a recursion on the bytes left to read, and its transcript is gathered on the
way.  `Copies` says the same without either: one rule for each way in which a copy can
go on, and the calls of each rule in front of those that follow.  What holds of every
copy is then proved by one case for each rule, without another look at the recursion.

The relation and the function agree (`copies_iff`), so each copy comes to an end, and
in one way only.

## Main Definitions

* `Copies` — the rules of a copy

## Main Results

* `copies_iff`, `copies_relay` — the rules describe exactly the copies that are made
* `Copies.firstFault?_calls`, `Copies.failsWith` — a copy ends with its first fault
* `Copies.state_eq_replay` — a copy on streams leaves what its transcript leaves
-/

namespace FinalNewline

section Relation

variable {σ : Type} [Channel σ]

/-- How a copy can go.  The first argument tells whether the stream, were it to end
now, would lack a terminator. -/
inductive Copies : Bool → σ → Run σ → Prop where
  /-- The next read fails. -/
  | readFault {owed : Bool} {s t : σ} {fault : Fault}
      (hread : Channel.read s = (.error fault, t)) :
      Copies owed s ⟨[.readFault fault], some fault, t⟩
  /-- The stream ends, and nothing is owed. -/
  | complete {s t : σ} {received : Received}
      (hread : Channel.read s = (.ok received, t)) (hend : received.value = []) :
      Copies false s ⟨[.read received], none, t⟩
  /-- The stream ends, and a terminator is owed. -/
  | terminate {s t u : σ} {received : Received} {fault? : Option Fault}
      (hread : Channel.read s = (.ok received, t)) (hend : received.value = [])
      (hwrite : Channel.write t terminator = (fault?, u)) :
      Copies true s ⟨[.read received, .write terminator fault?], fault?, u⟩
  /-- A value is read, but cannot be written. -/
  | writeFault {owed : Bool} {s t u : σ} {received : Received} {fault : Fault}
      (hread : Channel.read s = (.ok received, t)) (hvalue : received.value ≠ [])
      (hwrite : Channel.write t received.value = (some fault, u)) :
      Copies owed s ⟨[.read received, .write received.value (some fault)], some fault, u⟩
  /-- A value is read and written, and the copy goes on. -/
  | step {owed : Bool} {s t u : σ} {received : Received} {run : Run σ}
      (hread : Channel.read s = (.ok received, t)) (hvalue : received.value ≠ [])
      (hwrite : Channel.write t received.value = (none, u))
      (hrest : Copies (received.value != terminator) u run) :
      Copies owed s (run.after [.read received, .write received.value none])

theorem copies_settle {owed : Bool} {s t : σ} {received : Received}
    (hread : Channel.read s = (.ok received, t)) (hend : received.value = []) :
    Copies owed s ((settle #[] owed t).after [.read received]) := by
  cases owed with
  | false => exact .complete hread hend
  | true => exact .terminate hread hend rfl

/-- The copy that is made follows the rules. -/
theorem copies_copy (owed : Bool) (s : σ) : Copies owed s (copy #[] owed s) := by
  -- Strong induction on the bytes left to read, which each value read makes fewer.
  induction hn : Channel.unread s using Nat.strongRecOn generalizing owed s with
  | ind n ih =>
    rcases hread : Channel.read s with ⟨result, t⟩
    cases result with
    | error fault =>
      rw [copy_of_readFault hread]
      exact .readFault hread
    | ok received =>
      by_cases hvalue : received.value = []
      · rw [copy_of_end hread hvalue, settle_eq_after]
        exact copies_settle hread hvalue
      · rcases hwrite : Channel.write t received.value with ⟨fault?, u⟩
        cases fault? with
        | some fault =>
          rw [copy_of_writeFault hread hvalue (congrArg Prod.fst hwrite), hwrite]
          exact .writeFault hread hvalue hwrite
        | none =>
          have fewer : Channel.unread u < n := by
            have hle := Channel.unread_write_le t received.value
            have hlt := Channel.unread_read_lt hread hvalue
            rw [hwrite] at hle
            exact hn ▸ Nat.lt_of_le_of_lt hle hlt
          rw [copy_of_write hread hvalue (congrArg Prod.fst hwrite), hwrite, copy_eq_after]
          exact .step hread hvalue hwrite (ih _ fewer _ _ rfl)

/-- The rules leave no choice. -/
theorem Copies.eq_copy {owed : Bool} {s : σ} {run : Run σ} (h : Copies owed s run) :
    run = copy #[] owed s := by
  induction h with
  | readFault hread => rw [copy_of_readFault hread]; rfl
  | complete hread hend => rw [copy_of_end hread hend]; rfl
  | terminate hread hend hwrite => rw [copy_of_end hread hend]; simp [settle, hwrite]
  | writeFault hread hvalue hwrite =>
    rw [copy_of_writeFault hread hvalue (congrArg Prod.fst hwrite), hwrite]; rfl
  | step hread hvalue hwrite hrest ih =>
    rw [copy_of_write hread hvalue (congrArg Prod.fst hwrite), hwrite, copy_eq_after, ← ih]
    rfl

/-- The rules describe the copy that is made, and no other. -/
theorem copies_iff {owed : Bool} {s : σ} {run : Run σ} :
    Copies owed s run ↔ run = copy #[] owed s := by
  constructor
  · exact Copies.eq_copy
  · rintro rfl
    exact copies_copy owed s

/-- A relay is a copy that owes nothing at first. -/
theorem copies_relay (s : σ) : Copies false s (relay s) :=
  copies_copy false s

/-! ### Faults end a copy -/

/-- The fault with which a copy ends is the first one of its transcript. -/
theorem Copies.firstFault?_calls {owed : Bool} {s : σ} {run : Run σ} (h : Copies owed s run) :
    firstFault? run.calls = run.fault? := by
  induction h with
  | readFault hread => rfl
  | complete hread hend => rfl
  | terminate hread hend hwrite => simp [firstFault?_cons, Call.fault?]
  | writeFault hread hvalue hwrite => rfl
  | step hread hvalue hwrite hrest ih =>
    simpa [Run.after, firstFault?_cons, Call.fault?] using ih

/-- A copy makes no further call once one has failed. -/
theorem Copies.failsWith {owed : Bool} {s : σ} {run : Run σ} {fault : Fault}
    (h : Copies owed s run) (hfault : run.fault? = some fault) :
    FailsWith run.calls fault := by
  induction h with
  | readFault hread => exact failsWith_singleton hfault
  | complete hread hend => simp at hfault
  | terminate hread hend hwrite =>
    exact .cons rfl (failsWith_singleton (by exact hfault))
  | writeFault hread hvalue hwrite =>
    exact .cons rfl (failsWith_singleton (by exact hfault))
  | step hread hvalue hwrite hrest ih => exact .cons rfl (.cons rfl (ih hfault))

end Relation

/-! ### Copies on streams -/

/-- The streams that a copy leaves are those that its transcript leaves. -/
theorem Copies.state_eq_replay {owed : Bool} {s : Streams} {run : Run Streams}
    (h : Copies owed s run) : run.state = s.replay run.calls := by
  induction h with
  | readFault hread => exact (congrArg Prod.snd hread).symm
  | complete hread hend => exact (congrArg Prod.snd hread).symm
  | @terminate s t u _ _ hread hend hwrite =>
    have ht : s.read.2 = t := congrArg Prod.snd hread
    have hu : (t.write terminator).2 = u := congrArg Prod.snd hwrite
    simp [Streams.replayCall, ht, hu]
  | @writeFault _ s t u received _ hread hvalue hwrite =>
    have ht : s.read.2 = t := congrArg Prod.snd hread
    have hu : (t.write received.value).2 = u := congrArg Prod.snd hwrite
    simp [Streams.replayCall, ht, hu]
  | @step _ s t u received _ hread hvalue hwrite hrest ih =>
    have ht : s.read.2 = t := congrArg Prod.snd hread
    have hu : (t.write received.value).2 = u := congrArg Prod.snd hwrite
    simp [Run.after, Streams.replayCall, ht, hu, ih]

end FinalNewline
