import FinalNewline.Proofs.Exchanges

/-!
# The books of a session

A session moves bytes from a queue to a store, and nothing that it does may lose one of
them unseen.  Its books are kept from outside, in an entry for each step: what the step
queued at the source, what it read, what the writes accepted and refused, and what was
taken out of the sink.  All of this is read off what the step answered and what it put
behind the queue, so bytes that are taken out of the sink and get lost on the way show.

The books balance at the end of each step, and so at the end of each session.  Both
balances are equations on byte strings, so they speak of order as well as of number.

## Main Definitions

* `Plan.refused` — what successive writes refuse of their values
* `terminations` — what a transcript writes at the end of a stream
* `Entry`, `Streams.entries` — the entries of a session, one for each step

## Main Results

* `Copies.length_written` — what a copy writes is what it read, and the terminators
* `Copies.refused_of_success`, `Copies.refused_of_readFault`,
  `Copies.refused_of_writeFault` — what a copy loses
* `Entry.balances`, `session_balances` — the books of a step and of a session
-/

namespace FinalNewline

namespace Plan

/-! ### What writes refuse -/

/-- What successive write calls, the first with number `call`, refuse of the values they
are given. -/
def refused (plan : Plan) (call : Nat) : List Bytes → Bytes
  | [] => []
  | x :: xs => x.drop (plan.respond call x).1.length ++ refused plan (call + 1) xs

/-- A write call accepts a front of its value. -/
theorem respond_isPrefix (plan : Plan) (call : Nat) (x : Bytes) :
    (plan.respond call x).1 <+: x := by
  cases hrefused : plan.refusalAt? call with
  | some refusal =>
    rw [respond_of_refusalAt? hrefused]
    exact List.take_prefix _ x
  | none =>
    rw [respond_of_not_refused hrefused, clip]
    cases plan.cap? with
    | some cap => exact List.take_prefix cap x
    | none => exact List.prefix_rfl

@[simp]
theorem refused_nil (plan : Plan) (call : Nat) : plan.refused call [] = [] := rfl

theorem refused_cons (plan : Plan) (call : Nat) (x : Bytes) (xs : List Bytes) :
    plan.refused call (x :: xs) =
      x.drop (plan.respond call x).1.length ++ plan.refused (call + 1) xs := rfl

theorem refused_append (plan : Plan) (call : Nat) (xs ys : List Bytes) :
    plan.refused call (xs ++ ys) = plan.refused call xs ++ plan.refused (call + xs.length) ys := by
  induction xs generalizing call with
  | nil => rfl
  | cons x xs ih =>
    rw [List.cons_append, refused_cons, refused_cons, ih, List.append_assoc]
    rw [show call + 1 + xs.length = call + (x :: xs).length by simp; omega]

/-- Each byte given to a write is accepted or refused. -/
theorem length_accepted_add_length_refused (plan : Plan) (call : Nat) (xs : List Bytes) :
    (plan.accepted call xs).length + (plan.refused call xs).length = xs.flatten.length := by
  induction xs generalizing call with
  | nil => rfl
  | cons x xs ih =>
    have hle : (plan.respond call x).1.length ≤ x.length := (plan.respond_isPrefix call x).length_le
    have hrest := ih (call + 1)
    simp only [accepted_cons, refused_cons, List.flatten_cons, List.length_append,
      List.length_drop]
    omega

/-- Without a cap, calls that do not fail refuse nothing. -/
theorem refused_of_not_refused {plan : Plan} (hcap : plan.cap? = none) {call : Nat}
    {xs : List Bytes} (h : ∀ i < xs.length, plan.refusalAt? (call + i) = none) :
    plan.refused call xs = [] := by
  have hsum := plan.length_accepted_add_length_refused call xs
  rw [accepted_of_not_refused h, map_clip_of_uncapped hcap] at hsum
  exact List.eq_nil_of_length_eq_zero (Nat.add_left_cancel hsum)

theorem Answers.of_append {plan : Plan} {call : Nat} {before after : List Call}
    (h : plan.Answers call (before ++ after)) : plan.Answers call before := by
  induction before generalizing call with
  | nil => trivial
  | cons first before ih =>
    cases first with
    | write x fault? => exact ⟨h.1, ih h.2⟩
    | read received => exact ih h
    | readFault fault => exact ih h
    | flush fault? => exact ih h
    | close fault? => exact ih h

end Plan

/-! ### Terminators -/

/-- The values that a transcript writes directly behind a read that found the end of the
stream.  These are the terminators; all other writes are given the value just read. -/
def terminations : List Call → List Bytes
  | .read received :: .write value fault? :: calls =>
    (if received.value = [] then [value] else []) ++ terminations (.write value fault? :: calls)
  | _ :: calls => terminations calls
  | [] => []

theorem terminations_exchanges {values : List Bytes} (hvalues : ∀ x ∈ values, x ≠ [])
    (ending : List Call) : terminations (exchanges values ++ ending) = terminations ending := by
  induction values with
  | nil => rfl
  | cons x xs ih =>
    have hx : x ≠ [] := hvalues x List.mem_cons_self
    have hrest := ih fun y hy => hvalues y (List.mem_cons_of_mem x hy)
    simpa [terminations, Received.value, hx] using hrest

theorem Concludes.length_written {owed : Bool} {ending : List Call} {fault? : Option Fault}
    (h : Concludes owed ending fault?) :
    (written ending).flatten.length =
      (obtained ending).flatten.length + (terminations ending).length := by
  cases h with
  | readFault fault => rfl
  | @writeFault _ x hvalue fault =>
    simp [obtained_cons_read_bytes hvalue, terminations, Received.value, hvalue]
  | complete hend => simp [obtained_cons_of_end hend, terminations]
  | terminate hend fault? => simp [obtained_cons_of_end hend, terminations, hend]

/-- What a copy writes is what it read, and a terminator for each time it wrote one. -/
theorem Copies.length_written {σ : Type} [Channel σ] {owed : Bool} {s : σ} {run : Run σ}
    (h : Copies owed s run) :
    (written run.calls).flatten.length =
      (obtained run.calls).flatten.length + (terminations run.calls).length := by
  obtain ⟨values, ending, hcalls, hvalues, hconcludes⟩ := h.exists_exchanges
  rw [hcalls, terminations_exchanges hvalues, written_append, obtained_append,
    written_exchanges, obtained_exchanges hvalues]
  simp only [List.flatten_append, List.length_append, hconcludes.length_written]
  omega

/-! ### What a copy loses -/

/-- The last call of a copy that fails is a read or a write. -/
theorem Copies.exists_last_of_fault {σ : Type} [Channel σ] {owed : Bool} {s : σ} {run : Run σ}
    (h : Copies owed s run) {fault : Fault} (hfault : run.fault? = some fault) :
    (∃ front, run.calls = front ++ [.readFault fault]) ∨
      ∃ front x, run.calls = front ++ [.write x (some fault)] := by
  obtain ⟨values, ending, hcalls, -, hconcludes⟩ := h.exists_exchanges
  rw [hcalls]
  rw [hfault] at hconcludes
  generalize owes owed values = owedNow at hconcludes
  cases hconcludes with
  | readFault fault => exact .inl ⟨exchanges values, rfl⟩
  | @writeFault _ x hvalue fault =>
    exact .inr ⟨exchanges values ++ [.read (.bytes x)], x, by simp⟩
  | @terminate received hend fault? =>
    exact .inr ⟨exchanges values ++ [.read received], terminator, by simp⟩

/-- Up to the call that failed, a transcript has no fault. -/
theorem FailsWith.firstFault?_front {front : List Call} {call : Call} {fault : Fault}
    (h : FailsWith (front ++ [call]) fault) : firstFault? front = none := by
  obtain ⟨before, last, hcalls, hbefore, -⟩ := h
  obtain ⟨rfl, -⟩ := List.append_inj' hcalls rfl
  exact hbefore

section Losses

variable {owed : Bool} {s : Streams} {run : Run Streams}

/-- A part of a copy that has no fault, on a sink without a cap, loses nothing. -/
theorem Copies.refused_of_front (h : Copies owed s run) (hcap : s.sink.plan.cap? = none)
    {front after : List Call} (hcalls : run.calls = front ++ after)
    (hfault : firstFault? front = none) :
    s.sink.plan.refused s.sink.calls (written front) = [] := by
  have hanswers : s.sink.plan.Answers s.sink.calls front := by
    have := h.answers
    rw [hcalls] at this
    exact this.of_append
  exact Plan.refused_of_not_refused hcap (hanswers.not_refused hfault)

/-- A copy that comes to its end loses nothing. -/
theorem Copies.refused_of_success (h : Copies owed s run) (hcap : s.sink.plan.cap? = none)
    (hfault : run.fault? = none) :
    s.sink.plan.refused s.sink.calls (written run.calls) = [] :=
  h.refused_of_front hcap (List.append_nil _).symm (h.firstFault?_calls.trans hfault)

/-- Up to its last call a copy that fails loses nothing. -/
theorem Copies.refused_before_fault (h : Copies owed s run) (hcap : s.sink.plan.cap? = none)
    {front : List Call} {call : Call} {fault : Fault} (hcalls : run.calls = front ++ [call])
    (hcall : call.fault? = some fault) :
    s.sink.plan.refused s.sink.calls (written front) = [] := by
  cases hfault : run.fault? with
  | none =>
    have hquiet := firstFault?_eq_none_iff.1 (h.firstFault?_calls.trans hfault) call
    simp [hcalls, hcall] at hquiet
  | some raised =>
    have hfails := h.failsWith hfault
    rw [hcalls] at hfails
    exact h.refused_of_front hcap hcalls hfails.firstFault?_front

/-- A copy that fails on a read loses nothing. -/
theorem Copies.refused_of_readFault (h : Copies owed s run) (hcap : s.sink.plan.cap? = none)
    {front : List Call} {fault : Fault} (hcalls : run.calls = front ++ [.readFault fault]) :
    s.sink.plan.refused s.sink.calls (written run.calls) = [] := by
  have hfront := h.refused_before_fault hcap hcalls rfl
  simpa [hcalls] using hfront

/-- A copy that fails on a write loses at most the end of the one value that this write
was given. -/
theorem Copies.refused_of_writeFault (h : Copies owed s run) (hcap : s.sink.plan.cap? = none)
    {front : List Call} {x : Bytes} {fault : Fault}
    (hcalls : run.calls = front ++ [.write x (some fault)]) :
    s.sink.plan.refused s.sink.calls (written front) = [] ∧
      s.sink.plan.refused s.sink.calls (written run.calls) <:+ x := by
  have hfront := h.refused_before_fault hcap hcalls rfl
  refine ⟨hfront, ?_⟩
  rw [hcalls, written_append, Plan.refused_append, hfront]
  simpa [Plan.refused_cons] using List.drop_suffix _ x

end Losses

/-! ### Entries -/

/-- The calls that a reply reports. -/
def Reply.calls : Reply → List Call
  | relayed calls _ => calls
  | _ => []

/-- An entry in the books: a step, and the streams on which it was taken. -/
structure Entry where
  before : Streams
  step : Step

namespace Entry

/-- What the step answered. -/
def reply (entry : Entry) : Reply :=
  (entry.before.step entry.step).1

/-- The streams that the step left. -/
def after (entry : Entry) : Streams :=
  (entry.before.step entry.step).2

/-- The bytes that the step queued at the source: those it was given, or those that it put
behind what waited there. -/
def queued (entry : Entry) : Bytes :=
  match entry.step with
  | .feed events => Source.bytes events
  | .loop => Source.bytes (entry.after.source.drop entry.before.source.length)
  | _ => []

/-- The bytes that the step took out of the sink: those that it handed out, or those that it
queued at the source in place of that. -/
def taken (entry : Entry) : Bytes :=
  match entry.step, entry.reply with
  | _, .drained bytes => bytes
  | .loop, _ => entry.queued
  | _, _ => []

/-- The bytes that the step read. -/
def read (entry : Entry) : Bytes :=
  (obtained entry.reply.calls).flatten

/-- The terminators that the step wrote, or tried to. -/
def terminations (entry : Entry) : List Bytes :=
  FinalNewline.terminations entry.reply.calls

/-- What the writes of the step accepted. -/
def accepted (entry : Entry) : Bytes :=
  entry.before.sink.plan.accepted entry.before.sink.calls (written entry.reply.calls)

/-- What the writes of the step refused. -/
def refused (entry : Entry) : Bytes :=
  entry.before.sink.plan.refused entry.before.sink.calls (written entry.reply.calls)

/-- What was looped back is what was stored. -/
theorem queued_loop (s : Streams) : queued ⟨s, .loop⟩ = s.sink.bytes := by
  show Source.bytes ((s.source ++ [Event.data s.sink.bytes]).drop s.source.length) = s.sink.bytes
  simp [Source.bytes, Event.bytes]

/-- **The books of a step.** -/
theorem balances (entry : Entry) :
    entry.read ++ entry.after.source.bytes = entry.before.source.bytes ++ entry.queued ∧
    entry.taken ++ entry.after.sink.bytes = entry.before.sink.bytes ++ entry.accepted ∧
    entry.read.length + entry.terminations.length =
      entry.accepted.length + entry.refused.length := by
  obtain ⟨s, step⟩ := entry
  cases step with
  | relay =>
    have hcopies := copies_relay s
    refine ⟨?_, ?_, ?_⟩
    · show (obtained (relay s).calls).flatten ++ (relay s).state.source.bytes = s.source.bytes ++ []
      rw [List.append_nil]
      exact hcopies.bytes_obtained.symm
    · show (relay s).state.sink.bytes = _
      rw [hcopies.state_eq_replay]
      exact Streams.bytes_replay s (relay s).calls
    · show (obtained (relay s).calls).flatten.length +
        (FinalNewline.terminations (relay s).calls).length = _
      rw [← hcopies.length_written]
      exact (s.sink.plan.length_accepted_add_length_refused _ _).symm
  | feed events =>
    refine ⟨?_, ?_, rfl⟩
    · exact List.flatMap_append
    · exact (List.append_nil _).symm
  | plan plan => exact ⟨(List.append_nil _).symm, (List.append_nil _).symm, rfl⟩
  | drain => exact ⟨(List.append_nil _).symm, rfl, rfl⟩
  | loop =>
    refine ⟨?_, ?_, rfl⟩
    · rw [queued_loop]
      show Source.bytes (s.source ++ [.data s.sink.bytes]) = s.source.bytes ++ s.sink.bytes
      simp [Source.bytes, Event.bytes]
    · show queued ⟨s, .loop⟩ ++ [] = s.sink.bytes ++ []
      rw [queued_loop]

end Entry

namespace Streams

/-! ### Sessions -/

/-- The entries of a session. -/
def entries (s : Streams) : List Step → List Entry
  | [] => []
  | step :: steps => ⟨s, step⟩ :: entries (s.step step).2 steps

/-- The streams that a session leaves. -/
def after (s : Streams) (steps : List Step) : Streams :=
  ((s.session steps).getLast?.map Prod.snd).getD s

@[simp]
theorem after_nil (s : Streams) : s.after [] = s := rfl

theorem after_cons (s : Streams) (step : Step) (steps : List Step) :
    s.after (step :: steps) = (s.step step).2.after steps := by
  unfold after
  rw [session]
  cases h : ((s.step step).2.session steps).getLast? with
  | none => simp [List.getLast?_eq_none_iff.1 h]
  | some last => simp [List.getLast?_cons, h]

/-- The entries tell what the session answers. -/
theorem map_entries (s : Streams) (steps : List Step) :
    (s.entries steps).map (fun entry => (entry.reply, entry.after)) = s.session steps := by
  induction steps generalizing s with
  | nil => rfl
  | cons step steps ih => exact congrArg (_ :: ·) (ih (s.step step).2)

end Streams

/-- A balance that each step keeps is kept by a session: what came out, followed by what is
held at the end, is what was held at first, followed by what came in. -/
theorem balance_of_session (out came : Entry → Bytes) (held : Streams → Bytes)
    (hstep : ∀ entry : Entry,
      out entry ++ held entry.after = held entry.before ++ came entry)
    (s : Streams) (steps : List Step) :
    (s.entries steps).flatMap out ++ held (s.after steps) =
      held s ++ (s.entries steps).flatMap came := by
  induction steps generalizing s with
  | nil => simp [Streams.entries]
  | cons step steps ih =>
    rw [Streams.after_cons, Streams.entries, List.flatMap_cons, List.flatMap_cons,
      List.append_assoc, ih, ← List.append_assoc, ← List.append_assoc]
    exact congrArg (· ++ _) (hstep ⟨s, step⟩)

/-- Each byte read in a session, and each terminator, is accepted or refused. -/
theorem session_length (entries : List Entry) :
    (entries.flatMap Entry.read).length + (entries.flatMap Entry.terminations).length =
      (entries.flatMap Entry.accepted).length + (entries.flatMap Entry.refused).length := by
  induction entries with
  | nil => rfl
  | cons entry entries ih =>
    have hentry := entry.balances.2.2
    simp only [List.flatMap_cons, List.length_append]
    omega

/-- **The books of a session.**  What was read, followed by what still waits, is what was
ever queued.  What was taken out, followed by what is still stored, is what the writes
accepted; it is what the session handed out for each step that asked for it, and what it put
behind the queue for each step that looped it back.  In number, the bytes read and the
terminators are the bytes accepted and refused.  On a sink without a cap, a relay that comes
to its end or fails on a read has no byte refused, and one that fails on a write only bytes of
the value given to that write. -/
theorem session_balances (s : Streams) (steps : List Step) :
    let entries := s.entries steps
    let final := s.after steps
    entries.map (fun entry => (entry.reply, entry.after)) = s.session steps ∧
    entries.flatMap Entry.read ++ final.source.bytes =
      s.source.bytes ++ entries.flatMap Entry.queued ∧
    entries.flatMap Entry.taken ++ final.sink.bytes =
      s.sink.bytes ++ entries.flatMap Entry.accepted ∧
    (entries.flatMap Entry.read).length + (entries.flatMap Entry.terminations).length =
      (entries.flatMap Entry.accepted).length + (entries.flatMap Entry.refused).length ∧
    ∀ entry ∈ entries,
      (entry.step = .drain → entry.reply = .drained entry.taken) ∧
      (entry.step = .loop →
        entry.after.source = entry.before.source ++ [.data entry.taken]) ∧
      (entry.step = .relay → entry.before.sink.plan.cap? = none →
        ∃ calls fault?, entry.reply = .relayed calls fault? ∧
          (entry.refused = [] ∧
            (fault? = none ∨
              ∃ front fault, fault? = some fault ∧ calls = front ++ [.readFault fault]) ∨
          ∃ front x fault, fault? = some fault ∧ calls = front ++ [.write x (some fault)] ∧
            entry.before.sink.plan.refused entry.before.sink.calls (written front) = [] ∧
            entry.refused <:+ x)) := by
  intro entries final
  refine ⟨s.map_entries steps, ?_, ?_, session_length entries, ?_⟩
  · exact balance_of_session Entry.read Entry.queued (·.source.bytes)
      (fun entry => entry.balances.1) s steps
  · exact balance_of_session Entry.taken Entry.accepted (·.sink.bytes)
      (fun entry => entry.balances.2.1) s steps
  rintro ⟨t, step⟩ -
  refine ⟨?_, ?_, ?_⟩
  · rintro rfl
    rfl
  · rintro rfl
    show t.source ++ [.data t.sink.bytes] = t.source ++ [.data (Entry.queued ⟨t, .loop⟩)]
    rw [Entry.queued_loop]
  rintro rfl hcap
  have hcopies := copies_relay t
  refine ⟨(relay t).calls, (relay t).fault?, rfl, ?_⟩
  cases hfault : (relay t).fault? with
  | none => exact .inl ⟨hcopies.refused_of_success hcap hfault, .inl rfl⟩
  | some fault =>
    rcases hcopies.exists_last_of_fault hfault with ⟨front, hcalls⟩ | ⟨front, x, hcalls⟩
    · exact .inl ⟨hcopies.refused_of_readFault hcap hcalls, .inr ⟨front, fault, rfl, hcalls⟩⟩
    · exact .inr ⟨front, x, fault, rfl, hcalls, hcopies.refused_of_writeFault hcap hcalls⟩

/-- The second write fails and keeps nothing.  Its byte is lost, and no other: what was stored
before is handed out, and an empty store is looped back as empty data. -/
theorem session_balances_lost_byte :
    let fault : Fault := .system .general (.text "full")
    let s : Streams :=
      { source := [.data [0x61, 0x62]]
        sink := { plan := { refusals := [⟨1, fault, 0⟩] } } }
    let relayed : Entry := ⟨s, .relay⟩
    let drained : Entry := ⟨relayed.after, .drain⟩
    let looped : Entry := ⟨drained.after, .loop⟩
    s.entries [.relay, .drain, .loop] = [relayed, drained, looped] ∧
      relayed.before.sink.plan.cap? = none ∧
      (∃ calls x, relayed.reply = .relayed (calls ++ [.write x (some fault)]) (some fault) ∧
        relayed.refused <:+ x ∧ relayed.refused = [0x62]) ∧
      drained.reply = .drained drained.taken ∧ drained.taken = [0x61] ∧
      looped.after.source = looped.before.source ++ [.data looped.taken] ∧
      looped.taken = [] := by
  intro fault s relayed drained looped
  obtain ⟨-, -, -, -, hentries⟩ := session_balances s [.relay, .drain, .loop]
  have hlost : relayed.refused = [0x62] := by decide +kernel
  have hreply : relayed.reply = .relayed (relay s).calls (some fault) := by decide +kernel
  obtain ⟨-, -, hrelayed⟩ := hentries relayed (by simp [Streams.entries, relayed])
  obtain ⟨hdrained, -, -⟩ :=
    hentries drained (by simp [Streams.entries, relayed, drained, Entry.after])
  obtain ⟨-, hlooped, -⟩ :=
    hentries looped (by simp [Streams.entries, relayed, drained, looped, Entry.after])
  obtain ⟨calls, fault?, hsame, ⟨hnothing, -⟩ | ⟨front, x, raised, hfault, hcalls, -, hpart⟩⟩ :=
    hrelayed rfl rfl
  · rw [hlost] at hnothing
    simp at hnothing
  · rw [hreply] at hsame
    obtain ⟨rfl, rfl⟩ := Reply.relayed.inj hsame
    obtain rfl := Option.some.inj hfault
    refine ⟨rfl, rfl, ⟨front, x, ?_, hpart, hlost⟩, hdrained rfl, ?_, hlooped rfl, ?_⟩
    · rw [hreply, hcalls]
    · decide +kernel
    · decide +kernel

end FinalNewline
