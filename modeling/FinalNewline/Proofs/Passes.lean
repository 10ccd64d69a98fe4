import FinalNewline.Proofs.Ledger
import FinalNewline.Proofs.Normalization
import FinalNewline.Proofs.Success
import Mathlib.Data.List.Chain

/-!
# Passes over the same bytes

What a relay has stored can be relayed again, within a session by looping the stored bytes back to
the source, and between runs of the command by a pipe.  The first pass may add a final newline to
what is passed on.  All later passes leave it as it is, however many there are and however the
bytes are cut on the way from one to the next.

A session takes up whatever its sink holds, and that may end in an unfinished line.  The relay of
no data behind it adds nothing, so it is only the first pass over all that is stored that completes
the line.  A chain of runs starts from an empty sink, and nothing changes from its first run on.

## Main Definitions

* `Streams.Smooth` — streams on which a relay goes through
* `passes` — the steps of so many passes in a session
* `Command.Launch`, `Command.Feeds` — runs of the command, and runs joined by a pipe

## Main Results

* `Streams.Smooth.after_relay`, `Streams.Smooth.after_passes` — what a relay and further passes do
* `Command.output_of_chain` — what a chain of runs puts out
* `passes_settle` — further passes change nothing
-/

namespace FinalNewline

/-! ### Relays that go through -/

namespace Source

/-- What a read leaves of data is data. -/
theorem isData_of_read {source rest : Source} {answer : Except Fault Received}
    (h : source.IsData) (hread : source.read = (answer, rest)) : rest.IsData := by
  obtain ⟨received, rest', hread', hrest, -⟩ := read_of_isData h
  obtain ⟨-, rfl⟩ := Prod.mk.inj (hread'.symm.trans hread)
  exact hrest

/-- A read that finds the end of data leaves nothing. -/
theorem eq_nil_of_read_end {source rest : Source} {received : Received} (h : source.IsData)
    (hread : source.read = (.ok received, rest)) (hend : received.value = []) : rest = [] := by
  obtain ⟨received', rest', hread', -, ⟨-, hbytes⟩ | hone⟩ := read_of_isData h
  · obtain ⟨-, rfl⟩ := Prod.mk.inj
      ((read_of_isData_of_bytes_eq_nil h hbytes).symm.trans hread)
    rfl
  · obtain ⟨hreceived, -⟩ := Prod.mk.inj (hread'.symm.trans hread)
    obtain rfl := Except.ok.inj hreceived
    simp [hend] at hone

end Source

/-- A copy of data that comes to its end leaves no event in the source. -/
theorem Copies.source_eq_nil {owed : Bool} {s : Streams} {run : Run Streams}
    (h : Copies owed s run) (hdata : s.source.IsData) (hfault : run.fault? = none) :
    run.state.source = [] := by
  induction h with
  | readFault hread => simp at hfault
  | complete hread hend =>
    exact Source.eq_nil_of_read_end hdata (Streams.source_of_read hread) hend
  | terminate hread hend hwrite =>
    rw [Streams.source_of_write hwrite]
    exact Source.eq_nil_of_read_end hdata (Streams.source_of_read hread) hend
  | writeFault hread hvalue hwrite => simp at hfault
  | step hread hvalue hwrite hrest ih =>
    refine ih ?_ hfault
    rw [Streams.source_of_write hwrite]
    exact Source.isData_of_read hdata (Streams.source_of_read hread)

namespace Streams

/-- A willing sink stays willing, whatever calls are made. -/
theorem willing_replay {s : Streams} (h : s.sink.Willing) (calls : List Call) :
    (s.replay calls).sink.Willing := by
  induction calls generalizing s with
  | nil => exact h
  | cons call calls ih =>
    rw [replay_cons]
    cases call with
    | read received => exact ih h
    | readFault fault => exact ih h
    | write value fault? => exact ih (h.write value).2
    | flush fault? => exact ih h
    | close fault? => exact ih h

/-- Streams on which a relay goes through: the source holds data, and the sink takes all that is
still to be written to it, if only one byte at a time. -/
structure Smooth (s : Streams) : Prop where
  isData : s.source.IsData
  willing : s.sink.Willing
  one_le_cap : ∀ cap, s.sink.plan.cap? = some cap → 1 ≤ cap

/-- A relay that goes through empties the source and stores the normalised data, and leaves
streams on which a relay goes through. -/
theorem Smooth.after_relay {s : Streams} (h : s.Smooth) :
    (relay s).fault? = none ∧ (relay s).state.source = [] ∧
      (relay s).state.sink.bytes = s.sink.bytes ++ normalize s.source.bytes ∧
      (relay s).state.Smooth := by
  have hcopies := copies_relay s
  have hfault : (relay s).fault? = none :=
    hcopies.fault?_eq_none h.isData.faults_eq_nil h.willing
  have hsource := hcopies.source_eq_nil h.isData hfault
  refine ⟨hfault, hsource, (relay_data_of_success hfault h.isData h.one_le_cap).2, ?_, ?_, ?_⟩
  · simp [hsource, Source.IsData]
  · rw [hcopies.state_eq_replay]
    exact willing_replay h.willing _
  · rw [plan_relay]
    exact h.one_le_cap

/-- To loop the stored bytes back to the source adds data to it. -/
theorem Smooth.after_loop {s : Streams} (h : s.Smooth) : (s.step .loop).2.Smooth where
  isData := by
    intro event hevent
    rcases List.mem_append.1 hevent with hevent | hevent
    · exact h.isData event hevent
    · exact ⟨_, List.mem_singleton.1 hevent⟩
  willing := h.willing
  one_le_cap := h.one_le_cap

end Streams

/-! ### Passes within a session -/

/-- The fault with which a step of a session was answered, if it was a relay that failed. -/
def Reply.fault? : Reply → Option Fault
  | relayed _ fault? => fault?
  | done => none
  | drained _ => none

/-- The steps of so many passes: each takes the stored bytes back to the source and relays them
once more. -/
def passes : Nat → List Step
  | 0 => []
  | k + 1 => .loop :: .relay :: passes k

/-- Further passes over what was stored, from an empty source: none of them fails, nothing waits
behind them, and all of them store the normalised bytes. -/
theorem Streams.Smooth.after_passes {s : Streams} (h : s.Smooth) (hsource : s.source = [])
    (k : Nat) :
    (∀ result ∈ s.session (passes k), result.1.fault? = none) ∧
      (s.after (passes k)).source = [] ∧
      (1 ≤ k → (s.after (passes k)).sink.bytes = normalize s.sink.bytes) := by
  induction k generalizing s with
  | zero => exact ⟨by simp [passes, session], hsource, by simp⟩
  | succ k ih =>
    obtain ⟨hfault, hempty, hstored, hsmooth⟩ := h.after_loop.after_relay
    obtain ⟨hreplies, hdrained, hlater⟩ := ih hsmooth hempty
    have hbytes : (relay (s.step .loop).2).state.sink.bytes = normalize s.sink.bytes := by
      rw [hstored]
      simp [step, hsource, Sink.bytes, Sink.drain, Source.bytes, Event.bytes]
    rw [passes, after_cons, after_cons]
    refine ⟨?_, hdrained, fun _ => ?_⟩
    · intro result hresult
      rcases List.mem_cons.1 hresult with rfl | hresult
      · rfl
      · rcases List.mem_cons.1 hresult with rfl | hresult
        · exact hfault
        · exact hreplies result hresult
    · cases k with
      | zero => exact hbytes
      | succ k =>
        rw [← normalize_normalize s.sink.bytes, ← hbytes]
        exact hlater (Nat.le_add_left 1 k)

namespace Command

/-! ### Chains of runs -/

/-- A run of the command without arguments: how it is started, where its messages go, and the
streams that it is given. -/
structure Launch where
  invocation : Invocation
  errors : ErrorStream
  streams : Streams

namespace Launch

/-- All that the run leaves behind. -/
def outcome (launch : Launch) : Outcome :=
  run launch.invocation [] launch.errors launch.streams

/-- What the run puts out. -/
def output (launch : Launch) : Bytes :=
  launch.outcome.streams.sink.bytes

/-- Nothing stands in the way of what the run puts out: its sink is empty, takes all writes whole
and can be flushed. -/
structure Unhindered (launch : Launch) : Prop where
  empty : launch.streams.sink.bytes = []
  willing : launch.streams.sink.Willing
  uncapped : launch.streams.sink.plan.cap? = none
  flushes : launch.streams.sink.plan.flushFault? = none

/-- A run that nothing stands in the way of, on a source without faults, succeeds and puts out
what its reads come to. -/
theorem Unhindered.succeeds {launch : Launch} (h : launch.Unhindered)
    (hsource : launch.streams.source.faults = []) :
    launch.outcome.report.ending = .exited 0 ∧
      launch.output = finished launch.streams.source.values := by
  have hrelay : (relay launch.streams).fault? = none :=
    (copies_relay _).fault?_eq_none hsource h.willing
  have htransfer : (transfer launch.streams).fault? = none := by
    rw [transfer_of_relay hrelay]
    exact h.flushes
  have houtcome : launch.outcome = _ := body_of_transfer htransfer launch.errors
  constructor
  · rw [houtcome]
  · rw [output, houtcome, state_transfer, bytes_relay_of_success hrelay, h.empty,
      Plan.map_clip_of_uncapped h.uncapped, flatten_finishing]
    rfl

end Launch

/-- A pipe joins two runs: what the first puts out is the input of the second, as data that may be
cut anyhow. -/
structure Feeds (first second : Launch) : Prop where
  isData : second.streams.source.IsData
  bytes_eq : second.streams.source.bytes = first.output

/-- In a chain of runs each run succeeds, and puts out what the first run does. -/
theorem output_of_chain {first : Launch} {later : List Launch}
    (hchain : (first :: later).IsChain Feeds)
    (hfree : ∀ launch ∈ first :: later, launch.Unhindered)
    (hsource : first.streams.source.faults = []) :
    ∀ launch ∈ first :: later,
      launch.outcome.report.ending = .exited 0 ∧ launch.output = first.output := by
  induction later generalizing first with
  | nil =>
    intro launch hlaunch
    obtain rfl := List.mem_singleton.1 hlaunch
    exact ⟨((hfree _ hlaunch).succeeds hsource).1, rfl⟩
  | cons second later ih =>
    obtain ⟨hfeeds, hrest⟩ := List.isChain_cons_cons.1 hchain
    obtain ⟨hexits, houtput⟩ := (hfree first List.mem_cons_self).succeeds hsource
    have hfreeRest : ∀ launch ∈ second :: later, launch.Unhindered :=
      fun launch hlaunch => hfree launch (List.mem_cons_of_mem first hlaunch)
    have hfaults := hfeeds.isData.faults_eq_nil
    -- What the first run puts out lacks no final newline, so the second adds none.
    have hsame : second.output = first.output := by
      obtain ⟨-, hsecond⟩ := (hfreeRest second List.mem_cons_self).succeeds hfaults
      rw [hsecond, finished_of_isData hfeeds.isData, hfeeds.bytes_eq, houtput]
      exact normalize_of_terminated (terminated_finished _)
    intro launch hlaunch
    rcases List.mem_cons.1 hlaunch with rfl | hlaunch
    · exact ⟨hexits, rfl⟩
    · obtain ⟨hexits, hlater⟩ := ih hrest hfreeRest hfaults launch hlaunch
      exact ⟨hexits, hlater.trans hsame⟩

end Command

/-- **Further passes change nothing.**  In a session, a relay of data behind what the sink already
holds stores the normalised data.  All further passes store what was there then, normalised: the
first of them may add a final newline, and none after it does.  No step fails, and nothing waits in
the end.  In a chain of runs of the command, each of which is fed with what the run before it has
put out, all runs succeed and put out the same, which is the normalised input if that was data. -/
theorem passes_settle :
    (∀ s : Streams, s.source.IsData → s.sink.Willing →
      (∀ cap, s.sink.plan.cap? = some cap → 1 ≤ cap) →
      let once := s.sink.bytes ++ normalize s.source.bytes
      (s.after [.relay]).sink.bytes = once ∧
      ∀ k, let steps := .relay :: passes k
        (∀ result ∈ s.session steps, result.1.fault? = none) ∧
        (s.after steps).source = [] ∧
        (1 ≤ k → (s.after steps).sink.bytes = normalize once)) ∧
    (∀ (first : Command.Launch) (later : List Command.Launch),
      (first :: later).IsChain Command.Feeds →
      (∀ launch ∈ first :: later, launch.Unhindered) → first.streams.source.faults = [] →
      (∀ launch ∈ first :: later,
        launch.outcome.report.ending = .exited 0 ∧ launch.output = first.output) ∧
      (first.streams.source.IsData →
        first.output = normalize first.streams.source.bytes)) := by
  constructor
  · intro s hdata hsink hcap once
    have hsmooth : s.Smooth := ⟨hdata, hsink, hcap⟩
    obtain ⟨hfault, hempty, hstored, hafter⟩ := hsmooth.after_relay
    refine ⟨hstored, ?_⟩
    intro k steps
    obtain ⟨hreplies, hdrained, hpassed⟩ := hafter.after_passes hempty k
    rw [hstored] at hpassed
    rw [Streams.after_cons]
    refine ⟨?_, hdrained, hpassed⟩
    intro result hresult
    rcases List.mem_cons.1 hresult with rfl | hresult
    · exact hfault
    · exact hreplies result hresult
  · intro first later hchain hfree hsource
    refine ⟨Command.output_of_chain hchain hfree hsource, ?_⟩
    intro hdata
    rw [((hfree first List.mem_cons_self).succeeds hsource).2, finished_of_isData hdata]

/-- A sink that holds a line without its end and takes one byte at a time is given no data: the
first of three passes adds the newline.  A chunk whose line feed goes unnoticed is put out with a
second one, and a run that is fed with this, cut in pieces, puts out the same. -/
theorem passes_settle_behind_open_line :
    let fault : Fault := .system .timeout (.text "timed out")
    let s : Streams :=
      { source := [.data []]
        sink :=
          { plan := { refusals := [⟨0, fault, 0⟩], cap? := some 1 }, calls := 1
            stored := #[0x7A] } }
    let first : Command.Launch :=
      ⟨.byModule, .accepting, { source := [.chunk [0x61, 0x0A]] }⟩
    let second : Command.Launch :=
      ⟨.script "postnl", .accepting,
        { source := [.data [0x61], .data [], .data [0x0A, 0x0A]] }⟩
    s.source.IsData ∧ s.sink.Willing ∧ (∀ cap, s.sink.plan.cap? = some cap → 1 ≤ cap) ∧
      (s.after (.relay :: passes 3)).sink.bytes = [0x7A, 0x0A] ∧
      [first, second].IsChain Command.Feeds ∧
      (∀ launch ∈ [first, second], launch.Unhindered) ∧ first.streams.source.faults = [] ∧
      second.outcome.report.ending = .exited 0 ∧ second.output = first.output := by
  intro fault s first second
  have hdata : s.source.IsData := by simp [s, Source.IsData]
  have hsink : s.sink.Willing := by
    intro call x hcall
    have hother : s.sink.plan.refusal? call = none := by
      have hne : 0 ≠ call := (Nat.lt_of_lt_of_le Nat.zero_lt_one hcall).ne
      simp [s, Plan.refusal?, hne]
    rw [Plan.respond, hother]
    rfl
  have hcap : ∀ cap, s.sink.plan.cap? = some cap → 1 ≤ cap := by simp [s]
  have hfeeds : Command.Feeds first second :=
    ⟨by simp [second, Source.IsData], by decide +kernel⟩
  have hchain : [first, second].IsChain Command.Feeds :=
    List.isChain_cons_cons.2 ⟨hfeeds, List.isChain_singleton second⟩
  have hfree : ∀ launch ∈ [first, second], launch.Unhindered := by
    intro launch hlaunch
    have hplan : launch.streams.sink = {} := by
      rcases List.mem_pair.1 hlaunch with rfl | rfl
      · rfl
      · rfl
    exact ⟨by rw [hplan]; rfl, by rw [hplan]; exact fun _ _ _ => rfl, by rw [hplan], by rw [hplan]⟩
  obtain ⟨hsessions, hchains⟩ := passes_settle
  obtain ⟨-, hpasses⟩ := hsessions s hdata hsink hcap
  obtain ⟨-, -, hstored⟩ := hpasses 3
  obtain ⟨hruns, -⟩ := hchains first [second] hchain hfree rfl
  obtain ⟨hexits, hsame⟩ := hruns second (by simp)
  refine ⟨hdata, hsink, hcap, (hstored (by decide)).trans ?_, hchain, hfree, rfl, hexits, hsame⟩
  decide +kernel

end FinalNewline
