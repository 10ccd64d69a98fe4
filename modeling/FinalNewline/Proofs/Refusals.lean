import FinalNewline.Proofs.Copies
import FinalNewline.Proofs.Plans

/-!
# Relays under a plan

A plan that refuses writes disturbs a relay in one way only: it cuts the relay short.
Up to the first refused write the relay makes the calls that it makes on a willing sink,
then comes the refused write, and then nothing.

The two relays are compared in lockstep by the rules of a copy.  What the comparison
yields is a statement on transcripts, and it is all that is needed: the fault, the
source and the sink that a relay leaves can be read off its transcript.

## Main Definitions

* `Plan.impose` — a transcript as far as a plan lets it go
* `Streams.replan` — the same streams with the sink under a new plan

## Main Results

* `Copies.exists_under_plan` — the same copy on a sink with another plan
* `Plan.impose_eq_self`, `Plan.exists_impose_eq` — where a plan cuts a transcript
* `relay_replan` — a relay under a plan against the relay on a willing sink
-/

namespace FinalNewline

/-- The streams with the sink under a new plan, whose calls are numbered from zero. -/
def Streams.replan (s : Streams) (plan : Plan) : Streams :=
  { s with sink := s.sink.replan plan }

namespace Plan

/-! ### Where a plan cuts a transcript -/

/-- The transcript as far as the plan lets it go: up to the first write that is refused,
which then fails.  The number of the next write is `call`. -/
def impose (plan : Plan) (call : Nat) : List Call → List Call
  | [] => []
  | .write x fault? :: calls =>
    match plan.refusalAt? call with
    | some refusal => [.write x (some refusal.fault)]
    | none => .write x fault? :: impose plan (call + 1) calls
  | other :: calls => other :: impose plan call calls

theorem impose_write_of_refused {plan : Plan} {call : Nat} {refusal : Refusal}
    (h : plan.refusalAt? call = some refusal) (x : Bytes) (fault? : Option Fault)
    (calls : List Call) :
    plan.impose call (.write x fault? :: calls) = [.write x (some refusal.fault)] := by
  rw [impose, h]

theorem impose_write_of_not_refused {plan : Plan} {call : Nat}
    (h : plan.refusalAt? call = none) (x : Bytes) (fault? : Option Fault) (calls : List Call) :
    plan.impose call (.write x fault? :: calls) =
      .write x fault? :: plan.impose (call + 1) calls := by
  rw [impose, h]

/-- A plan that refuses none of the writes of a transcript lets it pass, and decides on
what follows. -/
theorem impose_append {plan : Plan} {call : Nat} {before : List Call}
    (h : ∀ i < (written before).length, plan.refusalAt? (call + i) = none) (after : List Call) :
    plan.impose call (before ++ after) =
      before ++ plan.impose (call + (written before).length) after := by
  induction before generalizing call with
  | nil => rfl
  | cons first before ih =>
    cases first with
    | write x fault? =>
      have hfirst : plan.refusalAt? call = none := h 0 (by simp)
      have hrest : ∀ i < (written before).length, plan.refusalAt? (call + 1 + i) = none := by
        intro i hi
        rw [show call + 1 + i = call + (i + 1) by omega]
        exact h (i + 1) (by simpa using hi)
      rw [List.cons_append, impose_write_of_not_refused hfirst, ih hrest, List.cons_append]
      rw [show call + 1 + (written before).length =
        call + (written (.write x fault? :: before)).length by simp; omega]
    | read received => exact congrArg (.read received :: ·) (ih h)
    | readFault fault => exact congrArg (.readFault fault :: ·) (ih h)
    | flush fault? => exact congrArg (.flush fault? :: ·) (ih h)
    | close fault? => exact congrArg (.close fault? :: ·) (ih h)

/-- A plan that refuses none of the writes leaves the transcript as it is. -/
theorem impose_eq_self {plan : Plan} {call : Nat} {calls : List Call}
    (h : ∀ i < (written calls).length, plan.refusalAt? (call + i) = none) :
    plan.impose call calls = calls := by
  simpa [impose] using impose_append h []

/-- A plan cuts a transcript right behind the first write that it refuses. -/
theorem exists_impose_eq {plan : Plan} {call first : Nat} {calls : List Call}
    {refusal : Refusal} (hlt : first < (written calls).length)
    (hrefused : plan.refusalAt? (call + first) = some refusal)
    (hbefore : ∀ i < first, plan.refusalAt? (call + i) = none) :
    ∃ before x fault? after,
      calls = before ++ .write x fault? :: after ∧
      (written before).length = first ∧
      plan.impose call calls = before ++ [.write x (some refusal.fault)] := by
  -- The writes are split by their number, and the transcript follows.
  have hsplit : written calls =
      (written calls).take first ++ (written calls)[first] :: (written calls).drop (first + 1) := by
    rw [List.getElem_cons_drop, List.take_append_drop]
  obtain ⟨before, fault?, after, hcalls, hfront⟩ := exists_eq_append_write hsplit
  have hlength : (written before).length = first := by
    rw [hfront, List.length_take]
    omega
  refine ⟨before, _, fault?, after, hcalls, hlength, ?_⟩
  rw [congrArg (plan.impose call) hcalls, impose_append (by rwa [hlength]), hlength,
    impose_write_of_refused hrefused]

end Plan

/-! ### The same copy under another plan -/

namespace Streams

theorem read_with_sink {s t : Streams} {answer : Except Fault Received}
    (h : Channel.read s = (answer, t)) (sink : Sink) :
    Channel.read { s with sink := sink } = (answer, { t with sink := sink }) := by
  obtain ⟨rfl, rfl⟩ := Prod.mk.inj h
  rfl

theorem write_of_refused {s : Streams} {refusal : Refusal}
    (h : s.sink.plan.refusalAt? s.sink.calls = some refusal) (x : Bytes) :
    Channel.write s x = (some refusal.fault, (s.write x).2) := by
  refine Prod.ext ?_ rfl
  exact congrArg Prod.snd (Plan.respond_of_refusalAt? h x)

theorem write_of_not_refused {s : Streams}
    (h : s.sink.plan.refusalAt? s.sink.calls = none) (x : Bytes) :
    Channel.write s x = (none, (s.write x).2) := by
  refine Prod.ext ?_ rfl
  exact congrArg Prod.snd (Plan.respond_of_not_refused h x)

end Streams

/-- A copy on a willing sink can be made on any other sink, as far as the plan of that
sink lets it go. -/
theorem Copies.exists_under_plan {owed : Bool} {s : Streams} {ideal : Run Streams}
    (h : Copies owed s ideal) (hplan : s.sink.plan.Willing) (sink : Sink) :
    ∃ run, Copies owed { s with sink := sink } run ∧
      run.calls = sink.plan.impose sink.calls ideal.calls := by
  -- The other sink stays arbitrary: after a step more than its plan is different.
  induction h generalizing sink with
  | readFault hread => exact ⟨_, .readFault (Streams.read_with_sink hread sink), rfl⟩
  | complete hread hend => exact ⟨_, .complete (Streams.read_with_sink hread sink) hend, rfl⟩
  | @terminate s t u received fault? hread hend hwrite =>
    have hread' := Streams.read_with_sink hread sink
    cases hrefused : sink.plan.refusalAt? sink.calls with
    | some refusal =>
      refine ⟨_, .terminate hread' hend (Streams.write_of_refused hrefused _), ?_⟩
      exact congrArg (.read received :: ·) (Plan.impose_write_of_refused hrefused _ _ _).symm
    | none =>
      obtain ⟨rfl, -⟩ := Streams.willing_of_write hplan hread hwrite
      refine ⟨_, .terminate hread' hend (Streams.write_of_not_refused hrefused _), ?_⟩
      exact congrArg (.read received :: ·)
        (Plan.impose_write_of_not_refused hrefused terminator none []).symm
  | writeFault hread hvalue hwrite =>
    simpa using (Streams.willing_of_write hplan hread hwrite).1
  | @step owed s t u received run hread hvalue hwrite hrest ih =>
    have hread' := Streams.read_with_sink hread sink
    cases hrefused : sink.plan.refusalAt? sink.calls with
    | some refusal =>
      refine ⟨_, .writeFault hread' hvalue (Streams.write_of_refused hrefused _), ?_⟩
      exact congrArg (.read received :: ·) (Plan.impose_write_of_refused hrefused _ _ _).symm
    | none =>
      obtain ⟨run', hcopies, hcalls⟩ :=
        ih (Streams.willing_of_write hplan hread hwrite).2 (sink.write received.value).2
      have hwrite' : Channel.write { t with sink := sink } received.value =
          (none, { u with sink := (sink.write received.value).2 }) := by
        rw [Streams.write_of_not_refused hrefused, Streams.source_of_write hwrite]
        rfl
      refine ⟨_, .step hread' hvalue hwrite' hcopies, ?_⟩
      simp only [Run.after, List.cons_append, List.nil_append, hcalls]
      exact congrArg (.read received :: ·) (Plan.impose_write_of_not_refused hrefused _ _ _).symm

/-- A relay under a plan makes the calls of the relay on a willing sink, as far as the
plan lets it. -/
theorem calls_relay_replan (s : Streams) (plan : Plan) :
    (relay (s.replan plan)).calls = plan.impose 0 (relay (s.replan {})).calls := by
  obtain ⟨run, hcopies, hcalls⟩ :=
    (copies_relay (s.replan {})).exists_under_plan (fun _ _ => rfl) (s.sink.replan plan)
  obtain rfl : run = relay (s.replan plan) := hcopies.eq_copy
  exact hcalls

/-! ### What is left -/

/-- The fault of a copy, read off its transcript: that of the last call. -/
theorem Copies.fault?_of_calls {σ : Type} [Channel σ] {owed : Bool} {s : σ} {run : Run σ}
    (h : Copies owed s run) {before : List Call} {call : Call} {fault : Fault}
    (hcalls : run.calls = before ++ [call]) (hcall : call.fault? = some fault) :
    run.fault? = some fault := by
  cases hfault : run.fault? with
  | none =>
    have hnone := h.firstFault?_calls.trans hfault
    have := firstFault?_eq_none_iff.1 hnone call (by simp [hcalls])
    simp [hcall] at this
  | some e =>
    obtain ⟨before', call', hcalls', -, hcall'⟩ := h.failsWith hfault
    obtain ⟨-, hlast⟩ := List.append_inj' (hcalls'.symm.trans hcalls) rfl
    obtain rfl : call' = call := by simpa using hlast
    rw [← hcall', hcall]

/-- On a willing sink no write fails. -/
theorem Copies.fault?_of_mem {owed : Bool} {s : Streams} {run : Run Streams}
    (h : Copies owed s run) (hplan : s.sink.plan.Willing) {x : Bytes} {fault? : Option Fault}
    (hmem : .write x fault? ∈ run.calls) : fault? = none := by
  induction h with
  | readFault hread => simp at hmem
  | complete hread hend => simp at hmem
  | terminate hread hend hwrite =>
    obtain ⟨-, rfl⟩ : x = terminator ∧ fault? = _ := by simpa using hmem
    exact (Streams.willing_of_write hplan hread hwrite).1
  | writeFault hread hvalue hwrite =>
    simpa using (Streams.willing_of_write hplan hread hwrite).1
  | @step _ _ _ _ received run hread hvalue hwrite hrest ih =>
    have hmem : x = received.value ∧ fault? = none ∨ .write x fault? ∈ run.calls := by
      simpa [Run.after] using hmem
    rcases hmem with ⟨-, rfl⟩ | hmem
    · rfl
    · exact ih (Streams.willing_of_write hplan hread hwrite).2 hmem

/-- What a transcript leaves in the source is the same under every plan. -/
theorem source_replay_replan (s : Streams) (plan : Plan) (calls : List Call) :
    ((s.replan plan).replay calls).source = ((s.replan {}).replay calls).source :=
  Streams.source_replay_congr (show (s.replan plan).source = (s.replan {}).source from rfl) calls

/-- What a transcript leaves in the sink under a plan. -/
theorem bytes_replay_replan (s : Streams) (plan : Plan) (calls : List Call) :
    ((s.replan plan).replay calls).sink.bytes =
      s.sink.bytes ++ plan.accepted 0 (written calls) :=
  Streams.bytes_replay (s.replan plan) calls

/-- A willing sink stores all that is written to it. -/
theorem bytes_replay_willing (s : Streams) (calls : List Call) :
    ((s.replan {}).replay calls).sink.bytes = s.sink.bytes ++ (written calls).flatten := by
  rw [bytes_replay_replan, Plan.accepted_of_not_refused fun _ _ => rfl,
    Plan.map_clip_of_uncapped rfl]

/-- A plan that refuses none of the writes of a relay does not show. -/
theorem relay_replan_of_late {s : Streams} {plan : Plan} (hcap : plan.cap? = none)
    (hpass : ∀ i < (written (relay (s.replan {})).calls).length, plan.refusalAt? i = none) :
    (relay (s.replan plan)).calls = (relay (s.replan {})).calls ∧
    (relay (s.replan plan)).fault? = (relay (s.replan {})).fault? ∧
    (relay (s.replan plan)).state.source = (relay (s.replan {})).state.source ∧
    (relay (s.replan plan)).state.sink.bytes = (relay (s.replan {})).state.sink.bytes := by
  have hpass : ∀ i < (written (relay (s.replan {})).calls).length,
      plan.refusalAt? (0 + i) = none := by
    simpa using hpass
  have hsame : (relay (s.replan plan)).calls = (relay (s.replan {})).calls := by
    rw [calls_relay_replan, Plan.impose_eq_self hpass]
  have hcopies := copies_relay (s.replan plan)
  have hideal := copies_relay (s.replan {})
  refine ⟨hsame, ?_, ?_, ?_⟩
  · rw [← hcopies.firstFault?_calls, hsame, hideal.firstFault?_calls]
  · rw [hcopies.state_eq_replay, hsame, source_replay_replan, ← hideal.state_eq_replay]
  · rw [hcopies.state_eq_replay, hsame, bytes_replay_replan, hideal.state_eq_replay,
      bytes_replay_willing, Plan.accepted_of_not_refused hpass, Plan.map_clip_of_uncapped hcap]

/-- The first refusal of a write ends a relay. -/
theorem relay_replan_of_refused {s : Streams} {plan : Plan} (hcap : plan.cap? = none)
    {first : Nat} {refusal : Refusal}
    (hlt : first < (written (relay (s.replan {})).calls).length)
    (hrefused : plan.refusalAt? first = some refusal)
    (hbefore : ∀ i < first, plan.refusalAt? i = none) :
    ∃ before x after,
      (relay (s.replan {})).calls = before ++ .write x none :: after ∧
      (written before).length = first ∧
      (relay (s.replan plan)).calls = before ++ [.write x (some refusal.fault)] ∧
      (relay (s.replan plan)).fault? = some refusal.fault ∧
      (relay (s.replan plan)).state.source = ((s.replan {}).replay before).source ∧
      (relay (s.replan plan)).state.sink.bytes =
        ((s.replan {}).replay before).sink.bytes ++ x.take refusal.kept := by
  have hcopies := copies_relay (s.replan plan)
  obtain ⟨before, x, fault?, after, hideal, hlength, hcut⟩ :=
    Plan.exists_impose_eq hlt (by rwa [Nat.zero_add]) (by simpa using hbefore)
  rw [← calls_relay_replan] at hcut
  obtain rfl : fault? = none := by
    refine (copies_relay (s.replan {})).fault?_of_mem (fun _ _ => rfl) (x := x) ?_
    rw [hideal]
    exact List.mem_append_right before List.mem_cons_self
  refine ⟨before, x, after, hideal, hlength, hcut, hcopies.fault?_of_calls hcut rfl, ?_, ?_⟩
  · rw [hcopies.state_eq_replay, hcut, source_replay_replan, Streams.replay_append]
    rfl
  · have hpass : ∀ i < (written before).length, plan.refusalAt? (0 + i) = none := by
      rwa [hlength, funext Nat.zero_add]
    rw [hcopies.state_eq_replay, hcut, bytes_replay_replan, bytes_replay_willing,
      written_append, Plan.accepted_append, Plan.accepted_of_not_refused hpass,
      Plan.map_clip_of_uncapped hcap, hlength, Nat.zero_add, ← List.append_assoc]
    simp [Plan.accepted_cons, Plan.respond_of_refusalAt? hrefused]

/-- **A relay under a plan** against the relay on a willing sink, which makes so many
`writes`.  If no call before that number is refused, the two are the same.  If one is,
the relay ends with the first refused write: it makes the same calls up to there, raises
the fault of the refusal and leaves the source as it is at this point.  The sink then
holds what was written before and of the refused value the part that the refusal keeps,
and so a front of what the willing sink holds in the end. -/
theorem relay_replan (s : Streams) (plan : Plan) (hcap : plan.cap? = none) :
    let ideal := relay (s.replan {})
    let run := relay (s.replan plan)
    let writes := (written ideal.calls).length
    ((∀ first, plan.firstRefused? = some first → writes ≤ first) →
      run.calls = ideal.calls ∧ run.fault? = ideal.fault? ∧
      run.state.source = ideal.state.source ∧
      run.state.sink.bytes = ideal.state.sink.bytes) ∧
    ∀ first, plan.firstRefused? = some first → first < writes →
      ∃ refusal before x after,
        plan.refusalAt? first = some refusal ∧
        ideal.calls = before ++ .write x none :: after ∧ (written before).length = first ∧
        run.calls = before ++ [.write x (some refusal.fault)] ∧
        run.fault? = some refusal.fault ∧
        run.state.source = ((s.replan {}).replay before).source ∧
        run.state.sink.bytes =
          ((s.replan {}).replay before).sink.bytes ++ x.take refusal.kept ∧
        run.state.sink.bytes <+: ideal.state.sink.bytes := by
  intro ideal run writes
  constructor
  · intro hlate
    refine relay_replan_of_late hcap fun i hi => Plan.refusalAt?_eq_none fun first hfirst => ?_
    exact Nat.lt_of_lt_of_le hi (hlate first hfirst)
  · intro first hfirst hlt
    obtain ⟨refusal, hrefused⟩ := Plan.exists_refusalAt? hfirst
    have hbefore : ∀ i < first, plan.refusalAt? i = none := by
      intro i hi
      refine Plan.refusalAt?_eq_none fun number hnumber => ?_
      rwa [← Option.some.inj (hfirst.symm.trans hnumber)]
    obtain ⟨before, x, after, hideal, hlength, hcalls, hfault, hsource, hstored⟩ :=
      relay_replan_of_refused hcap hlt hrefused hbefore
    refine ⟨refusal, before, x, after, hrefused, hideal, hlength, hcalls, hfault, hsource,
      hstored, ?_⟩
    -- The willing sink holds the whole refused value and all that follows it.
    have hend : ideal.state.sink.bytes =
        ((s.replan {}).replay before).sink.bytes ++ (x ++ (written after).flatten) := by
      rw [(copies_relay (s.replan {})).state_eq_replay, hideal]
      simp [bytes_replay_willing]
    rw [hend, show run.state.sink.bytes = _ from hstored, List.prefix_append_right_inj]
    exact (List.take_prefix refusal.kept x).trans (List.prefix_append x _)

/-- The refusal of the terminator, with the limit behind it: the relay has read all there
is, and only the terminator is missing from the sink. -/
theorem relay_replan_terminator :
    let s : Streams := { source := [.data [0x61, 0x62]] }
    let plan : Plan := { refusals := [⟨2, .other .memory "", 1⟩], limit? := some 3 }
    plan.cap? = none ∧ plan.firstRefused? = some 2 ∧
      (relay (s.replan plan)).fault? = some (.other .memory "") := by
  intro s plan
  have hcap : plan.cap? = none := rfl
  have hfirst : plan.firstRefused? = some 2 := by decide
  have hlt : 2 < (written (relay (s.replan {})).calls).length := by decide +kernel
  obtain ⟨refusal, -, -, -, hrefusal, -, -, -, hfault, -⟩ :=
    (relay_replan s plan hcap).2 2 hfirst hlt
  obtain rfl : refusal = ⟨2, .other .memory "", 1⟩ :=
    Option.some.inj (hrefusal.symm.trans (by decide))
  exact ⟨hcap, hfirst, hfault⟩

end FinalNewline
