import FinalNewline.Proofs.Transcripts

/-!
# What plans decide

A plan refuses a write call for one of two reasons: a refusal of just this call, or the
limit, which refuses all calls from some number on.  Here both are refusals of a single
call, and every statement about a sink needs to know only which calls are refused.  What
a sink stores is then the concatenation of the parts that its calls accepted.

## Main Definitions

* `Plan.refusalAt?` — the refusal of a write call, whatever its reason
* `Plan.firstRefused?` — the first write call that is refused
* `Plan.Willing`, `Sink.Willing` — plans under which no write fails, and sinks on which no
  write fails any more
* `Plan.clip`, `Plan.accepted` — what is accepted of one value, and of many

## Main Results

* `Plan.refusalAt?_eq_none`, `Plan.exists_refusalAt?` — the first refused call is refused,
  and no call before it is
* `Streams.bytes_replay` — what a transcript leaves in the sink
-/

namespace FinalNewline

namespace Plan

/-- The refusal of a write call: one of just this call, or else that of the limit, which
keeps nothing. -/
def refusalAt? (plan : Plan) (call : Nat) : Option Refusal :=
  (plan.refusal? call).or
    (if plan.limit?.any (· ≤ call) then some ⟨call, plan.limitFault, 0⟩ else none)

/-- The first write call that is refused: the smallest number that has a refusal or is
the limit. -/
def firstRefused? (plan : Plan) : Option Nat :=
  (plan.refusals.map Refusal.call ++ plan.limit?.toList).min?

/-- No write fails under the plan. -/
def Willing (plan : Plan) : Prop :=
  ∀ call x, (plan.respond call x).2 = none

/-- What a write call accepts of a value unless it is refused. -/
def clip (plan : Plan) (x : Bytes) : Bytes :=
  match plan.cap? with
  | some cap => x.take cap
  | none => x

/-- What successive write calls, the first with number `call`, accept of the values they
are given. -/
def accepted (plan : Plan) (call : Nat) : List Bytes → Bytes
  | [] => []
  | x :: xs => (plan.respond call x).1 ++ accepted plan (call + 1) xs

theorem respond_of_refusalAt? {plan : Plan} {call : Nat} {refusal : Refusal}
    (h : plan.refusalAt? call = some refusal) (x : Bytes) :
    plan.respond call x = (x.take refusal.kept, some refusal.fault) := by
  unfold refusalAt? at h
  unfold respond
  cases hr : plan.refusal? call with
  | some own =>
    rw [hr] at h
    obtain rfl : own = refusal := Option.some.inj h
    rfl
  | none =>
    rw [hr, Option.none_or] at h
    split at h
    · obtain rfl := Option.some.inj h
      simp [*]
    · simp at h

theorem respond_of_not_refused {plan : Plan} {call : Nat} (h : plan.refusalAt? call = none)
    (x : Bytes) : plan.respond call x = (plan.clip x, none) := by
  obtain ⟨hrefusal, hlimit⟩ := Option.or_eq_none_iff.1 h
  have hlimit : ¬ plan.limit?.any (· ≤ call) := by simpa using hlimit
  unfold respond clip
  rw [hrefusal]
  simp only [if_neg hlimit]
  cases plan.cap? with
  | some cap => rfl
  | none => rfl

/-- A write call fails exactly when it is refused. -/
theorem respond_snd (plan : Plan) (call : Nat) (x : Bytes) :
    (plan.respond call x).2 = (plan.refusalAt? call).map Refusal.fault := by
  cases h : plan.refusalAt? call with
  | some refusal => rw [respond_of_refusalAt? h]; rfl
  | none => rw [respond_of_not_refused h]; rfl

theorem willing_iff {plan : Plan} : plan.Willing ↔ ∀ call, plan.refusalAt? call = none := by
  constructor
  · intro h call
    have := h call []
    rwa [respond_snd, Option.map_eq_none_iff] at this
  · intro h call x
    rw [respond_snd, h call]
    rfl

/-! ### The first refused call -/

/-- A call that is refused has a refusal of its own or is not before the limit. -/
theorem mem_or_limit_le {plan : Plan} {call : Nat} {refusal : Refusal}
    (h : plan.refusalAt? call = some refusal) :
    call ∈ plan.refusals.map Refusal.call ∨ ∃ limit, plan.limit? = some limit ∧ limit ≤ call := by
  unfold refusalAt? at h
  cases hr : plan.refusal? call with
  | some own =>
    have hmem := List.mem_of_find?_eq_some hr
    have hcall := List.find?_some hr
    exact .inl (List.mem_map.2 ⟨own, List.mem_reverse.1 hmem, by simpa using hcall⟩)
  | none =>
    rw [hr, Option.none_or] at h
    split at h
    · rename_i hlimit
      exact .inr (by simpa [Option.any_eq_true] using hlimit)
    · simp at h

/-- No call before the first refused one is refused. -/
theorem refusalAt?_eq_none {plan : Plan} {call : Nat}
    (h : ∀ first ∈ plan.firstRefused?, call < first) : plan.refusalAt? call = none := by
  rw [Option.eq_none_iff_forall_ne_some]
  intro refusal hrefusal
  -- Its own refusal or the limit: either has a number that is not behind the call.
  obtain ⟨number, hmem, hle⟩ :
      ∃ number ∈ plan.refusals.map Refusal.call ++ plan.limit?.toList, number ≤ call := by
    rcases mem_or_limit_le hrefusal with hmem | ⟨limit, hlimit, hle⟩
    · exact ⟨call, List.mem_append_left _ hmem, Nat.le_refl call⟩
    · exact ⟨limit, List.mem_append_right _ (by simp [hlimit]), hle⟩
  cases hfirst : plan.firstRefused? with
  | none =>
    have := List.min?_eq_none_iff.1 hfirst
    simp [this] at hmem
  | some first =>
    have hleast := (List.min?_eq_some_iff.1 hfirst).2 number hmem
    have hlt := h first hfirst
    omega

/-- The first refused call is refused. -/
theorem exists_refusalAt? {plan : Plan} {first : Nat} (h : plan.firstRefused? = some first) :
    ∃ refusal, plan.refusalAt? first = some refusal := by
  rw [← Option.isSome_iff_exists, refusalAt?, Option.isSome_or]
  rcases List.mem_append.1 (List.min?_eq_some_iff.1 h).1 with hown | hlimit
  · obtain ⟨own, hmem, rfl⟩ := List.mem_map.1 hown
    have : (plan.refusal? own.call).isSome :=
      List.find?_isSome.2 ⟨own, List.mem_reverse.2 hmem, by simp⟩
    simp [this]
  · have : plan.limit? = some first := by simpa using hlimit
    simp [this]

/-! ### What is accepted -/

@[simp]
theorem accepted_nil (plan : Plan) (call : Nat) : plan.accepted call [] = [] := rfl

theorem accepted_cons (plan : Plan) (call : Nat) (x : Bytes) (xs : List Bytes) :
    plan.accepted call (x :: xs) = (plan.respond call x).1 ++ plan.accepted (call + 1) xs := rfl

theorem accepted_append (plan : Plan) (call : Nat) (xs ys : List Bytes) :
    plan.accepted call (xs ++ ys) =
      plan.accepted call xs ++ plan.accepted (call + xs.length) ys := by
  induction xs generalizing call with
  | nil => rfl
  | cons x xs ih =>
    rw [List.cons_append, accepted_cons, accepted_cons, ih, List.append_assoc]
    rw [show call + 1 + xs.length = call + (x :: xs).length by simp; omega]

/-- Calls that are not refused accept all values up to the cap. -/
theorem accepted_of_not_refused {plan : Plan} {call : Nat} {xs : List Bytes}
    (h : ∀ i < xs.length, plan.refusalAt? (call + i) = none) :
    plan.accepted call xs = (xs.map plan.clip).flatten := by
  induction xs generalizing call with
  | nil => rfl
  | cons x xs ih =>
    have hx : plan.refusalAt? call = none := h 0 (by simp)
    have hxs : ∀ i < xs.length, plan.refusalAt? (call + 1 + i) = none := by
      intro i hi
      have := h (i + 1) (by simpa using hi)
      rwa [show call + 1 + i = call + (i + 1) by omega]
    rw [accepted_cons, respond_of_not_refused hx, ih hxs]
    rfl

theorem map_clip_of_uncapped {plan : Plan} (h : plan.cap? = none) (xs : List Bytes) :
    xs.map plan.clip = xs := by
  have : plan.clip = id := by
    funext x
    simp [clip, h]
  rw [this, List.map_id]

end Plan

/-! ### Willing sinks -/

/-- No write that the sink has still to answer fails.  Its plan may refuse earlier ones. -/
def Sink.Willing (sink : Sink) : Prop :=
  ∀ call x, sink.calls ≤ call → (sink.plan.respond call x).2 = none

theorem Plan.Willing.sink {sink : Sink} (h : sink.plan.Willing) : sink.Willing :=
  fun call x _ => h call x

/-- A write to a willing sink succeeds, and the sink stays willing. -/
theorem Sink.Willing.write {sink : Sink} (h : sink.Willing) (x : Bytes) :
    (sink.write x).1 = none ∧ (sink.write x).2.Willing :=
  ⟨h sink.calls x (Nat.le_refl _), fun call y hcall => h call y (Nat.le_of_succ_le hcall)⟩

/-! ### What a sink stores -/

namespace Streams

/-- On a willing sink a write succeeds, and the sink stays willing. -/
theorem willing_of_write {s t u : Streams} {answer : Except Fault Received} {x : Bytes}
    {fault? : Option Fault} (hplan : s.sink.plan.Willing)
    (hread : Channel.read s = (answer, t)) (hwrite : Channel.write t x = (fault?, u)) :
    fault? = none ∧ u.sink.plan.Willing := by
  rw [plan_of_write hwrite, fault_of_write hwrite, sink_of_read hread]
  exact ⟨hplan _ _, hplan⟩

/-- A transcript leaves in the sink what its writes accepted, behind what was there. -/
theorem bytes_replay (s : Streams) (calls : List Call) :
    (s.replay calls).sink.bytes =
      s.sink.bytes ++ s.sink.plan.accepted s.sink.calls (written calls) := by
  induction calls generalizing s with
  | nil => simp
  | cons call calls ih =>
    rw [replay_cons, ih, plan_replayCall]
    cases call with
    | write value fault? =>
      have hbytes : (s.replayCall (.write value fault?)).sink.bytes =
          s.sink.bytes ++ (s.sink.plan.respond s.sink.calls value).1 :=
        s.sink.bytes_write value
      rw [hbytes, written_cons_write, Plan.accepted_cons, List.append_assoc]
      rfl
    | read received => rfl
    | readFault fault => rfl
    | flush fault? => rfl
    | close fault? => rfl

end Streams

end FinalNewline
