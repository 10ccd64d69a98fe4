import FinalNewline.Proofs.Output

/-!
# What a copy looks like from outside

The transcript of a copy is a regular word.  It begins with exchanges, each of which reads
a value and writes just this value, and it closes in one of four ways: a read fails, a
write fails, the stream ends with nothing owed, or it ends and a terminator is written.
Which of the last two it is depends on the values exchanged and on nothing else.

The closing is told apart from the exchanges by its calls alone, so a transcript can be
read in one way only.

## Main Definitions

* `obtained` — the values that the reads of a transcript brought
* `exchanges` — the calls that copy some values
* `Concludes` — the ways for a copy to close
* `Converses` — a transcript as exchanges and a closing

## Main Results

* `Copies.exists_exchanges`, `Converses.unique` — each copy is exchanges and a closing, in
  one way only
* `Copies.bytes_obtained` — what a copy reads, it takes off the front of the source
* `Plan.Answers`, `Copies.answers` — the writes of a copy go as the plan says
-/

namespace FinalNewline

/-! ### The values obtained -/

/-- The value that a call obtained, if it is a read that brought bytes. -/
def Call.obtained? : Call → Option Bytes
  | read received => if received.value = [] then none else some received.value
  | _ => none

/-- The values that the reads of a transcript brought, in order.  A read that brought no
bytes ended the stream, and counts for nothing. -/
def obtained (calls : List Call) : List Bytes :=
  calls.filterMap Call.obtained?

@[simp]
theorem obtained_nil : obtained [] = [] := rfl

@[simp]
theorem obtained_append (before after : List Call) :
    obtained (before ++ after) = obtained before ++ obtained after :=
  List.filterMap_append

theorem obtained_cons_of_end {received : Received} (hend : received.value = [])
    (calls : List Call) : obtained (.read received :: calls) = obtained calls := by
  rw [obtained, List.filterMap_cons_none (by simp [Call.obtained?, hend])]
  rfl

theorem obtained_cons_of_value {received : Received} (hvalue : received.value ≠ [])
    (calls : List Call) :
    obtained (.read received :: calls) = received.value :: obtained calls := by
  rw [obtained, List.filterMap_cons_some (b := received.value) (by simp [Call.obtained?, hvalue])]
  rfl

theorem obtained_cons_read_bytes {x : Bytes} (hx : x ≠ []) (calls : List Call) :
    obtained (.read (.bytes x) :: calls) = x :: obtained calls :=
  obtained_cons_of_value (show (Received.bytes x).value ≠ [] from hx) calls

@[simp]
theorem obtained_cons_readFault (fault : Fault) (calls : List Call) :
    obtained (.readFault fault :: calls) = obtained calls := rfl

@[simp]
theorem obtained_cons_write (value : Bytes) (fault? : Option Fault) (calls : List Call) :
    obtained (.write value fault? :: calls) = obtained calls := rfl

@[simp]
theorem obtained_cons_flush (fault? : Option Fault) (calls : List Call) :
    obtained (.flush fault? :: calls) = obtained calls := rfl

@[simp]
theorem obtained_cons_close (fault? : Option Fault) (calls : List Call) :
    obtained (.close fault? :: calls) = obtained calls := rfl

/-- A read that brings bytes brings them as a byte string. -/
theorem Received.eq_bytes_of_value {received : Received} (hvalue : received.value ≠ []) :
    received = .bytes received.value := by
  cases received with
  | bytes value => rfl
  | nothing => exact absurd rfl hvalue

/-! ### Exchanges and closings -/

/-- The calls that copy some values: each is read and then written, before the next. -/
def exchanges (values : List Bytes) : List Call :=
  values.flatMap fun x => [.read (.bytes x), .write x none]

/-- The ways for a copy to close, with the fault that it then ends with.  The first
argument tells whether a terminator is owed. -/
inductive Concludes : Bool → List Call → Option Fault → Prop where
  /-- The next read fails. -/
  | readFault {owed : Bool} (fault : Fault) : Concludes owed [.readFault fault] (some fault)
  /-- A value is read, but cannot be written. -/
  | writeFault {owed : Bool} {x : Bytes} (hvalue : x ≠ []) (fault : Fault) :
      Concludes owed [.read (.bytes x), .write x (some fault)] (some fault)
  /-- The stream ends, and nothing is written. -/
  | complete {received : Received} (hend : received.value = []) :
      Concludes false [.read received] none
  /-- The stream ends, and a terminator is written or cannot be written. -/
  | terminate {received : Received} (hend : received.value = []) (fault? : Option Fault) :
      Concludes true [.read received, .write terminator fault?] fault?

/-- A transcript that consists of the exchanges of some values and a closing, and the fault
that it ends with. -/
structure Converses (values : List Bytes) (ending calls : List Call) (fault? : Option Fault) :
    Prop where
  calls_eq : calls = exchanges values ++ ending
  ne_nil : ∀ x ∈ values, x ≠ []
  concludes : Concludes (owes false values) ending fault?

@[simp]
theorem exchanges_nil : exchanges [] = [] := rfl

@[simp]
theorem exchanges_cons (x : Bytes) (xs : List Bytes) :
    exchanges (x :: xs) = .read (.bytes x) :: .write x none :: exchanges xs := rfl

/-- A terminator is owed behind some values if there are any, and the last of them is not
exactly a terminator. -/
theorem owes_false_iff {values : List Bytes} :
    owes false values = true ↔ ∃ last, values.getLast? = some last ∧ last ≠ terminator := by
  unfold owes
  cases values.getLast? <;> simp

@[simp]
theorem written_exchanges (values : List Bytes) : written (exchanges values) = values := by
  induction values with
  | nil => rfl
  | cons x xs ih => simp [ih]

theorem obtained_exchanges {values : List Bytes} (hvalues : ∀ x ∈ values, x ≠ []) :
    obtained (exchanges values) = values := by
  induction values with
  | nil => rfl
  | cons x xs ih =>
    rw [exchanges_cons, obtained_cons_read_bytes (hvalues x List.mem_cons_self),
      obtained_cons_write, ih fun y hy => hvalues y (List.mem_cons_of_mem x hy)]

/-! ### Copies are exchanges and a closing -/

section Conversations

variable {σ : Type} [Channel σ]

/-- A copy makes exchanges, and then closes as the last value exchanged requires. -/
theorem Copies.exists_exchanges {owed : Bool} {s : σ} {run : Run σ} (h : Copies owed s run) :
    ∃ values ending, run.calls = exchanges values ++ ending ∧ (∀ x ∈ values, x ≠ []) ∧
      Concludes (owes owed values) ending run.fault? := by
  induction h with
  | readFault hread => exact ⟨[], _, rfl, by simp, .readFault _⟩
  | complete hread hend => exact ⟨[], _, rfl, by simp, .complete hend⟩
  | terminate hread hend hwrite => exact ⟨[], _, rfl, by simp, .terminate hend _⟩
  | @writeFault _ _ _ _ received fault hread hvalue hwrite =>
    refine ⟨[], _, rfl, by simp, ?_⟩
    rw [Received.eq_bytes_of_value hvalue]
    exact .writeFault hvalue fault
  | @step _ _ _ _ received run hread hvalue hwrite hrest ih =>
    obtain ⟨values, ending, hcalls, hvalues, hconcludes⟩ := ih
    refine ⟨received.value :: values, ending, ?_, ?_, ?_⟩
    · simp only [Run.after, hcalls, exchanges_cons, ← Received.eq_bytes_of_value hvalue]
      rfl
    · exact List.forall_mem_cons.2 ⟨hvalue, hvalues⟩
    · rw [owes_cons]
      exact hconcludes

/-- A relay is exchanges and a closing. -/
theorem exists_converses (s : σ) :
    ∃ values ending, Converses values ending (relay s).calls (relay s).fault? := by
  obtain ⟨values, ending, hcalls, hvalues, hconcludes⟩ := (copies_relay s).exists_exchanges
  exact ⟨values, ending, hcalls, hvalues, hconcludes⟩

end Conversations

/-- A closing does not begin with an exchange. -/
theorem Concludes.ne_exchange {owed : Bool} {ending : List Call} {fault? : Option Fault}
    (h : Concludes owed ending fault?) {x : Bytes} (hx : x ≠ []) (calls : List Call) :
    ending ≠ .read (.bytes x) :: .write x none :: calls := by
  intro heq
  cases h with
  | readFault fault => simp at heq
  | writeFault hvalue fault => simp at heq
  | complete hend => simp at heq
  | terminate hend fault? =>
    obtain ⟨rfl, -⟩ := List.cons.inj heq |>.imp Call.read.inj id
    exact hx hend

/-- Exchanges and closing can be told apart. -/
theorem Converses.unique {values values' : List Bytes} {ending ending' calls : List Call}
    {fault? fault?' : Option Fault} (h : Converses values ending calls fault?)
    (h' : Converses values' ending' calls fault?') : values' = values ∧ ending' = ending := by
  obtain ⟨rfl, hvalues, hconcludes⟩ := h
  obtain ⟨heq, hvalues', hconcludes'⟩ := h'
  -- The closings stay as they are while exchanges are taken off both sides.
  generalize owes false values = owed at hconcludes
  generalize owes false values' = owed' at hconcludes'
  induction values generalizing values' with
  | nil =>
    cases values' with
    | nil => exact ⟨rfl, by simpa using heq.symm⟩
    | cons x xs => exact absurd heq (hconcludes.ne_exchange (hvalues' x List.mem_cons_self) _)
  | cons x xs ih =>
    cases values' with
    | nil => exact absurd heq.symm (hconcludes'.ne_exchange (hvalues x List.mem_cons_self) _)
    | cons y ys =>
      obtain ⟨⟨rfl⟩, hrest⟩ : x = y ∧ exchanges xs ++ ending = exchanges ys ++ ending' := by
        simpa using heq
      obtain ⟨rfl, hending⟩ := ih (fun z hz => hvalues z (List.mem_cons_of_mem x hz)) hrest
        (fun z hz => hvalues' z (List.mem_cons_of_mem x hz))
      exact ⟨rfl, hending⟩

/-! ### What a copy takes off its source -/

/-- A copy on streams takes what it obtains off the front of the source. -/
theorem Copies.bytes_obtained {owed : Bool} {s : Streams} {run : Run Streams}
    (h : Copies owed s run) :
    s.source.bytes = (obtained run.calls).flatten ++ run.state.source.bytes := by
  induction h with
  | readFault hread =>
    rw [Source.bytes_read, Streams.source_of_read hread]
    rfl
  | complete hread hend =>
    rw [Source.bytes_of_read (Streams.source_of_read hread), hend, obtained_cons_of_end hend]
    rfl
  | terminate hread hend hwrite =>
    rw [Source.bytes_of_read (Streams.source_of_read hread), hend, obtained_cons_of_end hend,
      ← Streams.source_of_write hwrite]
    rfl
  | writeFault hread hvalue hwrite =>
    rw [Source.bytes_of_read (Streams.source_of_read hread), obtained_cons_of_value hvalue,
      ← Streams.source_of_write hwrite]
    simp
  | @step _ s t u received run hread hvalue hwrite hrest ih =>
    rw [Source.bytes_of_read (Streams.source_of_read hread), ← Streams.source_of_write hwrite, ih]
    simp [Run.after, obtained_cons_of_value hvalue]

/-- A copy that comes to its end has obtained all values of its source. -/
theorem Copies.obtained_of_success {owed : Bool} {s : Streams} {run : Run Streams}
    (h : Copies owed s run) (hfault : run.fault? = none) :
    obtained run.calls = s.source.values := by
  induction h with
  | readFault hread => simp at hfault
  | complete hread hend =>
    rw [Source.values_of_end (Streams.source_of_read hread) hend, obtained_cons_of_end hend]
    rfl
  | terminate hread hend hwrite =>
    rw [Source.values_of_end (Streams.source_of_read hread) hend, obtained_cons_of_end hend]
    rfl
  | writeFault hread hvalue hwrite => simp at hfault
  | step hread hvalue hwrite hrest ih =>
    rw [Source.values_of_value (Streams.source_of_read hread) hvalue,
      ← Streams.source_of_write hwrite, ← ih hfault]
    simp [Run.after, obtained_cons_of_value hvalue]

/-! ### Writes go as the plan says -/

/-- The writes of the transcript, the first of which has number `call`, went as the plan
says. -/
def Plan.Answers (plan : Plan) (call : Nat) : List Call → Prop
  | [] => True
  | .write x fault? :: calls =>
    fault? = (plan.respond call x).2 ∧ plan.Answers (call + 1) calls
  | _ :: calls => plan.Answers call calls

/-- The writes of a copy go as the plan of the sink says. -/
theorem Copies.answers {owed : Bool} {s : Streams} {run : Run Streams} (h : Copies owed s run) :
    s.sink.plan.Answers s.sink.calls run.calls := by
  induction h with
  | readFault hread => trivial
  | complete hread hend => trivial
  | terminate hread hend hwrite =>
    refine ⟨?_, trivial⟩
    rw [← Streams.sink_of_read hread]
    exact Streams.fault_of_write hwrite
  | writeFault hread hvalue hwrite =>
    refine ⟨?_, trivial⟩
    rw [← Streams.sink_of_read hread]
    exact Streams.fault_of_write hwrite
  | @step _ s t u received run hread hvalue hwrite hrest ih =>
    have hcalls : u.sink.calls = s.sink.calls + 1 := by
      obtain ⟨-, rfl⟩ := Prod.mk.inj hwrite
      rw [← Streams.sink_of_read hread]
      rfl
    rw [hcalls, Streams.plan_of_write hwrite, Streams.sink_of_read hread] at ih
    refine ⟨?_, ih⟩
    rw [← Streams.sink_of_read hread]
    exact Streams.fault_of_write hwrite

/-- No write of a transcript without faults was refused. -/
theorem Plan.Answers.not_refused {plan : Plan} {call : Nat} {calls : List Call}
    (h : plan.Answers call calls) (hfault : firstFault? calls = none) :
    ∀ i < (written calls).length, plan.refusalAt? (call + i) = none := by
  induction calls generalizing call with
  | nil => simp
  | cons first calls ih =>
    rw [firstFault?_cons] at hfault
    obtain ⟨hfirst, hrest⟩ := Option.or_eq_none_iff.1 hfault
    cases first with
    | write x fault? =>
      obtain ⟨hanswer, hanswers⟩ := h
      have hnone : plan.refusalAt? call = none := by
        have : fault? = none := hfirst
        rwa [this, respond_snd, eq_comm, Option.map_eq_none_iff] at hanswer
      rintro (_ | i) hi
      · exact hnone
      · rw [show call + (i + 1) = call + 1 + i by omega]
        exact ih hanswers hrest i (by simpa using hi)
    | read received => exact ih h hrest
    | readFault fault => exact ih h hrest
    | flush fault? => exact ih h hrest
    | close fault? => exact ih h hrest

end FinalNewline
