import FinalNewline.Proofs.Interruptions

/-!
# Prints

A print writes the pieces of a text one after another, and flushes the sink behind them.  If it
has an end, its transcript tells how it went: it went well exactly when each of its failed calls
is an interrupted write that the next call makes again.  If it has none, it has come to a piece
of which every write that is still to come is interrupted.

Nothing here depends on how large a text may be to be written in one piece.

## Main Definitions

* `Streams.WritesAll` — the rules by which values are written one after another
* `Streams.Prints` — the ways in which a print can go

## Main Results

* `Streams.Prints.succeeds_iff` — a print with an end goes well if and only if its transcript
  resumes
* `Streams.Prints.endless_state` — a print without end goes on with a value that is endless
* `Streams.Prints.succeeds`, `Streams.Prints.of_willing` — some interruptions do not keep a text
  from arriving, and a sink that accepts everything stores it
* `Streams.print_with_source` — a print neither looks at the source nor changes it
-/

namespace FinalNewline

/-! ### The flush behind a run -/

theorem Run.thenFlush_of_fault {run : Run Streams} {fault : Fault} (h : run.fault? = some fault) :
    run.thenFlush = run := by
  rw [thenFlush, h]

theorem Run.thenFlush_of_success {run : Run Streams} (h : run.fault? = none) :
    run.thenFlush =
      ⟨run.calls ++ [.flush run.state.sink.plan.flushFault?], run.state.sink.plan.flushFault?,
        run.state⟩ := by
  rw [thenFlush, h]
  rfl

namespace Streams

/-! ### Values one after another -/

/-- How values are written one after another. -/
inductive WritesAll : List Bytes → Streams → Print → Prop where
  /-- No value is left. -/
  | done (s : Streams) : WritesAll [] s (.ended ⟨[], none, s⟩)
  /-- The first value is written without end. -/
  | endless {x : Bytes} {s : Streams} (hendless : s.Endless x) (xs : List Bytes) :
      WritesAll (x :: xs) s (.endless [] s x)
  /-- The first value cannot be written. -/
  | failed {x : Bytes} {s : Streams} {run : Run Streams} {fault : Fault}
      (hfirst : Insists x s run) (hfault : run.fault? = some fault) (xs : List Bytes) :
      WritesAll (x :: xs) s (.ended run)
  /-- The first value is written, and then the others. -/
  | next {x : Bytes} {xs : List Bytes} {s : Streams} {run : Run Streams} {print : Print}
      (hfirst : Insists x s run) (hfault : run.fault? = none)
      (hrest : WritesAll xs run.state print) :
      WritesAll (x :: xs) s (print.after run.calls)

theorem writesAll_insistAll (s : Streams) (xs : List Bytes) : WritesAll xs s (s.insistAll xs) := by
  induction xs generalizing s with
  | nil => exact .done s
  | cons x xs ih =>
    rw [insistAll]
    rcases s.insist_cases x with ⟨hendless, hinsist⟩ | ⟨run, hrun, hinsist⟩
    · simp only [hinsist]
      exact .endless hendless xs
    · simp only [hinsist]
      cases hfault : run.fault? with
      | some fault => exact .failed hrun hfault xs
      | none => exact .next hrun hfault (ih run.state)

namespace WritesAll

variable {s : Streams} {xs : List Bytes} {print : Print}

theorem plan_eq (h : WritesAll xs s print) : print.state.sink.plan = s.sink.plan := by
  induction h with
  | done s => rfl
  | endless hendless xs => rfl
  | failed hfirst hfault xs => exact hfirst.plan_eq
  | next hfirst hfault hrest ih => rw [Print.state_after, ih, hfirst.plan_eq]

theorem eq_write (h : WritesAll xs s print) :
    ∀ call ∈ print.calls, ∃ x fault?, call = .write x fault? := by
  induction h with
  | done s => simp [Print.calls]
  | endless hendless xs => simp [Print.calls]
  | failed hfirst hfault xs => exact fun call hcall => ⟨_, hfirst.eq_write call hcall⟩
  | next hfirst hfault hrest ih =>
    intro call hcall
    rw [Print.calls_after] at hcall
    rcases List.mem_append.1 hcall with hcall | hcall
    · exact ⟨_, hfirst.eq_write call hcall⟩
    · exact ih call hcall

/-- The first call is a write of the first value. -/
theorem head? {x : Bytes} (h : WritesAll (x :: xs) s print) (hends : print.endless? = none) :
    print.calls.head? = some (.write x (s.write x).1) := by
  cases h with
  | endless hendless => simp [Print.endless?] at hends
  | failed hfirst hfault => exact hfirst.head?
  | next hfirst hfault hrest =>
    rw [Print.calls_after, List.head?_append, hfirst.head?]
    rfl

/-- What has no end goes on with a value that is endless. -/
theorem endless_state (h : WritesAll xs s print) {value : Bytes}
    (hvalue : print.endless? = some value) : print.state.Endless value := by
  induction h with
  | done s => simp [Print.endless?] at hvalue
  | endless hendless xs =>
    obtain rfl := Option.some.inj hvalue
    exact hendless
  | failed hfirst hfault xs => simp [Print.endless?] at hvalue
  | next hfirst hfault hrest ih =>
    rw [Print.endless?_after] at hvalue
    rw [Print.state_after]
    exact ih hvalue

theorem resumes (h : WritesAll xs s print) (hfault : print.fault? = none) :
    Resumes print.calls := by
  induction h with
  | done s => trivial
  | endless hendless xs => trivial
  | failed hfirst hfails xs => exact hfirst.resumes hfault
  | next hfirst hdone hrest ih =>
    rw [Print.fault?_after] at hfault
    rw [Print.calls_after]
    exact (hfirst.resumes hdone).append (ih hfault)

/-- What fails ends with the call that failed. -/
theorem exists_last (h : WritesAll xs s print) {fault : Fault}
    (hfault : print.fault? = some fault) :
    ∃ before x, print.calls = before ++ [.write x (some fault)] := by
  induction h with
  | done s => simp [Print.fault?] at hfault
  | endless hendless xs => simp [Print.fault?] at hfault
  | @failed x s run raised hfirst hfails xs =>
    have hraised : run.fault? = some fault := hfault
    obtain ⟨before, hcalls⟩ := hfirst.exists_last
    rw [hraised] at hcalls
    exact ⟨before, x, hcalls⟩
  | next hfirst hdone hrest ih =>
    rw [Print.fault?_after] at hfault
    obtain ⟨before, x, hcalls⟩ := ih hfault
    exact ⟨_, x, by rw [Print.calls_after, hcalls, List.append_assoc]⟩

end WritesAll

/-! ### Prints -/

/-- How a text is printed on streams: its pieces are written, and if all of them were, the sink
is flushed. -/
inductive Prints (size : Nat) (text : String) (s : Streams) : Print → Prop where
  /-- A piece is written without end. -/
  | endless {calls : List Call} {state : Streams} {value : Bytes}
      (hall : WritesAll (pieces size (encodeText text)) s (.endless calls state value)) :
      Prints size text s (.endless calls state value)
  /-- A piece cannot be written. -/
  | failed {run : Run Streams} {fault : Fault}
      (hall : WritesAll (pieces size (encodeText text)) s (.ended run))
      (hfault : run.fault? = some fault) : Prints size text s (.ended run)
  /-- All pieces are written. -/
  | flushed {run : Run Streams}
      (hall : WritesAll (pieces size (encodeText text)) s (.ended run))
      (hfault : run.fault? = none) :
      Prints size text s (.ended ⟨run.calls ++ [.flush s.sink.plan.flushFault?],
        s.sink.plan.flushFault?, run.state⟩)

theorem prints_print (size : Nat) (s : Streams) (text : String) :
    Prints size text s (s.print size text) := by
  have hall := s.writesAll_insistAll (pieces size (encodeText text))
  rw [print]
  cases hwrites : s.insistAll (pieces size (encodeText text)) with
  | endless calls state value =>
    rw [hwrites] at hall
    exact .endless hall
  | ended run =>
    rw [hwrites] at hall
    rw [Print.thenFlush]
    cases hfault : run.fault? with
    | some fault =>
      rw [Run.thenFlush_of_fault hfault]
      exact .failed hall hfault
    | none =>
      have hsame : run.state.sink.plan = s.sink.plan := hall.plan_eq
      rw [Run.thenFlush_of_success hfault, hsame]
      exact .flushed hall hfault

theorem exists_pieces_eq (size : Nat) (text : Bytes) : ∃ x xs, pieces size text = x :: xs := by
  unfold pieces
  split
  · exact ⟨_, _, rfl⟩
  · exact ⟨_, _, rfl⟩

theorem flatten_pieces (size : Nat) (text : Bytes) : (pieces size text).flatten = text := by
  unfold pieces
  split <;> simp

namespace Prints

variable {size : Nat} {text : String} {s : Streams} {print : Print}

/-- **When a print goes well.**  If it has an end, then it goes well exactly when every call that
failed was an interrupted write, and the next call made it again. -/
theorem succeeds_iff (h : Prints size text s print) (hends : print.endless? = none) :
    print.fault? = none ↔ Resumes print.calls := by
  cases h with
  | endless hall => simp [Print.endless?] at hends
  | @failed run fault hall hfault =>
    obtain ⟨before, x, hcalls⟩ := hall.exists_last hfault
    have hfails : ¬ Resumes (before ++ [.write x (some fault)]) := not_resumes rfl (by simp)
    simp only [Print.calls] at hcalls
    simpa [Print.fault?, Print.calls, hfault, hcalls] using hfails
  | @flushed run hall hfault =>
    cases hflush : s.sink.plan.flushFault? with
    | some fault =>
      have hfails : ¬ Resumes (run.calls ++ [.flush (some fault)]) := not_resumes rfl (by simp)
      simpa [Print.fault?, Print.calls] using hfails
    | none =>
      have hwritten : Resumes run.calls := hall.resumes hfault
      have hflushed : Resumes [.flush none] := resumes_of_firstFault? rfl
      simpa [Print.fault?, Print.calls] using hwritten.append hflushed

/-- A print without end goes on with a value of which every further write is interrupted. -/
theorem endless_state (h : Prints size text s print) {value : Bytes}
    (hvalue : print.endless? = some value) : print.state.Endless value := by
  cases h with
  | endless hall => exact hall.endless_state hvalue
  | failed hall hfault => simp [Print.endless?] at hvalue
  | flushed hall hfault => simp [Print.endless?] at hvalue

/-- The first call of a print that has an end is a write. -/
theorem exists_head? (h : Prints size text s print) (hends : print.endless? = none) :
    ∃ x, print.calls.head? = some (.write x (s.write x).1) := by
  obtain ⟨x, xs, hpieces⟩ := exists_pieces_eq size (encodeText text)
  refine ⟨x, ?_⟩
  cases h with
  | endless hall => simp [Print.endless?] at hends
  | failed hall hfault =>
    rw [hpieces] at hall
    exact hall.head? rfl
  | @flushed run hall hfault =>
    rw [hpieces] at hall
    have hhead : run.calls.head? = some (.write x (s.write x).1) := hall.head? rfl
    rw [Print.calls, List.head?_append, hhead]
    rfl

/-- A print does nothing but write and flush. -/
theorem write_or_flush (h : Prints size text s print) {call : Call} (hcall : call ∈ print.calls) :
    (∃ x fault?, call = .write x fault?) ∨ ∃ fault?, call = .flush fault? := by
  cases h with
  | endless hall => exact .inl (hall.eq_write call hcall)
  | failed hall hfault => exact .inl (hall.eq_write call hcall)
  | flushed hall hfault =>
    rcases List.mem_append.1 hcall with hcall | hcall
    · exact .inl (hall.eq_write call hcall)
    · exact .inr ⟨_, List.mem_singleton.1 hcall⟩

end Prints

/-- A print whose first write is interrupted, as are all others, has no end. -/
theorem print_of_interruptsFrom {s : Streams}
    (hplan : s.sink.plan.InterruptsFrom s.sink.calls) (size : Nat) (text : String) :
    ∃ value, s.print size text = .endless [] s value := by
  obtain ⟨x, xs, hpieces⟩ := exists_pieces_eq size (encodeText text)
  refine ⟨x, ?_⟩
  rw [print, hpieces, insistAll, insist, dif_pos hplan]
  rfl

end Streams

/-! ### Interruptions alone -/

/-- The plan interrupts some writes, and refuses nothing else. -/
structure Plan.OnlyInterrupts (plan : Plan) : Prop where
  isInterruption : ∀ refusal ∈ plan.refusals, refusal.fault.isInterruption
  limit?_eq_none : plan.limit? = none
  flushFault?_eq_none : plan.flushFault? = none

/-- Under such a plan a write that fails is interrupted, by a refusal of its own. -/
theorem Plan.OnlyInterrupts.of_respond {plan : Plan} (h : plan.OnlyInterrupts) {call : Nat}
    {x : Bytes} {fault : Fault} (hfault : (plan.respond call x).2 = some fault) :
    fault.isInterruption ∧ call < plan.refusalsEnd := by
  rw [respond_snd, Option.map_eq_some_iff] at hfault
  obtain ⟨refusal, hrefused, rfl⟩ := hfault
  have hown : plan.refusal? call = some refusal := by
    simpa [refusalAt?, h.limit?_eq_none] using hrefused
  have hmem : refusal ∈ plan.refusals := List.mem_reverse.1 (List.mem_of_find?_eq_some hown)
  have hcall : refusal.call = call := by simpa using List.find?_some hown
  exact ⟨h.isInterruption refusal hmem, hcall ▸ call_lt_refusalsEnd hmem⟩

namespace Streams

/-- Behind the last refusal nothing is interrupted, so no write is endless. -/
theorem not_endless_of_onlyInterrupts {s : Streams} (hplan : s.sink.plan.OnlyInterrupts)
    (x : Bytes) : ¬ s.Endless x := by
  rw [endless_iff]
  intro hfrom
  have hlate := hfrom (max s.sink.calls s.sink.plan.refusalsEnd) (Nat.le_max_left _ _)
  obtain ⟨fault, hfault, -⟩ := (Option.any_eq_true _ _).1 hlate
  exact absurd (hplan.of_respond hfault).2 (Nat.not_lt.2 (Nat.le_max_right _ _))

theorem Insists.succeeds {x : Bytes} {s : Streams} {run : Run Streams} (h : Insists x s run)
    (hplan : s.sink.plan.OnlyInterrupts) : run.fault? = none := by
  induction h with
  | @last s t fault? hwrite hlast =>
    rw [Option.eq_none_iff_forall_ne_some]
    rintro fault rfl
    obtain ⟨hinterruption, -⟩ := hplan.of_respond (fault_of_write hwrite).symm
    simp [hinterruption] at hlast
  | again hwrite hinterruption hrest ih => exact ih (plan_of_write hwrite ▸ hplan)

theorem WritesAll.succeeds {xs : List Bytes} {s : Streams} {print : Print}
    (h : WritesAll xs s print) (hplan : s.sink.plan.OnlyInterrupts) :
    ∃ run, print = .ended run ∧ run.fault? = none := by
  induction h with
  | done s => exact ⟨_, rfl, rfl⟩
  | endless hendless xs => exact absurd hendless (not_endless_of_onlyInterrupts hplan _)
  | failed hfirst hfault xs => simp [hfirst.succeeds hplan] at hfault
  | next hfirst hfault hrest ih =>
    obtain ⟨run, rfl, hdone⟩ := ih (hfirst.plan_eq ▸ hplan)
    exact ⟨_, rfl, hdone⟩

/-- Some interruptions do not keep a text from arriving. -/
theorem Prints.succeeds {size : Nat} {text : String} {s : Streams} {print : Print}
    (h : Prints size text s print) (hplan : s.sink.plan.OnlyInterrupts) :
    print.endless? = none ∧ print.fault? = none := by
  cases h with
  | endless hall => simpa using hall.succeeds hplan
  | failed hall hfault =>
    obtain ⟨run, hrun, hdone⟩ := hall.succeeds hplan
    obtain rfl := Print.ended.inj hrun
    simp [hdone] at hfault
  | flushed hall hfault => exact ⟨rfl, hplan.flushFault?_eq_none⟩

/-! ### What a print leaves alone -/

/-- A repeated write neither looks at the source nor changes it. -/
theorem persist_with_source (past : Array Call) (s : Streams) (x : Bytes)
    (h : ¬ s.sink.plan.InterruptsFrom s.sink.calls) (source : Source) :
    persist past { s with source := source } x h =
      { persist past s x h with
        state := { (persist past s x h).state with source := source } } := by
  -- What is written, and whether it is written again, is decided by the sink alone.
  induction past, s, h using persist.induct x with
  | case1 past s h written now hagain hinterrupted ih =>
    have hlater : ¬ written.2.sink.plan.InterruptsFrom written.2.sink.calls :=
      fun later => h (later.of_succ hinterrupted)
    rw [persist_of_again h hagain hlater]
    exact (persist_of_again (s := { s with source := source }) h
      (by exact hagain) hlater past).trans ih
  | case2 past s h written hlast =>
    rw [persist_of_last h hlast]
    exact persist_of_last (s := { s with source := source }) h (by exact hlast) past

end Streams

/-- The same print on another source. -/
def Print.withSource (source : Source) : Print → Print
  | ended run => .ended { run with state := { run.state with source := source } }
  | endless calls state value => .endless calls { state with source := source } value

namespace Streams

theorem insist_with_source (s : Streams) (x : Bytes) (source : Source) :
    insist { s with source := source } x = (s.insist x).withSource source := by
  unfold insist
  by_cases h : s.sink.plan.InterruptsFrom s.sink.calls
  · rw [dif_pos h, dif_pos h, Print.withSource]
  · rw [dif_neg h, dif_neg h, persist_with_source, Print.withSource]

theorem insistAll_with_source (s : Streams) (xs : List Bytes) (source : Source) :
    insistAll { s with source := source } xs = (s.insistAll xs).withSource source := by
  induction xs generalizing s with
  | nil => rfl
  | cons x xs ih =>
    rw [insistAll, insistAll, insist_with_source]
    cases s.insist x with
    | endless calls state value => rfl
    | ended run =>
      cases hfault : run.fault? with
      | some fault => simp [Print.withSource, hfault]
      | none =>
        simp only [Print.withSource, hfault, ih]
        cases run.state.insistAll xs <;> rfl

/-- A print neither looks at the source nor changes it. -/
theorem print_with_source (size : Nat) (s : Streams) (text : String) (source : Source) :
    print size { s with source := source } text = (s.print size text).withSource source := by
  unfold print
  rw [insistAll_with_source]
  cases s.insistAll (pieces size (encodeText text)) with
  | endless calls state value => rfl
  | ended run =>
    cases hfault : run.fault? with
    | some fault => simp [Print.withSource, Print.thenFlush, Run.thenFlush, hfault]
    | none => simp [Print.withSource, Print.thenFlush, Run.thenFlush, hfault, flush]

theorem source_print (size : Nat) (s : Streams) (text : String) :
    (s.print size text).state.source = s.source := by
  have hsame : s.print size text = _ := print_with_source size s text s.source
  rw [hsame]
  cases s.print size text <;> rfl

/-! ### What a print stores -/

/-- A sink that accepts everything takes a value at the first attempt. -/
theorem Insists.of_willing {x : Bytes} {s : Streams} {run : Run Streams} (h : Insists x s run)
    (hplan : s.sink.plan.Willing) (hcap : s.sink.plan.cap? = none) :
    run.fault? = none ∧ run.state.sink.bytes = s.sink.bytes ++ x := by
  cases h with
  | @last s t fault? hwrite hlast =>
    have hrespond := Plan.respond_of_not_refused (Plan.willing_iff.1 hplan s.sink.calls) x
    rw [Plan.clip, hcap] at hrespond
    have hstored := s.sink.bytes_write x
    rw [hrespond] at hstored
    obtain ⟨rfl, rfl⟩ := Prod.mk.inj hwrite
    exact ⟨hplan s.sink.calls x, hstored⟩
  | again hwrite hinterruption hrest =>
    have hfails := (fault_of_write hwrite).symm
    rw [hplan s.sink.calls x] at hfails
    simp at hfails

/-- A sink that accepts everything stores all values. -/
theorem WritesAll.of_willing {xs : List Bytes} {s : Streams} {print : Print}
    (h : WritesAll xs s print) (hplan : s.sink.plan.Willing) (hcap : s.sink.plan.cap? = none) :
    ∃ run, print = .ended run ∧ run.fault? = none ∧
      run.state.sink.bytes = s.sink.bytes ++ xs.flatten := by
  induction h with
  | done s => exact ⟨_, rfl, rfl, by simp⟩
  | @endless x s hendless xs =>
    have hfirst := hendless.succ.1
    rw [show (s.write x).1 = none from hplan s.sink.calls x] at hfirst
    simp at hfirst
  | failed hfirst hfault xs => simp [(hfirst.of_willing hplan hcap).1] at hfault
  | next hfirst hfault hrest ih =>
    obtain ⟨-, hbytes⟩ := hfirst.of_willing hplan hcap
    obtain ⟨run, rfl, hdone, hstored⟩ :=
      ih (hfirst.plan_eq ▸ hplan) (hfirst.plan_eq ▸ hcap)
    refine ⟨_, rfl, hdone, hstored.trans ?_⟩
    rw [hbytes, List.flatten_cons, List.append_assoc]

/-- A sink that accepts everything stores the text, whether or not it can be flushed. -/
theorem Prints.of_willing {size : Nat} {text : String} {s : Streams} {print : Print}
    (h : Prints size text s print) (hplan : s.sink.plan.Willing)
    (hcap : s.sink.plan.cap? = none) :
    print.endless? = none ∧ print.fault? = s.sink.plan.flushFault? ∧
      print.state.sink.bytes = s.sink.bytes ++ encodeText text := by
  cases h with
  | endless hall => simpa using hall.of_willing hplan hcap
  | failed hall hfault =>
    obtain ⟨run, hrun, hdone, -⟩ := hall.of_willing hplan hcap
    obtain rfl := Print.ended.inj hrun
    simp [hdone] at hfault
  | flushed hall hfault =>
    obtain ⟨run, hrun, -, hstored⟩ := hall.of_willing hplan hcap
    obtain rfl := Print.ended.inj hrun
    refine ⟨rfl, rfl, hstored.trans ?_⟩
    rw [flatten_pieces]

end Streams

end FinalNewline
