import FinalNewline.Printing
import FinalNewline.Proofs.Plans

/-!
# Interrupted writes

A write of a text is made again as long as it is interrupted, so that a print may go well
although some of its calls have failed.  A transcript shows whether it was: each of its failed
calls is then an interrupted write, and the next call makes it again.

The repetition may have no end.  The rules by which it goes on do not look ahead; they follow
the answers one by one, and where every further write is interrupted, no finite number of
writes brings them to an end.

## Main Definitions

* `Resumes` — transcripts in which every failed call was made again
* `Streams.Endless` — every further write of a value is interrupted
* `Streams.Insists` — the rules by which a write is repeated

## Main Results

* `Streams.insist_cases` — a repeated write follows the rules, or it is endless
* `Streams.exists_insists_iff` — it has an end unless it is endless
-/

namespace FinalNewline

/-! ### Transcripts that resume -/

/-- The call did not fail, or it is an interrupted write and the next call makes it
again. -/
def Call.ResumedBy (call : Call) (next? : Option Call) : Prop :=
  ∀ fault, call.fault? = some fault →
    fault.isInterruption ∧ ∃ x again?, call = .write x (some fault) ∧
      next? = some (.write x again?)

/-- Every call that failed is an interrupted write, and the next call makes it again. -/
def Resumes : List Call → Prop
  | [] => True
  | call :: calls => call.ResumedBy calls.head? ∧ Resumes calls

theorem Call.resumedBy_of_fault? {call : Call} (h : call.fault? = none) (next? : Option Call) :
    call.ResumedBy next? := by
  intro fault hfault
  simp [h] at hfault

/-- A transcript without faults resumes. -/
theorem resumes_of_firstFault? {calls : List Call} (h : firstFault? calls = none) :
    Resumes calls := by
  induction calls with
  | nil => trivial
  | cons call calls ih =>
    rw [firstFault?_cons] at h
    obtain ⟨hcall, hcalls⟩ := Option.or_eq_none_iff.1 h
    exact ⟨Call.resumedBy_of_fault? hcall _, ih hcalls⟩

theorem Resumes.append {calls after : List Call} (h : Resumes calls) (hafter : Resumes after) :
    Resumes (calls ++ after) := by
  induction calls with
  | nil => exact hafter
  | cons call calls ih =>
    refine ⟨?_, ih h.2⟩
    intro fault hfault
    obtain ⟨hinterruption, x, again?, hcall, hnext⟩ := h.1 fault hfault
    refine ⟨hinterruption, x, again?, hcall, ?_⟩
    rw [show (List.append calls after).head? = calls.head?.or after.head? from
      List.head?_append, hnext]
    rfl

theorem Resumes.of_append {before after : List Call} (h : Resumes (before ++ after)) :
    Resumes after := by
  induction before with
  | nil => exact h
  | cons call before ih => exact ih h.2

/-- A failed call that no write follows is not made again. -/
theorem not_resumes {before after : List Call} {call : Call} {fault : Fault}
    (hcall : call.fault? = some fault)
    (hafter : ∀ x again?, after.head? ≠ some (.write x again?)) :
    ¬ Resumes (before ++ call :: after) := by
  intro hresumes
  obtain ⟨-, x, again?, -, hnext⟩ := hresumes.of_append.1 fault hcall
  exact hafter x again? hnext

namespace Streams

/-! ### A write that is repeated -/

/-- The streams after so many writes of a value. -/
def rewritten (s : Streams) (x : Bytes) : Nat → Streams
  | 0 => s
  | n + 1 => ((s.rewritten x n).write x).2

/-- Every further write of a value is interrupted, however often it was written before. -/
def Endless (s : Streams) (x : Bytes) : Prop :=
  ∀ n, ((s.rewritten x n).write x).1.any Fault.isInterruption

theorem sink_rewritten (s : Streams) (x : Bytes) (n : Nat) :
    (s.rewritten x n).sink.plan = s.sink.plan ∧
      (s.rewritten x n).sink.calls = s.sink.calls + n := by
  induction n with
  | zero => exact ⟨rfl, rfl⟩
  | succ n ih => exact ⟨ih.1, congrArg (· + 1) ih.2⟩

theorem any_write (s : Streams) (x : Bytes) :
    (s.write x).1.any Fault.isInterruption = s.sink.plan.interrupts s.sink.calls :=
  s.sink.plan.any_respond s.sink.calls x

theorem endless_iff {s : Streams} {x : Bytes} :
    s.Endless x ↔ s.sink.plan.InterruptsFrom s.sink.calls := by
  have hwrite (n : Nat) : ((s.rewritten x n).write x).1.any Fault.isInterruption =
      s.sink.plan.interrupts (s.sink.calls + n) := by
    rw [any_write, (s.sink_rewritten x n).1, (s.sink_rewritten x n).2]
  constructor
  · intro h later hlater
    rw [← Nat.add_sub_cancel' hlater, ← hwrite]
    exact h (later - s.sink.calls)
  · intro h n
    rw [hwrite]
    exact h _ (Nat.le_add_right s.sink.calls n)

/-- What is endless is interrupted now, and endless behind that. -/
theorem Endless.succ {s : Streams} {x : Bytes} (h : s.Endless x) :
    (s.write x).1.any Fault.isInterruption ∧ (s.write x).2.Endless x := by
  refine ⟨h 0, ?_⟩
  rw [endless_iff] at h ⊢
  exact fun later hlater => h later (Nat.le_of_succ_le hlater)

/-- How a write of `x` is repeated, if that has an end. -/
inductive Insists (x : Bytes) : Streams → Run Streams → Prop where
  /-- The write is not interrupted. -/
  | last {s t : Streams} {fault? : Option Fault} (hwrite : s.write x = (fault?, t))
      (hlast : fault?.any Fault.isInterruption = false) :
      Insists x s ⟨[.write x fault?], fault?, t⟩
  /-- The write is interrupted, and made again. -/
  | again {s t : Streams} {fault : Fault} {run : Run Streams}
      (hwrite : s.write x = (some fault, t)) (hinterruption : fault.isInterruption)
      (hrest : Insists x t run) :
      Insists x s (run.after [.write x (some fault)])

section Persist

variable {s : Streams} {x : Bytes} (h : ¬ s.sink.plan.InterruptsFrom s.sink.calls)

theorem persist_of_again (hagain : (s.write x).1.any Fault.isInterruption)
    (hlater : ¬ (s.write x).2.sink.plan.InterruptsFrom (s.write x).2.sink.calls)
    (past : Array Call) :
    persist past s x h = persist (past.push (.write x (s.write x).1)) (s.write x).2 x hlater := by
  rw [persist, dif_pos hagain]

theorem persist_of_last (hlast : ¬ (s.write x).1.any Fault.isInterruption) (past : Array Call) :
    persist past s x h =
      ⟨(past.push (.write x (s.write x).1)).toList, (s.write x).1, (s.write x).2⟩ := by
  rw [persist, dif_neg hlast]

/-- The write follows the rules, behind the calls made so far. -/
theorem exists_insists (past : Array Call) :
    ∃ run, Insists x s run ∧ persist past s x h = run.after past.toList := by
  induction past, s, h using persist.induct x with
  | case1 past s h written now hagain hinterrupted ih =>
    obtain ⟨run, hrun, hpersist⟩ := ih
    obtain ⟨fault, hfault, hinterruption⟩ := (Option.any_eq_true _ _).1 hagain
    refine ⟨run.after [.write x (some fault)],
      .again (Prod.ext hfault rfl) hinterruption hrun, ?_⟩
    rw [persist_of_again h hagain fun later => h (later.of_succ hinterrupted), hpersist]
    simp [Run.after, now, hfault]
  | case2 past s h written hlast =>
    refine ⟨_, .last (s.write x).eta.symm (by simpa using hlast), ?_⟩
    rw [persist_of_last h hlast]
    simp [Run.after]

theorem insists_persist : Insists x s (persist #[] s x h) := by
  obtain ⟨run, hrun, hpersist⟩ := exists_insists h #[]
  rw [hpersist]
  exact hrun

end Persist

/-- A repeated write comes to an end, or it is endless. -/
theorem insist_cases (s : Streams) (x : Bytes) :
    (s.Endless x ∧ s.insist x = .endless [] s x) ∨
      ∃ run, Insists x s run ∧ s.insist x = .ended run := by
  unfold insist
  by_cases h : s.sink.plan.InterruptsFrom s.sink.calls
  · rw [dif_pos h]
    exact .inl ⟨endless_iff.2 h, rfl⟩
  · rw [dif_neg h]
    exact .inr ⟨_, insists_persist h, rfl⟩

namespace Insists

variable {s : Streams} {x : Bytes} {run : Run Streams}

theorem not_endless (h : Insists x s run) : ¬ s.Endless x := by
  induction h with
  | last hwrite hlast =>
    intro hendless
    have hfirst := hendless.succ.1
    rw [hwrite] at hfirst
    exact absurd hfirst (by simp [hlast])
  | again hwrite hinterruption hrest ih =>
    intro hendless
    have hlater := hendless.succ.2
    rw [hwrite] at hlater
    exact ih hlater

/-- All calls are the write, and the last one decides how the repetition ends. -/
theorem exists_last (h : Insists x s run) :
    ∃ before, run.calls = before ++ [.write x run.fault?] := by
  induction h with
  | last hwrite hlast => exact ⟨[], rfl⟩
  | again hwrite hinterruption hrest ih =>
    obtain ⟨before, hcalls⟩ := ih
    exact ⟨_ :: before, congrArg (_ :: ·) hcalls⟩

theorem eq_write (h : Insists x s run) : ∀ call ∈ run.calls, ∃ fault?, call = .write x fault? := by
  induction h with
  | last hwrite hlast => simp
  | again hwrite hinterruption hrest ih => simpa [Run.after] using ih

/-- The first call is the write. -/
theorem head? (h : Insists x s run) : run.calls.head? = some (.write x (s.write x).1) := by
  cases h with
  | last hwrite hlast => rw [hwrite]; rfl
  | again hwrite hinterruption hrest => rw [hwrite]; rfl

/-- All calls but the last were interrupted, and are made again. -/
theorem resumes (h : Insists x s run) (hfault : run.fault? = none) : Resumes run.calls := by
  induction h with
  | last hwrite hlast =>
    obtain rfl : _ = none := hfault
    exact ⟨Call.resumedBy_of_fault? rfl _, trivial⟩
  | again hwrite hinterruption hrest ih =>
    refine ⟨?_, ih hfault⟩
    rintro fault ⟨⟩
    exact ⟨hinterruption, x, _, rfl, hrest.head?⟩

theorem plan_eq (h : Insists x s run) : run.state.sink.plan = s.sink.plan := by
  induction h with
  | last hwrite hlast => exact plan_of_write hwrite
  | again hwrite hinterruption hrest ih => exact ih.trans (plan_of_write hwrite)

end Insists

/-- **When a repeated write has an end.**  It has none if and only if every write is interrupted,
however often the value was written before. -/
theorem exists_insists_iff {s : Streams} {x : Bytes} :
    (∃ run, Insists x s run) ↔ ¬ s.Endless x := by
  constructor
  · rintro ⟨run, hrun⟩
    exact hrun.not_endless
  · intro h
    exact ⟨_, insists_persist (mt endless_iff.2 h)⟩

end Streams

end FinalNewline
