import FinalNewline.Proofs.Copies
import FinalNewline.Proofs.Plans
import FinalNewline.Proofs.Sources

/-!
# The output of a relay

A relay that meets no fault writes the values that its reads bring, and behind them a
terminator, unless there are no values or the last one is exactly a terminator.  The
decision looks at the last value as a whole and not at its last byte, so the output is
the normalised input only as far as sources are well behaved: a value of several bytes
that ends in a line feed gets another one.

## Main Definitions

* `owes` — whether a terminator is owed behind some values
* `finishing`, `finished` — the values written for those read, and their bytes
* `hidesLineFeed` — whether the line feed at the end of some values is not noticed

## Main Results

* `finished_eq_normalize` — the output against the normalised input
* `relay_stores` — the output of a relay that meets no fault
-/

namespace FinalNewline

/-- Is a terminator owed behind these values?  If there are none, that depends on what
came before. -/
def owes (before : Bool) (values : List Bytes) : Bool :=
  values.getLast?.elim before (· != terminator)

/-- The values that are written when these are all that were read. -/
def finishing (values : List Bytes) : List Bytes :=
  values ++ if owes false values then [terminator] else []

/-- The bytes that are written when these values are all that were read. -/
def finished (values : List Bytes) : Bytes :=
  values.flatten ++ if owes false values then terminator else []

/-- Does the last of the values end in a line feed, but hold other bytes before it? -/
def hidesLineFeed (values : List Bytes) : Bool :=
  values.getLast?.any fun last => 2 ≤ last.length && last.getLast? == some lineFeed

theorem owes_cons (before : Bool) (x : Bytes) (xs : List Bytes) :
    owes before (x :: xs) = owes (x != terminator) xs := by
  rw [owes, owes, List.getLast?_cons]
  cases xs.getLast? <;> rfl

theorem flatten_finishing (values : List Bytes) : (finishing values).flatten = finished values := by
  rw [finished, finishing, List.flatten_append]
  cases owes false values <;> rfl

/-! ### The output and the normalised input -/

/-- What is written is empty or ends in a line feed. -/
theorem getLast?_finished {values : List Bytes} (h : finished values ≠ []) :
    (finished values).getLast? = some lineFeed := by
  rw [finished] at h ⊢
  cases howes : owes false values with
  | true => simp [terminator]
  | false =>
    rcases List.eq_nil_or_concat values with rfl | ⟨front, last, rfl⟩
    · simp [howes] at h
    · have hlast : last = terminator := by simpa [owes] using howes
      simp [hlast, terminator]

/-- The output is the normalised input, and one more terminator if the line feed at the
end of the values is not noticed. -/
theorem finished_eq_normalize {values : List Bytes} (hvalues : ∀ x ∈ values, x ≠ []) :
    finished values =
      normalize values.flatten ++ if hidesLineFeed values then terminator else [] := by
  rcases List.eq_nil_or_concat values with rfl | ⟨front, last, rfl⟩
  · rfl
  · obtain ⟨init, b, rfl⟩ : ∃ init b, last = init ++ [b] := by
      rcases List.eq_nil_or_concat last with rfl | ⟨init, b, rfl⟩
      · exact absurd rfl (hvalues [] (by simp))
      · exact ⟨init, b, by simp⟩
    have hflat : (front.concat (init ++ [b])).flatten = front.flatten ++ init ++ [b] := by simp
    have howes : owes false (front.concat (init ++ [b])) = (init ++ [b] != terminator) := by
      simp [owes]
    have hhides : hidesLineFeed (front.concat (init ++ [b])) =
        (decide (init ≠ []) && b == lineFeed) := by
      simp [hidesLineFeed, Nat.succ_le_iff, List.length_pos_iff]
    rw [finished, hflat, howes, hhides, normalize_append_singleton]
    -- Three kinds of last value: a terminator, one that only ends like it, and the others.
    by_cases hb : b = lineFeed
    · by_cases hinit : init = []
      · simp [hb, hinit, terminator]
      · simp [hb, hinit, append_singleton_eq_terminator_iff]
    · simp [hb, append_singleton_eq_terminator_iff]

/-- If every read brings one byte, the output is the normalised input. -/
theorem finished_of_length_eq_one {values : List Bytes} (h : ∀ x ∈ values, x.length = 1) :
    finished values = normalize values.flatten := by
  have hvalues : ∀ x ∈ values, x ≠ [] := by
    intro x hx hnil
    simpa [hnil] using h x hx
  have hhides : hidesLineFeed values = false := by
    rw [hidesLineFeed, Option.any_eq_false]
    intro last hlast
    have := h last (List.mem_of_getLast? hlast)
    simp [this]
  rw [finished_eq_normalize hvalues, hhides]
  simp

/-- The output of data is the normalised data. -/
theorem finished_of_isData {source : Source} (h : source.IsData) :
    finished source.values = normalize source.bytes := by
  rw [finished_of_length_eq_one (Source.length_of_mem_values_of_data h),
    Source.flatten_values_of_data h]

/-! ### The values written -/

/-- A copy that comes to its end writes the values it reads, and a terminator behind them
if one is owed. -/
theorem Copies.written_of_success {owed : Bool} {s : Streams} {run : Run Streams}
    (h : Copies owed s run) (hfault : run.fault? = none) :
    written run.calls =
      s.source.values ++ if owes owed s.source.values then [terminator] else [] := by
  induction h with
  | readFault hread => simp at hfault
  | complete hread hend =>
    rw [Source.values_of_end (Streams.source_of_read hread) hend]
    rfl
  | terminate hread hend hwrite =>
    rw [Source.values_of_end (Streams.source_of_read hread) hend]
    rfl
  | writeFault hread hvalue hwrite => simp at hfault
  | step hread hvalue hwrite hrest ih =>
    rw [Source.values_of_value (Streams.source_of_read hread) hvalue, owes_cons,
      ← Streams.source_of_write hwrite]
    simp [Run.after, ih hfault]

/-- A copy comes to its end if neither side can fail. -/
theorem Copies.fault?_eq_none {owed : Bool} {s : Streams} {run : Run Streams}
    (h : Copies owed s run) (hsource : s.source.faults = []) (hsink : s.sink.Willing) :
    run.fault? = none := by
  induction h with
  | readFault hread =>
    have := Source.faults_of_readFault (Streams.source_of_read hread)
    simp [hsource] at this
  | complete hread hend => rfl
  | terminate hread hend hwrite =>
    rw [← Streams.sink_of_read hread] at hsink
    exact (congrArg Prod.fst hwrite).symm.trans (hsink.write _).1
  | writeFault hread hvalue hwrite =>
    rw [← Streams.sink_of_read hread] at hsink
    exact (congrArg Prod.fst hwrite).symm.trans (hsink.write _).1
  | @step _ s t u received run hread hvalue hwrite hrest ih =>
    have hsource : u.source.faults = [] := by
      rw [Streams.source_of_write hwrite,
        ← Source.faults_of_read (Streams.source_of_read hread), hsource]
    rw [← Streams.sink_of_read hread] at hsink
    obtain ⟨-, rfl⟩ := Prod.mk.inj hwrite
    exact ih hsource (hsink.write received.value).2

/-- A copy that meets no fault writes the values it reads, and a terminator behind them
if one is owed. -/
theorem Copies.written_calls {owed : Bool} {s : Streams} {run : Run Streams}
    (h : Copies owed s run) (hsource : s.source.faults = []) (hplan : s.sink.plan.Willing) :
    run.fault? = none ∧
      written run.calls =
        s.source.values ++ if owes owed s.source.values then [terminator] else [] := by
  have hfault : run.fault? = none := h.fault?_eq_none hsource hplan.sink
  exact ⟨hfault, h.written_of_success hfault⟩

/-- What a relay that meets no fault leaves in the sink. -/
theorem bytes_relay {s : Streams} (hsource : s.source.faults = [])
    (hplan : s.sink.plan.Willing) :
    (relay s).state.sink.bytes =
      s.sink.bytes ++ ((finishing s.source.values).map s.sink.plan.clip).flatten := by
  have hcopies := copies_relay s
  rw [hcopies.state_eq_replay, Streams.bytes_replay,
    Plan.accepted_of_not_refused fun i _ => Plan.willing_iff.1 hplan _,
    (hcopies.written_calls hsource hplan).2]
  rfl

/-- **The output of a relay that meets no fault.**  It writes the values that its reads
bring and then, if the last of them is not exactly a terminator, a terminator.  So its
output ends in a line feed unless it is empty, and it is the normalised input unless the
last value hides its line feed, as no value does that was read as data.  A sink that
accepts only the front of each value changes none of this but what it stores. -/
theorem relay_stores (s : Streams) (hsource : s.source.faults = [])
    (hplan : s.sink.plan.Willing) :
    let values := s.source.values
    let stored := (relay s).state.sink.bytes
    (relay s).fault? = none ∧
    written (relay s).calls = finishing values ∧
    (s.sink.plan.cap? = none → stored = s.sink.bytes ++ finished values) ∧
    (∀ cap, s.sink.plan.cap? = some cap →
      stored = s.sink.bytes ++ ((finishing values).map fun x => x.take cap).flatten) ∧
    (finished values ≠ [] → (finished values).getLast? = some lineFeed) ∧
    finished values =
      normalize values.flatten ++ (if hidesLineFeed values then terminator else []) ∧
    ((∀ x ∈ values, x.length = 1) → finished values = normalize values.flatten) ∧
    (s.source.IsData → finished values = normalize s.source.bytes) := by
  intro values stored
  obtain ⟨hfault, hwritten⟩ := (copies_relay s).written_calls hsource hplan
  have hstored : stored = s.sink.bytes ++ ((finishing values).map s.sink.plan.clip).flatten :=
    bytes_relay hsource hplan
  refine ⟨hfault, hwritten, ?_, ?_, getLast?_finished, ?_, finished_of_length_eq_one, ?_⟩
  · intro hcap
    rw [hstored, Plan.map_clip_of_uncapped hcap, flatten_finishing]
  · intro cap hcap
    have hclip : s.sink.plan.clip = fun x => x.take cap := by
      funext x
      simp [Plan.clip, hcap]
    rw [hstored, hclip]
  · exact finished_eq_normalize fun x => Source.ne_nil_of_mem_values
  · intro hdata
    have hvalues : values = s.source.bytes.map fun b => [b] := Source.values_of_data hdata
    rw [finished_of_length_eq_one (by simp [hvalues]), hvalues]
    simp [← List.flatMap_def]

/-- A chunk that ends in a line feed gets another one, and the data behind the end of the
stream is not read. -/
theorem relay_stores_hidden_line_feed :
    let s : Streams :=
      { source := [.data [0x61, 0x00], .chunk [0x62, 0x0A], .absence, .data [0x63]]
        sink := { stored := #[0x7A] } }
    s.source.faults = [] ∧ s.sink.plan.Willing ∧ (relay s).fault? = none ∧
      (relay s).state.sink.bytes = [0x7A, 0x61, 0x00, 0x62, 0x0A, 0x0A] := by
  intro s
  have hsource : s.source.faults = [] := rfl
  have hplan : s.sink.plan.Willing := fun _ _ => rfl
  obtain ⟨hfault, -, hstored, -⟩ := relay_stores s hsource hplan
  refine ⟨hsource, hplan, hfault, (hstored rfl).trans ?_⟩
  decide +kernel

end FinalNewline
