import FinalNewline.Proofs.Segments

/-!
# Successive relays on one source

Relays that follow one another take the segments of their source one by one.  Each of them
sees nothing but its own segment: what it appends, and whether it ends with a terminator,
depends on no relay before it.

A fault is thus a seam that does not show.  Whoever relays again after each fault has in
the end all that was read, once and in order, and the relay that meets no fault sees to the
terminator.  There is one exception.  If no byte follows the last fault, that relay finds
nothing to terminate, and what the others left unterminated stays so.

## Main Definitions

* `Streams.relays` — the streams after so many relays
* `Takes` — what it means for a relay to take a segment
* `Source.EndsAtFault` — sources in which no byte follows the last fault

## Main Results

* `takes_first` — a relay takes the first segment
* `Source.outputs_eq_normalize_iff` — when the outputs are the normalised data
* `relays_take_segments` — successive relays take successive segments
-/

namespace FinalNewline

/-! ### One relay -/

/-- A relay takes a segment: it reads the values of the segment and its ending, appends the
bytes and, where one is owed, a terminator, and raises the fault of the segment. -/
structure Takes (before : Streams) (segment : Segment) (run : Run Streams) : Prop where
  source_eq : before.source = segment.events ++ run.state.source
  obtained_eq : obtained run.calls = segment.values
  bytes_eq : run.state.sink.bytes = before.sink.bytes ++ segment.output
  fault?_eq : run.fault? = segment.fault?

/-- What is written for a segment is its output. -/
theorem Segment.flatten_written (segment : Segment) :
    (segment.values ++ if segment.owed then [terminator] else []).flatten = segment.output := by
  rw [List.flatten_append, flatten_values, output]
  cases segment.owed <;> simp

/-- A relay takes the first segment of its source. -/
theorem takes_first {s : Streams} (hplan : s.sink.plan.Willing)
    (hcap : s.sink.plan.cap? = none) : Takes s s.source.first (relay s) := by
  have hcopies := copies_relay s
  obtain ⟨hfault, hobtained, hwritten, hrest⟩ := hcopies.takes_segment hplan
  refine ⟨?_, hobtained, ?_, hfault⟩
  · rw [← (relay s).state.source.flatMap_events_segments, hrest, Source.events_first_append]
  · rw [hcopies.state_eq_replay, Streams.bytes_replay,
      Plan.accepted_of_not_refused fun i _ => Plan.willing_iff.1 hplan _,
      Plan.map_clip_of_uncapped hcap, hwritten]
    exact congrArg (s.sink.bytes ++ ·) s.source.first.flatten_written

/-! ### Successive relays -/

namespace Streams

/-- The streams after so many relays. -/
def relays (s : Streams) : Nat → Streams
  | 0 => s
  | k + 1 => (relay (s.relays k)).state

variable {s : Streams}

theorem plan_relays (s : Streams) (k : Nat) : (s.relays k).sink.plan = s.sink.plan := by
  induction k with
  | zero => rfl
  | succ k ih => rw [relays, (copies_relay _).state_eq_replay, plan_replay, ih]

theorem willing_relays (hplan : s.sink.plan.Willing) (k : Nat) :
    (s.relays k).sink.plan.Willing := by
  rwa [plan_relays]

/-- Each relay takes one segment off the source. -/
theorem segments_relays (hplan : s.sink.plan.Willing) (k : Nat) :
    (s.relays k).source.segments = s.source.segments.drop k := by
  induction k with
  | zero => rfl
  | succ k ih =>
    obtain ⟨-, -, -, hrest⟩ := (copies_relay (s.relays k)).takes_segment (willing_relays hplan k)
    rw [relays, hrest, ih, List.tail_drop]

theorem source_relays (hplan : s.sink.plan.Willing) (k : Nat) :
    (s.relays k).source = (s.source.segments.drop k).flatMap Segment.events := by
  rw [← segments_relays hplan, Source.flatMap_events_segments]

theorem first_relays (hplan : s.sink.plan.Willing) (k : Nat) :
    (s.relays k).source.first = s.source.segments.getD k .empty := by
  rw [Source.first, segments_relays hplan, List.headD_eq_head?_getD, List.head?_drop,
    List.getD_eq_getElem?_getD]

/-- Each relay takes a segment; behind the last segment it is an empty one. -/
theorem takes_relays (hplan : s.sink.plan.Willing) (hcap : s.sink.plan.cap? = none) (k : Nat) :
    Takes (s.relays k) (s.source.segments.getD k .empty) (relay (s.relays k)) := by
  rw [← first_relays hplan]
  exact takes_first (willing_relays hplan k) (by rw [plan_relays, hcap])

/-- Successive relays append the outputs of successive segments. -/
theorem bytes_relays (hplan : s.sink.plan.Willing) (hcap : s.sink.plan.cap? = none) (k : Nat) :
    (s.relays k).sink.bytes =
      s.sink.bytes ++ (s.source.segments.take k).flatMap Segment.output := by
  induction k with
  | zero => simp [relays]
  | succ k ih =>
    rw [relays, (takes_relays hplan hcap k).bytes_eq, ih, List.take_add_one, List.flatMap_append,
      List.append_assoc, List.getD_eq_getElem?_getD]
    cases s.source.segments[k]? with
    | some segment => simp
    | none => rfl

end Streams

/-! ### Data and faults -/

namespace Source

/-- Does a source consist of data and faults alone? -/
def IsDataOrFaults (source : Source) : Prop :=
  ∀ event ∈ source, (∃ bytes, event = .data bytes) ∨ ∃ fault, event = .fault fault

/-- Does no byte follow the last fault of a source?  There has to be one. -/
def EndsAtFault (source : Source) : Prop :=
  ∃ before fault after, source = before ++ .fault fault :: after ∧
    faults after = [] ∧ bytes after = []

theorem IsDataOrFaults.of_cons {event : Event} {rest : Source}
    (h : IsDataOrFaults (event :: rest)) : IsDataOrFaults rest :=
  fun later hlater => h later (List.mem_cons_of_mem event hlater)

/-- Among data and faults, only faults are not data. -/
theorem IsDataOrFaults.isData {source : Source} (h : source.IsDataOrFaults)
    (hfaults : source.faults = []) : source.IsData := by
  intro event hevent
  obtain hdata | ⟨fault, rfl⟩ := h event hevent
  · exact hdata
  · have hnone := List.filterMap_eq_nil_iff.1 hfaults _ hevent
    simp [Event.fault?] at hnone

/-- A fault brings no bytes. -/
theorem bytes_append_fault (before : Source) (fault : Fault) (after : Source) :
    bytes (before ++ .fault fault :: after) = bytes before ++ bytes after :=
  List.flatMap_append

/-- Each fault among data ends a segment, and there is at most one more segment. -/
theorem length_segments_le {source : Source} (h : source.IsDataOrFaults) :
    source.segments.length ≤ source.faults.length + 1 := by
  induction source with
  | nil => simp [segments]
  | cons event rest ih =>
    have hrest := ih h.of_cons
    obtain ⟨bytes, rfl⟩ | ⟨fault, rfl⟩ := h event List.mem_cons_self
    · rw [segments_of_runs (Event.stops_data bytes), length_extend]
      exact Nat.max_le.2 ⟨Nat.le_add_left 1 _, hrest⟩
    · rw [segments_of_stops (Event.stops_fault fault)]
      simpa [faults, Event.fault?] using hrest

/-- Among data, the faults of the segments are the faults of the source. -/
theorem fault?_segments {source : Source} (h : source.IsDataOrFaults) (k : Nat) :
    (source.segments.getD k .empty).fault? = source.faults[k]? := by
  induction source generalizing k with
  | nil => rfl
  | cons event rest ih =>
    obtain ⟨bytes, rfl⟩ | ⟨fault, rfl⟩ := h event List.mem_cons_self
    · rw [segments_of_runs (Event.stops_data bytes), fault?_extend]
      exact ih h.of_cons k
    · rw [segments_of_stops (Event.stops_fault fault)]
      cases k with
      | zero => rfl
      | succ k => exact ih h.of_cons k

/-- What relays append for all segments of a source. -/
def outputs (source : Source) : Bytes :=
  source.segments.flatMap Segment.output

theorem outputs_cons_fault (fault : Fault) (rest : Source) :
    outputs (.fault fault :: rest) = outputs rest := by
  rw [outputs, segments_of_stops (Event.stops_fault fault), List.flatMap_cons,
    Segment.output_of_fault (by simp [Segment.stop, Segment.fault?, Event.fault?])]
  rfl

/-- Data in front of a fault is written as it is. -/
theorem outputs_cons_data {bytes : Bytes} {rest : Source} (hrest : IsDataOrFaults rest)
    (hfaults : rest.faults ≠ []) :
    outputs (.data bytes :: rest) = bytes ++ outputs rest := by
  have hfirst : (rest.segments.getD 0 .empty).fault? ≠ none := by
    rw [fault?_segments hrest]
    simpa using hfaults
  rw [outputs, outputs, segments_of_runs (Event.stops_data bytes)]
  cases hsegments : rest.segments with
  | nil =>
    rw [hsegments] at hfirst
    exact absurd rfl hfirst
  | cons segment later =>
    rw [hsegments] at hfirst
    have hsegment : segment.fault? ≠ none := hfirst
    have hcons : (Segment.cons (.data bytes) (Event.stops_data bytes) segment).fault? ≠ none :=
      hfirst
    rw [extend, List.flatMap_cons, List.flatMap_cons, Segment.output_of_fault hsegment,
      Segment.output_of_fault hcons, ← List.append_assoc]
    rfl

/-- All that is in front of a fault is written as it is. -/
theorem outputs_append {before : Source} {fault : Fault} {after : Source}
    (h : IsDataOrFaults (before ++ .fault fault :: after)) :
    outputs (before ++ .fault fault :: after) = bytes before ++ outputs after := by
  induction before with
  | nil => exact outputs_cons_fault fault after
  | cons event before ih =>
    have hrest := ih h.of_cons
    obtain ⟨bytes, rfl⟩ | ⟨earlier, rfl⟩ := h event List.mem_cons_self
    · have hfaults : faults (before ++ .fault fault :: after) ≠ [] := by
        simp [faults, Event.fault?]
      refine (outputs_cons_data h.of_cons hfaults).trans ?_
      exact (congrArg (bytes ++ ·) hrest).trans (List.append_assoc _ _ _).symm
    · exact (outputs_cons_fault earlier _).trans hrest

/-- Data with no fault is normalized. -/
theorem outputs_of_isData {source : Source} (h : source.IsData) :
    outputs source = normalize source.bytes := by
  have hfaults : source.faults = [] := h.faults_eq_nil
  have hone : source.segments.length ≤ 1 := by
    have := length_segments_le fun event hevent => .inl (h event hevent)
    rwa [hfaults] at this
  -- There is only one segment, and a relay of all the data stores what it comes to.
  have hplan : (Streams.mk source {}).sink.plan.Willing := fun _ _ => rfl
  have hsegments := Streams.bytes_relays hplan rfl 1
  have hvalues := bytes_relay (s := ⟨source, {}⟩) hfaults hplan
  rw [List.take_of_length_le hone] at hsegments
  rw [Plan.map_clip_of_uncapped rfl, flatten_finishing, finished_of_isData h] at hvalues
  exact List.append_cancel_left (hsegments.symm.trans hvalues)

/-- Behind the last fault there is only data. -/
theorem IsDataOrFaults.exists_last_fault {source : Source} (h : source.IsDataOrFaults) :
    source.IsData ∨
      ∃ before fault after, source = before ++ .fault fault :: after ∧ IsData after := by
  induction source with
  | nil => exact .inl (by simp [IsData])
  | cons event rest ih =>
    rcases ih h.of_cons with hdata | ⟨before, fault, after, rfl, hafter⟩
    · obtain ⟨bytes, rfl⟩ | ⟨fault, rfl⟩ := h event List.mem_cons_self
      · exact .inl (List.forall_mem_cons.2 ⟨⟨bytes, rfl⟩, hdata⟩)
      · exact .inr ⟨[], fault, rest, rfl, hdata⟩
    · exact .inr ⟨event :: before, fault, after, rfl, hafter⟩

/-- If no byte follows the last fault, all is written as it is. -/
theorem outputs_of_endsAtFault {source : Source} (h : source.IsDataOrFaults)
    (hends : source.EndsAtFault) : outputs source = source.bytes := by
  obtain ⟨before, fault, after, rfl, hfaults, hbytes⟩ := hends
  have hafter : IsDataOrFaults after := fun event hevent => h event (by simp [hevent])
  rw [outputs_append h, outputs_of_isData (hafter.isData hfaults), hbytes, normalize_nil,
    bytes_append_fault, hbytes]

/-- The outputs of data and faults are the normalised data, unless no byte follows the last
fault and the data lacks a terminator. -/
theorem outputs_eq_normalize_iff {source : Source} (h : source.IsDataOrFaults) :
    outputs source = normalize source.bytes ↔
      ¬ (source.EndsAtFault ∧ source.bytes ≠ [] ∧ source.bytes.getLast? ≠ some lineFeed) := by
  constructor
  · rintro heq ⟨hends, hbytes, hlast⟩
    rw [outputs_of_endsAtFault h hends, eq_comm, normalize_eq_self_iff] at heq
    exact heq.elim hbytes hlast
  · intro hnot
    obtain hdata | ⟨before, fault, after, rfl, hafter⟩ := h.exists_last_fault
    · exact outputs_of_isData hdata
    · by_cases hbytes : bytes after = []
      · have hends : EndsAtFault (before ++ .fault fault :: after) :=
          ⟨before, fault, after, rfl, hafter.faults_eq_nil, hbytes⟩
        rw [outputs_of_endsAtFault h hends, eq_comm, normalize_eq_self_iff]
        exact Classical.byContradiction fun hlacks => hnot ⟨hends, not_or.1 hlacks⟩
      · rw [outputs_append h, outputs_of_isData hafter, bytes_append_fault,
          normalize_append hbytes]

end Source

/-- **Successive relays take successive segments.**  The segments are a division of the
source, and only the last one can be ended by the end of the queue.  On a sink that accepts
everything, each relay takes its segment, and relays behind the last segment do nothing.
Among data and faults alone, it is the faults that are raised, in order, and once no more
is raised the sink holds the normalised data, unless no byte follows the last fault and the
data lacks a terminator. -/
theorem relays_take_segments (s : Streams) (hplan : s.sink.plan.Willing)
    (hcap : s.sink.plan.cap? = none) :
    let segments := s.source.segments
    let data := s.source.bytes
    segments.flatMap Segment.events = s.source ∧
    (∀ k segment, segments[k]? = some segment →
      (segment.ending? = none → k + 1 = segments.length) ∧
      (segment.owed = true ↔ segment.fault? = none ∧ segment.bytes ≠ [] ∧
        segment.values.getLast? ≠ some terminator) ∧
      Takes (s.relays k) segment (relay (s.relays k))) ∧
    (∀ k, segments.length ≤ k →
      (relay (s.relays k)).fault? = none ∧
      (relay (s.relays k)).state.sink.bytes = (s.relays k).sink.bytes) ∧
    (∀ k,
      (s.relays k).source = (segments.drop k).flatMap Segment.events ∧
      (s.relays k).sink.bytes = s.sink.bytes ++ (segments.take k).flatMap Segment.output) ∧
    (s.source.IsDataOrFaults →
      let total := (s.relays (s.source.faults.length + 1)).sink.bytes
      (∀ k, (relay (s.relays k)).fault? = s.source.faults[k]?) ∧
      (total = s.sink.bytes ++ normalize data ↔
        ¬ (s.source.EndsAtFault ∧ data ≠ [] ∧ data.getLast? ≠ some lineFeed)) ∧
      (s.source.EndsAtFault → total = s.sink.bytes ++ data)) := by
  intro segments data
  have htakes := Streams.takes_relays hplan hcap
  refine ⟨s.source.flatMap_events_segments, ?_, ?_, ?_, ?_⟩
  · intro k segment hsegment
    refine ⟨Source.eq_length_of_ending?_eq_none hsegment, Segment.owed_iff, ?_⟩
    simpa [segments, List.getD_eq_getElem?_getD, hsegment] using htakes k
  · intro k hk
    have hempty : s.source.segments.getD k .empty = .empty := by
      rw [List.getD_eq_getElem?_getD, List.getElem?_eq_none hk]
      rfl
    have htake := htakes k
    rw [hempty] at htake
    exact ⟨htake.fault?_eq, htake.bytes_eq.trans (List.append_nil _)⟩
  · intro k
    exact ⟨Streams.source_relays hplan k, Streams.bytes_relays hplan hcap k⟩
  · intro hsource total
    have htotal : total = s.sink.bytes ++ s.source.outputs := by
      rw [Source.outputs, ← List.take_of_length_le (Source.length_segments_le hsource)]
      exact Streams.bytes_relays hplan hcap _
    refine ⟨?_, ?_, ?_⟩
    · intro k
      rw [(htakes k).fault?_eq, Source.fault?_segments hsource]
    · rw [htotal, List.append_cancel_left_eq]
      exact Source.outputs_eq_normalize_iff hsource
    · intro hends
      rw [htotal, Source.outputs_of_endsAtFault hsource hends]

/-- A fault is raised, and the relay behind it finds nothing to terminate. -/
theorem relays_take_segments_unterminated :
    let fault : Fault := .system .timeout (.text "timed out")
    let s : Streams :=
      { source := [.data [0x61], .fault fault, .data []], sink := { stored := #[0x7A] } }
    s.sink.plan.Willing ∧ s.sink.plan.cap? = none ∧ s.source.IsDataOrFaults ∧
      s.source.EndsAtFault ∧ (relay s).fault? = some fault ∧
      (relay (s.relays 1)).fault? = none ∧ (s.relays 2).sink.bytes = [0x7A, 0x61] := by
  intro fault s
  have hplan : s.sink.plan.Willing := fun _ _ => rfl
  have hsource : s.source.IsDataOrFaults := by simp [s, Source.IsDataOrFaults]
  have hends : s.source.EndsAtFault := ⟨[.data [0x61]], fault, [.data []], rfl, rfl, rfl⟩
  obtain ⟨-, -, -, -, hretries⟩ := relays_take_segments s hplan rfl
  obtain ⟨hfaults, -, htotal⟩ := hretries hsource
  exact ⟨hplan, rfl, hsource, hends, hfaults 0, hfaults 1, htotal hends⟩

end FinalNewline
