import FinalNewline.Proofs.Exchanges

/-!
# Segments

An end of the stream is not final, and neither is a fault: another relay goes on behind
it.  The events that end a relay thus divide a source into segments, each of which is
taken by a relay of its own.  The end of the queue can end a segment as well, and only the
last one.

A segment carries the proof that its events run on up to its ending and stop there.  What
a relay makes of a segment is defined by the segment alone, and `Copies.takes_segment`
says that it does so on a sink that accepts everything.

## Main Definitions

* `Segment`, `Source.segments` — segments, and those of a source
* `Segment.values`, `Segment.fault?`, `Segment.output` — what a relay makes of a segment

## Main Results

* `Source.flatMap_events_segments` — the segments of a source are a division of it
* `Segment.owed_iff` — when a terminator is owed at the end of a segment
* `Copies.takes_segment` — a copy takes the first segment of its source
-/

namespace FinalNewline

/-! ### Segments -/

/-- Does the event end a relay that reads it?  Data does not, even if it is used up. -/
def Event.stops : Event → Bool
  | data _ => false
  | chunk bytes => bytes == []
  | _ => true

theorem Event.stops_data (bytes : Bytes) : (data bytes).stops = false := rfl

theorem Event.stops_fault (e : Fault) : (fault e).stops = true := rfl

/-- The values in which reads hand over the bytes of an event. -/
def Event.values : Event → List Bytes
  | data bytes => bytes.map fun b => [b]
  | chunk bytes => [bytes]
  | _ => []

/-- A part of a source that one relay takes: events on which the relay runs on, and the
event that ends it, if it is not ended by the end of the queue. -/
structure Segment where
  body : List Event
  ending? : Option Event
  running : ∀ event ∈ body, event.stops = false
  stopping : ∀ event, ending? = some event → event.stops = true

namespace Segment

/-- The segment that is left of a queue with no events. -/
def empty : Segment :=
  ⟨[], none, by simp, by simp⟩

/-- The segment that an event ends at once. -/
def stop (event : Event) (h : event.stops = true) : Segment :=
  ⟨[], some event, by simp, by simpa using h⟩

/-- A segment with one more event in front. -/
def cons (event : Event) (h : event.stops = false) (segment : Segment) : Segment :=
  ⟨event :: segment.body, segment.ending?, List.forall_mem_cons.2 ⟨h, segment.running⟩,
    segment.stopping⟩

/-- All events of a segment. -/
def events (segment : Segment) : List Event :=
  segment.body ++ segment.ending?.toList

/-- The bytes of a segment. -/
def bytes (segment : Segment) : Bytes :=
  Source.bytes segment.body

/-- The values in which reads hand over the bytes of a segment. -/
def values (segment : Segment) : List Bytes :=
  segment.body.flatMap Event.values

/-- The fault that ends a segment, if a fault does. -/
def fault? (segment : Segment) : Option Fault :=
  segment.ending?.bind Event.fault?

/-- Is a terminator owed at the end of a segment?  Only if the end is not a fault. -/
def owed (segment : Segment) : Bool :=
  segment.fault?.isNone && owes false segment.values

/-- What a relay appends to the sink for a segment. -/
def output (segment : Segment) : Bytes :=
  segment.bytes ++ if segment.owed then terminator else []

end Segment

namespace Source

/-- Puts an event in front of the first segment, which may be a new one. -/
def extend (event : Event) (h : event.stops = false) : List Segment → List Segment
  | [] => [.cons event h .empty]
  | first :: later => .cons event h first :: later

/-- The segments of a source, in order. -/
def segments : Source → List Segment
  | [] => []
  | event :: rest =>
    if h : event.stops = true then .stop event h :: segments rest
    else extend event (Bool.eq_false_iff.2 h) (segments rest)

/-- The first segment of a source. -/
def first (source : Source) : Segment :=
  source.segments.headD .empty

theorem segments_of_stops {event : Event} (h : event.stops = true) (rest : Source) :
    segments (event :: rest) = .stop event h :: segments rest :=
  dif_pos h

theorem segments_of_runs {event : Event} (h : event.stops = false) (rest : Source) :
    segments (event :: rest) = extend event h (segments rest) :=
  dif_neg (Bool.eq_false_iff.1 h)

@[simp]
theorem tail_extend (event : Event) (h : event.stops = false) (segments : List Segment) :
    (extend event h segments).tail = segments.tail := by
  cases segments <;> rfl

@[simp]
theorem headD_extend (event : Event) (h : event.stops = false) (segments : List Segment) :
    (extend event h segments).headD .empty = .cons event h (segments.headD .empty) := by
  cases segments <;> rfl

@[simp]
theorem length_extend (event : Event) (h : event.stops = false) (segments : List Segment) :
    (extend event h segments).length = max 1 segments.length := by
  cases segments with
  | nil => rfl
  | cons first later => simp [extend]

/-- An event in front changes the end of no segment. -/
theorem fault?_extend (event : Event) (h : event.stops = false) (segments : List Segment)
    (k : Nat) :
    ((extend event h segments).getD k .empty).fault? = (segments.getD k .empty).fault? := by
  cases segments with
  | nil => cases k <;> rfl
  | cons first later => cases k <;> rfl

theorem flatMap_events_extend (event : Event) (h : event.stops = false)
    (segments : List Segment) :
    (extend event h segments).flatMap Segment.events =
      event :: segments.flatMap Segment.events := by
  cases segments <;> rfl

/-- The segments of a source are a division of it. -/
theorem flatMap_events_segments (source : Source) :
    source.segments.flatMap Segment.events = source := by
  induction source with
  | nil => rfl
  | cons event rest ih =>
    cases h : event.stops with
    | true =>
      rw [segments_of_stops h, List.flatMap_cons, ih]
      rfl
    | false => rw [segments_of_runs h, flatMap_events_extend, ih]

/-- Only the last segment is ended by the end of the queue. -/
theorem eq_length_of_ending?_eq_none {source : Source} {k : Nat} {segment : Segment}
    (h : source.segments[k]? = some segment) (hending : segment.ending? = none) :
    k + 1 = source.segments.length := by
  induction source generalizing k segment with
  | nil => simp [segments] at h
  | cons event rest ih =>
    cases hstops : event.stops with
    | true =>
      rw [segments_of_stops hstops] at h ⊢
      cases k with
      | zero =>
        obtain rfl : Segment.stop event hstops = segment := by simpa using h
        simp [Segment.stop] at hending
      | succ k => simpa using ih (by simpa using h) hending
    | false =>
      rw [segments_of_runs hstops] at h ⊢
      cases hrest : segments rest with
      | nil =>
        rw [hrest] at h
        obtain ⟨hk, -⟩ := List.getElem?_eq_some_iff.1 h
        simp only [extend, List.length_singleton] at hk ⊢
        omega
      | cons first later =>
        rw [hrest] at h ih
        cases k with
        | zero =>
          obtain rfl : Segment.cons event hstops first = segment := by simpa [extend] using h
          exact ih (k := 0) rfl hending
        | succ k => exact ih (k := k + 1) (by simpa [extend] using h) hending

/-- The first segment of a source is in front, and the others follow. -/
theorem events_first_append (source : Source) :
    source.first.events ++ source.segments.tail.flatMap Segment.events = source := by
  refine Eq.trans ?_ source.flatMap_events_segments
  unfold first
  cases source.segments with
  | nil => rfl
  | cons segment later => rfl

/-! ### One read -/

theorem first_cons_of_runs {event : Event} (h : event.stops = false) (rest : Source) :
    first (event :: rest) = .cons event h (first rest) := by
  rw [first, segments_of_runs h, headD_extend]
  rfl

theorem first_cons_of_stops {event : Event} (h : event.stops = true) (rest : Source) :
    first (event :: rest) = .stop event h := by
  rw [first, segments_of_stops h]
  rfl

theorem tail_segments_of_runs {event : Event} (h : event.stops = false) (rest : Source) :
    (segments (event :: rest)).tail = (segments rest).tail := by
  rw [segments_of_runs h, tail_extend]

theorem tail_segments_of_stops {event : Event} (h : event.stops = true) (rest : Source) :
    (segments (event :: rest)).tail = segments rest := by
  rw [segments_of_stops h]
  rfl

/-- What a read takes off the first segment: one value, or else, if it brings no bytes, all
that is left, with the fault that it reports. -/
theorem first_read (source : Source) :
    if brought source.read.1 = [] then
      source.first.values = [] ∧ source.first.fault? = (reported source.read.1).head? ∧
        source.read.2.segments = source.segments.tail
    else
      source.first.values = brought source.read.1 :: source.read.2.first.values ∧
        source.first.fault? = source.read.2.first.fault? ∧
        source.read.2.segments.tail = source.segments.tail := by
  fun_induction read source with
  | case1 => exact ⟨rfl, rfl, rfl⟩
  | case2 tail ih =>
    rw [first_cons_of_runs rfl, tail_segments_of_runs rfl]
    exact ih
  | case3 b bytes tail =>
    rw [first_cons_of_runs rfl, tail_segments_of_runs rfl, first_cons_of_runs rfl,
      tail_segments_of_runs rfl]
    exact (if_neg (List.cons_ne_nil b [])).mpr ⟨rfl, rfl, rfl⟩
  | case4 bytes tail =>
    by_cases hbytes : bytes = []
    · subst hbytes
      rw [first_cons_of_stops rfl, tail_segments_of_stops rfl]
      exact ⟨rfl, rfl, rfl⟩
    · have hruns : (Event.chunk bytes).stops = false := by simpa [Event.stops] using hbytes
      rw [first_cons_of_runs hruns, tail_segments_of_runs hruns]
      exact (if_neg hbytes).mpr ⟨rfl, rfl, rfl⟩
  | case5 tail =>
    rw [first_cons_of_stops rfl, tail_segments_of_stops rfl]
    exact ⟨rfl, rfl, rfl⟩
  | case6 tail =>
    rw [first_cons_of_stops rfl, tail_segments_of_stops rfl]
    exact ⟨rfl, rfl, rfl⟩
  | case7 raised tail =>
    rw [first_cons_of_stops rfl, tail_segments_of_stops rfl]
    exact ⟨rfl, rfl, rfl⟩

/-- A read that fails takes what is left of a segment, which a fault ends. -/
theorem first_of_readFault {source rest : Source} {fault : Fault}
    (h : source.read = (.error fault, rest)) :
    source.first.values = [] ∧ source.first.fault? = some fault ∧
      rest.segments = source.segments.tail := by
  have hread := source.first_read
  rw [h] at hread
  exact hread

/-- A read that finds the end of the stream takes what is left of a segment, which no fault
ends. -/
theorem first_of_end {source rest : Source} {received : Received}
    (h : source.read = (.ok received, rest)) (hend : received.value = []) :
    source.first.values = [] ∧ source.first.fault? = none ∧
      rest.segments = source.segments.tail := by
  have hread := source.first_read
  rw [h, if_pos (show brought (.ok received) = [] from hend)] at hread
  exact hread

/-- A read that brings bytes takes one value off a segment. -/
theorem first_of_value {source rest : Source} {received : Received}
    (h : source.read = (.ok received, rest)) (hvalue : received.value ≠ []) :
    source.first.values = received.value :: rest.first.values ∧
      source.first.fault? = rest.first.fault? ∧ rest.segments.tail = source.segments.tail := by
  have hread := source.first_read
  rw [h, if_neg (show brought (.ok received) ≠ [] from hvalue)] at hread
  exact hread

end Source

/-! ### One relay -/

/-- **A copy takes one segment.**  It reads the values of the segment and writes them, with
a terminator behind them if the segment does not end in a fault and one is owed, raises the
fault of the segment, and leaves the other segments. -/
theorem Copies.takes_segment {owed : Bool} {s : Streams} {run : Run Streams}
    (h : Copies owed s run) (hplan : s.sink.plan.Willing) :
    run.fault? = s.source.first.fault? ∧
      obtained run.calls = s.source.first.values ∧
      written run.calls = s.source.first.values ++
        (if s.source.first.fault?.isNone && owes owed s.source.first.values then [terminator]
          else []) ∧
      run.state.source.segments = s.source.segments.tail := by
  induction h with
  | readFault hread =>
    obtain ⟨hvalues, hfault, hrest⟩ :=
      Source.first_of_readFault (Streams.source_of_read hread)
    simp [hvalues, hfault, hrest]
  | complete hread hend =>
    obtain ⟨hvalues, hfault, hrest⟩ :=
      Source.first_of_end (Streams.source_of_read hread) hend
    simp [hvalues, hfault, hrest, obtained_cons_of_end hend, owes]
  | @terminate s t u received fault? hread hend hwrite =>
    obtain ⟨hvalues, hfault, hrest⟩ :=
      Source.first_of_end (Streams.source_of_read hread) hend
    obtain ⟨rfl, -⟩ := Streams.willing_of_write hplan hread hwrite
    simp [hvalues, hfault, Streams.source_of_write hwrite, hrest, obtained_cons_of_end hend, owes]
  | writeFault hread hvalue hwrite =>
    simpa using (Streams.willing_of_write hplan hread hwrite).1
  | @step _ s t u received run hread hvalue hwrite hrest ih =>
    obtain ⟨hvalues, hfault, hlater⟩ :=
      Source.first_of_value (Streams.source_of_read hread) hvalue
    obtain ⟨ihfault, ihobtained, ihwritten, ihlater⟩ :=
      ih (Streams.willing_of_write hplan hread hwrite).2
    rw [Streams.source_of_write hwrite] at ihfault ihobtained ihwritten ihlater
    refine ⟨ihfault.trans hfault.symm, ?_, ?_, ihlater.trans hlater⟩
    · simp [Run.after, obtained_cons_of_value hvalue, ihobtained, hvalues]
    · simp [Run.after, ihwritten, hvalues, hfault, owes_cons]

namespace Segment

/-- The bytes of a segment are those of its values. -/
theorem flatten_values (segment : Segment) : segment.values.flatten = segment.bytes := by
  have hevent : ∀ event : Event, event.values.flatten = event.bytes := by
    intro event
    cases event <;> simp [Event.values, Event.bytes, ← List.flatMap_def]
  rw [values, bytes, Source.bytes, ← List.flatMap_id, List.flatMap_assoc]
  simp [hevent]

/-- Each value of a segment has bytes. -/
theorem ne_nil_of_mem_values {segment : Segment} {x : Bytes} (h : x ∈ segment.values) :
    x ≠ [] := by
  obtain ⟨event, hevent, hx⟩ := List.mem_flatMap.1 h
  have hruns := segment.running event hevent
  cases event with
  | data bytes =>
    obtain ⟨b, -, rfl⟩ := List.mem_map.1 hx
    simp
  | chunk bytes =>
    obtain rfl := List.mem_singleton.1 hx
    simpa [Event.stops] using hruns
  | ending => simp [Event.stops] at hruns
  | absence => simp [Event.stops] at hruns
  | fault fault => simp [Event.stops] at hruns

/-- A terminator is owed at the end of a segment if the segment does not end in a fault,
has bytes, and its last value is not exactly a terminator. -/
theorem owed_iff {segment : Segment} :
    segment.owed = true ↔ segment.fault? = none ∧ segment.bytes ≠ [] ∧
      segment.values.getLast? ≠ some terminator := by
  rw [owed, Bool.and_eq_true, Option.isNone_iff_eq_none, owes_false_iff, ← flatten_values]
  refine and_congr_right fun _ => ?_
  cases hlast : segment.values.getLast? with
  | none => simp [List.getLast?_eq_none_iff.1 hlast]
  | some last =>
    have hmem := List.mem_of_getLast? hlast
    have hbytes : segment.values.flatten ≠ [] := by
      rw [Ne, List.flatten_eq_nil_iff]
      exact fun h => ne_nil_of_mem_values hmem (h last hmem)
    simp [hbytes]

/-- A segment that ends in a fault is written as it is. -/
theorem output_of_fault {segment : Segment} (h : segment.fault? ≠ none) :
    segment.output = segment.bytes := by
  have howed : segment.owed = false := by
    rw [← Bool.not_eq_true, owed_iff]
    exact fun howed => h howed.1
  simp [output, howed]

end Segment

end FinalNewline
