import FinalNewline.Proofs.Lockstep

/-!
# How data is cut up

Data is handed out one byte at a time, whatever the events in which it was queued.  So it can
be cut up in other ways, and events that are used up can come and go, without a difference to
anybody who reads.  Only data allows this.  A chunk is handed out whole, and an empty chunk is
the end of the stream, where data without bytes is nothing at all.

Chunks of one byte each can stand in for data as well, though not when it comes to counting
the bytes that wait as data.

Queues that are cut up differently are those with the same single cuts, one event for each
byte of data.  It can thus be decided whether queues are of this kind.

## Main Definitions

* `Recut` — queues that differ only in how their data is cut into events
* `Unpacks` — queues that differ only in data that is replaced by chunks of one byte each
* `Source.singleCuts` — a queue with one event for each byte of data

## Main Results

* `recut_iff` — queues are recut if and only if their single cuts are the same
* `Recut.indistinct`, `Unpacks.indistinct` — reads cannot tell such queues apart
* `arrival_of_data` — neither can sessions and runs of the command
-/

namespace FinalNewline

/-- Queues that differ only in how their data is cut into events. -/
inductive Recut : Source → Source → Prop where
  /-- Data may be split in two. -/
  | split (x y : Bytes) (rest : Source) :
      Recut (.data (x ++ y) :: rest) (.data x :: .data y :: rest)
  /-- Data without bytes may be removed. -/
  | remove (rest : Source) : Recut (.data [] :: rest) rest
  /-- All this may happen behind any event. -/
  | behind (event : Event) {source other : Source} (h : Recut source other) :
      Recut (event :: source) (event :: other)
  | refl (source : Source) : Recut source source
  | symm {source other : Source} (h : Recut source other) : Recut other source
  | trans {source middle other : Source} (h : Recut source middle) (h' : Recut middle other) :
      Recut source other

/-- The bytes, each in a chunk of its own. -/
def Source.chunks (bytes : Bytes) : Source :=
  bytes.map fun b => .chunk [b]

/-- Queues that differ only in data of the first that is replaced in the second by chunks of
one byte each. -/
inductive Unpacks : Source → Source → Prop where
  | nil : Unpacks [] []
  /-- An event may be kept. -/
  | keep (event : Event) {source other : Source} (h : Unpacks source other) :
      Unpacks (event :: source) (event :: other)
  /-- Data may be replaced. -/
  | unpack (bytes : Bytes) {source other : Source} (h : Unpacks source other) :
      Unpacks (.data bytes :: source) (Source.chunks bytes ++ other)

/-! ### Single cuts -/

/-- The queue with one event for each byte of data. -/
def Source.singleCuts : Source → Source
  | [] => []
  | .data bytes :: rest => bytes.map (fun b => .data [b]) ++ singleCuts rest
  | event :: rest => event :: singleCuts rest

theorem Recut.singleCuts_eq {source other : Source} (h : Recut source other) :
    source.singleCuts = other.singleCuts := by
  induction h with
  | split x y rest => simp [Source.singleCuts]
  | remove rest => rfl
  | behind event h ih => cases event <;> simp [Source.singleCuts, ih]
  | refl source => rfl
  | symm h ih => exact ih.symm
  | trans h h' ih ih' => exact ih.trans ih'

theorem recut_data_singles (bytes : Bytes) (rest : Source) :
    Recut (.data bytes :: rest) (bytes.map (fun b => .data [b]) ++ rest) := by
  induction bytes with
  | nil => exact .remove rest
  | cons b bytes ih => exact (Recut.split [b] bytes rest).trans (.behind _ ih)

/-- Every queue can be cut into single bytes. -/
theorem recut_singleCuts (source : Source) : Recut source source.singleCuts := by
  induction source with
  | nil => exact .refl []
  | cons event rest ih =>
    cases event with
    | data bytes => exact (Recut.behind _ ih).trans (recut_data_singles bytes _)
    | chunk bytes => exact .behind _ ih
    | ending => exact .behind _ ih
    | absence => exact .behind _ ih
    | fault fault => exact .behind _ ih

/-- Queues are recut if and only if their single cuts are the same. -/
theorem recut_iff {source other : Source} :
    Recut source other ↔ source.singleCuts = other.singleCuts := by
  constructor
  · exact Recut.singleCuts_eq
  · intro h
    have hother := (recut_singleCuts other).symm
    rw [← h] at hother
    exact (recut_singleCuts source).trans hother

instance (source other : Source) : Decidable (Recut source other) :=
  decidable_of_iff _ recut_iff.symm

/-! ### Reads -/

/-- The event at the front is passed over, or it answers a read, and leaves the same of itself
whatever waits behind it. -/
theorem Source.read_cons_cases (event : Event) :
    (∀ rest, Source.read (event :: rest) = Source.read rest) ∨
      ∃ answer left, ∀ rest, Source.read (event :: rest) = (answer, left ++ rest) := by
  cases event with
  | data bytes =>
    cases bytes with
    | nil => exact .inl fun rest => rfl
    | cons b bytes => exact .inr ⟨_, [.data bytes], fun rest => rfl⟩
  | chunk bytes => exact .inr ⟨_, [], fun rest => rfl⟩
  | ending => exact .inr ⟨_, [], fun rest => rfl⟩
  | absence => exact .inr ⟨_, [], fun rest => rfl⟩
  | fault fault => exact .inr ⟨_, [], fun rest => rfl⟩

namespace Recut

variable {source other : Source}

theorem append_right (h : Recut source other) (events : Source) :
    Recut (source ++ events) (other ++ events) := by
  induction h with
  | split x y rest => exact .split x y (rest ++ events)
  | remove rest => exact .remove (rest ++ events)
  | behind event h ih => exact .behind event ih
  | refl source => exact .refl _
  | symm h ih => exact ih.symm
  | trans h h' ih ih' => exact ih.trans ih'

theorem append_left (source : Source) {events others : Source} (h : Recut events others) :
    Recut (source ++ events) (source ++ others) := by
  induction source with
  | nil => exact h
  | cons event source ih => exact .behind event ih

/-- A read of data answers with its first byte, however it is cut. -/
theorem read (h : Recut source other) :
    source.read.1 = other.read.1 ∧ Recut source.read.2 other.read.2 := by
  induction h with
  | split x y rest =>
    cases x with
    | nil => exact ⟨rfl, .refl _⟩
    | cons b x => exact ⟨rfl, .split x y rest⟩
  | remove rest => exact ⟨rfl, .refl _⟩
  | behind event h ih =>
    rcases Source.read_cons_cases event with hpassed | ⟨answer, left, hanswered⟩
    · rw [hpassed, hpassed]
      exact ih
    · rw [hanswered, hanswered]
      exact ⟨rfl, append_left left h⟩
  | refl source => exact ⟨rfl, .refl _⟩
  | symm h ih => exact ⟨ih.1.symm, ih.2.symm⟩
  | trans h h' ih ih' => exact ⟨ih.1.trans ih'.1, ih.2.trans ih'.2⟩

theorem indistinct : Source.Indistinct Recut where
  refl := .refl
  answer_eq h := h.read.1
  rest h := h.read.2
  append h hevents := (h.append_right _).trans (append_left _ hevents)

/-- As many bytes wait as data, however it is cut. -/
theorem pendingBytes_eq (h : Recut source other) : source.pendingBytes = other.pendingBytes := by
  induction h with
  | split x y rest => simp [Source.pendingBytes, Nat.add_assoc]
  | remove rest => simp [Source.pendingBytes]
  | behind event h ih => cases event <;> simp [Source.pendingBytes, ih]
  | refl source => rfl
  | symm h ih => exact ih.symm
  | trans h h' ih ih' => exact ih.trans ih'

end Recut

namespace Unpacks

variable {source other : Source}

theorem refl (source : Source) : Unpacks source source := by
  induction source with
  | nil => exact .nil
  | cons event source ih => exact .keep event ih

theorem append (h : Unpacks source other) {events others : Source}
    (hevents : Unpacks events others) : Unpacks (source ++ events) (other ++ others) := by
  induction h with
  | nil => exact hevents
  | keep event h ih => exact .keep event ih
  | unpack bytes h ih =>
    rw [List.append_assoc]
    exact .unpack bytes ih

/-- A chunk of one byte answers a read as data does. -/
theorem read (h : Unpacks source other) :
    source.read.1 = other.read.1 ∧ Unpacks source.read.2 other.read.2 := by
  induction h with
  | nil => exact ⟨rfl, .nil⟩
  | keep event h ih =>
    rcases Source.read_cons_cases event with hpassed | ⟨answer, left, hanswered⟩
    · rw [hpassed, hpassed]
      exact ih
    · rw [hanswered, hanswered]
      exact ⟨rfl, (refl left).append h⟩
  | unpack bytes h ih =>
    cases bytes with
    | nil => exact ih
    | cons b bytes => exact ⟨rfl, .unpack bytes h⟩

theorem indistinct : Source.Indistinct Unpacks where
  refl := refl
  answer_eq h := h.read.1
  rest h := h.read.2
  append h hevents := h.append hevents

end Unpacks

/-! ### Sessions and runs -/

/-- **How data arrives makes no difference.**  Take sessions with the same sink at first, and
with steps that differ only in what they feed.  If the queues, and all that is fed, differ in
how their data is cut, then each step has the same answer and leaves the same sink, as many
bytes waiting as data, and queues that again differ in this way only.  The same holds, but for
the bytes that wait as data, if chunks of one byte each stand in for data.  And in both cases
runs of the command end in the same way, say the same, make the same calls and leave the same
sink. -/
theorem arrival_of_data (sink : Sink) (source other : Source) :
    (Recut source other → ∀ steps steps', List.Forall₂ (Step.Alike Recut) steps steps' →
      List.Forall₂
        (fun entry entry' => entry.1 = entry'.1 ∧ entry.2.sink = entry'.2.sink ∧
          entry.2.source.pendingBytes = entry'.2.source.pendingBytes ∧
          Recut entry.2.source entry'.2.source)
        (Streams.session ⟨source, sink⟩ steps) (Streams.session ⟨other, sink⟩ steps')) ∧
    (Unpacks source other → ∀ steps steps', List.Forall₂ (Step.Alike Unpacks) steps steps' →
      List.Forall₂
        (fun entry entry' => entry.1 = entry'.1 ∧ entry.2.sink = entry'.2.sink ∧
          Unpacks entry.2.source entry'.2.source)
        (Streams.session ⟨source, sink⟩ steps) (Streams.session ⟨other, sink⟩ steps')) ∧
    (Recut source other ∨ Unpacks source other → ∀ invocation arguments errors,
      let outcome := Command.run invocation arguments errors ⟨source, sink⟩
      let outcome' := Command.run invocation arguments errors ⟨other, sink⟩
      outcome.report = outcome'.report ∧ outcome.calls = outcome'.calls ∧
        outcome.streams.sink = outcome'.streams.sink) := by
  have halike : ∀ {R : Source → Source → Prop}, R source other →
      Streams.Alike R ⟨source, sink⟩ ⟨other, sink⟩ := fun h => ⟨rfl, h⟩
  refine ⟨?_, ?_, ?_⟩
  · intro h steps steps' hsteps
    refine (Streams.session_alike Recut.indistinct (halike h) hsteps).imp ?_
    rintro entry entry' ⟨hreply, hsink, hsource⟩
    exact ⟨hreply, hsink, hsource.pendingBytes_eq, hsource⟩
  · intro h steps steps' hsteps
    refine (Streams.session_alike Unpacks.indistinct (halike h) hsteps).imp ?_
    rintro entry entry' ⟨hreply, hsink, hsource⟩
    exact ⟨hreply, hsink, hsource⟩
  · rintro (h | h) invocation arguments errors
    · obtain ⟨hreport, hcalls, hstreams⟩ :=
        Command.run_alike Recut.indistinct (halike h) invocation arguments errors
      exact ⟨hreport, hcalls, hstreams.sink_eq⟩
    · obtain ⟨hreport, hcalls, hstreams⟩ :=
        Command.run_alike Unpacks.indistinct (halike h) invocation arguments errors
      exact ⟨hreport, hcalls, hstreams.sink_eq⟩

/-- Data in three pieces, one of them empty, or in chunks, and behind it an end of the stream,
reached by a sink that accepts single bytes and refuses the second of them. -/
theorem arrival_of_data_in_pieces :
    let sink : Sink := { plan :=
      { cap? := some 1, refusals := [{ call := 1, fault := .system .general (.text "full") }] } }
    let source : Source := [.data [0x61, 0x62], .chunk [], .data [0x63]]
    let pieces : Source := [.data [0x61], .data [], .data [0x62], .chunk [], .data [0x63]]
    let chunks : Source := [.chunk [0x61], .chunk [0x62], .chunk [], .data [0x63]]
    let steps : List Step := [.relay, .loop, .feed [.data [0x64, 0x65]], .relay]
    let steps' : List Step := [.relay, .loop, .feed [.data [0x64], .data [0x65]], .relay]
    let steps'' : List Step := [.relay, .loop, .feed [.chunk [0x64], .chunk [0x65]], .relay]
    (Recut source pieces ∧ List.Forall₂ (Step.Alike Recut) steps steps' ∧
      List.Forall₂
        (fun entry entry' => entry.1 = entry'.1 ∧ entry.2.sink = entry'.2.sink ∧
          entry.2.source.pendingBytes = entry'.2.source.pendingBytes ∧
          Recut entry.2.source entry'.2.source)
        (Streams.session ⟨source, sink⟩ steps) (Streams.session ⟨pieces, sink⟩ steps')) ∧
    (Unpacks source chunks ∧ List.Forall₂ (Step.Alike Unpacks) steps steps'' ∧
      source.pendingBytes ≠ Source.pendingBytes chunks ∧
      List.Forall₂
        (fun entry entry' => entry.1 = entry'.1 ∧ entry.2.sink = entry'.2.sink ∧
          Unpacks entry.2.source entry'.2.source)
        (Streams.session ⟨source, sink⟩ steps) (Streams.session ⟨chunks, sink⟩ steps'')) ∧
    let outcome := Command.run (.script "postnl") [] .accepting ⟨source, sink⟩
    let outcome' := Command.run (.script "postnl") [] .accepting ⟨pieces, sink⟩
    (outcome.report = outcome'.report ∧ outcome.calls = outcome'.calls ∧
      outcome.streams.sink = outcome'.streams.sink) := by
  intro sink source pieces chunks steps steps' steps''
  have hpieces : Recut source pieces := by decide
  have hchunks : Unpacks source chunks := .unpack [0x61, 0x62] (.refl _)
  have hsteps' : List.Forall₂ (Step.Alike Recut) steps steps' :=
    .cons (.same _) (.cons (.same _) (.cons (.feed (by decide)) (.cons (.same _) .nil)))
  have hsteps'' : List.Forall₂ (Step.Alike Unpacks) steps steps'' :=
    .cons (.same _) (.cons (.same _)
      (.cons (.feed (.unpack [0x64, 0x65] .nil)) (.cons (.same _) .nil)))
  exact ⟨⟨hpieces, hsteps', (arrival_of_data sink source pieces).1 hpieces _ _ hsteps'⟩,
    ⟨hchunks, hsteps'', by decide,
      (arrival_of_data sink source chunks).2.1 hchunks _ _ hsteps''⟩,
    (arrival_of_data sink source pieces).2.2 (.inl hpieces) _ _ _⟩

end FinalNewline
