import FinalNewline.Proofs.Exchanges

/-!
# Relays of single bytes

Most channels hand out their bytes one at a time and accept all that they are given.  What a
relay does on such a channel is known before it begins, up to the state that it leaves.  It
exchanges the bytes one by one, finds the end of the stream, and writes a terminator if the
bytes do not end in a line feed.

What the channels have in common is an invariant of two byte strings, those that were copied
and those that are left.  An exchange moves one byte from the second to the first.  The state
that the relay leaves is described by the same invariant, with nothing left.

## Main Definitions

* `singles` — the bytes of a byte string, each as a value of its own
* `closing` — the calls with which a relay of single bytes closes
* `Bytewise` — invariants of channels that hand out single bytes and accept everything

## Main Results

* `Bytewise.exists_relay` — what a relay does on such a channel
* `relay_of_isData` — a relay of data, on a sink that accepts everything
-/

namespace FinalNewline

/-- The bytes of a byte string, each as a value of its own. -/
def singles (x : Bytes) : List Bytes :=
  x.map fun b => [b]

/-- The calls with which a relay of single bytes closes: it finds the end of the stream, and
writes a terminator if one is owed. -/
def closing (owed : Bool) : List Call :=
  .read (.bytes []) :: if owed then [.write terminator none] else []

@[simp]
theorem singles_cons (b : UInt8) (x : Bytes) : singles (b :: x) = [b] :: singles x := rfl

@[simp]
theorem flatten_singles (x : Bytes) : (singles x).flatten = x := by
  rw [singles, ← List.flatMap_def, List.flatMap_singleton']

/-- A terminator is owed behind single bytes unless there are none or the last of them is a line
feed. -/
theorem owes_singles (x : Bytes) :
    owes false (singles x) = x.getLast?.any (· != lineFeed) := by
  rw [owes, singles, List.getLast?_map]
  cases x.getLast? with
  | none => rfl
  | some b => simp [terminator, bne]

/-- What is owed behind single bytes, of which there are some. -/
theorem terminator_owed {x : Bytes} (h : x ≠ []) :
    (if owes false (singles x) then terminator else []) =
      if x.getLast? = some lineFeed then [] else terminator := by
  rw [owes_singles, List.getLast?_eq_some_getLast h]
  by_cases hfeed : x.getLast h = lineFeed
  · simp [hfeed]
  · simp [hfeed]

/-- The final newline in place: the byte string, and the terminator that is owed behind it. -/
theorem normalize_eq_append (x : Bytes) :
    normalize x = x ++ if owes false (singles x) then terminator else [] := by
  have hlength : ∀ value ∈ singles x, value.length = 1 := by simp [singles]
  have hfinished := finished_of_length_eq_one hlength
  rw [finished, flatten_singles] at hfinished
  exact hfinished.symm

theorem normalize_ne_nil {x : Bytes} (h : x ≠ []) : normalize x ≠ [] := by
  rw [normalize_eq_append]
  exact List.append_ne_nil_of_left_ne_nil h _

section Invariants

variable {σ : Type} [Channel σ]

/-- An invariant of a channel that hands out single bytes and accepts everything.  `At done left
s` says that in the state `s` the bytes `done` have been copied, and `left` are left. -/
structure Bytewise (At : Bytes → Bytes → σ → Prop) : Prop where
  /-- The next byte that is left can be read and written. -/
  exchange : ∀ {done left : Bytes} {b : UInt8} {s : σ}, At done (b :: left) s →
    ∃ t u, Channel.read s = (.ok (.bytes [b]), t) ∧ Channel.write t [b] = (none, u) ∧
      At (done ++ [b]) left u
  /-- Where nothing is left, a read finds the end of the stream. -/
  ending : ∀ {done : Bytes} {s : σ}, At done [] s →
    ∃ t, Channel.read s = (.ok (.bytes []), t) ∧ At done [] t
  /-- There a terminator is accepted. -/
  accepts : ∀ {done : Bytes} {s : σ}, At done [] s → (Channel.write s terminator).1 = none

variable {At : Bytes → Bytes → σ → Prop}

theorem Bytewise.exists_copies (h : Bytewise At) {done left : Bytes} {s : σ}
    (hs : At done left s) (owed : Bool) :
    ∃ t, At (done ++ left) [] t ∧
      Copies owed s
        ⟨exchanges (singles left) ++ closing (owes owed (singles left)), none,
          if owes owed (singles left) then (Channel.write t terminator).2 else t⟩ := by
  induction left generalizing done s owed with
  | nil =>
    obtain ⟨t, hread, ht⟩ := h.ending hs
    refine ⟨t, by rwa [List.append_nil], ?_⟩
    cases owed with
    | false => exact .complete hread rfl
    | true => exact .terminate hread rfl (Prod.ext (h.accepts ht) rfl)
  | cons b left ih =>
    obtain ⟨t, u, hread, hwrite, hu⟩ := h.exchange hs
    have hvalue : (Received.bytes [b]).value ≠ [] := by simp [Received.value]
    obtain ⟨v, hv, hrest⟩ := ih hu ((Received.bytes [b]).value != terminator)
    refine ⟨v, by rwa [List.append_assoc] at hv, ?_⟩
    rw [singles_cons, owes_cons]
    exact .step hread hvalue hwrite hrest

/-- **A relay of single bytes.**  It exchanges the bytes one by one and closes as the last of
them requires, and it does not fail. -/
theorem Bytewise.exists_relay (h : Bytewise At) {x : Bytes} {s : σ} (hs : At [] x s) :
    ∃ t, At x [] t ∧
      relay s =
        ⟨exchanges (singles x) ++ closing (owes false (singles x)), none,
          if owes false (singles x) then (Channel.write t terminator).2 else t⟩ := by
  obtain ⟨t, ht, hcopies⟩ := h.exists_copies hs false
  exact ⟨t, ht, hcopies.eq_copy.symm⟩

end Invariants

/-! ### Streams of data -/

namespace Source

/-- Where data has no bytes left, a read finds the end of the stream. -/
theorem read_of_isData_of_bytes_eq_nil {source : Source} (h : source.IsData)
    (hbytes : source.bytes = []) : source.read = (.ok (.bytes []), []) := by
  induction source with
  | nil => rfl
  | cons event rest ih =>
    obtain ⟨bytes, rfl⟩ := h event List.mem_cons_self
    obtain ⟨rfl, hrest⟩ : bytes = [] ∧ Source.bytes rest = [] := List.append_eq_nil_iff.1 hbytes
    exact ih (fun event hevent => h event (List.mem_cons_of_mem _ hevent)) hrest

/-- A read of data brings the next byte that is left. -/
theorem read_of_isData_of_bytes_eq_cons {source : Source} (h : source.IsData) {b : UInt8}
    {left : Bytes} (hbytes : source.bytes = b :: left) :
    ∃ rest, source.read = (.ok (.bytes [b]), rest) ∧ rest.IsData ∧ rest.bytes = left := by
  obtain ⟨received, rest, hread, hrest, ⟨-, hnone⟩ | hone⟩ := read_of_isData h
  · simp [hnone] at hbytes
  obtain ⟨c, hc⟩ := List.length_eq_one_iff.1 hone
  have hvalue : received.value ≠ [] := by simp [hc]
  rw [bytes_of_read hread, hc] at hbytes
  obtain ⟨rfl, hleft⟩ := List.cons.inj hbytes
  refine ⟨rest, ?_, hrest, hleft⟩
  rw [hread, Received.eq_bytes_of_value hvalue, hc]

end Source

/-- How far the copy of data has come, on a sink that accepts everything and held `stored` at
first. -/
structure Streams.OfData (stored done left : Bytes) (s : Streams) : Prop where
  isData : s.source.IsData
  source_eq : s.source.bytes = left
  sink_eq : s.sink.bytes = stored ++ done
  willing : s.sink.plan.Willing
  uncapped : s.sink.plan.cap? = none

/-- Such a sink stores all that it is given. -/
theorem Streams.OfData.bytes_write {stored done left : Bytes} {s : Streams}
    (h : OfData stored done left s) (x : Bytes) :
    (s.write x).2.sink.bytes = stored ++ (done ++ x) := by
  have hrespond := Plan.respond_of_not_refused (Plan.willing_iff.1 h.willing s.sink.calls) x
  have haccepted : (s.write x).2.sink.bytes = s.sink.bytes ++ s.sink.plan.clip x :=
    (s.sink.bytes_write x).trans (by rw [hrespond])
  rw [haccepted, h.sink_eq, Plan.clip, h.uncapped, List.append_assoc]

theorem bytewise_ofData (stored : Bytes) : Bytewise (Streams.OfData stored) where
  exchange := by
    intro done left b s h
    obtain ⟨rest, hread, hrest, hleft⟩ :=
      Source.read_of_isData_of_bytes_eq_cons h.isData h.source_eq
    have hanswer : Channel.read s = (.ok (.bytes [b]), { s with source := rest }) := by
      show s.read = _
      rw [Streams.read, hread]
    refine ⟨_, _, hanswer, Prod.ext (h.willing _ _) rfl, ?_⟩
    exact ⟨hrest, hleft, h.bytes_write [b], h.willing, h.uncapped⟩
  ending := by
    intro done s h
    have hread := Source.read_of_isData_of_bytes_eq_nil h.isData h.source_eq
    have hanswer : Channel.read s = (.ok (.bytes []), { s with source := [] }) := by
      show s.read = _
      rw [Streams.read, hread]
    refine ⟨_, hanswer, ?_⟩
    exact ⟨by simp [Source.IsData], rfl, h.sink_eq, h.willing, h.uncapped⟩
  accepts := fun h => h.willing _ _

/-- A relay of data to a sink that accepts everything: its calls, and what it stores. -/
theorem relay_of_isData {s : Streams} (hdata : s.source.IsData) (hplan : s.sink.plan.Willing)
    (hcap : s.sink.plan.cap? = none) :
    let x := s.source.bytes
    (relay s).fault? = none ∧
    (relay s).calls = exchanges (singles x) ++ closing (owes false (singles x)) ∧
    (relay s).state.sink.bytes = s.sink.bytes ++ normalize x := by
  intro x
  have hstart : s.OfData s.sink.bytes [] x :=
    ⟨hdata, rfl, (List.append_nil _).symm, hplan, hcap⟩
  obtain ⟨t, ht, hrelay⟩ := (bytewise_ofData s.sink.bytes).exists_relay hstart
  rw [hrelay, normalize_eq_append]
  refine ⟨rfl, rfl, ?_⟩
  cases owes false (singles x) with
  | true => exact ht.bytes_write terminator
  | false => simpa using ht.sink_eq

end FinalNewline
