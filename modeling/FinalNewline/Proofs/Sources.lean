import FinalNewline.Source

/-!
# What reads bring

Whatever a source is made of, a relay notices only what its reads bring.  A read takes
bytes off the front of the source and hands over just these, and the faults that a
source holds are met one after another, in their order.

The reads up to the first that brings no bytes are the reads of one relay.  `values` is
what they bring, defined by nothing but reading; where the source consists of data
alone, these are its bytes, each by itself.

## Main Definitions

* `Source.faults` — the faults that a source holds
* `Source.values` — what successive reads bring, up to the first that brings no bytes

## Main Results

* `Source.bytes_read`, `Source.faults_read` — what one read takes off a source
* `Source.values_of_data` — reads of data bring one byte each, and all of them
-/

namespace FinalNewline

/-- The fault that an event stands for, if it stands for one. -/
def Event.fault? : Event → Option Fault
  | fault e => some e
  | _ => none

namespace Source

/-- The faults that a source holds, in order. -/
def faults (source : Source) : List Fault :=
  source.filterMap Event.fault?

/-! ### One read -/

/-- The bytes that the answer to a read brings. -/
def brought : Except Fault Received → Bytes
  | .ok received => received.value
  | .error _ => []

/-- The faults that the answer to a read reports: one, or none. -/
def reported : Except Fault Received → List Fault
  | .ok _ => []
  | .error fault => [fault]

/-- A read takes what it brings off the front of the bytes. -/
theorem bytes_read (source : Source) :
    source.bytes = brought source.read.1 ++ source.read.2.bytes := by
  fun_induction read source with
  | case2 tail ih => exact ih
  | _ => rfl

/-- A read takes what it reports off the front of the faults. -/
theorem faults_read (source : Source) :
    source.faults = reported source.read.1 ++ source.read.2.faults := by
  fun_induction read source with
  | case2 tail ih => exact ih
  | _ => rfl

theorem bytes_of_read {source rest : Source} {received : Received}
    (h : source.read = (.ok received, rest)) : source.bytes = received.value ++ rest.bytes := by
  rw [bytes_read, h]
  rfl

theorem faults_of_read {source rest : Source} {received : Received}
    (h : source.read = (.ok received, rest)) : source.faults = rest.faults := by
  rw [faults_read, h]
  rfl

theorem faults_of_readFault {source rest : Source} {fault : Fault}
    (h : source.read = (.error fault, rest)) : source.faults = fault :: rest.faults := by
  rw [faults_read, h]
  rfl

/-- Does a source consist of data alone? -/
def IsData (source : Source) : Prop :=
  ∀ event ∈ source, ∃ bytes, event = .data bytes

theorem IsData.faults_eq_nil {source : Source} (h : source.IsData) : source.faults = [] := by
  rw [faults, List.filterMap_eq_nil_iff]
  intro event hevent
  obtain ⟨bytes, rfl⟩ := h event hevent
  rfl

/-- A read of data brings one byte, as long as there is one. -/
theorem read_of_isData {source : Source} (h : source.IsData) :
    ∃ received rest, source.read = (.ok received, rest) ∧ rest.IsData ∧
      (received.value = [] ∧ source.bytes = [] ∨ received.value.length = 1) := by
  induction source with
  | nil => exact ⟨.bytes [], [], rfl, h, .inl ⟨rfl, rfl⟩⟩
  | cons event tail ih =>
    obtain ⟨bytes, rfl⟩ := h event List.mem_cons_self
    have htail : IsData tail := fun event hevent => h event (List.mem_cons_of_mem _ hevent)
    cases bytes with
    | nil => exact ih htail
    | cons b bytes =>
      refine ⟨.bytes [b], .data bytes :: tail, rfl, ?_, .inr rfl⟩
      intro event hevent
      rcases List.mem_cons.1 hevent with rfl | hevent
      · exact ⟨bytes, rfl⟩
      · exact htail event hevent

/-! ### Successive reads -/

/-- What successive reads bring, up to the first that brings no bytes or fails. -/
def values (source : Source) : List Bytes :=
  match h : source.read with
  | (.error _, _) => []
  | (.ok received, rest) =>
    if hvalue : received.value = [] then []
    else
      have : rest.unread < source.unread := unread_read_lt h hvalue
      received.value :: values rest
termination_by source.unread

theorem values_of_end {source rest : Source} {received : Received}
    (h : source.read = (.ok received, rest)) (hend : received.value = []) :
    source.values = [] := by
  rw [values]
  split
  · rfl
  · simp_all

theorem values_of_value {source rest : Source} {received : Received}
    (h : source.read = (.ok received, rest)) (hvalue : received.value ≠ []) :
    source.values = received.value :: rest.values := by
  rw [values]
  split
  · simp_all
  · rename_i received' rest' h'
    obtain ⟨rfl, rfl⟩ : received' = received ∧ rest' = rest := by simp_all
    rw [dif_neg hvalue]

theorem ne_nil_of_mem_values {source : Source} {x : Bytes} (h : x ∈ source.values) : x ≠ [] := by
  fun_induction values source with
  | case1 => simp at h
  | case2 => simp at h
  | case3 source received rest hread hvalue hlt ih =>
    rcases List.mem_cons.1 h with rfl | h
    · exact hvalue
    · exact ih h

/-- Reads of data bring one byte each, and all of them. -/
theorem values_of_data {source : Source} (h : source.IsData) :
    source.values = source.bytes.map fun b => [b] := by
  -- Not on the source, which a read of data may leave as long as it was.
  induction hn : source.unread using Nat.strongRecOn generalizing source with
  | ind n ih =>
    obtain ⟨received, rest, hread, hrest, ⟨hend, hbytes⟩ | hone⟩ := read_of_isData h
    · rw [values_of_end hread hend, hbytes]
      rfl
    · obtain ⟨b, hb⟩ := List.length_eq_one_iff.1 hone
      have hvalue : received.value ≠ [] := by simp [hb]
      have fewer : rest.unread < n := hn ▸ unread_read_lt hread hvalue
      rw [values_of_value hread hvalue, bytes_of_read hread, hb, ih _ fewer hrest rfl]
      rfl

/-- The values read from data are its bytes. -/
theorem flatten_values_of_data {source : Source} (h : source.IsData) :
    source.values.flatten = source.bytes := by
  rw [values_of_data h]
  simp [← List.flatMap_def]

/-- Each value read from data is a single byte. -/
theorem length_of_mem_values_of_data {source : Source} (h : source.IsData) :
    ∀ x ∈ source.values, x.length = 1 := by
  rw [values_of_data h]
  simp

end Source

end FinalNewline
