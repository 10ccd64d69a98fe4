import FinalNewline.Buffer

/-!
# What can be seen of a buffer

A buffer is kept in three parts, so that reads and writes happen where its two byte strings
meet.  Nobody sees the parts.  What can be seen is the byte string and the position, and these
two determine the buffer.  Here every operation is described by what it does to them.

Successive writes are one write of all their bytes.  This needs no care at the end of the byte
string or in a gap: the first write that brings bytes closes the gap, for all that follow it.

## Main Definitions

* `Buffer.remaining` — the bytes from the position on, which reads can bring
* `Buffer.atEnd` — a buffer at its end

## Main Results

* `Buffer.ext_of_value_position` — byte string and position determine a buffer
* `Buffer.value_write`, `Buffer.position_write` — what a write leaves
* `Buffer.write_append` — successive writes are one write
-/

namespace FinalNewline.Buffer

/-- The bytes from the position on: what reads can still bring. -/
def remaining (buffer : Buffer) : Bytes :=
  buffer.value.drop buffer.position

/-! ### Byte string and position determine a buffer -/

theorem take_position (buffer : Buffer) :
    buffer.value.take buffer.position = buffer.behind.reverse := by
  obtain ⟨behind, ahead, gap, hgap⟩ := buffer
  by_cases hahead : ahead = []
  · simp [value, position, hahead, List.take_of_length_le]
  · simp [value, position, hgap hahead]

/-- The position is where the two byte strings meet, or behind a second one that is empty. -/
theorem remaining_eq_ahead (buffer : Buffer) : buffer.remaining = buffer.ahead := by
  obtain ⟨behind, ahead, gap, hgap⟩ := buffer
  by_cases hahead : ahead = []
  · simp [remaining, value, position, hahead]
  · simp [remaining, value, position, hgap hahead]

theorem gap_eq (buffer : Buffer) : buffer.gap = buffer.position - buffer.value.length := by
  obtain ⟨behind, ahead, gap, hgap⟩ := buffer
  by_cases hahead : ahead = []
  · simp [value, position, hahead]
  · simp only [value, position, hgap hahead, List.length_append, List.length_reverse]
    omega

/-- Byte string and position determine a buffer. -/
theorem ext_of_value_position {b c : Buffer} (hvalue : b.value = c.value)
    (hposition : b.position = c.position) : b = c := by
  have hbehind : b.behind = c.behind := by
    rw [← List.reverse_inj, ← take_position, ← take_position, hvalue, hposition]
  have hahead : b.ahead = c.ahead := by
    rw [← remaining_eq_ahead, ← remaining_eq_ahead, remaining, remaining, hvalue, hposition]
  have hgap : b.gap = c.gap := by
    rw [gap_eq, gap_eq, hvalue, hposition]
  obtain ⟨behind, ahead, gap, hzero⟩ := b
  obtain ⟨behind', ahead', gap', hzero'⟩ := c
  subst hbehind hahead hgap
  rfl

theorem length_remaining (buffer : Buffer) :
    buffer.remaining.length = buffer.value.length - buffer.position := by
  rw [remaining, List.length_drop]

theorem remaining_eq_nil_iff {buffer : Buffer} :
    buffer.remaining = [] ↔ buffer.value.length ≤ buffer.position :=
  List.drop_eq_nil_iff

/-! ### Moves and reads -/

@[simp]
theorem value_seek (buffer : Buffer) (position : Nat) :
    (buffer.seek position).value = buffer.value :=
  value_ofBytesAt buffer.value position

@[simp]
theorem position_seek (buffer : Buffer) (position : Nat) :
    (buffer.seek position).position = position :=
  position_ofBytesAt buffer.value position

theorem remaining_seek (buffer : Buffer) (position : Nat) :
    (buffer.seek position).remaining = buffer.value.drop position := by
  rw [remaining, value_seek, position_seek]

@[simp]
theorem seek_position (buffer : Buffer) : buffer.seek buffer.position = buffer :=
  ext_of_value_position (value_seek buffer _) (position_seek buffer _)

@[simp]
theorem seek_seek (buffer : Buffer) (first second : Nat) :
    (buffer.seek first).seek second = buffer.seek second := by
  rw [seek, value_seek, ← seek]

/-- Where nothing remains, a read brings nothing and leaves the buffer as it is. -/
theorem read_of_remaining_eq_nil {buffer : Buffer} (h : buffer.remaining = []) :
    buffer.read = ([], buffer) := by
  rw [remaining_eq_ahead] at h
  rw [read, h]

/-- Where bytes remain, a read brings the first of them and moves the position behind it. -/
theorem read_of_remaining_eq_cons {buffer : Buffer} {b : UInt8} {rest : Bytes}
    (h : buffer.remaining = b :: rest) :
    buffer.read = ([b], buffer.seek (buffer.position + 1)) := by
  have hahead : buffer.ahead = b :: rest := by rw [← remaining_eq_ahead, h]
  have hgap : buffer.gap = 0 := buffer.gap_eq_zero (by simp [hahead])
  have hnext : (⟨b :: buffer.behind, rest, 0, fun _ => rfl⟩ : Buffer) =
      buffer.seek (buffer.position + 1) := by
    apply ext_of_value_position
    · rw [value_seek]
      simp [value, hahead]
    · rw [position_seek]
      simp [position, hgap]
  rw [read, hahead, ← hnext]

/-- Behind the byte that was read, one byte less remains. -/
theorem remaining_seek_succ {buffer : Buffer} {b : UInt8} {rest : Bytes}
    (h : buffer.remaining = b :: rest) :
    (buffer.seek (buffer.position + 1)).remaining = rest := by
  rw [remaining_seek, ← List.drop_drop, ← remaining, h]
  rfl

/-! ### Writes -/

@[simp]
theorem write_nil (buffer : Buffer) : buffer.write [] = buffer :=
  if_pos rfl

theorem write_of_ne_nil {x : Bytes} (h : x ≠ []) (buffer : Buffer) :
    buffer.write x =
      ⟨x.reverse ++ (List.replicate buffer.gap 0 ++ buffer.behind), buffer.ahead.drop x.length, 0,
        fun _ => rfl⟩ :=
  if_neg h

/-- Successive writes are one write of all their bytes. -/
theorem write_append (buffer : Buffer) (x y : Bytes) :
    buffer.write (x ++ y) = (buffer.write x).write y := by
  by_cases hx : x = []
  · rw [hx, List.nil_append, write_nil]
  by_cases hy : y = []
  · rw [hy, List.append_nil, write_nil]
  rw [write_of_ne_nil (List.append_ne_nil_of_left_ne_nil hx y), write_of_ne_nil hx,
    write_of_ne_nil hy]
  simp [List.drop_drop]

/-- A write moves the position by the number of its bytes. -/
theorem position_write (buffer : Buffer) (x : Bytes) :
    (buffer.write x).position = buffer.position + x.length := by
  by_cases hx : x = []
  · rw [hx, write_nil, List.length_nil, Nat.add_zero]
  · rw [write_of_ne_nil hx]
    simp only [position, List.length_append, List.length_reverse, List.length_replicate]
    omega

/-- A write of some bytes keeps what stands before the position, fills the gap with zeros, and
keeps what stands behind the place of its last byte. -/
theorem value_write {x : Bytes} (h : x ≠ []) (buffer : Buffer) :
    (buffer.write x).value =
      buffer.value.take buffer.position ++
        List.replicate (buffer.position - buffer.value.length) 0 ++ x ++
        buffer.value.drop (buffer.position + x.length) := by
  rw [write_of_ne_nil h, take_position, ← gap_eq, ← List.drop_drop, ← remaining,
    remaining_eq_ahead]
  simp [value]

/-! ### Buffers at their end -/

/-- The buffer with a given byte string, at its end. -/
def atEnd (value : Bytes) : Buffer :=
  .ofBytesAt value value.length

theorem remaining_atEnd (value : Bytes) : (atEnd value).remaining = [] := by
  simp [remaining_eq_nil_iff, atEnd]

/-- A write at the end extends the byte string. -/
theorem write_atEnd (value x : Bytes) : (atEnd value).write x = atEnd (value ++ x) := by
  by_cases hx : x = []
  · rw [hx, write_nil, List.append_nil]
  · apply ext_of_value_position
    · rw [value_write hx]
      simp [atEnd]
    · rw [position_write]
      simp [atEnd]

end FinalNewline.Buffer
