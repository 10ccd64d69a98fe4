import FinalNewline.Relay

/-!
# Buffers

A buffer is a byte string in memory with a position at which the next read or write
takes place.  Reads take bytes from the position on and move it past them.  Writes
overwrite what stands at the position, grow the byte string where they reach beyond its
end, and move the position as well.  The position may lie beyond the end: nothing can be
read there, and the first write fills the gap with zeros.

The byte string is kept as the bytes before the position and the bytes from it on, so a
read or a write works at the place where the two meet, however long the rest is.

## Main Definitions

* `Buffer` — a byte string with a position, and `Buffer.value`, `Buffer.position`
* `File` — a buffer that can be closed, and the operations on it
* `Link`, `Loop` — the channels between two files and from a file to itself
-/

namespace FinalNewline

/-- A byte string with a position.  The bytes before the position are kept nearest
first; `gap` is the distance from the end of the byte string to the position when the
position lies beyond it. -/
structure Buffer where
  behind : Bytes
  ahead : Bytes
  gap : Nat
  /-- Only a position that has no bytes ahead can lie beyond the end. -/
  gap_eq_zero : ahead ≠ [] → gap = 0
  deriving DecidableEq

namespace Buffer

/-- The byte string. -/
def value (buffer : Buffer) : Bytes :=
  buffer.behind.reverse ++ buffer.ahead

/-- The position, counted from the start of the byte string. -/
def position (buffer : Buffer) : Nat :=
  buffer.behind.length + buffer.gap

/-- The buffer with a given byte string and position. -/
def ofBytesAt (value : Bytes) (position : Nat) : Buffer where
  behind := (value.take position).reverse
  ahead := value.drop position
  gap := position - value.length
  gap_eq_zero h := by
    have : position < value.length := by simpa using h
    omega

/-- A buffer at its start. -/
def ofBytes (value : Bytes) : Buffer :=
  .ofBytesAt value 0

/-- Reads one byte; none, when there is none ahead. -/
def read (buffer : Buffer) : Bytes × Buffer :=
  match buffer.ahead with
  | [] => ([], buffer)
  | b :: ahead => ([b], ⟨b :: buffer.behind, ahead, 0, fun _ => rfl⟩)

/-- Writes a byte string.  To write nothing changes nothing, and leaves a gap open. -/
def write (buffer : Buffer) (x : Bytes) : Buffer :=
  if x = [] then buffer
  else
    ⟨x.reverse ++ (List.replicate buffer.gap 0 ++ buffer.behind), buffer.ahead.drop x.length, 0,
      fun _ => rfl⟩

/-- Moves the position. -/
def seek (buffer : Buffer) (position : Nat) : Buffer :=
  .ofBytesAt buffer.value position

/-- Cuts the byte string at the position. -/
def truncate (buffer : Buffer) : Buffer :=
  ⟨buffer.behind, [], buffer.gap, fun h => absurd rfl h⟩

@[simp]
theorem value_ofBytesAt (value : Bytes) (position : Nat) :
    (ofBytesAt value position).value = value := by
  simp [ofBytesAt, Buffer.value]

@[simp]
theorem position_ofBytesAt (value : Bytes) (position : Nat) :
    (ofBytesAt value position).position = position := by
  simp only [ofBytesAt, Buffer.position, List.length_reverse, List.length_take]
  omega

@[simp]
theorem value_ofBytes (value : Bytes) : (ofBytes value).value = value :=
  value_ofBytesAt value 0

@[simp]
theorem position_ofBytes (value : Bytes) : (ofBytes value).position = 0 :=
  position_ofBytesAt value 0

end Buffer

/-- A buffer that can be closed, after which it is gone. -/
inductive File where
  | opened (buffer : Buffer)
  | closed
  deriving DecidableEq

namespace File

/-- The fault of every operation on a closed file, except to close it again. -/
def closedFault : Fault :=
  .other .invalidValue "I/O operation on closed file."

/-- The fault of a move to a position before the start. -/
def seekFault (position : Int) : Fault :=
  .other .invalidValue ("negative seek value " ++ toString position)

/-- An open file that holds a byte string, at its start. -/
def ofBytes (value : Bytes) : File :=
  .opened (.ofBytes value)

/-- Reads one byte; none, at the end. -/
def read : File → Except Fault Received × File
  | opened buffer =>
    let result := buffer.read
    (.ok (.bytes result.1), opened result.2)
  | closed => (.error closedFault, closed)

/-- Writes a byte string. -/
def write : File → Bytes → Option Fault × File
  | opened buffer, x => (none, opened (buffer.write x))
  | closed, _ => (some closedFault, closed)

/-- Moves the position, and gives it. -/
def seek : File → Int → Except Fault Nat × File
  | opened buffer, .ofNat position => (.ok position, opened (buffer.seek position))
  | opened buffer, position => (.error (seekFault position), opened buffer)
  | closed, _ => (.error closedFault, closed)

/-- Cuts the byte string at the position, and gives the position. -/
def truncate : File → Except Fault Nat × File
  | opened buffer => (.ok buffer.position, opened buffer.truncate)
  | closed => (.error closedFault, closed)

/-- How many bytes can be read. -/
def unread : File → Nat
  | opened buffer => buffer.ahead.length
  | closed => 0

/-- A non-empty read takes bytes that can then be read no more. -/
theorem unread_read_lt {file rest : File} {received : Received}
    (h : file.read = (.ok received, rest)) (hv : received.value ≠ []) :
    rest.unread < file.unread := by
  cases file with
  | closed => simp [read] at h
  | opened buffer =>
    obtain ⟨rfl, rfl⟩ : Received.bytes buffer.read.1 = received ∧ opened buffer.read.2 = rest := by
      simpa [read] using h
    obtain ⟨behind, ahead, gap, hgap⟩ := buffer
    cases ahead with
    | nil => exact absurd rfl hv
    | cons b ahead => simp [unread, Buffer.read]

/-- A write uncovers no bytes to read. -/
theorem unread_write_le (file : File) (x : Bytes) : (file.write x).2.unread ≤ file.unread := by
  cases file with
  | closed => exact Nat.le_refl _
  | opened buffer =>
    by_cases hx : x = []
    · simp [write, unread, Buffer.write, hx]
    · simp [write, unread, Buffer.write, hx]

end File

/-- The channel from one file to another. -/
structure Link where
  source : File
  target : File
  deriving DecidableEq

namespace Link

/-- Reads from the source. -/
def read (link : Link) : Except Fault Received × Link :=
  let result := link.source.read
  (result.1, { link with source := result.2 })

/-- Writes to the target. -/
def write (link : Link) (x : Bytes) : Option Fault × Link :=
  let result := link.target.write x
  (result.1, { link with target := result.2 })

instance : Channel Link where
  read := read
  write := write
  unread link := link.source.unread
  unread_read_lt := by
    intro s t r h hv
    obtain ⟨hr, rfl⟩ : s.source.read.1 = .ok r ∧ { s with source := s.source.read.2 } = t := by
      simpa [read] using h
    exact File.unread_read_lt (Prod.ext hr rfl) hv
  unread_write_le _ _ := Nat.le_refl _

/-- The channel from a file that holds a byte string to an empty one. -/
def ofBytes (value : Bytes) : Link :=
  ⟨.ofBytes value, .ofBytes []⟩

end Link

/-- The channel from a file to itself: what is written goes to the position that the
reads have reached, and the reads go on behind what was written. -/
structure Loop where
  file : File
  deriving DecidableEq

namespace Loop

/-- Reads from the file. -/
def read (loop : Loop) : Except Fault Received × Loop :=
  let result := loop.file.read
  (result.1, ⟨result.2⟩)

/-- Writes to the file. -/
def write (loop : Loop) (x : Bytes) : Option Fault × Loop :=
  let result := loop.file.write x
  (result.1, ⟨result.2⟩)

instance : Channel Loop where
  read := read
  write := write
  unread loop := loop.file.unread
  unread_read_lt := by
    intro s t r h hv
    obtain ⟨hr, rfl⟩ : s.file.read.1 = .ok r ∧ (⟨s.file.read.2⟩ : Loop) = t := by
      simpa [read] using h
    exact File.unread_read_lt (Prod.ext hr rfl) hv
  unread_write_le loop x := loop.file.unread_write_le x

end Loop

end FinalNewline
