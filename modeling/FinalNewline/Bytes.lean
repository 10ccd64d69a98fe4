/-!
# Byte strings and the final newline

The library copies byte streams and takes care that what it delivers is either
empty or ends in a newline.  Bytes are never decoded: a byte string is a list of
octets, and the only octet with a meaning is the line feed.

## Main Definitions

* `Bytes` — byte strings
* `terminator` — the byte string that ends a line
* `normalize` — a byte string with its final newline in place
* `encodeText` — the octets of a text, for messages that go to a byte stream
-/

namespace FinalNewline

/-- A byte string, first byte first. -/
abbrev Bytes := List UInt8

/-- The line feed, the one octet the library knows. -/
def lineFeed : UInt8 := 0x0A

/-- The byte string that ends a line: a line feed and nothing else. -/
def terminator : Bytes := [lineFeed]

/-- A byte string with its final newline in place: one line feed is appended when
the string is non-empty and does not already end in one. -/
def normalize (x : Bytes) : Bytes :=
  if x = [] ∨ x.getLast? = some lineFeed then x else x ++ terminator

/-- The octets of a text in UTF-8. -/
def encodeText (text : String) : Bytes :=
  text.toUTF8.data.toList

@[simp]
theorem normalize_nil : normalize [] = [] := by
  simp [normalize]

theorem normalize_append_singleton (x : Bytes) (b : UInt8) :
    normalize (x ++ [b]) = x ++ [b] ++ if b = lineFeed then [] else terminator := by
  by_cases hb : b = lineFeed
  · simp [normalize, hb]
  · simp [normalize, hb]

theorem append_singleton_eq_terminator_iff {x : Bytes} {b : UInt8} :
    x ++ [b] = terminator ↔ x = [] ∧ b = lineFeed := by
  cases x with
  | nil => simp [terminator]
  | cons c x => simp [terminator]

theorem terminator_ne_nil : terminator ≠ [] := by
  simp [terminator]

@[simp]
theorem length_terminator : terminator.length = 1 := rfl

theorem normalize_eq_self_iff {x : Bytes} :
    normalize x = x ↔ x = [] ∨ x.getLast? = some lineFeed := by
  unfold normalize
  split
  · simp [*]
  · rename_i hlacks
    simp [hlacks, terminator_ne_nil]

/-- Only the last part of a byte string decides about its terminator. -/
theorem normalize_append {x y : Bytes} (hy : y ≠ []) : normalize (x ++ y) = x ++ normalize y := by
  obtain ⟨front, b, rfl⟩ : ∃ front b, y = front ++ [b] :=
    ⟨y.dropLast, y.getLast hy, (List.dropLast_concat_getLast hy).symm⟩
  rw [← List.append_assoc, normalize_append_singleton, normalize_append_singleton]
  simp

end FinalNewline
