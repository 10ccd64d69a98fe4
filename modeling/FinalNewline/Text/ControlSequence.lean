/-!
# Terminal control sequences

A control sequence is an escape character and an opening bracket, any number of
parameter characters, any number of intermediate characters, and one final
character.  The three classes are disjoint, so at each position of a text at most
one control sequence starts, and it is found without trying lengths: skip the
parameters, skip the intermediates, look at one character.

Messages lose their control sequences before they are written to a stream that is
not a terminal.  The scan goes from left to right and does not look back: what is
left on both sides of a removed sequence may form a new one, and that one stays.

## Main Definitions

* `afterControlSequence?` — the rest of a text behind a control sequence at its front
* `removeControlSequences` — a text without its control sequences
-/

namespace FinalNewline.Text

/-- Parameter characters: the digits and `:;<=>?`. -/
def isParameter (c : Char) : Bool :=
  0x30 ≤ c.toNat && c.toNat ≤ 0x3f

/-- Intermediate characters: the space and the punctuation up to the slash. -/
def isIntermediate (c : Char) : Bool :=
  0x20 ≤ c.toNat && c.toNat ≤ 0x2f

/-- Final characters: the at sign up to the tilde. -/
def isFinal (c : Char) : Bool :=
  0x40 ≤ c.toNat && c.toNat ≤ 0x7e

/-- The escape character. -/
def escape : Char := '\x1b'

/-- What follows the control sequence at the front of a text, or `none` when no
control sequence starts there. -/
def afterControlSequence? : List Char → Option (List Char)
  | c :: '[' :: body =>
    if c = escape then
      match (body.dropWhile isParameter).dropWhile isIntermediate with
      | final :: rest => if isFinal final then some rest else none
      | [] => none
    else none
  | _ => none

theorem length_afterControlSequence? {text rest : List Char}
    (h : afterControlSequence? text = some rest) : rest.length < text.length := by
  unfold afterControlSequence? at h
  split at h
  · rename_i c body
    split at h
    · split at h
      · rename_i final tail hd
        split at h
        · have hs : (final :: tail).Sublist body :=
            hd ▸ (List.dropWhile_sublist _).trans (List.dropWhile_sublist _)
          have hl := hs.length_le
          have hr : tail = rest := by simpa using h
          subst hr
          simp only [List.length_cons] at hl ⊢
          omega
        · simp at h
      · simp at h
    · simp at h
  · simp at h

/-- A text without its control sequences, which are found from left to right. -/
def removeControlSequences : List Char → List Char
  | [] => []
  | c :: text =>
    match h : afterControlSequence? (c :: text) with
    | some rest =>
      have : rest.length < (c :: text).length := length_afterControlSequence? h
      removeControlSequences rest
    | none => c :: removeControlSequences text
termination_by text => text.length
decreasing_by
  · exact this
  · exact Nat.lt_succ_self text.length

@[simp]
theorem removeControlSequences_nil : removeControlSequences [] = [] := by
  rw [removeControlSequences]

theorem removeControlSequences_of_some {text rest : List Char}
    (h : afterControlSequence? text = some rest) :
    removeControlSequences text = removeControlSequences rest := by
  cases text with
  | nil => simp [afterControlSequence?] at h
  | cons c text =>
    rw [removeControlSequences]
    split
    · simp_all
    · simp_all

theorem removeControlSequences_of_none {c : Char} {text : List Char}
    (h : afterControlSequence? (c :: text) = none) :
    removeControlSequences (c :: text) = c :: removeControlSequences text := by
  rw [removeControlSequences]
  split
  · simp_all
  · rfl

end FinalNewline.Text
