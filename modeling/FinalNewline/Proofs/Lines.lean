import FinalNewline.Command.Report

/-!
# Lines without control sequences

Messages lose their control sequences when they are written, and the message is put
together before that.  A control sequence could then reach from one part of a message
into the next, and what is said would not be the parts that were meant.  It does not
happen: text without an escape character is kept as it is, and a line feed belongs to no
control sequence, so that it neither ends one nor is removed with one.

## Main Definitions

* `plain` — a message without its control sequences

## Main Results

* `Text.removeControlSequences_append_of_not_mem` — text in front that has no escape
* `Text.removeControlSequences_append_lineFeed` — a line feed behind
* `Text.escape_notMem_quoted` — quoted texts have no escape character
* `line_error` — the line in which a fault is reported
-/

namespace FinalNewline

namespace Text

/-! ### Text without an escape character -/

theorem afterControlSequence?_of_ne_escape {c : Char} (h : c ≠ escape) (text : List Char) :
    afterControlSequence? (c :: text) = none := by
  unfold afterControlSequence?
  split
  · rename_i heq
    obtain ⟨rfl, -⟩ := List.cons.inj heq
    exact if_neg h
  · rfl

/-- Text that has no escape character is kept, whatever comes behind it. -/
theorem removeControlSequences_append_of_not_mem {front : List Char} (h : escape ∉ front)
    (text : List Char) :
    removeControlSequences (front ++ text) = front ++ removeControlSequences text := by
  induction front with
  | nil => rfl
  | cons c front ih =>
    have hc : c ≠ escape := fun hc => h (hc ▸ List.mem_cons_self)
    have hfront : escape ∉ front := fun hmem => h (List.mem_cons_of_mem c hmem)
    rw [List.cons_append,
      removeControlSequences_of_none (afterControlSequence?_of_ne_escape hc _), ih hfront]
    rfl

/-! ### The line feed behind a text -/

theorem dropWhile_append_singleton {p : Char → Bool} {c : Char} (h : p c = false)
    (text : List Char) : (text ++ [c]).dropWhile p = text.dropWhile p ++ [c] := by
  rw [List.dropWhile_append]
  split
  · rename_i hempty
    rw [List.isEmpty_iff.1 hempty]
    simp [h]
  · rfl

/-- No control sequence ends with a line feed, or goes on behind one. -/
theorem afterControlSequence?_append_lineFeed (text : List Char) :
    afterControlSequence? (text ++ ['\n']) =
      (afterControlSequence? text).map (· ++ ['\n']) := by
  match text with
  | [] => rfl
  | [c] => rfl
  | c :: d :: body =>
    by_cases hd : d = '['
    · subst hd
      -- The line feed is of none of the three classes, so each scan stops in front of it.
      have hbody : ((body ++ ['\n']).dropWhile isParameter).dropWhile isIntermediate =
          (body.dropWhile isParameter).dropWhile isIntermediate ++ ['\n'] := by
        rw [dropWhile_append_singleton (by decide), dropWhile_append_singleton (by decide)]
      show afterControlSequence? (c :: '[' :: (body ++ ['\n'])) = _
      rw [afterControlSequence?, afterControlSequence?, hbody]
      by_cases hc : c = escape
      · rw [if_pos hc, if_pos hc]
        cases (body.dropWhile isParameter).dropWhile isIntermediate with
        | nil => rfl
        | cons final rest =>
          by_cases hfinal : isFinal final
          · simp [hfinal]
          · simp [hfinal]
      · rw [if_neg hc, if_neg hc]
        rfl
    · simp [afterControlSequence?, hd]

/-- A line feed behind a text stays, and does not change what goes before it. -/
theorem removeControlSequences_append_lineFeed (text : List Char) :
    removeControlSequences (text ++ ['\n']) = removeControlSequences text ++ ['\n'] := by
  -- On the length, because a control sequence is skipped as a whole.
  induction hn : text.length using Nat.strongRecOn generalizing text with
  | ind n ih =>
    cases hafter : afterControlSequence? text with
    | some rest =>
      have fewer : rest.length < n := hn ▸ length_afterControlSequence? hafter
      have hlonger : afterControlSequence? (text ++ ['\n']) = some (rest ++ ['\n']) := by
        rw [afterControlSequence?_append_lineFeed, hafter]
        rfl
      rw [removeControlSequences_of_some hlonger, removeControlSequences_of_some hafter,
        ih _ fewer rest rfl]
    | none =>
      cases text with
      | nil =>
        have hlineFeed : escape ∉ ['\n'] := by decide
        have := removeControlSequences_append_of_not_mem hlineFeed []
        simpa using this
      | cons c text =>
        have hlonger : afterControlSequence? (c :: (text ++ ['\n'])) = none := by
          rw [← List.cons_append, afterControlSequence?_append_lineFeed, hafter]
          rfl
        have fewer : text.length < n := hn ▸ Nat.lt_succ_self text.length
        rw [List.cons_append, removeControlSequences_of_none hlonger,
          removeControlSequences_of_none hafter, ih _ fewer text rfl]
        rfl

/-! ### Quoted texts -/

theorem escape_notMem_hexDigits (width n : Nat) : escape ∉ hexDigits width n := by
  have hdigit : ∀ digit < 16, Nat.digitChar digit ≠ escape := by decide
  induction width generalizing n with
  | zero => exact List.not_mem_nil
  | succ width ih =>
    rw [hexDigits, List.mem_append, List.mem_singleton, not_or]
    exact ⟨ih (n / 16), (hdigit _ (Nat.mod_lt n (by decide))).symm⟩

theorem escape_notMem_encodeChar {mark : Char} (h : mark ≠ escape) (c : Char) :
    escape ∉ Quoted.encodeChar mark c := by
  have hbackslash : backslash ≠ escape := by decide
  have hhex : ∀ letter ≠ escape, ∀ width n, escape ∉ backslash :: letter :: hexDigits width n := by
    intro letter hletter width n
    simp [hbackslash.symm, hletter.symm, escape_notMem_hexDigits]
  fun_cases Quoted.encodeChar mark c with
  | case1 hc =>
    have hc : c ≠ escape := by
      rcases hc with rfl | rfl
      · exact h
      · exact hbackslash
    simp [hbackslash.symm, hc.symm]
  | case2 => decide
  | case3 => decide
  | case4 => decide
  | case5 _ _ _ _ hprintable =>
    rw [List.mem_singleton]
    rintro rfl
    exact absurd hprintable (by decide)
  | case6 => exact hhex 'x' (by decide) 2 c.toNat
  | case7 => exact hhex 'u' (by decide) 4 c.toNat
  | case8 => exact hhex 'U' (by decide) 8 c.toNat

/-- A quoted text has no escape character, whatever was quoted. -/
theorem escape_notMem_quoted (text : String) : escape ∉ (quoted text).toList := by
  have hmark : Quoted.mark text.toList ≠ escape := by
    unfold Quoted.mark
    split
    · decide
    · decide
  simp only [quoted, String.toList_ofList, List.cons_append, List.mem_cons, List.mem_append,
    List.mem_flatMap, List.not_mem_nil, or_false, not_or, not_exists, not_and]
  exact ⟨hmark.symm, fun c _ => escape_notMem_encodeChar hmark c, hmark.symm⟩

end Text

namespace Command

/-- A message without its control sequences. -/
def plain (message : String) : String :=
  String.ofList (Text.removeControlSequences message.toList)

/-- A line is the message without its control sequences, and a line feed. -/
theorem line_eq (message : String) : line message = plain message ++ "\n" := by
  rw [line, plain, String.toList_append]
  show String.ofList (Text.removeControlSequences (message.toList ++ ['\n'])) = _
  rw [Text.removeControlSequences_append_lineFeed, String.ofList_append]

/-- A message without an escape character is kept as it is. -/
theorem plain_of_not_mem {message : String} (h : Text.escape ∉ message.toList) :
    plain message = message := by
  have := Text.removeControlSequences_append_of_not_mem h []
  rw [plain, ← List.append_nil message.toList, this]
  simp

/-- The line in which a fault is reported: only its message loses control sequences. -/
theorem line_error (message : String) :
    line ("Error: " ++ message) = "Error: " ++ plain message ++ "\n" := by
  have hfront : Text.escape ∉ "Error: ".toList := by decide
  rw [line_eq, plain, String.toList_append,
    Text.removeControlSequences_append_of_not_mem hfront, String.ofList_append,
    String.ofList_toList]
  rfl

end Command

end FinalNewline
