import FinalNewline.Proofs.ControlSequences

/-!
# A scan that looks at each character once

A text can lose its control sequences while it arrives character by character.  The scan holds back
what may become a control sequence and knows how far that has come.  When the sequence is closed,
what was held back is dropped.  When it turns out to be none, or the text ends in the middle of it,
what was held back is let go as it is: apart from its first character it has no escape character,
so nothing in it can start a control sequence, and the scan need not go back to it.

## Main Definitions

* `Stage` — how far a control sequence has come
* `scan` — the scan

## Main Results

* `scan_eq` — what the scan lets through is the text without its control sequences
-/

namespace FinalNewline.Text

/-- How far a control sequence has come that may be under way. -/
inductive Stage where
  /-- None is under way. -/
  | outside
  /-- Behind the escape character. -/
  | escaped
  /-- Behind the opening bracket, and behind parameters if there were any. -/
  | parameters
  /-- Behind an intermediate. -/
  | intermediates
  deriving DecidableEq

namespace Stage

/-- The stage to which a character takes a control sequence, unless the character closes the
sequence or does not belong to it. -/
def next? : Stage → Char → Option Stage
  | outside, c => if c = escape then some escaped else none
  | escaped, c => if c = '[' then some parameters else none
  | parameters, c =>
    if isParameter c then some parameters
    else if isIntermediate c then some intermediates
    else none
  | intermediates, c => if isIntermediate c then some intermediates else none

/-- Does a character close the control sequence? -/
def closes : Stage → Char → Bool
  | outside, _ => false
  | escaped, _ => false
  | parameters, c => isFinal c
  | intermediates, c => isFinal c

theorem next?_parameters {c : Char} :
    parameters.next? c = none ↔ isParameter c = false ∧ isIntermediate c = false := by
  unfold next?
  by_cases hparameter : isParameter c <;> by_cases hintermediate : isIntermediate c <;>
    simp [hparameter, hintermediate]

/-- A text breaks off the control sequence: it is at its end, or its first character neither
continues nor closes the sequence. -/
def Broken (stage : Stage) (rest : List Char) : Prop :=
  ∀ c ∈ rest.head?, stage.next? c = none ∧ stage.closes c = false

theorem Broken.any_closes {stage : Stage} {rest : List Char} (h : stage.Broken rest) :
    rest.head?.any stage.closes = false := by
  rw [Option.any_eq_false]
  exact fun c hc => by simpa using (h c hc).2

/-- What is held back in a stage. -/
inductive Holds : Stage → List Char → Prop where
  | outside : Holds outside []
  | escaped : Holds escaped [escape]
  | parameters {passed : List Char} (hpassed : ∀ c ∈ passed, isParameter c) :
      Holds parameters (escape :: '[' :: passed)
  | intermediates {passed between : List Char} (hpassed : ∀ c ∈ passed, isParameter c)
      (hbetween : ∀ c ∈ between, isIntermediate c) (hsome : between ≠ []) :
      Holds intermediates (escape :: '[' :: (passed ++ between))

end Stage

/-- Looks at the characters of a text one by one.  The text `held` is what has been held back, in
which a control sequence is at the given stage. -/
def scan (stage : Stage) (held : List Char) : List Char → List Char
  | [] => held
  | c :: text =>
    match stage.next? c with
    | some later => scan later (held ++ [c]) text
    | none =>
      if stage.closes c then scan .outside [] text
      else if c = escape then held ++ scan .escaped [escape] text
      else held ++ c :: scan .outside [] text

/-- No escape character stands among characters of a class that it is not of. -/
theorem escape_notMem {text : List Char} {p : Char → Bool} (hall : ∀ c ∈ text, p c)
    (hescape : p escape = false) : escape ∉ text :=
  fun hmem => by simpa [hescape] using hall escape hmem

namespace Stage.Holds

variable {stage later : Stage} {held rest : List Char} {c : Char}

/-- A sequence that goes on is held back. -/
theorem next (h : stage.Holds held) (hnext : stage.next? c = some later) :
    later.Holds (held ++ [c]) := by
  cases h with
  | outside =>
    obtain ⟨rfl, rfl⟩ : c = escape ∧ Stage.escaped = later := by simpa [next?] using hnext
    exact .escaped
  | escaped =>
    obtain ⟨rfl, rfl⟩ : c = '[' ∧ Stage.parameters = later := by simpa [next?] using hnext
    exact .parameters (List.forall_mem_nil _)
  | @parameters passed hpassed =>
    by_cases hparameter : isParameter c
    · obtain rfl : Stage.parameters = later := by simpa [next?, hparameter] using hnext
      exact .parameters (List.forall_mem_append.2 ⟨hpassed, by simpa using hparameter⟩)
    · obtain ⟨hc, rfl⟩ : isIntermediate c ∧ Stage.intermediates = later := by
        simpa [next?, hparameter] using hnext
      exact .intermediates hpassed (by simpa using hc) (List.cons_ne_nil c [])
  | @intermediates passed between hpassed hbetween hsome =>
    obtain ⟨hc, rfl⟩ : isIntermediate c ∧ Stage.intermediates = later := by
      simpa [next?] using hnext
    have hlonger : ∀ d ∈ between ++ [c], isIntermediate d :=
      List.forall_mem_append.2 ⟨hbetween, by simpa using hc⟩
    simpa using Holds.intermediates hpassed hlonger (by simp)

/-- What is held back together with a character that closes it is a control sequence. -/
theorem mem_of_closes (h : stage.Holds held) (hcloses : stage.closes c) :
    held ++ [c] ∈ controlSequence.matches' := by
  rw [mem_controlSequence_iff]
  cases h with
  | outside => simp [closes] at hcloses
  | escaped => simp [closes] at hcloses
  | @parameters passed hpassed => exact ⟨passed, [], c, rfl, hpassed, by simp, hcloses⟩
  | @intermediates passed between hpassed hbetween hsome =>
    exact ⟨passed, between, c, by simp, hpassed, hbetween, hcloses⟩

/-- What is held back is no control sequence, and becomes none if the sequence is broken off. -/
theorem afterControlSequence?_eq_none (h : stage.Holds held) (hstage : stage ≠ .outside)
    (hbroken : stage.Broken rest) : afterControlSequence? (held ++ rest) = none := by
  cases h with
  | outside => exact absurd rfl hstage
  | escaped =>
    cases rest with
    | nil => rfl
    | cons c rest =>
      have hc : c ≠ '[' := by simpa [next?] using (hbroken c rfl).1
      simp [afterControlSequence?, hc]
  | @parameters passed hpassed =>
    have hover : ∀ c ∈ rest.head?, isParameter c = false ∧ isIntermediate c = false := by
      intro c hc
      simpa [next?_parameters] using (hbroken c hc).1
    have hfinal : rest.head?.any isFinal = false := hbroken.any_closes
    have hskipped := afterControlSequence?_of_skipped hpassed (List.forall_mem_nil _)
      (fun _ c hc => (hover c hc).1) (fun c hc => (hover c hc).2)
    rwa [hfinal] at hskipped
  | @intermediates passed between hpassed hbetween hsome =>
    have hbehind : ∀ c ∈ rest.head?, isIntermediate c = false := by
      intro c hc
      simpa [next?] using (hbroken c hc).1
    have hfinal : rest.head?.any isFinal = false := hbroken.any_closes
    have hskipped := afterControlSequence?_of_skipped hpassed hbetween
      (fun hnone => absurd hnone hsome) hbehind
    rw [hfinal] at hskipped
    simpa using hskipped

/-- Only the first character that is held back is an escape character. -/
theorem exists_eq_cons (h : stage.Holds held) (hstage : stage ≠ .outside) :
    ∃ tail, held = escape :: tail ∧ escape ∉ tail := by
  have hbracket : escape ≠ '[' := by decide
  cases h with
  | outside => exact absurd rfl hstage
  | escaped => exact ⟨[], rfl, List.not_mem_nil⟩
  | @parameters passed hpassed =>
    refine ⟨_, rfl, ?_⟩
    rw [List.mem_cons, not_or]
    exact ⟨hbracket, escape_notMem hpassed (by decide)⟩
  | @intermediates passed between hpassed hbetween hsome =>
    refine ⟨_, rfl, ?_⟩
    rw [List.mem_cons, List.mem_append, not_or, not_or]
    exact ⟨hbracket, escape_notMem hpassed (by decide), escape_notMem hbetween (by decide)⟩

/-- What is held back is let go as it is, if the sequence is broken off. -/
theorem removeControlSequences_append (h : stage.Holds held) (hbroken : stage.Broken rest) :
    removeControlSequences (held ++ rest) = held ++ removeControlSequences rest := by
  by_cases hstage : stage = .outside
  · subst hstage
    cases h
    rfl
  · have hnone := h.afterControlSequence?_eq_none hstage hbroken
    obtain ⟨tail, rfl, htail⟩ := h.exists_eq_cons hstage
    rw [List.cons_append] at hnone ⊢
    rw [removeControlSequences_of_none hnone, removeControlSequences_append_of_not_mem htail]
    rfl

/-- The scan lets through what is left of the text held back and the text that is to come. -/
theorem scan_eq_append (h : stage.Holds held) (text : List Char) :
    scan stage held text = removeControlSequences (held ++ text) := by
  fun_induction scan stage held text with
  | case1 stage held =>
    have hbroken : stage.Broken [] := by simp [Broken]
    rw [h.removeControlSequences_append hbroken, removeControlSequences_nil, List.append_nil]
  | case2 stage held c text later hnext ih =>
    rw [ih (h.next hnext), ← List.append_cons]
  | case3 stage held c text hnext hcloses ih =>
    have hclosed := afterControlSequence?_append (h.mem_of_closes hcloses) text
    rw [ih .outside, List.append_cons, removeControlSequences_of_some hclosed]
    rfl
  | case4 stage held text hnext hcloses ih =>
    have hbroken : stage.Broken (escape :: text) := by simp [Broken, hnext, hcloses]
    rw [h.removeControlSequences_append hbroken, ih .escaped]
    rfl
  | case5 stage held c text hnext hcloses hc ih =>
    have hbroken : stage.Broken (c :: text) := by simp [Broken, hnext, hcloses]
    rw [h.removeControlSequences_append hbroken,
      removeControlSequences_of_none (afterControlSequence?_of_ne_escape hc text), ih .outside]
    rfl

end Stage.Holds

/-- **A scan that looks at each character once** lets through what is left of a text without its
control sequences. -/
theorem scan_eq (text : List Char) : scan .outside [] text = removeControlSequences text :=
  Stage.Holds.outside.scan_eq_append text

end FinalNewline.Text
