import FinalNewline.Proofs.Lines
import Mathlib.Computability.RegularExpressions
import Mathlib.Data.List.TakeWhile

/-!
# Control sequences as a regular language

The control sequences are given by a regular expression, and a text loses those that are found in
it from left to right.  Neither of the two says how they are found.  A search may have to choose
how many characters to take for parameters and intermediates, and to revise its choice.

Here there is nothing to choose.  The parameters end at the first character that is none, and so
do the intermediates, because no character is of two classes.  At each position at most one
control sequence starts, and skipping class by class finds it.

What is deleted leaves gaps that close, and a control sequence may come to stand where none was.
The search has then passed, so a text without its control sequences need not be one without
control sequences.

## Main Definitions

* `controlSequence` — the regular expression
* `Strips` — how a text loses the matches of a regular expression

## Main Results

* `afterControlSequence?_append`, `exists_of_afterControlSequence?` — skipping class by class finds
  the control sequences, and nothing else
* `controlSequence_unique` — at most one starts at each position
* `strips_iff` — the text left is determined, and it is the one that the scan leaves
* `Strips.exists_cuts`, `Strips.eq_self_iff` — what is deleted, and when nothing is
-/

namespace FinalNewline.Text

/-! ### The regular expression -/

/-- Any one of the characters from `first` to `last`. -/
def anyBetween (first last : Char) : RegularExpression Char :=
  ((List.range' first.toNat (last.toNat + 1 - first.toNat)).map fun code =>
    RegularExpression.char (Char.ofNat code)).sum

/-- Control sequences: an escape character and an opening bracket, any number of parameters, any
number of intermediates, and a final character. -/
def controlSequence : RegularExpression Char :=
  .char escape * .char '[' * .star (anyBetween '0' '?') * .star (anyBetween ' ' '/') *
    anyBetween '@' '~'

theorem mem_matches_sum {patterns : List (RegularExpression Char)} {text : List Char} :
    text ∈ patterns.sum.matches' ↔ ∃ pattern ∈ patterns, text ∈ pattern.matches' := by
  induction patterns with
  | nil => simp [RegularExpression.matches'_zero, Language.notMem_zero]
  | cons pattern patterns ih =>
    rw [List.sum_cons, RegularExpression.matches'_add, Language.mem_add, ih]
    simp

theorem mem_matches_anyBetween (first last : Char) (hlast : last.toNat < 0xd800)
    {text : List Char} :
    text ∈ (anyBetween first last).matches' ↔
      ∃ c, (first.toNat ≤ c.toNat ∧ c.toNat ≤ last.toNat) ∧ text = [c] := by
  rw [anyBetween, mem_matches_sum]
  constructor
  · rintro ⟨pattern, hpattern, htext⟩
    obtain ⟨code, hcode, rfl⟩ := List.mem_map.1 hpattern
    obtain ⟨hfirst, hle⟩ := List.mem_range'_1.1 hcode
    have hvalid : code.isValidChar := .inl (by omega)
    have htoNat : (Char.ofNat code).toNat = code := by rw [Char.ofNat, dif_pos hvalid]; rfl
    exact ⟨Char.ofNat code, by omega, htext⟩
  · rintro ⟨c, ⟨hfirst, hle⟩, rfl⟩
    refine ⟨.char c, List.mem_map.2 ⟨c.toNat, ?_, by rw [Char.ofNat_toNat]⟩, rfl⟩
    rw [List.mem_range'_1]
    omega

/-- A regular expression that matches the characters of a class, repeated. -/
theorem mem_matches_star {pattern : RegularExpression Char} {p : Char → Bool}
    (h : ∀ text, text ∈ pattern.matches' ↔ ∃ c, p c ∧ text = [c]) {text : List Char} :
    text ∈ pattern.star.matches' ↔ ∀ c ∈ text, p c := by
  rw [RegularExpression.matches'_star, Language.mem_kstar]
  constructor
  · rintro ⟨parts, rfl, hparts⟩ c hc
    obtain ⟨part, hpart, hcpart⟩ := List.mem_flatten.1 hc
    obtain ⟨d, hd, rfl⟩ := (h part).1 (hparts part hpart)
    rwa [List.mem_singleton.1 hcpart]
  · intro htext
    refine ⟨text.map fun c => [c], by rw [← List.flatMap_def, List.flatMap_singleton'], ?_⟩
    intro part hpart
    obtain ⟨c, hc, rfl⟩ := List.mem_map.1 hpart
    exact (h [c]).2 ⟨c, htext c hc, rfl⟩

theorem mem_parameters {text : List Char} :
    text ∈ (RegularExpression.star (anyBetween '0' '?')).matches' ↔ ∀ c ∈ text, isParameter c :=
  mem_matches_star fun text => by
    simp [mem_matches_anyBetween '0' '?' (by decide), isParameter]

theorem mem_intermediates {text : List Char} :
    text ∈ (RegularExpression.star (anyBetween ' ' '/')).matches' ↔
      ∀ c ∈ text, isIntermediate c :=
  mem_matches_star fun text => by
    simp [mem_matches_anyBetween ' ' '/' (by decide), isIntermediate]

theorem mem_final {text : List Char} :
    text ∈ (anyBetween '@' '~').matches' ↔ ∃ c, isFinal c ∧ text = [c] := by
  simp [mem_matches_anyBetween '@' '~' (by decide), isFinal]

/-- The parts of a control sequence. -/
theorem mem_controlSequence_iff {text : List Char} :
    text ∈ controlSequence.matches' ↔
      ∃ parameters intermediates final,
        text = escape :: '[' :: (parameters ++ (intermediates ++ [final])) ∧
        (∀ c ∈ parameters, isParameter c) ∧ (∀ c ∈ intermediates, isIntermediate c) ∧
        isFinal final := by
  simp only [controlSequence, RegularExpression.matches'_mul, Language.mem_mul, mem_parameters,
    mem_intermediates, mem_final, RegularExpression.matches'_char]
  constructor
  · rintro ⟨_, ⟨_, ⟨_, ⟨_, rfl, _, rfl, rfl⟩, parameters, hparameters, rfl⟩, intermediates,
      hintermediates, rfl⟩, _, ⟨final, hfinal, rfl⟩, rfl⟩
    exact ⟨parameters, intermediates, final, by simp, hparameters, hintermediates, hfinal⟩
  · rintro ⟨parameters, intermediates, final, rfl, hparameters, hintermediates, hfinal⟩
    exact ⟨_, ⟨_, ⟨_, ⟨_, rfl, _, rfl, rfl⟩, parameters, hparameters, rfl⟩, intermediates,
      hintermediates, rfl⟩, _, ⟨final, hfinal, rfl⟩, by simp⟩

theorem nil_notMem_controlSequence : [] ∉ controlSequence.matches' := by
  rw [mem_controlSequence_iff]
  rintro ⟨_, _, _, hnil, -⟩
  simp at hnil

/-! ### Skipping class by class -/

/-- Characters of a class are skipped up to the first that is none. -/
theorem dropWhile_append_of_head? {p : Char → Bool} {skipped rest : List Char}
    (hskipped : ∀ c ∈ skipped, p c) (hrest : ∀ c ∈ rest.head?, p c = false) :
    (skipped ++ rest).dropWhile p = rest := by
  rw [List.dropWhile_append_of_pos hskipped]
  cases rest with
  | nil => rfl
  | cons c rest => rw [List.dropWhile_cons_of_neg (by simp [hrest c rfl])]

/-- A character of one range is not of another that does not meet it. -/
theorem not_between_of_between {c : Char} {first last first' last' : Nat}
    (h : (first ≤ c.toNat && c.toNat ≤ last) = true) (hapart : last < first' ∨ last' < first) :
    (first' ≤ c.toNat && c.toNat ≤ last') = false := by
  simp only [Bool.and_eq_true, Bool.and_eq_false_iff, decide_eq_true_eq,
    decide_eq_false_iff_not] at h ⊢
  omega

theorem isParameter_of_isIntermediate {c : Char} (h : isIntermediate c) : isParameter c = false :=
  not_between_of_between h (by decide)

theorem isParameter_of_isFinal {c : Char} (h : isFinal c) : isParameter c = false :=
  not_between_of_between h (by decide)

theorem isIntermediate_of_isFinal {c : Char} (h : isFinal c) : isIntermediate c = false :=
  not_between_of_between h (by decide)

/-- Where the parameters and the intermediates are over, one character decides. -/
theorem afterControlSequence?_of_skipped {parameters intermediates rest : List Char}
    (hparameters : ∀ c ∈ parameters, isParameter c)
    (hintermediates : ∀ c ∈ intermediates, isIntermediate c)
    (hover : intermediates = [] → ∀ c ∈ rest.head?, isParameter c = false)
    (hrest : ∀ c ∈ rest.head?, isIntermediate c = false) :
    afterControlSequence? (escape :: '[' :: (parameters ++ (intermediates ++ rest))) =
      if rest.head?.any isFinal then some rest.tail else none := by
  have hbehind : ∀ c ∈ (intermediates ++ rest).head?, isParameter c = false := by
    cases intermediates with
    | nil => exact hover rfl
    | cons d intermediates =>
      simp [isParameter_of_isIntermediate (hintermediates d List.mem_cons_self)]
  rw [afterControlSequence?, if_pos rfl, dropWhile_append_of_head? hparameters hbehind,
    dropWhile_append_of_head? hintermediates hrest]
  cases rest with
  | nil => rfl
  | cons final rest => rfl

/-- Skipping class by class finds the control sequence at the front of a text. -/
theorem afterControlSequence?_append {found : List Char}
    (hfound : found ∈ controlSequence.matches') (rest : List Char) :
    afterControlSequence? (found ++ rest) = some rest := by
  obtain ⟨parameters, intermediates, final, rfl, hparameters, hintermediates, hfinal⟩ :=
    mem_controlSequence_iff.1 hfound
  have hover : ∀ c ∈ (final :: rest).head?, isParameter c = false := by
    simp [isParameter_of_isFinal hfinal]
  have hrest : ∀ c ∈ (final :: rest).head?, isIntermediate c = false := by
    simp [isIntermediate_of_isFinal hfinal]
  have hskipped :=
    afterControlSequence?_of_skipped hparameters hintermediates (fun _ => hover) hrest
  simpa [hfinal] using hskipped

/-- Whatever is found by skipping class by class is a control sequence. -/
theorem exists_of_afterControlSequence? {text rest : List Char}
    (h : afterControlSequence? text = some rest) :
    ∃ found ∈ controlSequence.matches', text = found ++ rest := by
  revert h
  fun_cases afterControlSequence? text with
  | case1 body final tail hskipped hfinal =>
    intro h
    obtain rfl : tail = rest := Option.some.inj h
    have hparameters := body.takeWhile_append_dropWhile (p := isParameter)
    have hintermediates :=
      (body.dropWhile isParameter).takeWhile_append_dropWhile (p := isIntermediate)
    rw [hskipped] at hintermediates
    refine ⟨_, mem_controlSequence_iff.2 ⟨body.takeWhile isParameter,
      (body.dropWhile isParameter).takeWhile isIntermediate, final, rfl,
      fun c => List.mem_takeWhile_imp, fun c => List.mem_takeWhile_imp, hfinal⟩, ?_⟩
    conv_lhs => rw [← hparameters, ← hintermediates]
    simp
  | _ => simp

theorem afterControlSequence?_eq_none_iff {text : List Char} :
    afterControlSequence? text = none ↔
      ∀ found ∈ controlSequence.matches', ¬ found <+: text := by
  rw [Option.eq_none_iff_forall_ne_some]
  constructor
  · rintro h found hfound ⟨rest, rfl⟩
    exact h rest (afterControlSequence?_append hfound rest)
  · intro h rest hrest
    obtain ⟨found, hfound, rfl⟩ := exists_of_afterControlSequence? hrest
    exact h found hfound (List.prefix_append found rest)

/-- At each position of a text at most one control sequence starts. -/
theorem controlSequence_unique {text found other : List Char}
    (hfound : found ∈ controlSequence.matches') (hother : other ∈ controlSequence.matches')
    (hfoundText : found <+: text) (hotherText : other <+: text) : found = other := by
  obtain ⟨rest, rfl⟩ := hfoundText
  obtain ⟨rest', hsame⟩ := hotherText
  have hrest := afterControlSequence?_append hfound rest
  rw [← hsame, afterControlSequence?_append hother] at hrest
  obtain rfl : rest' = rest := Option.some.inj hrest
  exact (List.append_cancel_right hsame).symm

/-! ### Deleting from left to right -/

/-- How a text loses the matches of a regular expression.  Where one of them starts, it is deleted
and the search goes on behind it; where none does, a character is kept and the search goes on
behind that. -/
inductive Strips (pattern : RegularExpression Char) : List Char → List Char → Prop where
  /-- The text is at its end. -/
  | done : Strips pattern [] []
  /-- A match is deleted. -/
  | delete {found rest left : List Char} (hfound : found ∈ pattern.matches')
      (hrest : Strips pattern rest left) : Strips pattern (found ++ rest) left
  /-- A character is kept, at which no match starts. -/
  | keep {c : Char} {rest left : List Char}
      (hnone : ∀ found ∈ pattern.matches', ¬ found <+: c :: rest)
      (hrest : Strips pattern rest left) : Strips pattern (c :: rest) (c :: left)

section Strips

variable {pattern : RegularExpression Char} {text left : List Char}

theorem Strips.length_le (h : Strips pattern text left) : left.length ≤ text.length := by
  induction h with
  | done => exact Nat.le_refl 0
  | @delete found rest left hfound hrest ih =>
    rw [List.length_append]
    exact Nat.le_add_left_of_le ih
  | keep hnone hrest ih => exact Nat.succ_le_succ ih

/-- What is deleted are segments of the text, each of them a match, and what is left is the rest of
the text in order. -/
theorem Strips.exists_cuts (h : Strips pattern text left) :
    ∃ (cuts : List (List Char × List Char)) (last : List Char),
      text = cuts.flatMap (fun cut => cut.1 ++ cut.2) ++ last ∧
      left = cuts.flatMap Prod.fst ++ last ∧ ∀ cut ∈ cuts, cut.2 ∈ pattern.matches' := by
  induction h with
  | done => exact ⟨[], [], rfl, rfl, by simp⟩
  | @delete found rest left hfound hrest ih =>
    obtain ⟨cuts, last, rfl, rfl, hcuts⟩ := ih
    exact ⟨([], found) :: cuts, last, by simp, by simp, List.forall_mem_cons.2 ⟨hfound, hcuts⟩⟩
  | @keep c rest left hnone hrest ih =>
    obtain ⟨cuts, last, rfl, rfl, hcuts⟩ := ih
    -- The character goes in front of the first cut, if there is one.
    cases cuts with
    | nil => exact ⟨[], c :: last, rfl, rfl, by simp⟩
    | cons cut cuts =>
      obtain ⟨hcut, hlater⟩ := List.forall_mem_cons.1 hcuts
      exact ⟨(c :: cut.1, cut.2) :: cuts, last, by simp, by simp,
        List.forall_mem_cons.2 ⟨hcut, hlater⟩⟩

/-- Nothing is deleted if and only if no match starts anywhere. -/
theorem Strips.eq_self_iff (h : Strips pattern text left) (hnil : [] ∉ pattern.matches') :
    left = text ↔ ∀ found ∈ pattern.matches', ¬ found <:+: text := by
  induction h with
  | done =>
    refine ⟨fun _ found hfound hinfix => hnil ?_, fun _ => rfl⟩
    rwa [← List.eq_nil_of_infix_nil hinfix]
  | @delete found rest left hfound hrest ih =>
    constructor
    · rintro rfl
      have hlength := hrest.length_le
      have hempty : found = [] := by
        rw [← List.length_eq_zero_iff]
        rw [List.length_append] at hlength
        omega
      exact absurd (hempty ▸ hfound) hnil
    · intro hnone
      exact absurd (List.prefix_append found rest).isInfix (hnone found hfound)
  | @keep c rest left hnone hrest ih =>
    rw [List.cons_inj_right, ih]
    constructor
    · intro hlater found hfound hinfix
      rcases List.infix_cons_iff.1 hinfix with hprefix | hinfix
      · exact hnone found hfound hprefix
      · exact hlater found hfound hinfix
    · intro hall found hfound hinfix
      exact hall found hfound (List.infix_cons hinfix)

end Strips

theorem strips_removeControlSequences (text : List Char) :
    Strips controlSequence text (removeControlSequences text) := by
  fun_induction removeControlSequences text with
  | case1 => exact .done
  | case2 c text rest hafter hlength ih =>
    obtain ⟨found, hfound, hsplit⟩ := exists_of_afterControlSequence? hafter
    rw [hsplit]
    exact .delete hfound ih
  | case3 c text hafter ih => exact .keep (afterControlSequence?_eq_none_iff.1 hafter) ih

/-- The text that is left is determined, whatever the order in which matches are tried, and the
scan finds it. -/
theorem strips_iff {text left : List Char} :
    Strips controlSequence text left ↔ left = removeControlSequences text := by
  constructor
  · intro h
    induction h with
    | done => rw [removeControlSequences_nil]
    | delete hfound hrest ih =>
      rw [removeControlSequences_of_some (afterControlSequence?_append hfound _), ih]
    | keep hnone hrest ih =>
      rw [removeControlSequences_of_none (afterControlSequence?_eq_none_iff.2 hnone), ih]
  · rintro rfl
    exact strips_removeControlSequences text

/-- A text stays as it is if and only if no control sequence stands in it. -/
theorem removeControlSequences_eq_self_iff {text : List Char} :
    removeControlSequences text = text ↔
      ∀ found ∈ controlSequence.matches', ¬ found <:+: text :=
  (strips_removeControlSequences text).eq_self_iff nil_notMem_controlSequence

end FinalNewline.Text
