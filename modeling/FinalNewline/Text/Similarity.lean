/-!
# Similar names

How alike two names are is measured by the characters that one can match up in both
without crossing: the longest block that both hold is matched first, and then, in the
same way, what stands before it in both and what stands behind it in both.

Of several longest blocks the one that starts earliest in the first name counts, and
of those the one that starts earliest in the second.  The choice matters, because it
decides what is left on the two sides, so the measure is not symmetric.

## Main Definitions

* `commonBlock` — the longest block two lists share, with its places in both
* `matched` — how many characters are matched up
* `isSimilar` — whether at least three fifths of both names are matched
-/

namespace FinalNewline.Text

variable {α : Type} [DecidableEq α]

/-- How long two lists agree from their fronts on. -/
def agreement : List α → List α → Nat
  | a :: as, b :: bs => if a = b then agreement as bs + 1 else 0
  | _, _ => 0

/-- A block of two lists: its start in each of them, and its length. -/
structure Block where
  left : Nat
  right : Nat
  size : Nat
  deriving DecidableEq

/-- The longer of two blocks, and the first of two equally long ones. -/
def Block.longer (p q : Block) : Block :=
  if p.size < q.size then q else p

/-- The longest block with which `as`, whose front has the place `left`, agrees from
its front on, somewhere in `bs`, whose front has the place `right`. -/
def Block.atFront (as : List α) (left : Nat) : List α → Nat → Block
  | [], right => ⟨left, right, 0⟩
  | b :: bs, right =>
    Block.longer ⟨left, right, agreement as (b :: bs)⟩ (Block.atFront as left bs (right + 1))

/-- The longest block that `as`, whose front has the place `left`, shares with `bs`. -/
def Block.longest (bs : List α) : List α → Nat → Block
  | [], left => ⟨left, 0, 0⟩
  | a :: as, left =>
    Block.longer (Block.atFront (a :: as) left bs 0) (Block.longest bs as (left + 1))

/-- The longest block that two lists share: the earliest in `as`, then in `bs`. -/
def commonBlock (as bs : List α) : Block :=
  Block.longest bs as 0

theorem agreement_le_length (as bs : List α) : agreement as bs ≤ as.length := by
  fun_induction agreement as bs with
  | case1 => simp_all
  | case2 => simp
  | case3 => simp

theorem Block.longer_eq_or (p q : Block) : p.longer q = p ∨ p.longer q = q := by
  unfold longer
  split
  · exact .inr rfl
  · exact .inl rfl

theorem Block.atFront_fits (as : List α) (left : Nat) (bs : List α) (right : Nat) :
    (atFront as left bs right).left = left ∧
      (atFront as left bs right).size ≤ as.length := by
  induction bs generalizing right with
  | nil => simp [atFront]
  | cons b bs ih =>
    rw [atFront]
    rcases longer_eq_or ⟨left, right, agreement as (b :: bs)⟩ (atFront as left bs (right + 1))
      with h | h <;> rw [h]
    · exact ⟨rfl, agreement_le_length _ _⟩
    · exact ih (right + 1)

theorem Block.longest_fits (bs as : List α) (left : Nat) :
    (longest bs as left).left + (longest bs as left).size ≤ left + as.length := by
  induction as generalizing left with
  | nil => simp [longest]
  | cons a as ih =>
    have front := atFront_fits (a :: as) left bs 0
    have behind := ih (left + 1)
    rw [longest]
    rcases longer_eq_or (atFront (a :: as) left bs 0) (longest bs as (left + 1))
      with h | h <;> rw [h]
    · omega
    · simp only [List.length_cons]
      omega

/-- A common block lies within the first list. -/
theorem commonBlock_fits (as bs : List α) :
    (commonBlock as bs).left + (commonBlock as bs).size ≤ as.length := by
  simpa [commonBlock] using Block.longest_fits bs as 0

/-- How many elements two lists match up: those of their longest common block, and
those matched up before it and behind it. -/
def matched (as bs : List α) : Nat :=
  if (commonBlock as bs).size = 0 then 0
  else
    let block := commonBlock as bs
    matched (as.take block.left) (bs.take block.right) + block.size
      + matched (as.drop (block.left + block.size)) (bs.drop (block.right + block.size))
termination_by as.length
decreasing_by
  · have := commonBlock_fits as bs
    simp only [List.length_take]
    omega
  · have := commonBlock_fits as bs
    simp only [List.length_drop]
    omega

/-- Are two names similar?  They are when the matched characters, counted in both,
are at least three fifths of all their characters. -/
def isSimilar (known given : String) : Bool :=
  let as := known.toList
  let bs := given.toList
  3 * (as.length + bs.length) ≤ 5 * (2 * matched as bs)

end FinalNewline.Text
