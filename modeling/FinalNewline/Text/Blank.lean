/-!
# Blank characters

The blank characters are the 25 that have the Unicode property of white space, and the
four information separators that stand just before the space.  The name of a program is
shown without the blanks at its front.
-/

namespace FinalNewline.Text

/-- The runs of blank characters, by their first and last code points, in ascending
order. -/
def blankRuns : List (Nat × Nat) :=
  [(0x09, 0x0d), (0x1c, 0x20), (0x85, 0x85), (0xa0, 0xa0), (0x1680, 0x1680), (0x2000, 0x200a),
    (0x2028, 0x2029), (0x202f, 0x202f), (0x205f, 0x205f), (0x3000, 0x3000)]

/-- Is this character blank? -/
def isBlank (c : Char) : Bool :=
  blankRuns.any fun run => run.1 ≤ c.toNat && c.toNat ≤ run.2

/-- A text without the blanks at its front. -/
def trimFront (text : List Char) : List Char :=
  text.dropWhile isBlank

end FinalNewline.Text
