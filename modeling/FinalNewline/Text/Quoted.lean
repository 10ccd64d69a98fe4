import FinalNewline.Text.Printable

/-!
# Quoted texts

Messages that mention a file or an option show it between quotes, so that blanks,
line breaks and invisible characters in it can be told apart.  The single quote is
the mark of choice.  A text that holds single quotes and no double quote is put
between double quotes instead, so that nothing in it needs escaping for the sake
of the mark.
-/

namespace FinalNewline.Text

/-- The single quote. -/
def singleQuote : Char := '\x27'

/-- The double quote. -/
def doubleQuote : Char := '\x22'

/-- The escape mark. -/
def backslash : Char := '\x5c'

/-- The last `width` hexadecimal digits of `n`, in lower case. -/
def hexDigits : Nat → Nat → List Char
  | 0, _ => []
  | width + 1, n => hexDigits width (n / 16) ++ [Nat.digitChar (n % 16)]

namespace Quoted

/-- The quotation mark for a text: single, unless that would need an escape and the
double one would not. -/
def mark (text : List Char) : Char :=
  if text.contains singleQuote && !text.contains doubleQuote then doubleQuote
  else singleQuote

/-- One character between quotation marks `mark`.  The mark and the escape mark are
escaped by themselves, the three common blanks by a letter, and every other
unprintable character by its code point, in the shortest of the widths two, four
and eight that holds it. -/
def encodeChar (mark c : Char) : List Char :=
  if c = mark ∨ c = backslash then [backslash, c]
  else if c = '\n' then [backslash, 'n']
  else if c = '\r' then [backslash, 'r']
  else if c = '\t' then [backslash, 't']
  else if isPrintable c then [c]
  else if c.toNat ≤ 0xff then backslash :: 'x' :: hexDigits 2 c.toNat
  else if c.toNat ≤ 0xffff then backslash :: 'u' :: hexDigits 4 c.toNat
  else backslash :: 'U' :: hexDigits 8 c.toNat

end Quoted

/-- A text between quotation marks. -/
def quoted (text : String) : String :=
  let mark := Quoted.mark text.toList
  String.ofList (mark :: text.toList.flatMap (Quoted.encodeChar mark) ++ [mark])

end FinalNewline.Text
