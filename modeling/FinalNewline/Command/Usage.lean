import FinalNewline.Command.Arguments
import FinalNewline.Text.Blank
import FinalNewline.Text.ControlSequence
import FinalNewline.Text.Quoted

/-!
# Usage texts

The texts with which the command answers a request for help or a refused command line.
All of them mention the program by the name under which it was started.
-/

namespace FinalNewline.Command

/-- How the program was started: as a script at a path, or by the name of its module. -/
inductive Invocation where
  | script (path : String)
  | byModule
  deriving DecidableEq

/-- The last component of a path: what stands behind its last slash. -/
def lastComponent (path : List Char) : List Char :=
  (path.reverse.takeWhile (· != '/')).reverse

/-- The name of the program in its messages: the last component of its path, without
blanks at its front, or the command that starts it by its module. -/
def Invocation.programName : Invocation → String
  | script path => String.ofList (Text.trimFront (lastComponent path.toList))
  | byModule => "python -m postnl.cli.main"

/-- How many columns a text takes: its control sequences take none. -/
def columns (text : String) : Nat :=
  (Text.removeControlSequences text.toList).length

/-- The columns that the usage has at its disposal. -/
def lineColumns : Nat := 78

/-- The columns that have to be left for the options when they are to stand on the same
line as the name of the program. -/
def optionColumns : Nat := 20

/-- How to call the program.  A name that does not leave enough columns for the options has
a line to itself, and the options stand on the next one. -/
def usageLine (program : String) : String :=
  let start := "Usage: " ++ program ++ " "
  if columns start + optionColumns ≤ lineColumns then start ++ "[OPTIONS]"
  else start ++ "\n" ++ "           [OPTIONS]"

/-- The help text, without its last line break. -/
def helpText (program : String) : String :=
  usageLine program ++ "\n" ++
  "\n" ++
  "  Copy stdin to stdout, ending non-empty output with a newline.\n" ++
  "\n" ++
  "  Bytes pass through unchanged. A single trailing newline is appended only\n" ++
  "  when the input is non-empty and does not already end with one.\n" ++
  "\n" ++
  "  Exits 1 if reading or writing fails, including when the downstream reader\n" ++
  "  closes the pipe early (e.g. `postnl | head -c1`). A closed pipe is not\n" ++
  "  reported on stderr.\n" ++
  "\n" ++
  "  Examples:     printf 'abc' | postnl        # abc\\n     printf 'abc\\n' |\n" ++
  "  postnl      # abc\\n (unchanged)     postnl < /dev/null           # no output\n" ++
  "\n" ++
  "Options:\n" ++
  "  --help  Show this message and exit."

namespace UsageError

/-- What is wrong with the command line. -/
def message : UsageError → String
  | valueForHelp => "Option '" ++ helpOption ++ "' does not take a value."
  | unknownOption name false => "No such option " ++ Text.quoted name ++ "."
  | unknownOption name true =>
    "No such option " ++ Text.quoted name ++ ". Did you mean '" ++ helpOption ++ "'?"
  | extraOperands operands =>
    (if 1 < operands.length then "Got unexpected extra arguments ("
      else "Got unexpected extra argument (")
      ++ " ".intercalate operands ++ ")"

/-- What is refused, as it is shown: the option between quotation marks, or the operands in
order. -/
def refused : UsageError → List String
  | valueForHelp => [Text.quoted helpOption]
  | unknownOption name _ => [Text.quoted name]
  | extraOperands operands => operands

/-- A message shows what is refused, with single blanks in between.  The words around it have
no escape character. -/
theorem exists_message_eq (reason : UsageError) :
    ∃ front back, reason.message = front ++ " ".intercalate reason.refused ++ back ∧
      Text.escape ∉ front.toList ∧ Text.escape ∉ back.toList := by
  cases reason with
  | valueForHelp =>
    exact ⟨"Option ", " does not take a value.", by decide +kernel, by decide, by decide⟩
  | unknownOption name suggestsHelp =>
    have hone : " ".intercalate [Text.quoted name] = Text.quoted name :=
      String.intercalate_singleton
    cases suggestsHelp with
    | false =>
      exact ⟨"No such option ", ".", congrArg ("No such option " ++ · ++ ".") hone.symm,
        by decide, by decide⟩
    | true =>
      refine ⟨"No such option ", ". Did you mean '" ++ helpOption ++ "'?", ?_, by decide,
        by decide⟩
      show "No such option " ++ Text.quoted name ++ ". Did you mean '" ++ helpOption ++ "'?" =
        _ ++ " ".intercalate [Text.quoted name] ++ _
      rw [hone]
      simp only [String.append_assoc]
  | extraOperands operands =>
    refine ⟨_, ")", rfl, ?_, by decide⟩
    split
    · decide
    · decide

/-- Do the messages begin with a reminder of the usage? -/
def remindsOfUsage : UsageError → Bool
  | valueForHelp => false
  | _ => true

/-- The messages that refuse a command line, in order. -/
def messages (program : String) (reason : UsageError) : List String :=
  let error := "Error: " ++ reason.message
  if reason.remindsOfUsage then
    [usageLine program ++ "\nTry '" ++ program ++ " " ++ helpOption ++ "' for help.\n", error]
  else [error]

/-- The last message says what is wrong. -/
theorem exists_messages_eq (program : String) (reason : UsageError) :
    ∃ before, reason.messages program = before ++ ["Error: " ++ reason.message] := by
  unfold messages
  split
  · exact ⟨[_], rfl⟩
  · exact ⟨[], rfl⟩

end UsageError

end FinalNewline.Command
