import FinalNewline.Text.Similarity

/-!
# Command-line arguments

The command takes no operands and knows one option, `--help`.  Arguments are looked at
from left to right.  One that begins with a dash and has more characters than that is an
option; the argument `--` ends the options, and all behind it are operands.  The first
option that is not exactly `--help` is refused at once, whatever follows.  Help comes
before operands: the command refuses operands only when no help was asked for.

## Main Definitions

* `UsageError` — the reasons to refuse arguments
* `Argument.ofString` — what a single argument is
* `Request.ofArguments` — what a list of arguments asks for
-/

namespace FinalNewline.Command

/-- The option that asks for help. -/
def helpOption : String := "--help"

/-- The reasons to refuse arguments. -/
inductive UsageError where
  /-- The help option was given a value. -/
  | valueForHelp
  /-- There is no option of this name; it may be similar to the one there is. -/
  | unknownOption (name : String) (suggestsHelp : Bool)
  /-- There are operands, which the command does not take. -/
  | extraOperands (operands : List String)
  deriving DecidableEq

/-- What a single argument is, as long as options have not ended. -/
inductive Argument where
  | help
  | operand
  | offending (reason : UsageError)
  deriving DecidableEq

namespace Argument

/-- The name of an option: what stands before the first equals sign. -/
def optionName (argument : List Char) : List Char :=
  argument.takeWhile (· != '=')

/-- What a single argument is.  An unknown option that begins with two dashes is
refused under its full name, which may be similar to that of the help option; one that
begins with a single dash is refused under the one letter behind the dash. -/
def ofChars : List Char → Argument
  | '-' :: letter :: rest =>
    let argument := '-' :: letter :: rest
    let name := optionName argument
    if name = helpOption.toList then
      if name = argument then .help else .offending .valueForHelp
    else if letter = '-' then
      .offending (.unknownOption (String.ofList name)
        (Text.isSimilar helpOption (String.ofList name)))
    else .offending (.unknownOption (String.ofList ['-', letter]) false)
  | _ => .operand

/-- What a single argument is. -/
def ofString (argument : String) : Argument :=
  ofChars argument.toList

end Argument

/-- The argument that ends the options. -/
def optionsEnd : String := "--"

/-- The arguments sorted out: whether help was asked for, and the operands. -/
structure Arguments where
  help : Bool
  operands : List String
  deriving DecidableEq

/-- Sorts out arguments from left to right, up to the first that offends. -/
def Arguments.scan : List String → Except UsageError Arguments
  | [] => .ok ⟨false, []⟩
  | argument :: rest =>
    if argument = optionsEnd then .ok ⟨false, rest⟩
    else
      match Argument.ofString argument with
      | .offending reason => .error reason
      | .help => (scan rest).map fun scanned => { scanned with help := true }
      | .operand =>
        (scan rest).map fun scanned => { scanned with operands := argument :: scanned.operands }

/-- What the arguments ask the command to do. -/
inductive Request where
  | relay
  | help
  | refuse (reason : UsageError)
  deriving DecidableEq

/-- What a list of arguments asks for. -/
def Request.ofArguments (arguments : List String) : Request :=
  match Arguments.scan arguments with
  | .error reason => .refuse reason
  | .ok ⟨true, _⟩ => .help
  | .ok ⟨false, []⟩ => .relay
  | .ok ⟨false, operand :: operands⟩ => .refuse (.extraOperands (operand :: operands))

end FinalNewline.Command
