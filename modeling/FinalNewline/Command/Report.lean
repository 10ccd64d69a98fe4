import FinalNewline.Bytes
import FinalNewline.Fault
import FinalNewline.Text.ControlSequence

/-!
# Reports

A run of the command ends with an exit code, or with a fault that escapes from it, or it has
no end at all.  On the way it may have lines to say on the error stream, which may in turn
refuse them.

Two rules decide how a run ends once something has gone wrong.  `announce` has lines to
say and an exit code in mind; when the error stream refuses a line, only a fault that
aborts the program leaves the exit code as it is.  `contain` deals with a fault that
nobody handled: one that aborts the program is announced as such, one that carries the
code of a broken pipe ends the run in silence, and all others escape.

## Main Definitions

* `line` — a message as it is written
* `ErrorStream`, `ErrorStream.say` — where messages go
* `Ending`, `Report` — how a run ends, and what it said
* `announce`, `contain` — the two rules
-/

namespace FinalNewline.Command

/-- A message as it is written: as a line of its own, without control sequences. -/
def line (message : String) : String :=
  String.ofList (Text.removeControlSequences (message ++ "\n").toList)

/-- The stream for messages to the user: it takes all of them, or refuses every one with
the same fault. -/
inductive ErrorStream where
  | accepting
  | refusing (fault : Fault)
  deriving DecidableEq

/-- Says one message after the other, up to the first that is refused.  Gives the text
that arrived, and the fault with which a message was refused. -/
def ErrorStream.say : ErrorStream → List String → String × Option Fault
  | _, [] => ("", none)
  | accepting, message :: messages =>
    let rest := say accepting messages
    (line message ++ rest.1, rest.2)
  | refusing fault, _ :: _ => ("", some fault)

/-- How a run ends, if it does. -/
inductive Ending where
  /-- With an exit code. -/
  | exited (code : Nat)
  /-- With a fault that escapes. -/
  | escaped (fault : Fault)
  /-- Not at all: it goes on writing this value, and is interrupted each time. -/
  | endless (value : Bytes)
  deriving DecidableEq

/-- How a run ends, and the text it leaves on the error stream. -/
structure Report where
  ending : Ending
  text : String := ""
  deriving DecidableEq

/-- Says some messages and ends with an exit code. -/
def announce (errors : ErrorStream) (messages : List String) (code : Nat) : Report :=
  let said := errors.say messages
  match said.2 with
  | none => ⟨.exited code, said.1⟩
  | some fault => ⟨if fault.aborts then .exited code else .escaped fault, said.1⟩

/-- Ends a run with a fault that nobody handled. -/
def contain (errors : ErrorStream) (fault : Fault) : Report :=
  if fault.aborts then announce errors ["", "Aborted!"] 1
  else if fault.code? = some Fault.brokenPipeCode then { ending := .exited 1 }
  else { ending := .escaped fault }

@[simp]
theorem say_nil (errors : ErrorStream) : errors.say [] = ("", none) := by
  cases errors <;> rfl

@[simp]
theorem say_refusing_cons (fault : Fault) (message : String) (messages : List String) :
    (ErrorStream.refusing fault).say (message :: messages) = ("", some fault) := rfl

@[simp]
theorem say_accepting_snd (messages : List String) :
    (ErrorStream.accepting.say messages).2 = none := by
  induction messages with
  | nil => rfl
  | cons message messages ih => exact ih

end FinalNewline.Command
