import FinalNewline.Command.Report
import FinalNewline.Command.Usage
import FinalNewline.Printing

/-!
# Running the command

The command relays its standard input to its standard output and flushes it.  What
happens when that fails depends on the fault.

* A broken pipe, also one that was met while reading, is no news to anybody: standard
  output is closed, so that nothing tries to flush it later, and the run ends with exit
  code 1 and without a word.
* Any other fault of the system is reported in a line on the error stream, and the exit
  code is 1 as well.
* All other faults, and those met while closing or reporting, are contained by the rules
  of `FinalNewline.Command.Report`.

## Main Definitions

* `transfer` — the relay and the flush behind it
* `recover` — what follows a transfer that failed
* `showHelp` — the answer to a request for help
* `run` — the command as a whole
-/

namespace FinalNewline.Command

/-- All that a run of the command leaves behind: how it ended and what it said, the calls
it made on its streams, and the streams.  A run without end leaves nothing behind; its calls
and streams are those from which on it writes one value over and over. -/
structure Outcome where
  report : Report
  calls : List Call
  streams : Streams
  deriving DecidableEq

/-- Relays the source to the sink and, if that went well, flushes the sink. -/
def transfer (streams : Streams) : Run Streams :=
  (relay streams).thenFlush

/-- What follows a transfer that failed with `fault`, having made the calls `calls` and
left `streams`. -/
def recover (errors : ErrorStream) (fault : Fault) (calls : List Call) (streams : Streams) :
    Outcome :=
  if fault.isBrokenPipe then
    let closed := streams.close
    let report :=
      match closed.1 with
      | none => { ending := .exited 1 }
      | some fault =>
        if fault.isBrokenPipe then { ending := .exited 1 } else contain errors fault
    ⟨report, calls ++ [.close closed.1], closed.2⟩
  else if fault.isSystem then
    let said := errors.say ["Error: " ++ fault.message]
    let report :=
      match said.2 with
      | none => ⟨.exited 1, said.1⟩
      | some fault => contain errors fault
    ⟨report, calls, streams⟩
  else ⟨contain errors fault, calls, streams⟩

/-- The body of the command: a transfer, and what has to follow it. -/
def body (errors : ErrorStream) (streams : Streams) : Outcome :=
  let transferred := transfer streams
  match transferred.fault? with
  | none => ⟨{ ending := .exited 0 }, transferred.calls, transferred.state⟩
  | some fault => recover errors fault transferred.calls transferred.state

/-- Prints the help text on standard output; standard input is not read. -/
def printHelp (program : String) (streams : Streams) : Print :=
  streams.print Streams.bufferSize (line (helpText program))

/-- Answers a request for help.  A print without end makes a run without end. -/
def showHelp (errors : ErrorStream) (program : String) (streams : Streams) : Outcome :=
  let printed := printHelp program streams
  let report :=
    match printed.endless?, printed.fault? with
    | some value, _ => { ending := .endless value }
    | none, none => { ending := .exited 0 }
    | none, some fault => contain errors fault
  ⟨report, printed.calls, printed.state⟩

/-- Runs the command. -/
def run (invocation : Invocation) (arguments : List String) (errors : ErrorStream)
    (streams : Streams) : Outcome :=
  match Request.ofArguments arguments with
  | .relay => body errors streams
  | .help => showHelp errors invocation.programName streams
  | .refuse reason =>
    ⟨announce errors (reason.messages invocation.programName) 2, [], streams⟩

end FinalNewline.Command
