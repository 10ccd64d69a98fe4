import FinalNewline.Command.Run

/-!
# The program

The command on the standard streams of a process.  Standard input is gathered first, the
command is run on what arrived, and then its output and its messages are delivered.  When
a delivery fails, the command is run again with streams that fail in the same way, so that
its own rules decide how the process ends.
-/

namespace FinalNewline

/-- The fault that an error of the process stands for. -/
def Fault.ofError : IO.Error → Fault
  | .userError message => .system .general (.text message)
  | .unexpectedEof => .other .endOfInput ""
  | .interrupted _ code details | .noFileOrDirectory _ code details
  | .alreadyExists _ code details | .invalidArgument _ code details
  | .permissionDenied _ code details | .resourceExhausted _ code details
  | .inappropriateType _ code details | .noSuchThing _ code details
  | .otherError code details | .resourceBusy code details
  | .resourceVanished code details | .unsupportedOperation code details
  | .hardwareFault code details | .unsatisfiedConstraints code details
  | .illegalOperation code details | .protocolError code details
  | .timeExpired code details => .numbered .general code.toNat details none

/-- All that standard input has to give, up to its end or its first fault. -/
partial def gather (input : IO.FS.Stream) (events : Array Event) : IO Source := do
  match ← (input.read 65536).toBaseIO with
  | .error e => return (events.push (.fault (.ofError e))).toList
  | .ok block =>
    if block.isEmpty then return events.toList
    else gather input (events.push (.data block.toList))

/-- Delivers bytes to a stream and flushes it; gives the fault if that failed. -/
def deliver (output : IO.FS.Stream) (bytes : Bytes) : IO (Option Fault) := do
  let attempt : IO Unit := do
    unless bytes.isEmpty do output.write ⟨bytes.toArray⟩
    output.flush
  match ← attempt.toBaseIO with
  | .ok () => return none
  | .error e => return some (.ofError e)

/-- The plan of a sink on which every write and flush fails. -/
def Plan.failing (fault : Fault) : Plan :=
  { limit? := some 0, limitFault := fault, flushFault? := some fault }

/-- Runs the command on the standard streams and gives the exit code.  A run without end is
made again, since a delivery that was interrupted may go well the next time. -/
partial def runProcess (path : String) (arguments : List String) : IO UInt32 := do
  let run (errors : Command.ErrorStream) (streams : Streams) : Command.Outcome :=
    Command.run (.script path) arguments errors streams
  let source ←
    if Command.Request.ofArguments arguments = .relay then gather (← IO.getStdin) #[]
    else pure []
  let planned := run .accepting { source }
  let streams : Streams ←
    match ← deliver (← IO.getStdout) planned.streams.sink.bytes with
    | none => pure { source }
    | some fault => pure { source, sink := { plan := .failing fault } }
  let outcome := run .accepting streams
  let outcome ←
    match ← deliver (← IO.getStderr) (encodeText outcome.report.text) with
    | none => pure outcome
    | some fault => pure (run (.refusing fault) streams)
  match outcome.report.ending with
  | .exited code => return code.toUInt32
  | .escaped fault =>
    let _ ← deliver (← IO.getStderr) (encodeText (Command.line fault.message))
    return 1
  | .endless _ => runProcess path arguments

end FinalNewline

/-- The program, which goes by the name of its command. -/
def main (arguments : List String) : IO UInt32 :=
  FinalNewline.runProcess "postnl" arguments
