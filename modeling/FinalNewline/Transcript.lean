import FinalNewline.Bytes
import FinalNewline.Fault

/-!
# Transcripts

A transcript records, in order, the calls that were made on a pair of streams and
how each of them went.  Reads and writes stand in one list, so a transcript also
shows how far the writes lagged behind the reads at every moment.

## Main Definitions

* `Received` — what a read brought back
* `Call` — one call and how it went
* `Call.fault?` — the fault a call raised
-/

namespace FinalNewline

/-- What a read brought back: a byte string, or nothing at all.  A source that has no
bytes to give may answer either with an empty byte string or with nothing. -/
inductive Received where
  | bytes (value : Bytes)
  | nothing
  deriving DecidableEq

/-- The bytes that were brought back; none, when nothing was. -/
def Received.value : Received → Bytes
  | bytes value => value
  | nothing => []

/-- One call on a pair of streams, and how it went.  A write is recorded with the
bytes that it was asked to write, whether or not they were all accepted. -/
inductive Call where
  | read (received : Received)
  | readFault (fault : Fault)
  | write (value : Bytes) (fault? : Option Fault)
  | flush (fault? : Option Fault)
  | close (fault? : Option Fault)
  deriving DecidableEq

/-- The fault that a call raised, if it raised one. -/
def Call.fault? : Call → Option Fault
  | read _ => none
  | readFault fault => some fault
  | write _ fault? => fault?
  | flush fault? => fault?
  | close fault? => fault?

end FinalNewline
