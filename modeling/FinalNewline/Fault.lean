import FinalNewline.Text.Quoted

/-!
# Faults

Everything that can go wrong while bytes are moved is a `Fault`.  A fault of the
system carries what the system reported, usually an error number and its reason and
sometimes the file concerned; any other fault carries a message only.

Two views of a system fault matter, and they are independent.  Its *kind* says what
class of failure was signalled, and the kind `brokenPipe` alone means that the reader
downstream has gone away.  Its *code* is the number that came with it, if any did.
A fault of kind `brokenPipe` need not have a code, and a fault of another kind may
carry the code of a broken pipe.

## Main Definitions

* `Fault`, `SystemKind`, `OtherKind`, `Detail` — faults and what they are made of
* `Fault.numbered` — a fault from the number the system gave
* `Fault.message` — the text shown for a fault
* `Fault.isSystem`, `Fault.isBrokenPipe`, `Fault.aborts`, `Fault.code?` — the views
  on which the command line bases its decisions
-/

namespace FinalNewline

/-- The classes of failure that the system can signal. -/
inductive SystemKind where
  | general
  | permission
  | missingFile
  | missingProcess
  | interrupted
  | missingChild
  | wouldBlock
  | existingFile
  | notDirectory
  | isDirectory
  | brokenPipe
  | connection
  | connectionAborted
  | connectionReset
  | connectionRefused
  | timeout
  | unsupported
  deriving DecidableEq

/-- The class of failure that an error number stands for; most stand for none in
particular. -/
def SystemKind.ofCode (code : Int) : SystemKind :=
  if code = 1 ∨ code = 13 then permission
  else if code = 2 then missingFile
  else if code = 3 then missingProcess
  else if code = 4 then interrupted
  else if code = 10 then missingChild
  else if code = 11 ∨ code = 114 ∨ code = 115 then wouldBlock
  else if code = 17 then existingFile
  else if code = 20 then notDirectory
  else if code = 21 then isDirectory
  else if code = 32 ∨ code = 108 then brokenPipe
  else if code = 103 then connectionAborted
  else if code = 104 then connectionReset
  else if code = 110 then timeout
  else if code = 111 then connectionRefused
  else general

/-- What the system reported with a fault: a plain text, or an error number with its
reason and possibly the file concerned. -/
inductive Detail where
  | text (message : String)
  | numbered (code : Int) (reason : String) (file? : Option String)
  deriving DecidableEq

/-- The classes of failure that do not come from the system: an unsuitable value, a
failure while running, lack of memory, an exhausted sequence, the end of input where
more was needed, and an interrupt by the user. -/
inductive OtherKind where
  | invalidValue
  | running
  | memory
  | exhausted
  | endOfInput
  | userInterrupt
  deriving DecidableEq

/-- Something that went wrong while bytes were moved. -/
inductive Fault where
  | system (kind : SystemKind) (detail : Detail)
  | other (kind : OtherKind) (message : String)
  deriving DecidableEq

namespace Detail

/-- The text shown for what the system reported. -/
def message : Detail → String
  | text message => message
  | numbered code reason none => "[Errno " ++ toString code ++ "] " ++ reason
  | numbered code reason (some file) =>
    "[Errno " ++ toString code ++ "] " ++ reason ++ ": " ++ Text.quoted file

/-- The error number that was reported, if one was. -/
def code? : Detail → Option Int
  | text _ => none
  | numbered code _ _ => some code

end Detail

namespace Fault

/-- A system fault with an error number.  A fault signalled as a general one takes
the kind that its number stands for; one signalled as something more specific keeps
its kind, whatever the number. -/
def numbered (kind : SystemKind) (code : Int) (reason : String)
    (file? : Option String) : Fault :=
  system (if kind = .general then .ofCode code else kind) (.numbered code reason file?)

/-- The text shown for a fault. -/
def message : Fault → String
  | system _ detail => detail.message
  | other _ message => message

/-- Does the fault come from the system? -/
def isSystem : Fault → Bool
  | system _ _ => true
  | other _ _ => false

/-- Does the fault say that the reader downstream has gone away? -/
def isBrokenPipe : Fault → Bool
  | system kind _ => kind == .brokenPipe
  | other _ _ => false

/-- Does the fault abort the program on behalf of its user: by an interrupt, or by
input that ended where more was needed? -/
def aborts : Fault → Bool
  | system _ _ => false
  | other kind _ => kind == .endOfInput || kind == .userInterrupt

/-- The error number that came with the fault, if one did. -/
def code? : Fault → Option Int
  | system _ detail => detail.code?
  | other _ _ => none

/-- The error number of a broken pipe. -/
def brokenPipeCode : Int := 32

theorem isSystem_of_isBrokenPipe {e : Fault} (h : e.isBrokenPipe) : e.isSystem := by
  cases e with
  | system kind detail => rfl
  | other kind message => simp [isBrokenPipe] at h

theorem isSystem_of_code? {e : Fault} {code : Int} (h : e.code? = some code) :
    e.isSystem := by
  cases e with
  | system kind detail => rfl
  | other kind message => simp [code?] at h

theorem not_aborts_of_isSystem {e : Fault} (h : e.isSystem) : e.aborts = false := by
  cases e with
  | system kind detail => rfl
  | other kind message => simp [isSystem] at h

end Fault

end FinalNewline
