import FinalNewline.Buffer

/-!
# Shelves of files

A shelf holds a file under each name.  Its actions relay from one file to another, or
back to the same one, and write, move, cut and close single files.  An action touches
the files it names and no others.

## Main Definitions

* `Shelf`, `Shelf.put` — files by name, and the replacement of one of them
* `Action`, `Answer` — the actions and what they answer
* `Shelf.act`, `Shelf.acts` — one action, and a list of them
-/

namespace FinalNewline

/-- A file under each name. -/
abbrev Shelf (Name : Type) := Name → File

/-- What can be done with the files of a shelf. -/
inductive Action (Name : Type) where
  | relay (source target : Name)
  | write (name : Name) (value : Bytes)
  | seek (name : Name) (position : Int)
  | truncate (name : Name)
  | close (name : Name)
  deriving DecidableEq

/-- What an action answers: nothing, a number, or a fault. -/
inductive Answer where
  | nothing
  | number (n : Nat)
  | fault (fault : Fault)
  deriving DecidableEq

namespace Answer

/-- The answer of an action that gives nothing, and may have failed. -/
def ofFault? : Option Fault → Answer
  | none => nothing
  | some e => fault e

/-- The answer of an action that gives a number or fails. -/
def ofExcept : Except Fault Nat → Answer
  | .ok n => number n
  | .error e => fault e

end Answer

namespace Shelf

variable {Name : Type} [DecidableEq Name]

/-- The shelf with another file under one name. -/
def put (shelf : Shelf Name) (name : Name) (file : File) : Shelf Name :=
  fun other => if other = name then file else shelf other

@[simp]
theorem put_same (shelf : Shelf Name) (name : Name) (file : File) :
    shelf.put name file name = file := by
  simp [put]

theorem put_of_ne (shelf : Shelf Name) {name other : Name} (file : File) (h : other ≠ name) :
    shelf.put name file other = shelf other := by
  simp [put, h]

/-- Relays between two files of the shelf, which may be one and the same. -/
def relay (shelf : Shelf Name) (source target : Name) : Option Fault × Shelf Name :=
  if source = target then
    let run := FinalNewline.relay (Loop.mk (shelf source))
    (run.fault?, shelf.put source run.state.file)
  else
    let run := FinalNewline.relay (Link.mk (shelf source) (shelf target))
    (run.fault?, (shelf.put source run.state.source).put target run.state.target)

/-- Takes one action. -/
def act (shelf : Shelf Name) : Action Name → Answer × Shelf Name
  | .relay source target =>
    let result := shelf.relay source target
    (.ofFault? result.1, result.2)
  | .write name value =>
    let result := (shelf name).write value
    match result.1 with
    | none => (.number value.length, shelf.put name result.2)
    | some fault => (.fault fault, shelf.put name result.2)
  | .seek name position =>
    let result := (shelf name).seek position
    (.ofExcept result.1, shelf.put name result.2)
  | .truncate name =>
    let result := (shelf name).truncate
    (.ofExcept result.1, shelf.put name result.2)
  | .close name => (.nothing, shelf.put name .closed)

/-- Takes actions one after another, and gives for each of them its answer and the
shelf it left. -/
def acts (shelf : Shelf Name) : List (Action Name) → List (Answer × Shelf Name)
  | [] => []
  | action :: actions =>
    let result := shelf.act action
    result :: acts result.2 actions

end Shelf

end FinalNewline
