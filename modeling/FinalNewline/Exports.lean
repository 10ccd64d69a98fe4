import FinalNewline.Bytes
import FinalNewline.Text.Quoted

/-!
# Exports

The library is published in components, each with names under which its parts can be
looked up.  Components are loaded as they are asked for, a component after the one that
contains it, and a component that contains others shows those of them that are loaded
under their own labels.

The component of the command line is lazy.  It binds neither of the two names that it
exports: a lookup of one of them loads the entry point, and takes the answer from there.
One of the names is also the label of the entry point.  Once the entry point is loaded,
its label is bound, and the name gives the component and no longer the function in it.

## Main Definitions

* `Component` — the components, with their paths and what loading one of them loads
* `Export` — what a name can stand for
* `Loaded.get` — the lookup of a name in a component
* `Loaded.access` — the same for a component given by its path, which need not exist
-/

namespace FinalNewline

/-- The components in which the library is published. -/
inductive Component where
  | library
  | core
  | streaming
  | commandLine
  | entryPoint
  deriving DecidableEq

namespace Component

/-- All components. -/
def all : List Component :=
  [library, core, streaming, commandLine, entryPoint]

/-- The component that contains this one. -/
def parent? : Component → Option Component
  | library => none
  | core => some library
  | streaming => some core
  | commandLine => some library
  | entryPoint => some commandLine

/-- The name of a component within the one that contains it. -/
def label : Component → String
  | library => "postnl"
  | core => "core"
  | streaming => "streaming"
  | commandLine => "cli"
  | entryPoint => "main"

/-- The name of a component from the outside, with those of all that contain it. -/
def path : Component → String
  | library => "postnl"
  | core => "postnl.core"
  | streaming => "postnl.core.streaming"
  | commandLine => "postnl.cli"
  | entryPoint => "postnl.cli.main"

/-- The component with a given path. -/
def ofPath? (path : String) : Option Component :=
  all.find? (fun component => component.path == path)

/-- Can the component contain others? -/
def isContainer : Component → Bool
  | library => true
  | core => true
  | streaming => false
  | commandLine => true
  | entryPoint => false

/-- All that is loaded with a component.  The library needs its core and the core its
streaming part, so these three always come together. -/
def loads : Component → List Component
  | library => [library, core, streaming]
  | core => [library, core, streaming]
  | streaming => [library, core, streaming]
  | commandLine => [library, core, streaming, commandLine]
  | entryPoint => [library, core, streaming, commandLine, entryPoint]

end Component

/-- What a name can stand for. -/
inductive Export where
  | bytes (value : Bytes)
  | text (value : String)
  | names (value : List String)
  | component (value : Component)
  | command (name : String)
  | function (name : String)
  /-- A part of another library, by its name there. -/
  | foreign (name : String)
  deriving DecidableEq

/-- The names that a component binds itself: those of its own parts, and those under which
it takes parts from elsewhere.  The names that every component is given by its surroundings
are not among them. -/
def Component.binds : Component → List (String × Export)
  | library =>
    [("__all__", .names ["__version__", "LINE_TERMINATOR", "relay"]),
      ("__version__", .text "0.0.1"),
      ("LINE_TERMINATOR", .bytes terminator),
      ("relay", .function "relay")]
  | core =>
    [("__all__", .names ["LINE_TERMINATOR", "relay"]),
      ("LINE_TERMINATOR", .bytes terminator),
      ("relay", .function "relay")]
  | streaming =>
    [("BinaryIO", .foreign "BinaryIO"),
      ("Optional", .foreign "Optional"),
      ("LINE_TERMINATOR", .bytes terminator),
      ("relay", .function "relay")]
  | commandLine =>
    [("__all__", .names ["cli", "main"]),
      ("__getattr__", .function "__getattr__")]
  | entryPoint =>
    [("sys", .foreign "sys"),
      ("click", .foreign "click"),
      ("relay", .function "relay"),
      ("cli", .command "cli"),
      ("main", .function "main")]

/-- The names for which a component looks in the entry point, when it has not bound them. -/
def Component.defers : Component → List String
  | commandLine => ["cli", "main"]
  | _ => []

/-- The reasons why a lookup fails. -/
inductive LookupError where
  /-- There is no component with this path. -/
  | noComponent (path : String)
  /-- There is none with this path, and the component in front of it contains no others. -/
  | noContainer (path : String) (container : Component)
  /-- The component has nothing of this name. -/
  | noName (component : Component) (name : String)
  deriving DecidableEq

/-- The text shown for a failed lookup.  The component of the command line answers with
the bare name. -/
def LookupError.message : LookupError → String
  | noComponent path => "No module named " ++ Text.quoted path
  | noContainer path container =>
    "No module named " ++ Text.quoted path ++ "; " ++ Text.quoted container.path
      ++ " is not a package"
  | noName .commandLine name => name
  | noName component name =>
    "module '" ++ component.path ++ "' has no attribute '" ++ name ++ "'"

/-- The components that are loaded. -/
abbrev Loaded := List Component

namespace Loaded

/-- Loads a component and all that it needs. -/
def load (loaded : Loaded) (component : Component) : Loaded :=
  component.loads ++ loaded

/-- What a name is bound to in a component: by the component itself, or as the label of a
loaded component in it. -/
def bound? (loaded : Loaded) (component : Component) (name : String) : Option Export :=
  match component.binds.lookup name with
  | some value => some value
  | none =>
    (Component.all.find? fun inner =>
      inner ∈ loaded && inner.parent? = some component && inner.label = name).map .component

/-- What a name that a component has not bound gives in the entry point, if the component
looks for it there. -/
def deferred? (component : Component) (name : String) : Option Export :=
  if name ∈ component.defers then Component.entryPoint.binds.lookup name else none

/-- Loads a component and looks up a name in it.  A name that has to be taken from the
entry point loads it, so that from then on the label of the entry point is bound. -/
def get (loaded : Loaded) (component : Component) (name : String) :
    Except LookupError Export × Loaded :=
  let loaded := loaded.load component
  match loaded.bound? component name with
  | some value => (.ok value, loaded)
  | none =>
    match deferred? component name with
    | some value => (.ok value, loaded.load .entryPoint)
    | none => (.error (.noName component name), loaded)

/-- The paths that lead to a component, from the outside in, given the parts of its own. -/
def leadingPaths : List String → List String
  | [] => []
  | part :: parts => part :: (leadingPaths parts).map fun path => part ++ "." ++ path

/-- The failure to load a component that does not exist: what is missing is the first of
the paths that should lead to it, in `container?`, the last component in front of it. -/
def missing (path : String) : Option Component → LookupError
  | none => .noComponent path
  | some container =>
    if container.isContainer then .noComponent path else .noContainer path container

/-- Tries to load a component that does not exist, given the paths that should lead to it.
Those that do exist are loaded on the way; `container?` is the last of them so far. -/
def tryLoad (loaded : Loaded) (container? : Option Component) (path : String) :
    List String → LookupError × Loaded
  | [] => (missing path container?, loaded)
  | outer :: inner =>
    match Component.ofPath? outer with
    | some component => tryLoad (loaded.load component) (some component) path inner
    | none => (missing outer container?, loaded)

/-- Looks up a name in the component with a given path. -/
def access (loaded : Loaded) (path name : String) : Except LookupError Export × Loaded :=
  match Component.ofPath? path with
  | some component => loaded.get component name
  | none =>
    let failed := loaded.tryLoad none path (leadingPaths (path.splitOn "."))
    (.error failed.1, failed.2)

/-- Looks up one name after another, and gives the answers. -/
def accesses (loaded : Loaded) : List (String × String) → List (Except LookupError Export)
  | [] => []
  | (path, name) :: rest =>
    let result := loaded.access path name
    result.1 :: accesses result.2 rest

end Loaded

end FinalNewline
