/-
Where a program finds its data.

A path segment with several names is an axis, and a leaf takes one name on every
axis.  Within a leaf each declared path leads to one place in the data; what lies
there becomes a source, bound to the names that the path exposes.  A path that
leads nowhere binds nothing, and where two paths expose a name the later one
has it.
-/
import RecordQuery.Program

namespace RecordQuery

/-- A position in a path at which there is a choice of names. -/
structure Axis where
  position : Nat
  alternatives : Names
  deriving DecidableEq

/-- What lies at a declared path, and which declaration led there, counted from
zero. -/
structure Source where
  value : Value
  declaration : Nat

namespace Source

def rows (source : Source) : List Value :=
  source.value.rows

/-- Whether some row has a field. -/
def exposes (source : Source) (field : String) : Bool :=
  source.rows.any fun row => row.hasField field

end Source

abbrev Binding := Table Source

/-- One choice on every axis, and what the paths then lead to. -/
structure Leaf where
  key : List String
  binding : Binding

structure Context where
  axes : List Axis
  leaves : List Leaf

/-- A name on each of several axes. -/
abbrev Choice := List (Axis × String)

namespace UsePath

/-- The axes of a path, in order. -/
def axes (path : UsePath) : List Axis :=
  path.segments.zipIdx.filterMap fun (segment, position) =>
    if segment.others.isEmpty then none else some ⟨position, segment⟩

/-- The path with a name chosen on every axis, none if an axis was left out. -/
def concrete? (path : UsePath) (choice : Choice) : Option (List String) :=
  path.segments.zipIdx.mapM fun (segment, position) =>
    if segment.others.isEmpty then some segment.first else choice.lookup ⟨position, segment⟩

/-- The names under which a path binds what it leads to: its field set, or else
its last name. -/
def exposed (path : UsePath) (names : List String) : List String :=
  match path.fields with
  | some fields => fields.toList
  | none => names.getLast?.toList

end UsePath

namespace Value

/-- A record restricted to a field set; other values stay as they are. -/
def restrictRecord (fields : Names) : Value → Value
  | record table => record (project table fields.toList)
  | value => value

/-- A value restricted to a field set, in a list record by record. -/
def restrict (fields : Option Names) (value : Value) : Value :=
  match fields, value with
  | none, value => value
  | some fields, list items => list (items.map (restrictRecord fields))
  | some fields, value => value.restrictRecord fields

end Value

namespace Context

/-- The axes of all paths in order of first appearance.  Paths with the same
alternatives at the same position share the axis. -/
def axesOf (paths : List UsePath) : List Axis :=
  (paths.flatMap UsePath.axes).eraseDups

/-- All ways to choose a name on every axis; the last axis varies fastest. -/
def keys : List Axis → List (List String)
  | [] => [[]]
  | axis :: rest => axis.alternatives.toList.flatMap fun name => (keys rest).map (name :: ·)

/-- Where a path leads: its concrete names, and what lies there. -/
def locate? (data : Value) (choice : Choice) (path : UsePath) (declaration : Nat) :
    Option (List String × Source) := do
  let names ← path.concrete? choice
  let value ← data.at? names
  return (names, ⟨value.restrict path.fields, declaration⟩)

/-- Binds a source to several names. -/
def bind (binding : Binding) (names : List String) (source : Source) : Binding :=
  names.foldl (fun binding name => binding.put name source) binding

/-- What a choice binds. -/
def bindingFor (paths : List UsePath) (data : Value) (choice : Choice) : Binding :=
  paths.zipIdx.foldl (fun binding (path, declaration) =>
    match locate? data choice path declaration with
    | some (names, source) => bind binding (path.exposed names) source
    | none => binding) []

/-- The context of declared paths over the data. -/
def resolve (paths : List UsePath) (data : Value) : Context :=
  let axes := axesOf paths
  ⟨axes, (keys axes).map fun key => ⟨key, bindingFor paths data (axes.zip key)⟩⟩

end Context
end RecordQuery
