/-
Programs of the query language.

A program declares the paths at which data is found and the blocks of statements
that compute results.  Names are never missing where the language asks for one:
lists of names have a first name, and a path a first segment.
-/
import RecordQuery.Operator
import RecordQuery.Value

namespace RecordQuery

/-- One or more names. -/
structure Names where
  first : String
  others : List String
  deriving DecidableEq

namespace Names

def toList (names : Names) : List String :=
  names.first :: names.others

/-- The names between brackets. -/
def bracketed (names : Names) : String :=
  "[" ++ ", ".intercalate names.toList ++ "]"

end Names

/-- What a field is compared with. -/
inductive Operand
  | literal (value : Value)
  | reference (name : String)

/-- Conditions on a record. -/
inductive Condition
  | compare (field : String) (relation : Comparator) (operand : Operand)
  | and (left right : Condition)
  | or (left right : Condition)
  | not (inner : Condition)

/-- The fields a selection asks for. -/
inductive Fields
  | all
  | named (names : Names)
  deriving DecidableEq

namespace Fields

/-- The fields that are named; there are none when all are asked for. -/
def names : Fields → List String
  | all => []
  | named names => names.toList

end Fields

/-- A selection of rows.  With `each`, lists among the values are spread out. -/
structure Select where
  fields : Fields
  condition : Option Condition
  each : Bool

/-- The selection of everything. -/
def Select.everything : Select := ⟨.all, none, false⟩

inductive Operation
  | select (selection : Select)
  | count (selection : Select)
  | aggregate (function : Aggregate)
  | arithmetic (operator : Arithmetic) (left right : String)
  | percentOf (part whole : Select)

/-- An operation, whose value may be kept in a variable. -/
structure Statement where
  target : Option String
  operation : Operation

structure Block where
  name : String
  statements : List Statement

/-- A declared path.  A segment with several names stands for each of them in
turn; a field set restricts the records found. -/
structure UsePath where
  first : Names
  others : List Names
  fields : Option Names
  deriving DecidableEq

namespace UsePath

def segments (path : UsePath) : List Names :=
  path.first :: path.others

def segmentText (segment : Names) : String :=
  if segment.others.isEmpty then segment.first else segment.bracketed

/-- The path as it is declared. -/
def text (path : UsePath) : String :=
  ".".intercalate (path.segments.map segmentText ++ (path.fields.map Names.bracketed).toList)

end UsePath

structure Program where
  paths : List UsePath
  blocks : List Block

namespace Program

def empty : Program := ⟨[], []⟩

/-- The declared paths, in order. -/
def expectedPaths (program : Program) : List String :=
  program.paths.map UsePath.text

end Program

end RecordQuery
