/-
Selecting rows.

A selection reads from one source.  A field that is a bound name leads to the
source of that name; otherwise the source that exposes most of the fields asked
for is taken, and for a selection of everything the one that exposes most of the
fields referred to so far.  Of sources that expose equally many the earliest
declared is taken.
-/
import RecordQuery.Condition
import RecordQuery.Context

namespace RecordQuery

/-- Selected rows.  `single` marks one field read from one record rather than
from a list of records. -/
structure Selection where
  rows : List Value
  single : Bool

namespace Selection

/-- The value of a selection; one field of one record is its bare value. -/
def value (selection : Selection) : Value :=
  match selection.single, selection.rows with
  | true, [row] => row
  | _, rows => .list rows

end Selection

namespace Source

/-- How many of the fields a source exposes, each counted once. -/
def score (source : Source) (fields : List String) : Nat :=
  fields.eraseDups.countP source.exposes

end Source

namespace Binding

/-- The bound sources in the order of their declarations.  One that is bound to
several names comes several times. -/
def sources (binding : Binding) : List Source :=
  (binding.map Prod.snd).mergeSort fun a b => decide (a.declaration ≤ b.declaration)

/-- The earlier of two sources, unless the later one exposes more. -/
def preferred (fields : List String) (earlier later : Source) : Source :=
  if earlier.score fields < later.score fields then later else earlier

/-- The source that exposes most of the fields. -/
def best? (binding : Binding) (fields : List String) : Option Source :=
  match sources binding with
  | [] => none
  | first :: rest => some (rest.foldl (preferred fields) first)

/-- The source that exposes most of the fields, if it exposes any. -/
def overlapping? (binding : Binding) (fields : List String) : Option Source :=
  (best? binding fields).filter fun source => 0 < source.score fields

/-- The source of the first field that is a bound name. -/
def named? (binding : Binding) (names : List String) : Option Source :=
  names.findSome? binding.get?

/-- The source a selection reads from, and whether a bound name led to it. -/
def source (binding : Binding) (fields : Fields) (seen : List String) : Option Source × Bool :=
  match fields with
  | .all => (best? binding seen, false)
  | .named names =>
    match named? binding names.toList with
    | some source => (some source, true)
    | none => (overlapping? binding names.toList, false)

end Binding

namespace Select

/-- The fields a selection refers to: those it asks for, then those of its
condition. -/
def references (select : Select) : List String :=
  select.fields.names ++ (select.condition.map Condition.fields).getD []

/-- The first variable that the condition of a selection reads in vain. -/
def missingVariable? (select : Select) (store : Table Value) : Option String :=
  select.condition.bind fun condition => condition.missingVariable? store

/-- The items of lists among values, and the other values, all made flat. -/
def spread (values : List Value) : List Value :=
  values.flatMap fun value => value.rows.map Value.flat

/-- Several fields of a row as a record. -/
def projection (names : List String) (row : Value) : Value :=
  .record (names.foldl (fun fields name => Table.put fields name (row.field name).flat) [])

/-- What a selection makes of the records it keeps.  A bound name that no record
has as a field stands for the rows themselves. -/
def shape (select : Select) (source : Source) (byName : Bool) (records : List Value) :
    Selection :=
  match select.fields with
  | .all => ⟨records, false⟩
  | .named ⟨field, []⟩ =>
    let whole := byName && !source.exposes field
    let values := if whole then records else records.map fun row => row.field field
    if select.each then ⟨spread values, false⟩
    else if whole then ⟨values, false⟩
    else ⟨values.map Value.flat, source.value.isRecord⟩
  | .named names => ⟨records.map (projection names.toList), false⟩

/-- The records that the condition of a selection keeps. -/
def filter (select : Select) (store : Table Value) (records : List Value) :
    Except Fault (List Value) :=
  match select.condition with
  | none => .ok records
  | some condition => condition.filter store records

/-- The rows that a selection takes from a binding. -/
def run (select : Select) (binding : Binding) (store : Table Value) (seen : List String) :
    Except Fault Selection :=
  match select.missingVariable? store with
  | some name => .error (.unassigned name)
  | none =>
    match Binding.source binding select.fields seen with
    | (none, _) => .ok ⟨[], false⟩
    | (some source, byName) =>
      (select.filter store source.rows).map (select.shape source byName)

end Select
end RecordQuery
