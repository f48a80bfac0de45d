/-
Values: what records hold and what queries answer.

The fields of a record keep their order, and a record reads a name as its table
does.  A scalar is a value without parts.
-/
import RecordQuery.Number
import RecordQuery.Table

namespace RecordQuery

inductive Value
  | null
  | bool (truth : Bool)
  | number (number : Number)
  | text (chars : String)
  | list (items : List Value)
  | record (fields : List (String × Value))

namespace Value

instance : Inhabited Value := ⟨null⟩

def int (n : Int) : Value :=
  .number (.int n)

def double (x : Double) : Value :=
  .number (.double x)

def isScalar : Value → Bool
  | list _ | record _ => false
  | _ => true

def isNumber : Value → Bool
  | number _ => true
  | _ => false

def isRecord : Value → Bool
  | record _ => true
  | _ => false

def isNull : Value → Bool
  | null => true
  | _ => false

/-- The value of a field; only records have fields. -/
def field? (value : Value) (name : String) : Option Value :=
  match value with
  | record fields => Table.get? fields name
  | _ => none

def hasField (value : Value) (name : String) : Bool :=
  (value.field? name).isSome

/-- A field that is missing reads as null, and so does every field of a value
that is not a record. -/
def field (value : Value) (name : String) : Value :=
  (value.field? name).getD null

/-- What lies at a path of field names. -/
def at? : Value → List String → Option Value
  | value, [] => some value
  | value, name :: names => (value.field? name).bind (·.at? names)

/-- The part of a table under the given names, in the order of the names. -/
def project (fields : List (String × Value)) (names : List String) : List (String × Value) :=
  names.foldl (fun kept name =>
    match Table.get? fields name with
    | some value => Table.put kept name value
    | none => kept) []

/-- A value as rows: the items of a list, or else the value itself as one row. -/
def rows : Value → List Value
  | list items => items
  | value => [value]

/-- Integers from this magnitude on are too long to be written out. -/
def firstUnwritable : Nat := Nat.pow 10 digitLimit

mutual

/-- Whether every integer in a value is short enough to be written out. -/
def writable : Value → Bool
  | number (.int n) => n.natAbs < firstUnwritable
  | list items => itemsWritable items
  | record fields => fieldsWritable fields
  | _ => true

def itemsWritable : List Value → Bool
  | [] => true
  | value :: rest => writable value && itemsWritable rest

def fieldsWritable : List (String × Value) → Bool
  | [] => true
  | (_, value) :: rest => writable value && fieldsWritable rest

end

end Value

end RecordQuery
