/-
Keys: which values count as one when values are counted or repeated ones
dropped.

An integer and a double share a key when they are the same number.  Lists and
records are told apart by their JSON text with the names of every record in
order, so the order of fields does not count.
-/
import RecordQuery.Value.Coercion

namespace RecordQuery
namespace Value

mutual

/-- A value with the fields of every record in the order of their names. -/
def sorted : Value → Value
  | list items => list (sortedItems items)
  | record fields =>
    record ((sortedFields fields).mergeSort fun a b => decide (a.1 ≤ b.1))
  | value => value

def sortedItems : List Value → List Value
  | [] => []
  | value :: rest => sorted value :: sortedItems rest

def sortedFields : List (String × Value) → List (String × Value)
  | [] => []
  | (name, value) :: rest => (name, sorted value) :: sortedFields rest

end

inductive Key
  | null
  | bool (truth : Bool)
  | number (place : Option (Int × Int))
  | text (chars : String)
  | nested (json : List Char)
  deriving DecidableEq

def key : Value → Key
  | null => .null
  | bool truth => .bool truth
  | number n => .number n.place
  | text s => .text s
  | value => .nested (Json.chars .ascii7 0 value.sorted)

end Value
end RecordQuery
