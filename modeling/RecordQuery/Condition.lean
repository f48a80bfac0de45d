/-
Conditions on records.

The variables that a condition reads are looked for before any record is tested,
so whether one is missing does not depend on the data.  Testing a record takes
the operands of `&` and `|` from the left and stops at the first that decides.
-/
import RecordQuery.Program
import RecordQuery.Value.Comparison

namespace RecordQuery
namespace Condition

/-- The fields a condition refers to, from left to right. -/
def fields : Condition → List String
  | compare field _ _ => [field]
  | and left right | or left right => left.fields ++ right.fields
  | not inner => inner.fields

/-- The variables a condition reads, from left to right. -/
def reads : Condition → List String
  | compare _ _ (.reference name) => [name]
  | compare _ _ (.literal _) => []
  | and left right | or left right => left.reads ++ right.reads
  | not inner => inner.reads

/-- The first variable that a condition reads and no assignment wrote. -/
def missingVariable? (condition : Condition) (store : Table Value) : Option String :=
  condition.reads.find? fun name => !store.has name

end Condition

/-- The value of an operand. -/
def Operand.value (store : Table Value) : Operand → Except Fault Value
  | literal value => .ok value
  | reference name =>
    match store.get? name with
    | some value => .ok value
    | none => .error (.unassigned name)

namespace Condition

/-- Whether a record satisfies a condition. -/
def test (store : Table Value) (record : Value) : Condition → Except Fault Bool
  | compare field relation operand => do
    relation.holds (record.field field) (← operand.value store)
  | and left right => do
    if ← test store record left then test store record right else .ok false
  | or left right => do
    if ← test store record left then .ok true else test store record right
  | not inner => (test store record inner).map (!·)

/-- The rows that satisfy a condition, in order. -/
def filter (store : Table Value) (condition : Condition) : List Value → Except Fault (List Value)
  | [] => .ok []
  | row :: rest => do
    let kept ← test store row condition
    let others ← filter store condition rest
    return if kept then row :: others else others

end Condition
end RecordQuery
