/-
Why an evaluation can stop.

Each cause is a constructor; `message` is the only place that words them.
-/
import RecordQuery.Text.Quoted

namespace RecordQuery

/-- How many decimal digits an integer may have where text meets integers. -/
def digitLimit : Nat := 4300

/-- The causes that stop an evaluation. -/
inductive Fault
  /-- A variable is read that no assignment wrote. -/
  | unassigned (name : String)
  /-- An aggregate met a row with these two or more fields. -/
  | ambiguousRow (fields : List String)
  | unknownComparator (symbol : String)
  | unknownAggregate (name : String) (known : List String)
  | unknownArithmetic (name : String)
  /-- An integer has no double near enough. -/
  | integerTooLarge
  /-- A quotient of integers exceeds every double. -/
  | quotientTooLarge
  /-- The square of a double exceeds every double. -/
  | squareTooLarge
  /-- An integer is too long to be written out. -/
  | unwritableInteger
  /-- An integer numeral of so many digits is too long to be read. -/
  | unreadableInteger (digits : Nat)
  deriving DecidableEq

namespace Fault

/-- Whether the query is at fault, and not the size of a number. -/
def concernsQuery : Fault → Bool
  | unassigned _ | ambiguousRow _ | unknownComparator _ | unknownAggregate _ _
  | unknownArithmetic _ => true
  | _ => false

def message : Fault → String
  | unassigned name => s!"Variable ${name} is not defined"
  | ambiguousRow fields =>
    "Cannot aggregate rows with fields " ++ Text.quotedList fields ++
      "; select a single field first"
  | unknownComparator symbol => "Unsupported comparison operator: " ++ symbol
  | unknownAggregate name known =>
    "Unsupported aggregate: " ++ name ++ ". Available: " ++ ", ".intercalate known
  | unknownArithmetic name => "Unsupported arithmetic operator: " ++ name
  | integerTooLarge => "int too large to convert to float"
  | quotientTooLarge => "integer division result too large for a float"
  | squareTooLarge => "(34, 'Numerical result out of range')"
  | unwritableInteger =>
    s!"Exceeds the limit ({digitLimit} digits) for integer string conversion; use " ++
      "sys.set_int_max_str_digits() to increase the limit"
  | unreadableInteger digits =>
    s!"Exceeds the limit ({digitLimit} digits) for integer string conversion: value has " ++
      s!"{digits} digits; use sys.set_int_max_str_digits() to increase the limit"

end Fault

end RecordQuery
