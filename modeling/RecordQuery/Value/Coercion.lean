/-
Values as text and as numbers.

`sourceText` writes a value the way a query writes it, and `toNumber` reads any
value as a number.  What does not denote a finite number counts as zero, so
aggregates take every row.
-/
import RecordQuery.Json.Writer
import RecordQuery.Number.Numeral

namespace RecordQuery
namespace Value

def sourceNames : Double.SpecialNames := ⟨"nan", "inf"⟩

/-- A value as a query writes it: text bare, a whole double as an integer, a list
or record as compact JSON. -/
def sourceText : Value → Except Fault String
  | null => .ok "null"
  | bool truth => .ok (if truth then "true" else "false")
  | number (.int n) =>
    if n.natAbs < firstUnwritable then .ok (toString n) else .error .unwritableInteger
  | number (.double x) =>
    match x.toInt? with
    | some n => .ok (toString n)
    | none => .ok (x.write sourceNames)
  | text s => .ok s
  | value => Json.write? .compact value

/-- Scalars stay as they are; a list or record becomes its JSON text.  Rows come
from JSON text, which holds no integer too long to be written. -/
def flat : Value → Value
  | list items => text (Json.write .compact (list items))
  | record fields => text (Json.write .compact (record fields))
  | value => value

theorem isScalar_flat (value : Value) : value.flat.isScalar = true := by
  cases value <;> rfl

/-- A value as a number: booleans are zero and one, numerals are read, and all
else that is not a finite number is zero. -/
def toNumber : Value → Except Fault Number
  | bool truth => .ok (.int (if truth then 1 else 0))
  | number (.int n) => (Number.int n).toDouble.map fun _ => .int n
  | number (.double x) => .ok (if x.isFinite then .double x else .zero)
  | text s => .ok ((Number.ofText? s).getD .zero)
  | _ => .ok .zero

end Value
end RecordQuery
