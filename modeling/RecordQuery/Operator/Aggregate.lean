/-
Aggregates: reductions of a working set to one value.

A row that is a record with one field stands for the value of that field, and an
empty record for null; a record with several fields has no single value and
stops every aggregate before it computes anything.  Numeric aggregates read
every element as a number; the others leave nulls out.
-/
import RecordQuery.Number.Power
import RecordQuery.Operator
import RecordQuery.Value.Key

namespace RecordQuery
namespace Aggregate

/-- The value that a row contributes. -/
def element : Value → Except Fault Value
  | .record [] => .ok .null
  | .record [(_, value)] => .ok value
  | .record fields =>
    .error (.ambiguousRow ((Table.names fields).mergeSort fun a b => decide (a ≤ b)))
  | value => .ok value

def elements (rows : List Value) : Except Fault (List Value) :=
  rows.mapM element

def numbers (rows : List Value) : Except Fault (List Number) := do
  (← elements rows).mapM Value.toNumber

/-- The elements that are not null. -/
def present (rows : List Value) : Except Fault (List Value) := do
  return (← elements rows).filter (!·.isNull)

/-- The sum of numbers, from the left. -/
def total (numbers : List Number) : Except Fault Number :=
  numbers.foldlM Number.add .zero

def count (numbers : List Number) : Number :=
  .int numbers.length

/-- The first of the least numbers, zero if there is none. -/
def least : List Number → Number
  | [] => .zero
  | first :: rest => rest.foldl (fun best n => if n.less best then n else best) first

/-- The first of the greatest numbers, zero if there is none. -/
def greatest : List Number → Number
  | [] => .zero
  | first :: rest => rest.foldl (fun best n => if best.less n then n else best) first

def mean (numbers : List Number) : Except Fault Double := do
  (← total numbers).div (count numbers)

/-- The middle number in order, or half the sum of the two middle ones. -/
def middle (numbers : List Number) : Except Fault Number :=
  let ordered := numbers.mergeSort fun a b => !b.less a
  let half := ordered.length / 2
  if ordered.length % 2 = 1 then .ok (ordered.getD half .zero)
  else do
    let sum ← (ordered.getD (half - 1) .zero).add (ordered.getD half .zero)
    return .double (← sum.div (.int 2))

/-- A square; a finite double whose square is not finite is refused. -/
def square (x : Double) : Except Fault Double :=
  let result := x.power (.finite false (2 * Double.unit))
  if x.isFinite && !result.isFinite then .error .squareTooLarge else .ok result

/-- The sample variance, with one less than the count as divisor; zero for fewer
than two numbers. -/
def sampleVariance (numbers : List Number) : Except Fault Number :=
  if numbers.length < 2 then .ok .zero
  else do
    let mean ← mean numbers
    let squares ← numbers.foldlM (fun sum n => do
      let deviation ← (← n.sub (.double mean)).toDouble
      sum.add (.double (← square deviation))) Number.zero
    return .double (← squares.div (.int (numbers.length - 1)))

/-- The values whose key has not been seen before, each at its first place. -/
def distinct (seen : List Value.Key) : List Value → List Value
  | [] => []
  | value :: rest =>
    if value.key ∈ seen then distinct seen rest
    else value :: distinct (value.key :: seen) rest

/-- How many values share the key of a value. -/
def frequency (values : List Value) (value : Value) : Nat :=
  values.countP fun other => other.key == value.key

/-- The first value whose frequency is the one picked, null if there is none. -/
def representative (pick : Nat → Nat → Nat) (values : List Value) : Value :=
  match values with
  | [] => .null
  | first :: rest =>
    let target := rest.foldl (fun best v => pick best (frequency values v))
      (frequency values first)
    (values.find? fun v => frequency values v == target).getD .null

/-- An aggregate applied to the rows of a working set. -/
def apply (function : Aggregate) (rows : List Value) : Except Fault Value :=
  match function with
  | sum => do return .number (← total (← numbers rows))
  | average => do
    let ns ← numbers rows
    if ns.isEmpty then return .int 0 else return .double (← mean ns)
  | median => do
    let ns ← numbers rows
    if ns.isEmpty then return .int 0 else return .number (← middle ns)
  | min => do return .number (least (← numbers rows))
  | max => do return .number (greatest (← numbers rows))
  | range => do
    let ns ← numbers rows
    return .number (← (greatest ns).sub (least ns))
  | variance => do return .number (← sampleVariance (← numbers rows))
  | standardDeviation => do
    let variance ← Value.toNumber (.number (← sampleVariance (← numbers rows)))
    return .double (← variance.toDouble).sqrt
  | unique => do return .list (distinct [] (← present rows))
  | mostFrequent => do return representative Nat.max (← present rows)
  | leastFrequent => do return representative Nat.min (← present rows)

/-- The aggregate of a name, or a refusal that lists the names there are. -/
def applyNamed (name : String) (rows : List Value) : Except Fault Value :=
  match ofName? name with
  | some function => function.apply rows
  | none =>
    .error (.unknownAggregate name ((all.map Aggregate.name).mergeSort fun a b => decide (a ≤ b)))

end Aggregate
end RecordQuery
