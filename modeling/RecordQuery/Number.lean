/-
Numbers: integers of any size beside doubles.

Integers among themselves are added, subtracted and multiplied exactly.  As soon
as a double takes part the integer is first rounded to a double, which fails for
an integer that no finite double is near.  Comparisons never round.
-/
import RecordQuery.Fault
import RecordQuery.Number.Double

namespace RecordQuery

inductive Number
  | int (value : Int)
  | double (value : Double)
  deriving DecidableEq

namespace Number

def zero : Number := .int 0

/-- The double that stands for a number in mixed arithmetic. -/
def toDouble : Number → Except Fault Double
  | int n =>
    match Double.ofInt? n with
    | some x => .ok x
    | none => .error .integerTooLarge
  | double x => .ok x

/-- An operation that is exact on integers and is done on doubles otherwise. -/
def combine (exact : Int → Int → Int) (rounded : Double → Double → Double)
    (a b : Number) : Except Fault Number :=
  match a, b with
  | int m, int n => .ok (.int (exact m n))
  | a, b => do return .double (rounded (← a.toDouble) (← b.toDouble))

def add : Number → Number → Except Fault Number := combine (· + ·) Double.add

def sub : Number → Number → Except Fault Number := combine (· - ·) Double.sub

def mul : Number → Number → Except Fault Number := combine (· * ·) Double.mul

/-- The double nearest to a quotient of integers.  A zero dividend takes the sign
of the divisor. -/
def quotientOfInts (m n : Int) : Except Fault Double :=
  match Double.ofQuotient ((m < 0) ^^ (n < 0)) (Double.unit * m.natAbs) n.natAbs with
  | .finite s magnitude => .ok (.finite s magnitude)
  | _ => .error .quotientTooLarge

/-- A quotient, always a double. -/
def div (a b : Number) : Except Fault Double :=
  match a, b with
  | int m, int n => quotientOfInts m n
  | a, b => do return (← a.toDouble).div (← b.toDouble)

/-- Where a number lies: first whether it is below, among or above all finite
numbers, then how many units of the smallest double it amounts to.  The value
that is no number lies nowhere. -/
def place : Number → Option (Int × Int)
  | int n => some (0, Double.unit * n)
  | double .nan => none
  | double (.infinite s) => some (if s then -1 else 1, 0)
  | double (.finite s m) => some (0, Double.signed s m)

def less (a b : Number) : Bool :=
  match a.place, b.place with
  | some p, some q => p.1 < q.1 || (p.1 == q.1 && p.2 < q.2)
  | _, _ => false

/-- Equality of the numbers meant: an integer may equal a double, and the value
that is no number equals nothing. -/
def equal (a b : Number) : Bool :=
  match a.place, b.place with
  | some p, some q => p == q
  | _, _ => false

/-- Whether two numbers are the same value; unlike `equal` this holds of the
value that is no number and itself. -/
def same (a b : Number) : Bool :=
  a.place == b.place

def isZero (a : Number) : Bool :=
  a.equal zero

theorem equal_comm (a b : Number) : a.equal b = b.equal a := by
  unfold equal
  cases a.place <;> cases b.place <;> simp [Bool.beq_comm]

theorem same_comm (a b : Number) : a.same b = b.same a := by
  simp [same, Bool.beq_comm]

end Number

end RecordQuery
