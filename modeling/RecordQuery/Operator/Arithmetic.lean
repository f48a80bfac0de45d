/-
Arithmetic on values, which are first read as numbers, and percentages of row
counts.
-/
import RecordQuery.Operator
import RecordQuery.Value.Coercion

namespace RecordQuery
namespace Arithmetic

/-- Arithmetic on numbers.  Dividing by zero yields zero. -/
def onNumbers (operator : Arithmetic) (a b : Number) : Except Fault Number :=
  match operator with
  | divide => if b.isZero then .ok .zero else (a.div b).map Number.double
  | multiply => a.mul b
  | subtract => a.sub b

def apply (operator : Arithmetic) (a b : Value) : Except Fault Value := do
  return .number (← operator.onNumbers (← a.toNumber) (← b.toNumber))

/-- The operation of a name.  The operands are read as numbers before the name
is looked at. -/
def applyNamed (name : String) (a b : Value) : Except Fault Value :=
  match ofName? name with
  | some operator => operator.apply a b
  | none => do
    let _ ← a.toNumber
    let _ ← b.toNumber
    .error (.unknownArithmetic name)

/-- A number of rows as a percentage of another, zero when there are none to
compare with. -/
def percentage (part whole : Nat) : Except Fault Value :=
  if whole = 0 then .ok (.int 0)
  else (Number.quotientOfInts (100 * part) whole).map Value.double

end Arithmetic
end RecordQuery
