/-
Comparing values.

`equal` is the equality of a query: a number equals the numerals that denote it,
and otherwise values of different kinds differ.  Inside lists and records the
stricter `same` decides, for which booleans are the numbers zero and one.
`order?` orders texts among themselves and numbers with numbers and numerals;
other pairs have no order.
-/
import RecordQuery.Operator
import RecordQuery.Value.Coercion

namespace RecordQuery
namespace Value

/-- The number that a boolean or a number stands for inside lists and records. -/
def numeric? : Value → Option Number
  | bool truth => some (.int (if truth then 1 else 0))
  | number n => some n
  | _ => none

mutual

/-- Whether two values are the same part by part.  The order of fields does not
matter. -/
def same : Value → Value → Bool
  | null, null => true
  | text s, text t => s == t
  | list items, list others => sameItems items others
  | record fields, record others =>
    fields.length == others.length && sameFields fields others
  | a, b =>
    match a.numeric?, b.numeric? with
    | some m, some n => m.same n
    | _, _ => false

def sameItems : List Value → List Value → Bool
  | [], [] => true
  | a :: rest, b :: others => same a b && sameItems rest others
  | _, _ => false

def sameFields : List (String × Value) → List (String × Value) → Bool
  | [], _ => true
  | (name, value) :: rest, others =>
    (match Table.get? others name with
      | some other => same value other
      | none => false) && sameFields rest others

end

/-- Whether a text is a numeral for a number. -/
def denotes (s : String) (n : Number) : Bool :=
  match Number.ofText? s with
  | some m => m.equal n
  | none => false

def equal : Value → Value → Bool
  | null, null => true
  | null, _ | _, null => false
  | bool a, bool b => a == b
  | bool _, _ | _, bool _ => false
  | number m, number n => m.equal n
  | number n, text s | text s, number n => denotes s n
  | a, b => a.same b

/-- The number that a value takes part in an order with. -/
def ordered? : Value → Option Number
  | number n => some n
  | text s => Number.ofText? s
  | _ => none

/-- Neither below nor above counts as equal. -/
def orderNumbers (m n : Number) : Ordering :=
  if n.less m then .gt else if m.less n then .lt else .eq

def orderTexts (s t : String) : Ordering :=
  if t < s then .gt else if s < t then .lt else .eq

/-- How two values are ordered, if they are.  Texts compare by code points. -/
def order? : Value → Value → Option Ordering
  | text s, text t => some (orderTexts s t)
  | a, b =>
    if a.isNumber || b.isNumber then
      match a.ordered?, b.ordered? with
      | some m, some n => some (orderNumbers m n)
      | _, _ => none
    else none

/-- Whether a list has an item that reads like `expected` in a query. -/
def contains (actual expected : Value) : Except Fault Bool :=
  match actual with
  | list items => do
    let wanted ← expected.sourceText
    items.anyM fun item => do return (← item.sourceText) == wanted
  | _ => .ok false

end Value

namespace Comparator

open Value

/-- Whether an order satisfies one of the four order relations. -/
def admits (relation : Comparator) (order : Ordering) : Bool :=
  match relation with
  | greater => order == .gt
  | less => order == .lt
  | atLeast => order != .lt
  | atMost => order != .gt
  | _ => false

/-- Whether a relation holds between the value of a field and an operand.  Values
without an order satisfy no order relation. -/
def holds (relation : Comparator) (actual expected : Value) : Except Fault Bool :=
  match relation with
  | equal => .ok (actual.equal expected)
  | notEqual => .ok (!actual.equal expected)
  | contains => actual.contains expected
  | lacks => (actual.contains expected).map (!·)
  | relation =>
    match order? actual expected with
    | some order => .ok (relation.admits order)
    | none => .ok false

/-- The relation named by a symbol.  A symbol without meaning is refused only
where an order would be consulted and there is one. -/
def holdsNamed (symbol : String) (actual expected : Value) : Except Fault Bool :=
  match ofSymbol? symbol with
  | some relation => relation.holds actual expected
  | none =>
    match order? actual expected with
    | some _ => .error (.unknownComparator symbol)
    | none => .ok false

end Comparator

end RecordQuery
