/-
Numerals: the texts that denote numbers.

A numeral may be surrounded by blanks, signed, and written with the decimal
digits of any script; single underscores may divide its digits.  An integer
numeral has digits only.  A decimal numeral may have a point, with digits on at
least one side of it, and an exponent, and the names of infinity and of the
value that is no number count as decimal numerals in any case.
-/
import RecordQuery.Number
import RecordQuery.Text.Blank
import RecordQuery.Text.DecimalDigit

namespace RecordQuery
namespace Numeral

open Text

/-- Digits read so far: their value and how many they are. -/
structure Digits where
  value : Nat
  count : Nat
  deriving DecidableEq

namespace Digits

def none : Digits := ⟨0, 0⟩

def push (digits : Digits) (d : Nat) : Digits :=
  ⟨digits.value * 10 + d, digits.count + 1⟩

end Digits

/-- The digits at the head of a text and what follows them.  An underscore is
passed over between two digits only. -/
def digitsFrom (digits : Digits) : List Char → Digits × List Char
  | [] => (digits, [])
  | '_' :: c :: rest =>
    match digitValue? c with
    | some d =>
      if digits.count = 0 then (digits, '_' :: c :: rest) else digitsFrom (digits.push d) rest
    | none => (digits, '_' :: c :: rest)
  | c :: rest =>
    match digitValue? c with
    | some d => digitsFrom (digits.push d) rest
    | none => (digits, c :: rest)

/-- The sign at the head of a text: whether it is negative, and the rest. -/
def sign : List Char → Bool × List Char
  | '-' :: rest => (true, rest)
  | '+' :: rest => (false, rest)
  | rest => (false, rest)

/-- An integer numeral: its value and its number of digits. -/
def integer? (text : List Char) : Option (Int × Nat) :=
  let (negative, rest) := sign (trim text)
  match digitsFrom .none rest with
  | (digits, []) =>
    if digits.count = 0 then none
    else some (if negative then -(digits.value : Int) else digits.value, digits.count)
  | _ => none

def lowercase (cs : List Char) : String :=
  String.ofList (cs.map Char.toLower)

/-- The decimal exponent that ends a numeral, zero when there is none. -/
def exponent? : List Char → Option Int
  | [] => some 0
  | c :: rest =>
    if c = 'e' ∨ c = 'E' then
      let (negative, rest) := sign rest
      match digitsFrom .none rest with
      | (digits, []) =>
        if digits.count = 0 then none
        else some (if negative then -(digits.value : Int) else digits.value)
      | _ => none
    else none

/-- The double nearest to an unsigned decimal numeral. -/
def unsigned? (negative : Bool) (text : List Char) : Option Double :=
  let (whole, rest) := digitsFrom .none text
  let (all, rest) := match rest with
    | '.' :: fraction =>
      match digitsFrom ⟨whole.value, 0⟩ fraction with
      | (all, rest) => (all, rest)
    | rest => (⟨whole.value, 0⟩, rest)
  if whole.count + all.count = 0 then none
  else (exponent? rest).map fun exponent =>
    Double.ofDecimal negative all.value (exponent - all.count)

/-- The double nearest to a decimal numeral. -/
def decimal? (text : List Char) : Option Double :=
  let (negative, rest) := sign (trim text)
  let word := lowercase rest
  if word = "inf" ∨ word = "infinity" then some (.infinite negative)
  else if word = "nan" then some .nan
  else unsigned? negative rest

end Numeral

namespace Number

/-- The number that a text denotes, if it is a numeral without underscores for a
finite number.  An integer numeral with more digits than the limit is read as a
decimal one. -/
def ofText? (text : String) : Option Number :=
  let cs := Text.trim text.toList
  if cs.contains '_' then none
  else
    let decimal : Option Number :=
      match Numeral.decimal? cs with
      | some x => if x.isFinite then some (.double x) else none
      | none => none
    match Numeral.integer? cs with
    | some (n, count) => if count ≤ digitLimit then some (.int n) else decimal
    | none => decimal

end Number

end RecordQuery
