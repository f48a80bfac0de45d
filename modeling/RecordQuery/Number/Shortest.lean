/-
The shortest decimal text of a double.

Among the decimals that round to a given double, the ones with the fewest
digits are considered and the nearest of them is taken; of two equally near the
one with an even last digit.  A decimal grid that meets the interval of reals
rounding to the double also meets it in one of the two grid points around the
double itself, so two candidates for each digit count are enough, and 17 digits
always suffice.
-/
import RecordQuery.Number.Double

namespace RecordQuery
namespace Double

/-- A quotient of naturals, with a positive denominator. -/
structure Ratio where
  num : Nat
  den : Nat

/-- `n * 10 ^ exponent` as a quotient. -/
def Ratio.ofScaled (n : Nat) (exponent : Int) : Ratio :=
  if 0 ≤ exponent then ⟨n * Nat.pow 10 exponent.toNat, 1⟩ else ⟨n, Nat.pow 10 (-exponent).toNat⟩

/-- Whether a quotient of units rounds to a magnitude.  The ends of the interval
are halfway to the neighbours and belong to it when the magnitude is even on its
own grid. -/
def roundsTo (q : Ratio) (magnitude : Nat) : Bool :=
  nearest q.num q.den == magnitude

/-- The decimal exponent of the first significant digit of a magnitude: the
estimate from the binary length is off by one at most. -/
def firstDigit (magnitude : Nat) : Int :=
  let estimate := ((magnitude.log2 : Int) - 1074) * 30103 / 100000
  let fits (e : Int) : Bool :=
    let power := Ratio.ofScaled unit e
    power.num ≤ magnitude * power.den
  if fits (estimate + 1) then estimate + 1
  else if fits estimate then estimate
  else estimate - 1

/-- The candidate with its last digit at `10 ^ exponent`, if one rounds to the
magnitude: the nearer of the two grid points around it, a tie to the even. -/
def onGrid? (magnitude : Nat) (exponent : Int) : Option Nat :=
  let grid := Ratio.ofScaled unit exponent
  let scaled := magnitude * grid.den
  let below := scaled / grid.num
  let hits (n : Nat) : Bool := roundsTo ⟨n * grid.num, grid.den⟩ magnitude
  let nearer := roundHalfEven scaled grid.num
  let farther := if nearer = below then below + 1 else below
  if hits nearer then some nearer else if hits farther then some farther else none

/-- The digits and the exponent of the last digit of the shortest decimal for a
positive magnitude, searched from `count` digits on. -/
def shortestFrom (magnitude : Nat) (first : Int) : Nat → Nat → Nat × Int
  | 0, _ => (0, 0)
  | more + 1, count =>
    let exponent := first - count + 1
    match onGrid? magnitude exponent with
    | some digits => (digits, exponent)
    | none => shortestFrom magnitude first more (count + 1)

def shortest (magnitude : Nat) : Nat × Int :=
  shortestFrom magnitude (firstDigit magnitude) 18 1

/-- How the digits of a double are laid out. -/
structure Layout where
  /-- Exponents of the first digit below this one are written with a mark. -/
  leastPlain : Int
  /-- Exponents of the first digit from this one on are written with a mark. -/
  firstMarked : Int
  mark : Char
  exponentWidth : Nat

/-- Plain notation from 0.0001 up to sixteen digits before the point, otherwise
an exponent with a sign and at least two digits. -/
def plainLayout : Layout := ⟨-4, 16, 'e', 2⟩

def dropTrailingZeros (digits : List Char) : List Char :=
  (digits.reverse.dropWhile (· = '0')).reverse

/-- A natural number in decimal, padded with zeros on the left. -/
def padded (width n : Nat) : List Char :=
  let digits := Nat.toDigits 10 n
  List.replicate (width - digits.length) '0' ++ digits

/-- The text of the digits of a number, the first of which is worth a multiple
of `10 ^ exponent`. -/
def Layout.write (layout : Layout) (digits : List Char) (exponent : Int) : List Char :=
  if exponent < layout.leastPlain ∨ layout.firstMarked ≤ exponent then
    let fraction := digits.drop 1
    digits.take 1 ++ (if fraction.isEmpty then [] else '.' :: fraction) ++
      layout.mark :: (if exponent < 0 then '-' else '+') ::
        padded layout.exponentWidth exponent.natAbs
  else if exponent < 0 then
    '0' :: '.' :: List.replicate (exponent.natAbs - 1) '0' ++ digits
  else
    let whole := exponent.toNat + 1
    let fraction := digits.drop whole
    digits.take whole ++ List.replicate (whole - digits.length) '0' ++
      '.' :: (if fraction.isEmpty then ['0'] else fraction)

/-- The texts of the values that have no digits. -/
structure SpecialNames where
  nan : String
  infinity : String

/-- The text of a double. -/
def write (names : SpecialNames) : Double → String
  | nan => names.nan
  | infinite s => (if s then "-" else "") ++ names.infinity
  | finite s m =>
    let body :=
      if m = 0 then ['0', '.', '0']
      else
        let (digits, exponent) := shortest m
        let all := Nat.toDigits 10 digits
        plainLayout.write (dropTrailingZeros all) (exponent + (all.length : Int) - 1)
    String.ofList (if s then '-' :: body else body)

end Double
end RecordQuery
