/-
Double precision numbers with exact integer arithmetic underneath.

Every finite double is a whole multiple of the smallest positive one, 2 ^ -1074.
A finite double is held as a sign and that multiple, its magnitude, so sums are
integer sums and comparisons are integer comparisons.  Rounding happens in one
function only, `nearest`, which takes a quotient of naturals to the nearest
magnitude with 53 significant bits, a tie going to the even one.
-/
namespace RecordQuery

/-- A double.  The magnitude of a finite one counts units of 2 ^ -1074; zero has
two signs. -/
inductive Double
  | nan
  | infinite (negative : Bool)
  | finite (negative : Bool) (magnitude : Nat)
  deriving DecidableEq

namespace Double

/- Numbers as large as the next two are not to be unfolded, and they stand on the
left of a product, since a product recurses on its right factor. -/

/-- The magnitude of one. -/
@[irreducible]
def unit : Nat := Nat.pow 2 1074

/-- The first magnitude too large for a finite double. -/
@[irreducible]
def ceiling : Nat := Nat.pow 2 2098

def zero : Double := .finite false 0

/-- The integer nearest to a quotient; a half goes to the even neighbour. -/
def roundHalfEven (num den : Nat) : Nat :=
  let below := num / den
  let rest := num % den
  if 2 * rest < den then below
  else if den < 2 * rest then below + 1
  else below + below % 2

theorem roundHalfEven_one (n : Nat) : roundHalfEven n 1 = n := by
  simp [roundHalfEven, Nat.mod_one]

/-- The gap between the magnitudes around a magnitude: 53 bits are kept. -/
def gap (magnitude : Nat) : Nat :=
  Nat.pow 2 (magnitude.log2 - 52)

/-- The representable magnitude nearest to a quotient. -/
def nearest (num den : Nat) : Nat :=
  let step := gap (num / den)
  roundHalfEven num (den * step) * step

/-- A magnitude short enough to need no rounding stands for itself. -/
theorem nearest_of_lt {n : Nat} (h : n < Nat.pow 2 53) : nearest n 1 = n := by
  have hg : gap n = 1 := by
    have : n.log2 ≤ 52 := by
      by_cases h0 : n = 0
      · subst h0; decide
      · exact Nat.lt_succ_iff.mp ((Nat.log2_lt h0).mpr h)
    simp [gap, Nat.sub_eq_zero_of_le this]
  simp [nearest, hg, roundHalfEven_one]

/-- The double nearest to a quotient of units, which may be an infinity. -/
def ofQuotient (negative : Bool) (num den : Nat) : Double :=
  let magnitude := nearest num den
  if magnitude < ceiling then .finite negative magnitude else .infinite negative

/-- The double nearest to an integer, when there is a finite one. -/
def ofInt? (n : Int) : Option Double :=
  match ofQuotient (n < 0) (unit * n.natAbs) 1 with
  | .finite negative magnitude => some (.finite negative magnitude)
  | _ => none

/-- The double nearest to `digits * 10 ^ exponent`.  Exponents so extreme that
the outcome does not depend on the digits are settled without computing the
power. -/
def ofDecimal (negative : Bool) (digits : Nat) (exponent : Int) : Double :=
  if digits = 0 ∨ exponent < -(digits.log2 + 400 : Int) then .finite negative 0
  else if 310 < exponent then .infinite negative
  else if 0 ≤ exponent then ofQuotient negative (unit * (digits * Nat.pow 10 exponent.toNat)) 1
  else ofQuotient negative (unit * digits) (Nat.pow 10 (-exponent).toNat)

/-- The sign and magnitude of a finite double as one integer. -/
def signed (negative : Bool) (magnitude : Nat) : Int :=
  if negative then -magnitude else magnitude

def neg : Double → Double
  | nan => nan
  | infinite s => infinite (!s)
  | finite s m => finite (!s) m

/-- A sum that is exactly zero is positive unless both terms are negative. -/
def add : Double → Double → Double
  | nan, _ | _, nan => nan
  | infinite s, infinite t => if s = t then infinite s else nan
  | infinite s, _ => infinite s
  | _, infinite t => infinite t
  | finite s m, finite t n =>
    let sum := signed s m + signed t n
    if sum = 0 then finite (s && t) 0 else ofQuotient (sum < 0) sum.natAbs 1

def sub (x y : Double) : Double :=
  x.add y.neg

def mul : Double → Double → Double
  | nan, _ | _, nan => nan
  | infinite s, infinite t => infinite (s ^^ t)
  | infinite s, finite t n => if n = 0 then nan else infinite (s ^^ t)
  | finite s m, infinite t => if m = 0 then nan else infinite (s ^^ t)
  | finite s m, finite t n => ofQuotient (s ^^ t) (m * n) unit

def div : Double → Double → Double
  | nan, _ | _, nan => nan
  | infinite _, infinite _ => nan
  | infinite s, finite t _ => infinite (s ^^ t)
  | finite s _, infinite t => finite (s ^^ t) 0
  | finite s m, finite t n =>
    if n = 0 then (if m = 0 then nan else infinite (s ^^ t))
    else ofQuotient (s ^^ t) (unit * m) n

/-- The largest number below `found + 2 ^ bits` whose square is at most `n`,
decided bit by bit from the top; `found` is known to be small enough. -/
def squareRoot (n : Nat) : Nat → Nat → Nat
  | 0, found => found
  | bits + 1, found =>
    let candidate := found + Nat.pow 2 bits
    squareRoot n bits (if candidate * candidate ≤ n then candidate else found)

/-- The square root of a number that is not negative.  The integer root carries
far more than 53 bits, so one further bit that tells whether it is exact is
enough to round as the real root would be rounded. -/
def sqrt : Double → Double
  | infinite false => infinite false
  | finite s m =>
    if m = 0 then finite s 0
    else if s then nan
    else
      let square := unit * m
      let root := squareRoot square (square.log2 / 2 + 1) 0
      ofQuotient false (2 * root + if root * root = square then 0 else 1) 2
  | _ => nan

def isFinite : Double → Bool
  | finite _ _ => true
  | _ => false

/-- The integer equal to a double, if there is one. -/
def toInt? : Double → Option Int
  | finite s m => if m % unit = 0 then some (signed s (m / unit)) else none
  | _ => none

end Double

end RecordQuery
