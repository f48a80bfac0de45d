/-
Powers of doubles.

Powers are taken by the mathematical library of the machine, whose result may
differ from the nearest double in the last place.  Doubles are handed over as
the 64 bits of the interchange format: a sign, an exponent of 11 bits and a
fraction of 52.
-/
import RecordQuery.Number.Double

namespace RecordQuery
namespace Double

/-- The bits of a double below its sign.  With 52 bits to the fraction, the
leading bit of a longer magnitude is absorbed by the exponent, which counts the
bits that are cut off. -/
def magnitudeBits (magnitude : Nat) : Nat :=
  let exponent := magnitude.log2 - 52
  exponent * Nat.pow 2 52 + magnitude / Nat.pow 2 exponent

def signBit (negative : Bool) : Nat :=
  if negative then Nat.pow 2 63 else 0

/-- The bits of infinity; any larger number below the sign is no number. -/
def infinityBits : Nat := 2047 * Nat.pow 2 52

def toBits : Double → Nat
  | nan => infinityBits + Nat.pow 2 51
  | infinite s => signBit s + infinityBits
  | finite s m => signBit s + magnitudeBits m

/-- The magnitude whose bits these are. -/
def magnitudeOfBits (bits : Nat) : Nat :=
  let exponent := bits / Nat.pow 2 52
  if exponent = 0 then bits
  else (bits % Nat.pow 2 52 + Nat.pow 2 52) * Nat.pow 2 (exponent - 1)

def ofBits (bits : Nat) : Double :=
  let negative := Nat.pow 2 63 ≤ bits
  let rest := bits % Nat.pow 2 63
  if rest < infinityBits then finite negative (magnitudeOfBits rest)
  else if rest = infinityBits then infinite negative
  else nan

/-- A magnitude of at most 53 bits is its own bits. -/
theorem magnitudeBits_of_lt {m : Nat} (h : m < Nat.pow 2 53) : magnitudeBits m = m := by
  have : m.log2 ≤ 52 := by
    by_cases h0 : m = 0
    · subst h0; decide
    · exact Nat.lt_succ_iff.mp ((Nat.log2_lt h0).mpr h)
  simp [magnitudeBits, Nat.sub_eq_zero_of_le this]

/-- A power as the machine computes it. -/
def power (x y : Double) : Double :=
  let result := (Float.ofBits (UInt64.ofNat x.toBits)).pow (Float.ofBits (UInt64.ofNat y.toBits))
  ofBits result.toBits.toNat

end Double
end RecordQuery
