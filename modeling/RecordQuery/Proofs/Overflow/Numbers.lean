/-
When numbers and the arithmetic of queries stop at a size.

An integer that meets a double must be below the bound of the doubles
(`Number.Mixes`), and so must a quotient of integers (`Number.Divides`).  For the
operators of a query the exact condition is collected in `Arithmetic.Overflows`.
-/
import RecordQuery.Proofs.Overflow.Doubles
import RecordQuery.Proofs.Overflow.Stops

namespace RecordQuery

/-! ## Numbers -/

namespace Number

open Overflowed

/-- There is a finite double for an integer; a double is one already. -/
def Fits : Number → Prop
  | int n => n.natAbs < Double.bound
  | double _ => True

/-- Two numbers can be added, subtracted or multiplied: integers at any size, an
integer and a double if there is a finite double for the integer. -/
def Mixes : Number → Number → Prop
  | int _, int _ => True
  | a, b => a.Fits ∧ b.Fits

/-- A number can be divided by one that is not zero. -/
def Divides : Number → Number → Prop
  | int m, int n => m.natAbs < Double.bound * n.natAbs
  | a, b => a.Fits ∧ b.Fits

theorem toDouble_overflowed {n : Number} : Overflowed n.toDouble ↔ ¬ n.Fits := by
  cases n with
  | double x => exact iff_of_false not_ok (not_not_intro trivial)
  | int n =>
    show Overflowed _ ↔ ¬ n.natAbs < Double.bound
    rw [← Double.isSome_ofInt?, toDouble]
    cases Double.ofInt? n with
    | none => exact iff_of_true (error trivial) Bool.false_ne_true
    | some x => exact iff_of_false not_ok (not_not_intro rfl)

theorem toDouble_ok {n : Number} (h : n.Fits) : ∃ x, n.toDouble = .ok x :=
  exists_ok ((toDouble_raises n).mono Fault.ofSize_of_ofNumbers)
    fun ho => toDouble_overflowed.mp ho h

theorem mixed_overflowed {α : Type} {a b : Number} {f : Double → Double → α} :
    Overflowed (do return f (← a.toDouble) (← b.toDouble)) ↔ ¬ (a.Fits ∧ b.Fits) := by
  simp only [bind_iff, toDouble_overflowed]
  constructor
  · rintro (h | ⟨x, -, h | ⟨y, -, h⟩⟩)
    · exact fun hab => h hab.1
    · exact fun hab => h hab.2
    · exact (not_ok h).elim
  · intro h
    by_cases ha : a.Fits
    · obtain ⟨x, hx⟩ := toDouble_ok ha
      exact .inr ⟨x, hx, .inl fun hb => h ⟨ha, hb⟩⟩
    · exact .inl ha

theorem combine_overflowed {onInts : Int → Int → Int} {rounded : Double → Double → Double}
    {a b : Number} : Overflowed (combine onInts rounded a b) ↔ ¬ a.Mixes b := by
  cases a with
  | int m =>
    cases b with
    | int n => exact iff_of_false not_ok (not_not_intro trivial)
    | double y => exact mixed_overflowed
  | double x => cases b <;> exact mixed_overflowed

/-- Combined with a double, a number first becomes one. -/
theorem combine_double {onInts : Int → Int → Int} {rounded : Double → Double → Double}
    (a : Number) (y : Double) :
    combine onInts rounded a (.double y) = a.toDouble.map fun x => .double (rounded x y) := by
  cases a with
  | double x => rfl
  | int m =>
    show (do return Number.double (rounded (← toDouble (.int m)) y)) = _
    cases toDouble (.int m) <;> rfl

theorem quotientOfInts_overflowed {m n : Int} (hn : n ≠ 0) :
    Overflowed (quotientOfInts m n) ↔ ¬ m.natAbs < Double.bound * n.natAbs := by
  have hfinite := Double.isFinite_ofQuotient ((m < 0) ^^ (n < 0)) (Double.unit * m.natAbs)
    (Int.natAbs_pos.mpr hn)
  rw [Double.unit_mul_lt] at hfinite
  rw [← hfinite, quotientOfInts]
  cases Double.ofQuotient ((m < 0) ^^ (n < 0)) (Double.unit * m.natAbs) n.natAbs with
  | finite s x => exact iff_of_false not_ok (not_not_intro rfl)
  | _ => exact iff_of_true (error trivial) Bool.false_ne_true

theorem div_overflowed {a b : Number} (hb : b ≠ .zero) : Overflowed (a.div b) ↔ ¬ a.Divides b := by
  cases a with
  | int m =>
    cases b with
    | int n => exact quotientOfInts_overflowed fun h => hb (congrArg Number.int h)
    | double y => exact mixed_overflowed
  | double x => cases b <;> exact mixed_overflowed

end Number

/-! ## Values read as numbers -/

/-- An integer from the bound on.  Texts are read at any size. -/
def Value.Oversized : Value → Prop
  | .number (.int n) => Double.bound ≤ n.natAbs
  | _ => False

theorem Value.toNumber_overflowed {value : Value} :
    Overflowed value.toNumber ↔ value.Oversized := by
  cases value with
  | number n =>
    cases n with
    | int m => exact Overflowed.map_iff.trans (Number.toDouble_overflowed.trans Nat.not_lt)
    | double x => exact iff_of_false Overflowed.not_ok id
  | _ => exact iff_of_false Overflowed.not_ok id

/-- What is read from a number has a double. -/
theorem Value.fits_of_toNumber {n result : Number} (h : toNumber (.number n) = .ok result) :
    result.Fits := by
  cases n with
  | int m =>
    have hm : Number.Fits (.int m) := by
      refine Nat.lt_of_not_le fun hlarge => ?_
      have ho := (@toNumber_overflowed (.number (.int m))).mpr hlarge
      rw [h] at ho
      exact Overflowed.not_ok ho
    obtain ⟨x, hx⟩ := Number.toDouble_ok hm
    rw [toNumber, hx] at h
    cases h
    exact hm
  | double x =>
    cases h
    cases x.isFinite
    · exact Double.bound_pos
    · trivial

/-! ## The arithmetic of queries -/

namespace Arithmetic

open Overflowed

/-- Two numbers for which an operator has no result. -/
def OverflowsOn : Arithmetic → Number → Number → Prop
  | divide, a, b => b.isZero = false ∧ ¬ a.Divides b
  | multiply, a, b | subtract, a, b => ¬ a.Mixes b

/-- Two values to which an operator cannot be applied: one of them is too large to be
read, or else the numbers that are read have no result. -/
def Overflows (operator : Arithmetic) (a b : Value) : Prop :=
  a.Oversized ∨ b.Oversized ∨
    ∃ m n, a.toNumber = .ok m ∧ b.toNumber = .ok n ∧ operator.OverflowsOn m n

theorem onNumbers_overflowed {operator : Arithmetic} {a b : Number} :
    Overflowed (operator.onNumbers a b) ↔ operator.OverflowsOn a b := by
  cases operator with
  | divide =>
    unfold onNumbers OverflowsOn
    dsimp only
    cases hz : b.isZero with
    | true => exact iff_of_false not_ok fun h => Bool.false_ne_true h.1.symm
    | false =>
      have hb : b ≠ .zero := by
        rintro rfl
        exact absurd hz (by decide)
      rw [if_neg Bool.false_ne_true, map_iff, Number.div_overflowed hb]
      exact (and_iff_right rfl).symm
  | multiply => exact Number.combine_overflowed
  | subtract => exact Number.combine_overflowed

theorem apply_overflowed {operator : Arithmetic} {a b : Value} :
    Overflowed (operator.apply a b) ↔ operator.Overflows a b := by
  have happly : operator.apply a b = do
      let m ← a.toNumber
      let n ← b.toNumber
      return .number (← operator.onNumbers m n) := rfl
  rw [happly, bind_iff, Value.toNumber_overflowed]
  simp only [bind_iff (x := b.toNumber), return_iff, onNumbers_overflowed,
    Value.toNumber_overflowed]
  unfold Overflows
  constructor
  · rintro (h | ⟨m, hm, h | ⟨n, hn, h⟩⟩)
    · exact .inl h
    · exact .inr (.inl h)
    · exact .inr (.inr ⟨m, n, hm, hn, h⟩)
  · intro h
    by_cases ha : a.Oversized
    · exact .inl ha
    · obtain ⟨m, hm⟩ := exists_ok ((Value.toNumber_raises a).mono Fault.ofSize_of_ofNumbers)
        fun ho => ha (Value.toNumber_overflowed.mp ho)
      obtain hb | ⟨m', n, hm', hn, ho⟩ := h.resolve_left ha
      · exact .inr ⟨m, hm, .inl hb⟩
      · exact .inr ⟨m', hm', .inr ⟨n, hn, ho⟩⟩

theorem percentage_overflowed {part whole : Nat} :
    Overflowed (percentage part whole) ↔ whole ≠ 0 ∧ Double.bound * whole ≤ 100 * part := by
  unfold percentage
  by_cases hw : whole = 0
  · rw [if_pos hw]
    exact iff_of_false not_ok fun h => h.1 hw
  · rw [if_neg hw, map_iff, Number.quotientOfInts_overflowed (by omega), Nat.not_lt]
    exact (and_iff_right hw).symm

end Arithmetic

end RecordQuery
