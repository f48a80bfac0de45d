/-
Which quotients have a finite double.

The finite doubles end at `2 ^ 1024 - 2 ^ 971`, and the next power would follow at
`2 ^ 1024`.  Halfway between the two lies `bound`, and since the last finite double is
odd in its last place, `bound` itself is rounded up.  So a quotient is rounded to a
finite double if and only if it is below `bound` (`nearest_lt_ceiling`); for an integer
this is `isSome_ofInt?`.
-/
import RecordQuery.Number
import Mathlib.Tactic.Ring

namespace RecordQuery
namespace Double

/-- The first integer that is rounded beyond all finite doubles. -/
@[irreducible]
def bound : Nat := Nat.pow 2 1024 - Nat.pow 2 970

theorem unit_pos : 0 < unit := by
  unfold unit
  decide +kernel

theorem bound_pos : 0 < bound := by
  unfold bound
  decide +kernel

@[irreducible]
def lastExponent : Nat := 2045

/-- What the last of the 53 bits counts for in the largest finite doubles. -/
def lastPlace : Nat := 2 ^ lastExponent

theorem ceiling_eq : ceiling = 2 ^ 53 * lastPlace := by
  unfold ceiling lastPlace lastExponent
  decide +kernel

theorem bound_mul_unit : 2 * (bound * unit) = (2 * (2 ^ 53 - 1) + 1) * lastPlace := by
  unfold bound unit lastPlace lastExponent
  decide +kernel

theorem bound_le_ceiling : bound * unit ≤ ceiling := by
  unfold bound unit ceiling
  decide +kernel

theorem le_bound : 2 ^ 52 * lastPlace ≤ bound * unit := by
  unfold bound unit lastPlace lastExponent
  decide +kernel

theorem lastPlace_cases (bits : Nat) :
    2 * 2 ^ bits ≤ lastPlace ∨ 2 ^ bits = lastPlace ∨ 2 * lastPlace ≤ 2 ^ bits ∧ 0 < bits := by
  rw [lastPlace, Nat.mul_comm, ← Nat.pow_succ, Nat.mul_comm, ← Nat.pow_succ]
  rcases Nat.lt_trichotomy bits lastExponent with hlt | heq | hgt
  · exact .inl (Nat.pow_le_pow_right (by decide) hlt)
  · exact .inr (.inl (congrArg (Nat.pow 2) heq))
  · exact .inr (.inr ⟨Nat.pow_le_pow_right (by decide) hgt, Nat.zero_lt_of_lt hgt⟩)

/-! ## Rounding to an integer -/

theorem le_roundHalfEven (num den : Nat) : num / den ≤ roundHalfEven num den := by
  unfold roundHalfEven
  dsimp only
  split
  · exact Nat.le_refl _
  · split
    · exact Nat.le_succ _
    · exact Nat.le_add_right _ _

theorem roundHalfEven_le (num den : Nat) : roundHalfEven num den ≤ num / den + 1 := by
  unfold roundHalfEven
  dsimp only
  split
  · exact Nat.le_succ _
  · split
    · exact Nat.le_refl _
    · exact Nat.add_le_add_left (Nat.le_of_lt_succ (Nat.mod_lt _ (by decide))) _

theorem roundHalfEven_le_of_le {num den k : Nat} (hd : 0 < den) (h : num ≤ k * den) :
    roundHalfEven num den ≤ k := by
  have hnum : den * (num / den) + num % den = num := Nat.div_add_mod num den
  have hle : num / den ≤ k := Nat.div_le_of_le_mul (by rwa [Nat.mul_comm])
  rcases Nat.lt_or_eq_of_le hle with hlt | heq
  · exact Nat.le_trans (roundHalfEven_le num den) hlt
  · -- The bound is the quotient itself, so there is nothing to round.
    have hrest : num % den = 0 := by
      rw [heq, Nat.mul_comm] at hnum
      omega
    rw [roundHalfEven, hrest, heq]
    exact Nat.le_of_eq (if_pos hd)

/-- Above an odd integer, the half is already rounded up. -/
theorem roundHalfEven_le_iff {num den k : Nat} (hd : 0 < den) (hk : k % 2 = 1) :
    roundHalfEven num den ≤ k ↔ 2 * num < (2 * k + 1) * den := by
  have hnum : den * (num / den) + num % den = num := Nat.div_add_mod num den
  have hrest : num % den < den := Nat.mod_lt num hd
  have hle := le_roundHalfEven num den
  have hge := roundHalfEven_le num den
  rcases Nat.lt_trichotomy (num / den) k with hlt | heq | hgt
  · have hprod : den * (num / den + 1) ≤ den * k := Nat.mul_le_mul_left den hlt
    rw [Nat.mul_add, Nat.mul_one] at hprod
    have hside : (2 * k + 1) * den = 2 * (den * k) + den := by ring
    constructor
    · intro _
      omega
    · intro _
      omega
  · have hside : (2 * k + 1) * den = 2 * (den * (num / den)) + den := by rw [heq]; ring
    unfold roundHalfEven
    dsimp only
    rw [hside]
    split
    · constructor <;> intro _ <;> omega
    · split
      · constructor <;> intro _ <;> omega
      · constructor <;> intro _ <;> omega
  · have hprod : den * (k + 1) ≤ den * (num / den) := Nat.mul_le_mul_left den hgt
    rw [Nat.mul_add, Nat.mul_one] at hprod
    have hside : (2 * k + 1) * den = 2 * (den * k) + den := by ring
    constructor
    · intro h
      omega
    · intro h
      omega

/-! ## Rounding to 53 bits -/

section Nearest

variable {num den : Nat}

theorem nearest_eq (num den : Nat) :
    nearest num den =
      roundHalfEven num (den * 2 ^ ((num / den).log2 - 52)) * 2 ^ ((num / den).log2 - 52) := rfl

/-- Rounding stays below a bound of 53 bits. -/
theorem nearest_le_of_le {c e : Nat} (hd : 0 < den) (hc : c < 2 ^ 53)
    (h : num ≤ c * 2 ^ e * den) : nearest num den ≤ c * 2 ^ e := by
  have hquotient : num / den ≤ c * 2 ^ e := Nat.div_le_of_le_mul (by rwa [Nat.mul_comm])
  have hplaces : (num / den).log2 - 52 ≤ e := by
    by_cases hzero : num / den = 0
    · simp [hzero]
    · have hlog : (num / den).log2 < 53 + e := by
        refine (Nat.log2_lt hzero).mpr (Nat.lt_of_le_of_lt hquotient ?_)
        rw [Nat.pow_add]
        exact Nat.mul_lt_mul_of_pos_right hc (Nat.two_pow_pos e)
      omega
  -- The bound is a whole number of steps.
  obtain ⟨steps, hsteps⟩ := Nat.pow_dvd_pow 2 hplaces
  have hbound : c * 2 ^ e = c * steps * 2 ^ ((num / den).log2 - 52) := by
    rw [hsteps, Nat.mul_comm (2 ^ _) steps, Nat.mul_assoc]
  rw [nearest_eq, hbound]
  refine Nat.mul_le_mul_right _ (roundHalfEven_le_of_le (Nat.mul_pos hd (Nat.two_pow_pos _)) ?_)
  rwa [Nat.mul_comm den, ← Nat.mul_assoc, ← hbound]

theorem div_lt_pow (num den : Nat) : num / den < 2 ^ 53 * 2 ^ ((num / den).log2 - 52) := by
  rw [← Nat.pow_add]
  refine Nat.lt_of_lt_of_le Nat.lt_log2_self (Nat.pow_le_pow_right (by decide) ?_)
  omega

/-- Rounding keeps to the bits there are, but may reach their end. -/
theorem nearest_le (num den : Nat) :
    nearest num den ≤ 2 ^ 53 * 2 ^ ((num / den).log2 - 52) := by
  rw [nearest_eq]
  refine Nat.mul_le_mul_right _ (Nat.le_trans (roundHalfEven_le _ _) ?_)
  rw [← Nat.div_div_eq_div_mul]
  have hlt := div_lt_pow num den
  exact Nat.div_lt_of_lt_mul (by rwa [Nat.mul_comm] at hlt)

theorem le_div_of_long (h : 0 < (num / den).log2 - 52) :
    2 ^ 52 * 2 ^ ((num / den).log2 - 52) ≤ num / den := by
  have hne : num / den ≠ 0 := by
    intro h0
    rw [h0, Nat.log2_zero] at h
    omega
  have hself := Nat.log2_self_le hne
  rwa [show (num / den).log2 = 52 + ((num / den).log2 - 52) by omega, Nat.pow_add] at hself

theorem le_nearest_of_long (h : 0 < (num / den).log2 - 52) :
    2 ^ 52 * 2 ^ ((num / den).log2 - 52) ≤ nearest num den := by
  rw [nearest_eq]
  refine Nat.mul_le_mul_right _ (Nat.le_trans ?_ (le_roundHalfEven _ _))
  rw [← Nat.div_div_eq_div_mul]
  exact (Nat.le_div_iff_mul_le (Nat.two_pow_pos _)).mpr (le_div_of_long h)

/-- A quotient has a finite double nearest to it if and only if it is below the
bound. -/
theorem nearest_lt_ceiling (hd : 0 < den) :
    nearest num den < ceiling ↔ num < bound * unit * den := by
  rw [← Nat.div_lt_iff_lt_mul hd]
  have hone : 0 < 2 ^ ((num / den).log2 - 52) := Nat.two_pow_pos _
  obtain hlow | heq | ⟨hhigh, hlong⟩ := lastPlace_cases ((num / den).log2 - 52)
  · -- The bits end at least one place below the ceiling, and so below the bound.
    have hlt : 2 ^ ((num / den).log2 - 52) < lastPlace := by omega
    have hhalf : 2 ^ 53 * 2 ^ ((num / den).log2 - 52) ≤ 2 ^ 52 * lastPlace := by
      rw [Nat.pow_succ, Nat.mul_assoc]
      exact Nat.mul_le_mul_left _ hlow
    refine iff_of_true (Nat.lt_of_le_of_lt (nearest_le num den) ?_)
      (Nat.lt_of_lt_of_le (div_lt_pow num den) (Nat.le_trans hhalf le_bound))
    rw [ceiling_eq]
    exact Nat.mul_lt_mul_of_pos_left hlt (Nat.two_pow_pos 53)
  · -- The last place is that of the largest finite double, which is odd there.
    have hplace : 0 < lastPlace := heq ▸ hone
    have hround := @roundHalfEven_le_iff num (den * lastPlace) (2 ^ 53 - 1)
      (Nat.mul_pos hd hplace) (by decide)
    have hside : (2 * (2 ^ 53 - 1) + 1) * (den * lastPlace) = 2 * (bound * unit * den) := by
      rw [← Nat.mul_assoc 2, bound_mul_unit, Nat.mul_assoc, Nat.mul_comm lastPlace]
    rw [hside, Nat.mul_lt_mul_left (by decide)] at hround
    rw [Nat.div_lt_iff_lt_mul hd, nearest_eq, heq, ceiling_eq, Nat.mul_lt_mul_right hplace,
      ← hround]
    exact Nat.lt_iff_le_pred (Nat.two_pow_pos 53)
  · -- The quotient itself reaches the ceiling.
    have hfull : ceiling ≤ 2 ^ 52 * 2 ^ ((num / den).log2 - 52) := by
      rw [ceiling_eq, Nat.pow_succ, Nat.mul_assoc]
      exact Nat.mul_le_mul_left _ hhigh
    refine iff_of_false (Nat.not_lt.mpr (Nat.le_trans hfull (le_nearest_of_long hlong)))
      (Nat.not_lt.mpr ?_)
    exact Nat.le_trans bound_le_ceiling (Nat.le_trans hfull (le_div_of_long hlong))

end Nearest

/-! ## Rounding to a double -/

theorem isFinite_ofQuotient (negative : Bool) (num : Nat) {den : Nat} (hd : 0 < den) :
    (ofQuotient negative num den).isFinite ↔ num < bound * unit * den := by
  rw [← nearest_lt_ceiling hd]
  unfold ofQuotient
  dsimp only
  by_cases h : nearest num den < ceiling
  · rw [if_pos h]
    exact iff_of_true rfl h
  · rw [if_neg h]
    exact iff_of_false Bool.false_ne_true h

theorem unit_mul_lt (m n : Nat) : unit * m < bound * unit * n ↔ m < bound * n := by
  rw [Nat.mul_comm bound, Nat.mul_assoc, Nat.mul_lt_mul_left unit_pos]

/-- An integer has a finite double if and only if it is below the bound. -/
theorem isSome_ofInt? (n : Int) : (ofInt? n).isSome ↔ n.natAbs < bound := by
  have hfinite := isFinite_ofQuotient (decide (n < 0)) (unit * n.natAbs) Nat.one_pos
  rw [unit_mul_lt, Nat.mul_one] at hfinite
  rw [← hfinite]
  unfold ofInt?
  cases ofQuotient (decide (n < 0)) (unit * n.natAbs) 1 with
  | finite s m => exact iff_of_true rfl rfl
  | _ => exact iff_of_false Bool.false_ne_true Bool.false_ne_true

end Double
end RecordQuery
