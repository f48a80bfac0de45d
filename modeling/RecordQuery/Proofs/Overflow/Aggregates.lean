/-
When aggregates stop at the size of a number.

A sum stops where an integer without a double meets a double, a mean and a median also
where a quotient is too large, and a variance where the square of a deviation is.  For
every aggregate the exact condition is collected in `Aggregate.Overflows`.
-/
import RecordQuery.Proofs.Overflow.Numbers

namespace RecordQuery

namespace Aggregate

open Overflowed

/-- In a sum from the left, an integer comes to be added to a double for which there
is no double. -/
def TotalOverflows (numbers : List Number) : Prop :=
  ∃ before n after sum, numbers = before ++ n :: after ∧ total before = .ok sum ∧ ¬ sum.Mixes n

def MeanOverflows (numbers : List Number) : Prop :=
  TotalOverflows numbers ∨ ∃ sum, total numbers = .ok sum ∧ ¬ sum.Divides (count numbers)

/-- Of an even count, the two middle numbers have no sum, or their sum no half. -/
def MiddleOverflows (numbers : List Number) : Prop :=
  let ordered := numbers.mergeSort fun a b => !b.less a
  let lower := ordered.getD (ordered.length / 2 - 1) .zero
  let upper := ordered.getD (ordered.length / 2) .zero
  numbers.length % 2 = 0 ∧
    (¬ lower.Mixes upper ∨ ∃ sum, lower.add upper = .ok sum ∧ ¬ sum.Divides (.int 2))

/-- A number that has no double to compare with the mean, or whose deviation from the
mean has no finite square. -/
def Deviates (mean : Double) (n : Number) : Prop :=
  ¬ n.Fits ∨ ∃ x, n.toDouble = .ok x ∧ (x.sub mean).isFinite ∧
    ((x.sub mean).power (.finite false (2 * Double.unit))).isFinite = false

def VarianceOverflows (numbers : List Number) : Prop :=
  2 ≤ numbers.length ∧ (MeanOverflows numbers ∨
    ∃ mean, Aggregate.mean numbers = .ok mean ∧
      ((∃ n ∈ numbers, Deviates mean n) ∨ ¬ Number.Fits (.int (numbers.length - 1))))

/-- Numbers of which an aggregate has no value. -/
def OverflowsOn : Aggregate → List Number → Prop
  | sum, numbers => TotalOverflows numbers
  | average, numbers => numbers ≠ [] ∧ MeanOverflows numbers
  | median, numbers => numbers ≠ [] ∧ MiddleOverflows numbers
  | range, numbers => ¬ (greatest numbers).Mixes (least numbers)
  | variance, numbers | standardDeviation, numbers => VarianceOverflows numbers
  | _, _ => False

/-- Whether an aggregate reads the elements of a working set as numbers. -/
def isNumeric : Aggregate → Bool
  | unique | mostFrequent | leastFrequent => false
  | _ => true

/-- Rows to which an aggregate cannot be applied although each of them has a single
value: one of these is too large to be read, or else the numbers that are read have no
result. -/
def Overflows (function : Aggregate) (rows : List Value) : Prop :=
  function.isNumeric ∧ ∃ values, elements rows = .ok values ∧
    ((∃ value ∈ values, value.Oversized) ∨
      ∃ ns, values.mapM Value.toNumber = .ok ns ∧ function.OverflowsOn ns)

theorem total_overflowed {ns : List Number} : Overflowed (total ns) ↔ TotalOverflows ns := by
  unfold total
  rw [foldlM_iff]
  simp only [Number.add, Number.combine_overflowed]
  rfl

theorem mean_overflowed {ns : List Number} (h : ns ≠ []) :
    Overflowed (mean ns) ↔ MeanOverflows ns := by
  have hcount : count ns ≠ .zero := fun hc =>
    h (List.length_eq_zero_iff.mp (Int.ofNat.inj (Number.int.inj hc)))
  unfold mean MeanOverflows
  simp only [bind_iff, total_overflowed, Number.div_overflowed hcount]

theorem middle_overflowed {ns : List Number} : Overflowed (middle ns) ↔ MiddleOverflows ns := by
  have htwo : (Number.int 2) ≠ .zero := by decide
  simp only [middle, MiddleOverflows, List.length_mergeSort]
  by_cases hodd : ns.length % 2 = 1
  · rw [if_pos hodd]
    exact iff_of_false not_ok fun h => by omega
  · have heven : ns.length % 2 = 0 := by omega
    rw [if_neg hodd, bind_iff, and_iff_right heven]
    simp only [return_iff, Number.div_overflowed htwo, Number.add, Number.combine_overflowed]

/-! ## Variance -/

/-- One step of the sum of squared deviations. -/
def addSquare (mean : Double) (sum n : Number) : Except Fault Number := do
  let deviation ← (← n.sub (.double mean)).toDouble
  sum.add (.double (← square deviation))

theorem sampleVariance_eq {ns : List Number} (h : 2 ≤ ns.length) :
    sampleVariance ns = do
      let mean ← mean ns
      let squares ← ns.foldlM (addSquare mean) .zero
      return .double (← squares.div (.int (ns.length - 1))) := by
  rw [sampleVariance, if_neg (Nat.not_lt.mpr h)]
  rfl

theorem addSquare_raises (mean : Double) (sum n : Number) :
    RaisesOnly Fault.OfSize (addSquare mean sum n) := by
  refine RaisesOnly.mono ?_ Fault.ofSize_of_ofNumbers
  exact (Number.combine_raises _ _ n _).bind fun d => (Number.toDouble_raises d).bind fun x =>
    (square_raises x).bind fun s => Number.combine_raises _ _ sum _

theorem square_overflowed {x : Double} : Overflowed (square x) ↔
    x.isFinite ∧ (x.power (.finite false (2 * Double.unit))).isFinite = false := by
  simp only [square]
  split
  · next h => exact iff_of_true (error trivial) (by simpa using h)
  · next h => exact iff_of_false not_ok (by simpa using h)

theorem addSquare_eq (mean : Double) (sum n : Number) :
    addSquare mean sum n = (do
      let x ← n.toDouble
      let squared ← square (x.sub mean)
      sum.toDouble.map fun y => .double (y.add squared)) := by
  unfold addSquare Number.sub Number.add
  simp only [Number.combine_double]
  cases n.toDouble <;> rfl

theorem addSquare_overflowed {mean : Double} {sum n : Number} (h : sum.Fits) :
    Overflowed (addSquare mean sum n) ↔ Deviates mean n := by
  have hsum : ¬ Overflowed sum.toDouble := fun ho => Number.toDouble_overflowed.mp ho h
  rw [addSquare_eq, bind_iff, Number.toDouble_overflowed]
  unfold Deviates
  simp only [bind_iff, map_iff, hsum, and_false, exists_false, or_false, square_overflowed]

theorem addSquare_ok {mean : Double} {sum n result : Number}
    (h : addSquare mean sum n = .ok result) : ∃ x, result = .double x := by
  rw [addSquare_eq] at h
  obtain ⟨x, -, h⟩ := bind_eq_ok.mp h
  obtain ⟨squared, -, h⟩ := bind_eq_ok.mp h
  cases hy : sum.toDouble with
  | error fault =>
    rw [hy] at h
    cases h
  | ok y =>
    rw [hy] at h
    cases h
    exact ⟨_, rfl⟩

theorem squares_ok {mean : Double} {ns : List Number} {sum result : Number} (hne : ns ≠ [])
    (h : ns.foldlM (addSquare mean) sum = .ok result) : ∃ x, result = .double x := by
  obtain rfl | ⟨before, last, rfl⟩ := ns.eq_nil_or_concat
  · exact absurd rfl hne
  · rw [List.concat_eq_append, List.foldlM_append] at h
    obtain ⟨middle, -, h⟩ := bind_eq_ok.mp h
    rw [List.foldlM_cons] at h
    obtain ⟨other, ho, ⟨⟩⟩ := bind_eq_ok.mp h
    exact addSquare_ok ho

theorem squares_overflowed {mean : Double} {ns : List Number} :
    Overflowed (ns.foldlM (addSquare mean) .zero) ↔ ∃ n ∈ ns, Deviates mean n := by
  refine foldlM_iff_of_invariant (addSquare_raises mean) (fun sum n => addSquare_overflowed)
    (fun sum n result h => ?_) ?_
  · obtain ⟨x, rfl⟩ := addSquare_ok h
    exact trivial
  · exact Double.bound_pos

theorem sampleVariance_overflowed {ns : List Number} :
    Overflowed (sampleVariance ns) ↔ VarianceOverflows ns := by
  unfold VarianceOverflows
  by_cases hlong : 2 ≤ ns.length
  · have hne : ns ≠ [] := by
      rintro rfl
      cases hlong
    have hrest : ∀ mean, Overflowed (do
        let squares ← ns.foldlM (addSquare mean) .zero
        return Number.double (← squares.div (.int (ns.length - 1)))) ↔
          (∃ n ∈ ns, Deviates mean n) ∨ ¬ Number.Fits (.int (ns.length - 1)) := by
      intro mean
      have hdivisor : Number.int (ns.length - 1) ≠ .zero := by
        intro h
        have := Number.int.inj h
        omega
      rw [bind_iff, squares_overflowed]
      simp only [return_iff, Number.div_overflowed hdivisor]
      constructor
      · rintro (h | ⟨squares, hs, h⟩)
        · exact .inl h
        · obtain ⟨x, rfl⟩ := squares_ok hne hs
          exact .inr fun hfits => h ⟨trivial, hfits⟩
      · intro h
        by_cases hd : ∃ n ∈ ns, Deviates mean n
        · exact .inl hd
        · obtain ⟨squares, hs⟩ := exists_ok (RaisesOnly.foldlM (addSquare_raises mean) ns .zero)
            fun ho => hd (squares_overflowed.mp ho)
          obtain ⟨x, rfl⟩ := squares_ok hne hs
          exact .inr ⟨_, hs, fun hfits => (h.resolve_left hd) hfits.2⟩
    rw [sampleVariance_eq hlong, bind_iff, mean_overflowed hne, and_iff_right hlong]
    simp only [hrest]
  · rw [sampleVariance, if_pos (Nat.lt_of_not_le hlong)]
    exact iff_of_false not_ok fun h => hlong h.1

theorem sampleVariance_ok {ns : List Number} {variance : Number}
    (h : sampleVariance ns = .ok variance) : variance = .zero ∨ ∃ x, variance = .double x := by
  by_cases hlong : 2 ≤ ns.length
  · rw [sampleVariance_eq hlong] at h
    obtain ⟨mean, -, h⟩ := bind_eq_ok.mp h
    obtain ⟨squares, -, h⟩ := bind_eq_ok.mp h
    obtain ⟨x, -, ⟨⟩⟩ := bind_eq_ok.mp h
    exact .inr ⟨x, rfl⟩
  · rw [sampleVariance, if_pos (Nat.lt_of_not_le hlong)] at h
    cases h
    exact .inl rfl

/-- A variance can be read, and what is read has a root. -/
theorem root_not_overflowed {ns : List Number} {variance : Number}
    (h : sampleVariance ns = .ok variance) : ¬ Overflowed (do
      let n ← Value.toNumber (.number variance)
      return Value.double (← n.toDouble).sqrt) := by
  rw [bind_iff, Value.toNumber_overflowed]
  simp only [return_iff, Number.toDouble_overflowed]
  rintro (hlarge | ⟨n, hn, hfits⟩)
  · obtain rfl | ⟨x, rfl⟩ := sampleVariance_ok h
    · exact Nat.not_le_of_lt Double.bound_pos hlarge
    · exact hlarge
  · exact hfits (Value.fits_of_toNumber hn)

/-! ## Applying an aggregate -/

theorem element_raises_ambiguous (row : Value) :
    RaisesOnly (fun fault => ∃ fields, fault = .ambiguousRow fields) (element row) := by
  unfold element
  split
  · exact RaisesOnly.ok _
  · exact RaisesOnly.ok _
  · exact RaisesOnly.error ⟨_, rfl⟩
  · exact RaisesOnly.ok _

theorem elements_not_overflowed (rows : List Value) : ¬ Overflowed (elements rows) := by
  rintro ⟨fault, h, hsize⟩
  obtain ⟨fields, rfl⟩ := RaisesOnly.mapM element_raises_ambiguous rows fault h
  exact hsize

theorem numbers_overflowed {rows : List Value} {f : List Number → Except Fault Value} :
    Overflowed (numbers rows >>= f) ↔ ∃ values, elements rows = .ok values ∧
      ((∃ value ∈ values, value.Oversized) ∨
        ∃ ns, values.mapM Value.toNumber = .ok ns ∧ Overflowed (f ns)) := by
  have hreads : ∀ value : Value, RaisesOnly Fault.OfSize value.toNumber := fun value =>
    (Value.toNumber_raises value).mono Fault.ofSize_of_ofNumbers
  have hnumbers : (numbers rows >>= f) = (do
      let values ← elements rows
      let ns ← values.mapM Value.toNumber
      f ns) := by
    unfold numbers
    cases elements rows <;> rfl
  rw [hnumbers, bind_iff, or_iff_right (elements_not_overflowed rows)]
  simp only [bind_iff, mapM_iff hreads, Value.toNumber_overflowed]

theorem numeric_overflowed {function : Aggregate} {rows : List Value}
    {f : List Number → Except Fault Value} (hnumeric : function.isNumeric)
    (happly : function.apply rows = numbers rows >>= f)
    (hf : ∀ ns, Overflowed (f ns) ↔ function.OverflowsOn ns) :
    Overflowed (function.apply rows) ↔ function.Overflows rows := by
  rw [happly, numbers_overflowed]
  simp only [hf, Overflows, hnumeric, true_and]

theorem present_not_overflowed {rows : List Value} {f : List Value → Value} :
    ¬ Overflowed (do return f (← present rows)) := by
  rw [return_iff, present, return_iff]
  exact elements_not_overflowed rows

/-- An aggregate stops at a size if and only if the rows have one of the sizes that
it cannot deal with. -/
theorem apply_overflowed {function : Aggregate} {rows : List Value} :
    Overflowed (function.apply rows) ↔ function.Overflows rows := by
  have hpresent : ∀ {f : List Value → Value}, function.isNumeric = false →
      function.apply rows = (do return f (← present rows)) →
      (Overflowed (function.apply rows) ↔ function.Overflows rows) := by
    intro f hnumeric happly
    rw [happly]
    exact iff_of_false present_not_overflowed fun h => Bool.false_ne_true (hnumeric ▸ h.1)
  cases function with
  | sum => exact numeric_overflowed rfl rfl fun ns => return_iff.trans total_overflowed
  | average =>
    refine numeric_overflowed rfl rfl fun ns => ?_
    cases ns with
    | nil => exact iff_of_false not_ok fun h => h.1 rfl
    | cons n rest =>
      have hne : n :: rest ≠ [] := List.cons_ne_nil n rest
      exact (return_iff.trans (mean_overflowed hne)).trans (and_iff_right hne).symm
  | median =>
    refine numeric_overflowed rfl rfl fun ns => ?_
    cases ns with
    | nil => exact iff_of_false not_ok fun h => h.1 rfl
    | cons n rest =>
      have hne : n :: rest ≠ [] := List.cons_ne_nil n rest
      exact (return_iff.trans middle_overflowed).trans (and_iff_right hne).symm
  | min => exact numeric_overflowed rfl rfl fun ns => iff_of_false not_ok id
  | max => exact numeric_overflowed rfl rfl fun ns => iff_of_false not_ok id
  | range => exact numeric_overflowed rfl rfl fun ns => return_iff.trans Number.combine_overflowed
  | variance =>
    exact numeric_overflowed rfl rfl fun ns => return_iff.trans sampleVariance_overflowed
  | standardDeviation =>
    refine numeric_overflowed rfl rfl fun ns => ?_
    rw [bind_iff, sampleVariance_overflowed]
    exact or_iff_left fun ⟨_, hv, ho⟩ => root_not_overflowed hv ho
  | unique => exact hpresent rfl rfl
  | mostFrequent => exact hpresent rfl rfl
  | leastFrequent => exact hpresent rfl rfl

end Aggregate

end RecordQuery
