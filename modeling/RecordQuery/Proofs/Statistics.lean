/-
Aggregates of integers.

Where all rows count as integers, the sum, the least and the greatest of them, their
range and their median are those of the integers (`CountsAs`), however the rows say them.  The
order of the rows does not matter, sums and extremes of two working sets are put together
from those of each, and the median of an odd number of rows is the one in the middle
(`Aggregate.apply_of_integers`).
-/
import Mathlib.Algebra.BigOperators.Group.List.Basic
import Mathlib.Data.List.Perm.Basic
import Mathlib.Data.List.Sort
import RecordQuery.Proofs.Elements
import RecordQuery.Proofs.Overflow.Doubles

namespace RecordQuery

theorem Number.less_int (m n : Int) : (int m).less (int n) = decide (m < n) := by
  have hunit : (0 : Int) < Double.unit := Int.natCast_pos.mpr Double.unit_pos
  simp [less, place, Int.mul_lt_mul_left hunit]

namespace Aggregate

/-! ## Extremes -/

/-- Choosing between numbers one after another, where it is a choice between integers. -/
theorem foldl_ints {choose : Number → Number → Number} {pick : Int → Int → Int}
    (h : ∀ m n, choose (.int m) (.int n) = .int (pick m n)) (first : Int) (rest : List Int) :
    (rest.map Number.int).foldl choose (.int first) = .int (rest.foldl pick first) := by
  induction rest generalizing first with
  | nil => rfl
  | cons n rest ih => rw [List.map_cons, List.foldl_cons, List.foldl_cons, h, ih]

theorem least_of_ints (ints : List Int) :
    least (ints.map .int) = .int (ints.min?.getD 0) := by
  cases ints with
  | nil => rfl
  | cons first rest =>
    refine foldl_ints (fun m n => ?_) first rest
    rw [Number.less_int, Int.min_def]
    by_cases h : n < m
    · simp [h, Int.not_le.mpr h]
    · simp [h, Int.not_lt.mp h]

theorem greatest_of_ints (ints : List Int) :
    greatest (ints.map .int) = .int (ints.max?.getD 0) := by
  cases ints with
  | nil => rfl
  | cons first rest =>
    refine foldl_ints (fun m n => ?_) first rest
    rw [Number.less_int, Int.max_comm, Int.max_def]
    by_cases h : m < n
    · simp [h, Int.not_le.mpr h]
    · simp [h, Int.not_lt.mp h]

/-- Integers, if there are any, have a least one and a greatest one. -/
theorem exists_extremes {ints : List Int} (h : ints ≠ []) :
    ∃ lo hi, ints.min? = some lo ∧ ints.max? = some hi ∧ lo ∈ ints ∧ hi ∈ ints ∧
      ∀ n ∈ ints, lo ≤ n ∧ n ≤ hi := by
  obtain ⟨lo, hlo⟩ := Option.ne_none_iff_exists'.mp (mt List.min?_eq_none_iff.mp h)
  obtain ⟨hi, hhi⟩ := Option.ne_none_iff_exists'.mp (mt List.max?_eq_none_iff.mp h)
  obtain ⟨hml, hle⟩ := List.min?_eq_some_iff.mp hlo
  obtain ⟨hmh, hge⟩ := List.max?_eq_some_iff.mp hhi
  exact ⟨lo, hi, hlo, hhi, hml, hmh, fun n hn => ⟨hle n hn, hge n hn⟩⟩

theorem min?_perm {ints others : List Int} (h : ints.Perm others) : ints.min? = others.min? := by
  refine Option.ext fun n => ?_
  rw [List.min?_eq_some_iff, List.min?_eq_some_iff]
  simp only [h.mem_iff]

theorem max?_perm {ints others : List Int} (h : ints.Perm others) : ints.max? = others.max? := by
  refine Option.ext fun n => ?_
  rw [List.max?_eq_some_iff, List.max?_eq_some_iff]
  simp only [h.mem_iff]

/-- Choosing among two lists is choosing between the choices from each. -/
theorem foldl_append_cons (pick : Int → Int → Int) [Std.Associative pick] (m n : Int)
    (rest others : List Int) :
    (rest ++ n :: others).foldl pick m = pick (rest.foldl pick m) (others.foldl pick n) := by
  rw [List.foldl_append, List.foldl_cons, List.foldl_assoc]

section
variable {ints others : List Int} {m n : Int}

theorem min?_append (h : ints.min? = some m) (h' : others.min? = some n) :
    (ints ++ others).min? = some (Min.min m n) := by
  cases ints with
  | nil => cases h
  | cons first rest =>
    cases others with
    | nil => cases h'
    | cons first' rest' =>
      rw [← Option.some.inj h, ← Option.some.inj h']
      exact congrArg some (foldl_append_cons Min.min first first' rest rest')

theorem max?_append (h : ints.max? = some m) (h' : others.max? = some n) :
    (ints ++ others).max? = some (Max.max m n) := by
  cases ints with
  | nil => cases h
  | cons first rest =>
    cases others with
    | nil => cases h'
    | cons first' rest' =>
      rw [← Option.some.inj h, ← Option.some.inj h']
      exact congrArg some (foldl_append_cons Max.max first first' rest rest')

end

/-! ## The middle -/

/-- Integers in order. -/
def ascending (ints : List Int) : List Int :=
  ints.mergeSort fun m n => decide (m ≤ n)

theorem ascending_perm (ints : List Int) : (ascending ints).Perm ints :=
  List.mergeSort_perm _ _

theorem ascending_sorted (ints : List Int) : (ascending ints).Pairwise (· ≤ ·) :=
  List.pairwise_mergeSort' (· ≤ ·) ints

theorem ascending_congr {ints others : List Int} (h : ints.Perm others) :
    ascending ints = ascending others := by
  refine List.Perm.eq_of_pairwise (fun _ _ _ _ => Int.le_antisymm) (ascending_sorted ints)
    (ascending_sorted others) ?_
  exact (ascending_perm ints).trans (h.trans (ascending_perm others).symm)

theorem ordered_of_ints (ints : List Int) :
    (ints.map Number.int).mergeSort (fun a b => !b.less a) = (ascending ints).map .int := by
  refine (List.map_mergeSort fun m _ n _ => ?_).symm
  rw [Number.less_int]
  by_cases h : m ≤ n
  · simp [h, Int.not_lt.mpr h]
  · simp [h, Int.not_le.mp h]

theorem middle_perm {ints others : List Int} (h : ints.Perm others) :
    middle (ints.map .int) = middle (others.map .int) := by
  simp only [middle, ordered_of_ints, ascending_congr h]

/-- Up to a place in order there are integers that are no greater, and from it on ones that are
no less. -/
theorem countP_sorted {ints : List Int} (h : ints.Pairwise (· ≤ ·)) {k : Nat}
    (hk : k < ints.length) :
    k + 1 ≤ ints.countP (fun n => decide (n ≤ ints[k])) ∧
      ints.length - k ≤ ints.countP fun n => decide (ints[k] ≤ n) := by
  have hle : ∀ i j (hi : i < ints.length) (hj : j < ints.length), i ≤ j → ints[i] ≤ ints[j] := by
    intro i j hi hj hij
    rcases Nat.lt_or_eq_of_le hij with hlt | heq
    · exact List.pairwise_iff_getElem.mp h i j hi hj hlt
    · subst heq
      exact Int.le_refl _
  constructor
  · have hall : (ints.take (k + 1)).countP (fun n => decide (n ≤ ints[k])) =
        (ints.take (k + 1)).length := by
      refine List.countP_eq_length.mpr fun n hn => decide_eq_true ?_
      obtain ⟨i, hi, rfl⟩ := List.mem_take_iff_getElem.mp hn
      exact hle i k (by omega) hk (by omega)
    have hsub := (List.take_sublist (k + 1) ints).countP_le (p := fun n => decide (n ≤ ints[k]))
    rw [hall, List.length_take] at hsub
    omega
  · have hall : (ints.drop k).countP (fun n => decide (ints[k] ≤ n)) = (ints.drop k).length := by
      refine List.countP_eq_length.mpr fun n hn => decide_eq_true ?_
      obtain ⟨i, hi, rfl⟩ := List.mem_drop_iff_getElem.mp hn
      exact hle k (k + i) hk (by omega) (by omega)
    have hsub := (List.drop_sublist k ints).countP_le (p := fun n => decide (ints[k] ≤ n))
    rwa [hall, List.length_drop] at hsub

/-- Of an odd number of integers the one in the middle has at least half of them on each
side. -/
theorem middle_of_odd {ints : List Int} (h : ints.length % 2 = 1) :
    ∃ m, middle (ints.map .int) = .ok (.int m) ∧ m ∈ ints ∧
      ints.length ≤ 2 * ints.countP (fun n => decide (n ≤ m)) ∧
      ints.length ≤ 2 * ints.countP (fun n => decide (m ≤ n)) := by
  have hlength : (ascending ints).length = ints.length := (ascending_perm ints).length_eq
  have hk : ints.length / 2 < (ascending ints).length := by omega
  obtain ⟨hbelow, habove⟩ := countP_sorted (ascending_sorted ints) hk
  rw [(ascending_perm ints).countP_eq] at hbelow habove
  refine ⟨(ascending ints)[ints.length / 2], ?_,
    (ascending_perm ints).mem_iff.mp (List.getElem_mem hk), by omega, by omega⟩
  simp only [middle, ordered_of_ints, List.length_map, hlength, h, if_true]
  rw [List.getD_eq_getElem?_getD, List.getElem?_map, List.getElem?_eq_getElem hk]
  rfl

/-! ## Aggregates -/

section
variable {rows : List Value} {ints : List Int} (h : List.Forall₂ CountsAs rows ints)

include h

theorem apply_min : min.apply rows = .ok (.int (ints.min?.getD 0)) := by
  simp only [apply, numbers_of_counts h]
  exact congrArg (fun n => Except.ok (Value.number n)) (least_of_ints ints)

theorem apply_max : max.apply rows = .ok (.int (ints.max?.getD 0)) := by
  simp only [apply, numbers_of_counts h]
  exact congrArg (fun n => Except.ok (Value.number n)) (greatest_of_ints ints)

theorem apply_range :
    range.apply rows = .ok (.int (ints.max?.getD 0 - ints.min?.getD 0)) := by
  simp only [apply, numbers_of_counts h]
  show (do return Value.number (← (greatest (ints.map .int)).sub (least (ints.map .int)))) = _
  rw [greatest_of_ints, least_of_ints]
  rfl

theorem apply_median : median.apply rows =
    if ints = [] then .ok (.int 0) else (middle (ints.map .int)).map .number := by
  simp only [apply, numbers_of_counts h]
  cases ints with
  | nil => rfl
  | cons n rest =>
    rw [if_neg (List.cons_ne_nil n rest)]
    show (do return Value.number (← middle ((n :: rest).map .int))) = _
    cases middle ((n :: rest).map .int) <;> rfl

end

/-- These aggregates depend on the integers that the rows count as, and not on their order. -/
theorem apply_perm {function : Aggregate} (hf : function ∈ [sum, min, max, range, median])
    {rows others : List Value} {ints ints' : List Int} (h : List.Forall₂ CountsAs rows ints)
    (h' : List.Forall₂ CountsAs others ints') (hp : ints.Perm ints') :
    function.apply rows = function.apply others := by
  simp only [List.mem_cons, List.not_mem_nil, or_false] at hf
  rcases hf with rfl | rfl | rfl | rfl | rfl
  · rw [apply_sum h, apply_sum h', hp.sum_eq]
  · rw [apply_min h, apply_min h', min?_perm hp]
  · rw [apply_max h, apply_max h', max?_perm hp]
  · rw [apply_range h, apply_range h', min?_perm hp, max?_perm hp]
  · have hnil : ints = [] ↔ ints' = [] := by
      rw [← List.length_eq_zero_iff, ← List.length_eq_zero_iff, hp.length_eq]
    rw [apply_median h, apply_median h', middle_perm hp]
    simp only [hnil]

/-- Rows that all count as integers, in any order, have the same sum, extremes, range and
median.  The sum is exact, and that of two working sets is the sum of their sums.  The least
and the greatest, where there are rows, are counted and bound all that is, the range is
between them, and those of two working sets are the lesser and the greater one.  The median
of an odd number of rows is counted and has at least half of the rows on each side. -/
theorem apply_of_integers {rows : List Value} {ints : List Int}
    (h : List.Forall₂ CountsAs rows ints) :
    (∀ others, rows.Perm others → ∀ function ∈ [sum, min, max, range, median],
      function.apply rows = function.apply others) ∧
    sum.apply rows = .ok (.int ints.sum) ∧
    (rows ≠ [] → ∃ lo hi, min.apply rows = .ok (.int lo) ∧ max.apply rows = .ok (.int hi) ∧
      lo ∈ ints ∧ hi ∈ ints ∧ (∀ n ∈ ints, lo ≤ n ∧ n ≤ hi) ∧
      range.apply rows = .ok (.int (hi - lo)) ∧ 0 ≤ hi - lo) ∧
    (rows.length % 2 = 1 → ∃ m, median.apply rows = .ok (.int m) ∧ m ∈ ints ∧
      ints.length ≤ 2 * ints.countP (fun n => decide (n ≤ m)) ∧
      ints.length ≤ 2 * ints.countP (fun n => decide (m ≤ n))) ∧
    ∀ more others, List.Forall₂ CountsAs more others →
      (∃ m n, sum.apply rows = .ok (.int m) ∧ sum.apply more = .ok (.int n) ∧
        sum.apply (rows ++ more) = .ok (.int (m + n))) ∧
      (rows ≠ [] → more ≠ [] →
        (∃ m n, min.apply rows = .ok (.int m) ∧ min.apply more = .ok (.int n) ∧
          min.apply (rows ++ more) = .ok (.int (Min.min m n))) ∧
        ∃ m n, max.apply rows = .ok (.int m) ∧ max.apply more = .ok (.int n) ∧
          max.apply (rows ++ more) = .ok (.int (Max.max m n))) := by
  have hlength := h.length_eq
  have hne : ∀ {rows : List Value} {ints : List Int}, List.Forall₂ CountsAs rows ints →
      rows ≠ [] → ints ≠ [] := by
    intro rows ints h hrows hints
    subst hints
    cases h
    exact hrows rfl
  refine ⟨?_, apply_sum h, ?_, ?_, ?_⟩
  · intro others hp function hf
    obtain ⟨ints', hothers, hints⟩ := List.perm_comp_forall₂ hp.symm h
    exact apply_perm hf h hothers hints.symm
  · intro hrows
    obtain ⟨lo, hi, hlo, hhi, hml, hmh, hbounds⟩ := exists_extremes (hne h hrows)
    have hnonneg := (hbounds lo hml).2
    refine ⟨lo, hi, ?_, ?_, hml, hmh, hbounds, ?_, by omega⟩
    · rw [apply_min h, hlo, Option.getD_some]
    · rw [apply_max h, hhi, Option.getD_some]
    · rw [apply_range h, hlo, hhi, Option.getD_some, Option.getD_some]
  · intro hodd
    rw [hlength] at hodd
    obtain ⟨m, hm, hmem, hbelow, habove⟩ := middle_of_odd hodd
    refine ⟨m, ?_, hmem, hbelow, habove⟩
    have hints : ints ≠ [] := by
      intro hnil
      subst hnil
      cases hodd
    rw [apply_median h, if_neg hints, hm]
    rfl
  · intro more others hmore
    have htogether : List.Forall₂ CountsAs (rows ++ more) (ints ++ others) :=
      List.rel_append h hmore
    refine ⟨⟨_, _, apply_sum h, apply_sum hmore, ?_⟩, fun hrows hothers => ?_⟩
    · rw [apply_sum htogether, List.sum_append]
    · obtain ⟨lo, hi, hlo, hhi, -⟩ := exists_extremes (hne h hrows)
      obtain ⟨lo', hi', hlo', hhi', -⟩ := exists_extremes (hne hmore hothers)
      refine ⟨⟨_, _, apply_min h, apply_min hmore, ?_⟩, _, _, apply_max h, apply_max hmore, ?_⟩
      · rw [apply_min htogether, min?_append hlo hlo', hlo, hlo']
        rfl
      · rw [apply_max htogether, max?_append hhi hhi', hhi, hhi']
        rfl

/-- Rows that say integers in all ways there are: as numbers, numerals and booleans, alone in
a record, and by not being numbers at all. -/
def said : List Value :=
  [.text " 2 ", .record [("v", .int 7)], .null, .bool true, .text "-3"]

theorem apply_of_integers_said :
    List.Forall₂ CountsAs said [2, 7, 0, 1, -3] ∧
      (∀ function ∈ [sum, min, max, range, median],
        function.apply said = function.apply said.reverse) ∧
      sum.apply said = .ok (.int 7) ∧
      (∃ lo hi, min.apply said = .ok (.int lo) ∧ max.apply said = .ok (.int hi) ∧
        lo ∈ [2, 7, 0, 1, -3] ∧ hi ∈ [2, 7, 0, 1, -3] ∧
        (∀ n ∈ [2, 7, 0, 1, -3], lo ≤ n ∧ n ≤ hi) ∧
        range.apply said = .ok (.int (hi - lo)) ∧ 0 ≤ hi - lo) ∧
      (∃ m : Int, median.apply said = .ok (.int m) ∧ m ∈ [2, 7, 0, 1, -3] ∧
        5 ≤ 2 * [2, 7, 0, 1, -3].countP (fun n => decide (n ≤ m)) ∧
        5 ≤ 2 * [2, 7, 0, 1, -3].countP (fun n => decide (m ≤ n))) ∧
      ∃ m n, min.apply said = .ok (.int m) ∧ min.apply [.list []] = .ok (.int n) ∧
        min.apply (said ++ [.list []]) = .ok (.int (Min.min m n)) := by
  have hsaid : List.Forall₂ CountsAs said [2, 7, 0, 1, -3] := by
    refine .cons ?_ (.cons ?_ (.cons rfl (.cons rfl (.cons ?_ .nil))))
    all_goals
      unfold CountsAs
      decide +kernel
  obtain ⟨hperm, hsum, hextremes, hmedian, hmore⟩ := apply_of_integers hsaid
  have hlist : List.Forall₂ CountsAs [.list []] [0] := .cons rfl .nil
  exact ⟨hsaid, hperm _ (List.reverse_perm said).symm, hsum, hextremes (by simp [said]),
    hmedian rfl, ((hmore _ _ hlist).2 (by simp [said]) (by simp)).1⟩

end Aggregate
end RecordQuery
