/-
What the rows of a working set contribute.

A row contributes itself, or if it is a record the value of its only field; a record
with two or more fields contributes nothing and is the first thing at which an
aggregate stops (`Aggregate.elements_of_short`, `Aggregate.elements_of_first`).  Rows
that all count as integers give numeric aggregates just these (`Aggregate.numbers_of_counts`).
-/
import Mathlib.Algebra.Ring.Int.Defs
import Mathlib.Data.List.Forall2
import RecordQuery.Proofs.Attempts
import RecordQuery.Proofs.Causes

namespace RecordQuery

namespace Value

/-- How many fields a value has.  Only records have fields. -/
def fieldCount : Value → Nat
  | record fields => fields.length
  | _ => 0

/-- The value of the only field of a record, null if it has none.  Other values stand for
themselves. -/
def sole : Value → Value
  | record [] => null
  | record ((_, value) :: _) => value
  | value => value

theorem fieldCount_of_isScalar {value : Value} (h : value.isScalar) : value.fieldCount = 0 := by
  cases value with
  | record fields => cases h
  | _ => rfl

theorem sole_of_isScalar {value : Value} (h : value.isScalar) : value.sole = value := by
  cases value with
  | record fields => cases h
  | _ => rfl

/-- Rows have a first record with two or more fields, if they have one at all. -/
theorem exists_first_long {rows : List Value} (h : ∃ row ∈ rows, 2 ≤ row.fieldCount) :
    ∃ before fields after, rows = before ++ record fields :: after ∧
      (∀ row ∈ before, row.fieldCount < 2) ∧ 2 ≤ fields.length := by
  obtain ⟨row, hm, hrow⟩ := h
  have hfound : (rows.find? fun row => 2 ≤ row.fieldCount).isSome :=
    List.find?_isSome.mpr ⟨row, hm, decide_eq_true hrow⟩
  obtain ⟨first, hfirst⟩ := Option.isSome_iff_exists.mp hfound
  obtain ⟨hlong, before, after, heq, hbefore⟩ := List.find?_eq_some_iff_append.mp hfirst
  cases first with
  | record fields =>
    refine ⟨before, fields, after, heq, fun row hm => ?_, of_decide_eq_true hlong⟩
    simpa using hbefore row hm
  | _ => cases hlong

end Value

namespace Aggregate

open Value

/-! ## Elements -/

/-- The fields of a record, in the order in which a report lists them. -/
def reported (fields : List (String × Value)) : List String :=
  (Table.names fields).mergeSort fun a b => decide (a ≤ b)

theorem element_of_short {row : Value} (h : row.fieldCount < 2) : element row = .ok row.sole := by
  cases row with
  | record fields =>
    match fields with
    | [] => rfl
    | [(_, _)] => rfl
    | _ :: _ :: rest => exact absurd h (by simp [fieldCount])
  | _ => rfl

theorem element_of_long {fields : List (String × Value)} (h : 2 ≤ fields.length) :
    element (.record fields) = .error (.ambiguousRow (reported fields)) := by
  match fields with
  | [] => cases h
  | [_] => exact absurd h (by simp)
  | _ :: _ :: _ => rfl

/-- Rows without a record of several fields all have an element. -/
theorem elements_of_short {rows : List Value} (h : ∀ row ∈ rows, row.fieldCount < 2) :
    elements rows = .ok (rows.map sole) :=
  mapM_eq_ok fun row hm => element_of_short (h row hm)

/-- The first record of several fields is where the elements end. -/
theorem elements_of_first {before after : List Value} {fields : List (String × Value)}
    (hb : ∀ row ∈ before, row.fieldCount < 2) (h : 2 ≤ fields.length) :
    elements (before ++ .record fields :: after) = .error (.ambiguousRow (reported fields)) :=
  mapM_eq_error (fun row hm => element_of_short (hb row hm)) (element_of_long h)

theorem elements_of_isScalar {rows : List Value} (h : ∀ row ∈ rows, row.isScalar) :
    elements rows = .ok rows := by
  have hshort : ∀ row ∈ rows, row.fieldCount < 2 := by
    intro row hm
    rw [fieldCount_of_isScalar (h row hm)]
    decide
  have hsole : rows.map sole = rows :=
    (List.map_congr_left fun row hm => sole_of_isScalar (h row hm)).trans (List.map_id rows)
  rw [elements_of_short hshort, hsole]

/-! ## Rows that count as integers -/

/-- That numeric aggregates read a row as an integer. -/
def CountsAs (row : Value) (n : Int) : Prop :=
  (element row >>= Value.toNumber) = .ok (.int n)

theorem numbers_of_counts {rows : List Value} {ints : List Int}
    (h : List.Forall₂ CountsAs rows ints) : numbers rows = .ok (ints.map .int) := by
  -- All elements are taken before the first of them is read as a number.
  have hread : ∃ values, elements rows = .ok values ∧
      values.mapM Value.toNumber = .ok (ints.map .int) := by
    induction h with
    | nil => exact ⟨[], rfl, rfl⟩
    | cons hrow _ ih =>
      obtain ⟨value, helement, hnumber⟩ := bind_eq_ok.mp hrow
      obtain ⟨values, helements, hnumbers⟩ := ih
      rw [elements] at helements ⊢
      refine ⟨value :: values, ?_, ?_⟩
      · rw [List.mapM_cons, helement, helements]
        rfl
      · rw [List.mapM_cons, hnumber, hnumbers]
        rfl
  obtain ⟨values, helements, hnumbers⟩ := hread
  exact bind_eq_ok.mpr ⟨values, helements, hnumbers⟩

theorem total_of_ints (ints : List Int) :
    total (ints.map Number.int) = .ok (.int ints.sum) := by
  suffices ∀ start, (ints.map Number.int).foldlM Number.add (.int start) =
      .ok (.int (start + ints.sum)) by
    rw [total, Number.zero, this, Int.zero_add]
  induction ints with
  | nil =>
    intro start
    rw [List.sum_nil, Int.add_zero]
    rfl
  | cons n rest ih =>
    intro start
    rw [List.map_cons, List.foldlM_cons, List.sum_cons, ← Int.add_assoc]
    exact ih (start + n)

/-- The sum of rows that all count as integers is exact. -/
theorem apply_sum {rows : List Value} {ints : List Int} (h : List.Forall₂ CountsAs rows ints) :
    sum.apply rows = .ok (.int ints.sum) := by
  simp only [apply, numbers_of_counts h]
  exact bind_eq_ok.mpr ⟨_, rfl, bind_eq_ok.mpr ⟨_, total_of_ints ints, rfl⟩⟩

end Aggregate
end RecordQuery
