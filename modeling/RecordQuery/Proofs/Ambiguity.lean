/-
When aggregates are ambiguous.

An aggregate has no single value to read from a record with two or more fields.  It takes
the elements of all rows before it does anything else, so such a record stops it whatever
the other rows hold, and the first one is named (`Aggregate.apply_of_first`).

The selection of one field makes its rows flat, which no such record survives.  It leaves
rows as they are only where the field is a bound name that no row of the source has as a
field (`Select.isScalar_of_shape`).
-/
import Mathlib.Data.List.Sort
import RecordQuery.Proofs.Elements
import RecordQuery.Proofs.Frame

namespace RecordQuery

/-! ## Rows that an aggregate can take -/

namespace Aggregate

theorem reported_perm (fields : List (String × Value)) :
    (reported fields).Perm (Table.names fields) :=
  List.mergeSort_perm _ _

theorem reported_sorted (fields : List (String × Value)) :
    (reported fields).Pairwise (· ≤ ·) :=
  List.pairwise_mergeSort' (· ≤ ·) (Table.names fields)

section
variable {function : Aggregate}

/-- Rows among which there is no record of several fields are not ambiguous. -/
theorem apply_of_short {rows : List Value} (h : ∀ row ∈ rows, row.fieldCount < 2)
    (names : List String) : function.apply rows ≠ .error (.ambiguousRow names) := by
  obtain ⟨reduce, hreduce, happly⟩ := function.reducesElements
  rw [happly, elements_of_short h]
  exact fun hfault => hreduce _ _ hfault

/-- The first record of several fields is what is reported. -/
theorem apply_of_first {before after : List Value} {fields : List (String × Value)}
    (hb : ∀ row ∈ before, row.fieldCount < 2) (h : 2 ≤ fields.length) :
    function.apply (before ++ .record fields :: after) =
      .error (.ambiguousRow (reported fields)) := by
  obtain ⟨reduce, -, happly⟩ := function.reducesElements
  rw [happly, elements_of_first hb h]
  rfl

theorem apply_ambiguous_iff {rows : List Value} :
    (∃ names, function.apply rows = .error (.ambiguousRow names)) ↔
      ∃ row ∈ rows, 2 ≤ row.fieldCount := by
  constructor
  · intro hfault
    obtain ⟨names, hfault⟩ := hfault
    apply Classical.byContradiction
    intro hnone
    refine apply_of_short (fun row hm => ?_) names hfault
    exact Nat.lt_of_not_le fun hlong => hnone ⟨row, hm, hlong⟩
  · intro hlong
    obtain ⟨before, fields, after, rfl, hbefore, hfields⟩ := Value.exists_first_long hlong
    exact ⟨_, apply_of_first hbefore hfields⟩

end

end Aggregate

/-! ## The selection of one field -/

namespace Select

variable {select : Select} {field : String} (hf : select.fields = .named ⟨field, []⟩)

include hf

/-- One field is selected as scalars, unless it is a bound name that stands for the rows
themselves. -/
theorem isScalar_of_shape {source : Source} {byName : Bool}
    (h : select.each ∨ byName = false ∨ source.exposes field) (records : List Value) :
    ∀ row ∈ (select.shape source byName records).rows, row.isScalar := by
  obtain ⟨fields, condition, each⟩ := select
  cases hf
  simp only [shape]
  cases each with
  | true =>
    intro row hm
    obtain ⟨value, -, hv⟩ := List.mem_flatMap.mp hm
    obtain ⟨item, -, rfl⟩ := List.mem_map.mp hv
    exact Value.isScalar_flat item
  | false =>
    have hwhole : (byName && !source.exposes field) = false := by
      obtain hb | he := h.resolve_left Bool.false_ne_true
      · rw [hb, Bool.false_and]
      · rw [he, Bool.not_true, Bool.and_false]
    rw [hwhole]
    exact List.forall_mem_map.mpr fun value _ => Value.isScalar_flat value

/-- A field that is no bound name leads nowhere by name. -/
theorem source_of_unbound {binding : Binding} (h : binding.get? field = none)
    (seen : List String) : (Binding.source binding select.fields seen).2 = false := by
  have hnamed : Binding.named? binding [field] = none := by
    rw [Binding.named?, List.findSome?_cons, h]
    rfl
  have hsource : Binding.source binding (.named ⟨field, []⟩) seen =
      (Binding.overlapping? binding [field], false) := by
    simp only [Binding.source, Names.toList, hnamed]
  rw [hf, hsource]

theorem isScalar_of_run {binding : Binding} {store : Table Value} {seen : List String}
    {found : Selection} (hr : select.run binding store seen = .ok found)
    (h : select.each ∨ binding.get? field = none ∨ ∃ source byName,
      Binding.source binding select.fields seen = (some source, byName) ∧
        ∃ row ∈ source.rows, row.hasField field) :
    ∀ row ∈ found.rows, row.isScalar := by
  unfold run at hr
  split at hr
  · cases hr
  · cases hs : Binding.source binding select.fields seen with
    | mk chosen byName =>
      simp only [hs] at hr
      cases chosen with
      | none =>
        cases hr
        exact fun _ hm => absurd hm List.not_mem_nil
      | some source =>
        obtain ⟨kept, -, rfl⟩ := map_eq_ok.mp hr
        refine isScalar_of_shape hf (h.imp id (Or.imp (fun hu => ?_) fun he => ?_)) kept
        · have hby := source_of_unbound hf hu seen
          rwa [hs] at hby
        · obtain ⟨_, _, heq, hrow⟩ := he
          cases hs.symm.trans heq
          exact List.any_eq_true.mpr hrow

end Select

namespace Aggregate

/-- An aggregate is ambiguous if and only if some row is a record with two or more fields,
and the report lists the fields of the first such row in order.  What one field was selected
into is never ambiguous, if lists were spread out, or the field is no bound name, or a record
of the source has it: its rows are scalars. -/
theorem apply_ambiguous :
    (∀ (function : Aggregate) (rows : List Value),
      ((∃ names, function.apply rows = .error (.ambiguousRow names)) ↔
        ∃ row ∈ rows, 2 ≤ row.fieldCount) ∧
      ∀ before fields after, rows = before ++ .record fields :: after →
        (∀ row ∈ before, row.fieldCount < 2) → 2 ≤ fields.length →
        ∃ names, function.apply rows = .error (.ambiguousRow names) ∧
          names.Perm (Table.names fields) ∧ names.Pairwise (· ≤ ·) ∧
          (Fault.ambiguousRow names).message = "Cannot aggregate rows with fields " ++
            Text.quotedList names ++ "; select a single field first") ∧
    ∀ (binding : Binding) (session : Session) (select : Select) (field : String),
      select.fields = .named ⟨field, []⟩ →
      (select.each ∨ binding.get? field = none ∨ ∃ source byName,
        Binding.source binding select.fields (session.refer select).seen =
            (some source, byName) ∧
          ∃ row ∈ source.rows, row.hasField field) →
      ∀ value after, (Operation.select select).run binding session = (.ok value, after) →
        (∀ row ∈ after.workingSet, row.isScalar) ∧
        ∀ function names, ((Operation.aggregate function).run binding after).1 ≠
          .error (.ambiguousRow names) := by
  constructor
  · intro function rows
    refine ⟨apply_ambiguous_iff, ?_⟩
    intro before fields after hrows hbefore hfields
    subst hrows
    exact ⟨reported fields, apply_of_first hbefore hfields, reported_perm fields,
      reported_sorted fields, rfl⟩
  · intro binding session select field hf hread value after hrun
    have hok : ((Operation.select select).run binding session).1 = .ok value :=
      congrArg Prod.fst hrun
    obtain ⟨found, hfound, -, hworking⟩ := Operation.run_select_workingSet binding session hok
    have hscalar : ∀ row ∈ after.workingSet, row.isScalar := by
      rw [hrun] at hworking
      rw [hworking]
      exact Select.isScalar_of_run hf hfound hread
    refine ⟨hscalar, fun function names => apply_of_short (fun row hm => ?_) names⟩
    rw [Value.fieldCount_of_isScalar (hscalar row hm)]
    decide

/-- A total that no double is near, and then two records without a single value. -/
def totals : List Value :=
  [.record [("total", .int (10 ^ 309))], .null, .record [("to", .text "x"), ("by", .int 5)],
    .record [("c", .null), ("b", .null), ("a", .null)]]

/-- Records of which some have the field that they are bound under. -/
def tagged : Binding :=
  [("tags", ⟨.list [.record [("tags", .list [.int 1, .list []])], .record [("kind", .null)],
    .record [("tags", .record [("b", .null), ("a", .null)])]], 0⟩)]

theorem apply_ambiguous_tagged :
    (∃ row ∈ totals, 2 ≤ row.fieldCount) ∧
      (∀ row ∈ totals.take 2, row.fieldCount < 2) ∧
      (∃ names, sum.apply totals = .error (.ambiguousRow names) ∧
        names.Perm ["to", "by"] ∧ names.Pairwise (· ≤ ·) ∧
        (Fault.ambiguousRow names).message = "Cannot aggregate rows with fields " ++
          Text.quotedList names ++ "; select a single field first") ∧
      ∃ value after,
        (Operation.select ⟨.named ⟨"tags", []⟩, some (.compare "tags" .notEqual (.literal .null)),
          false⟩).run tagged (.start []) = (.ok value, after) ∧
        after.workingSet = [.text "[1,[]]", .text "\x7b\"b\":null,\"a\":null\x7d"] ∧
        (∀ row ∈ after.workingSet, row.isScalar) ∧
        ∀ function names, ((Operation.aggregate function).run tagged after).1 ≠
          .error (.ambiguousRow names) := by
  have hlong : ∃ row ∈ totals, 2 ≤ row.fieldCount := by decide
  have hshort : ∀ row ∈ totals.take 2, row.fieldCount < 2 := by decide
  have hfirst := (apply_ambiguous.1 sum totals).2 (totals.take 2) _
    [.record [("c", .null), ("b", .null), ("a", .null)]] rfl hshort (by decide)
  let select : Select :=
    ⟨.named ⟨"tags", []⟩, some (.compare "tags" .notEqual (.literal .null)), false⟩
  have hsource : Binding.source tagged select.fields
      ((Session.start []).refer select).seen = (some ⟨.list [
        .record [("tags", .list [.int 1, .list []])], .record [("kind", .null)],
        .record [("tags", .record [("b", .null), ("a", .null)])]], 0⟩, true) := rfl
  obtain ⟨value, after, hrun, hworking⟩ : ∃ value after,
      (Operation.select select).run tagged (.start []) = (.ok value, after) ∧
      after.workingSet = [.text "[1,[]]", .text "\x7b\"b\":null,\"a\":null\x7d"] :=
    ⟨_, _, rfl, rfl⟩
  obtain ⟨hscalar, hnever⟩ := apply_ambiguous.2 tagged (.start []) select "tags" rfl
    (.inr (.inr ⟨_, _, hsource, _, List.mem_cons_self, rfl⟩)) value after hrun
  exact ⟨hlong, hshort, hfirst, value, after, hrun, hworking, hscalar, hnever⟩

end Aggregate
end RecordQuery
