/-
When conditions and selections stop at an integer that is too long to be written out.

Asking whether a list contains an operand compares what operand and items read like in
a query, so all of them are written out.  What is found in writable data is writable, at
any place and in any field; the operand may not be, since variables hold computed
values.  A condition stops at such an operand if the comparison is made at all, which
depends on what comes before it (`Condition.Unwritten`).
-/
import RecordQuery.Proofs.Overflow.Stops
import RecordQuery.Proofs.Overflow.Writable
import RecordQuery.Proofs.Variables.Tracking

namespace RecordQuery

open Overflowed

/-! ## Lists that contain an operand -/

namespace Value

/-- A value reads like something in a query if and only if it is writable. -/
theorem sourceText_overflowed {value : Value} :
    Overflowed value.sourceText ↔ ¬ value.writable := by
  have nested : ∀ value, Overflowed (Json.write? .compact value) ↔ ¬ value.writable := by
    intro value
    unfold Json.write?
    split
    · next h => exact iff_of_false not_ok (not_not_intro h)
    · next h => exact iff_of_true (error trivial) h
  cases value with
  | number n =>
    cases n with
    | int m =>
      rw [sourceText, writable]
      split
      · next h => exact iff_of_false not_ok (not_not_intro (decide_eq_true h))
      · next h => exact iff_of_true (error trivial) fun hw => h (of_decide_eq_true hw)
    | double x =>
      rw [sourceText]
      split <;> exact iff_of_false not_ok (not_not_intro rfl)
  | list items => exact nested _
  | record fields => exact nested _
  | _ => exact iff_of_false not_ok (not_not_intro rfl)

theorem anyM_not_overflowed {α : Type} {f : α → Except Fault Bool} {xs : List α}
    (h : ∀ x ∈ xs, ¬ Overflowed (f x)) : ¬ Overflowed (xs.anyM f) := by
  induction xs with
  | nil => exact not_ok
  | cons x rest ih =>
    rw [List.anyM_cons, bind_iff]
    rintro (hx | ⟨found, -, hrest⟩)
    · exact h x List.mem_cons_self hx
    · cases found with
      | true => exact not_ok hrest
      | false => exact ih (fun y hm => h y (List.mem_cons_of_mem _ hm)) hrest

/-- Whether a value is a list. -/
def isList : Value → Bool
  | list _ => true
  | _ => false

theorem contains_overflowed {actual expected : Value} (hw : actual.writable) :
    Overflowed (actual.contains expected) ↔ actual.isList ∧ ¬ expected.writable := by
  cases actual with
  | list items =>
    have hitems : ∀ wanted, ¬ Overflowed (items.anyM fun item => do
        return (← item.sourceText) == wanted) := by
      intro wanted
      refine anyM_not_overflowed fun item hm => ?_
      rw [return_iff, sourceText_overflowed]
      exact not_not_intro (itemsWritable_iff.mp hw item hm)
    rw [contains, bind_iff, sourceText_overflowed]
    refine Iff.trans ?_ (and_iff_right rfl).symm
    exact or_iff_left fun ⟨wanted, _, ho⟩ => hitems wanted ho
  | _ => exact iff_of_false not_ok fun h => Bool.false_ne_true h.1

end Value

/-! ## Conditions -/

/-- Whether a relation writes out what it compares. -/
def Comparator.reads : Comparator → Bool
  | contains | lacks => true
  | _ => false

theorem Comparator.holds_overflowed {relation : Comparator} {actual expected : Value}
    (hw : actual.writable) :
    Overflowed (relation.holds actual expected) ↔
      relation.reads ∧ actual.isList ∧ ¬ expected.writable := by
  cases relation with
  | contains => exact (Value.contains_overflowed hw).trans (and_iff_right rfl).symm
  | lacks => exact (map_iff.trans (Value.contains_overflowed hw)).trans (and_iff_right rfl).symm
  | equal => exact iff_of_false not_ok fun h => Bool.false_ne_true h.1
  | notEqual => exact iff_of_false not_ok fun h => Bool.false_ne_true h.1
  | greater | less | atLeast | atMost =>
    refine iff_of_false ?_ fun h => Bool.false_ne_true h.1
    simp only [holds]
    split <;> exact not_ok

namespace Condition

/-- Testing a record comes to ask whether a list contains an operand that is too long
to be written out. -/
def Unwritten (store : Table Value) (record : Value) : Condition → Prop
  | compare field relation operand =>
    relation.reads ∧ (record.field field).isList ∧
      ∃ value, operand.value store = .ok value ∧ ¬ value.writable
  | and left right =>
    Unwritten store record left ∨ test store record left = .ok true ∧ Unwritten store record right
  | or left right =>
    Unwritten store record left ∨ test store record left = .ok false ∧ Unwritten store record right
  | not inner => Unwritten store record inner

theorem operand_not_overflowed (store : Table Value) (operand : Operand) :
    ¬ Overflowed (operand.value store) := by
  cases operand with
  | literal value => exact not_ok
  | reference name =>
    unfold Operand.value
    dsimp only
    split
    · exact not_ok
    · exact error_iff.not.mpr id

theorem test_overflowed {store : Table Value} {record : Value} (hw : record.writable)
    {condition : Condition} :
    Overflowed (test store record condition) ↔ condition.Unwritten store record := by
  induction condition with
  | compare field relation operand =>
    rw [test, bind_iff, or_iff_right (operand_not_overflowed store operand), Unwritten]
    simp only [Comparator.holds_overflowed (Value.writable_field hw field)]
    constructor
    · rintro ⟨value, hv, hr, hl, hn⟩
      exact ⟨hr, hl, value, hv, hn⟩
    · rintro ⟨hr, hl, value, hv, hn⟩
      exact ⟨value, hv, hr, hl, hn⟩
  | and left right hl hr =>
    rw [test, bind_iff, hl, Unwritten]
    refine or_congr_right ⟨?_, fun h => ⟨true, h.1, hr.mpr h.2⟩⟩
    rintro ⟨truth, h, ho⟩
    cases truth with
    | true => exact ⟨h, hr.mp ho⟩
    | false => exact (not_ok ho).elim
  | or left right hl hr =>
    rw [test, bind_iff, hl, Unwritten]
    refine or_congr_right ⟨?_, fun h => ⟨false, h.1, hr.mpr h.2⟩⟩
    rintro ⟨truth, h, ho⟩
    cases truth with
    | true => exact (not_ok ho).elim
    | false => exact ⟨h, hr.mp ho⟩
  | not inner ih => exact map_iff.trans ih

/-- With its variables assigned, a condition stops at sizes only. -/
theorem test_raises_size {store : Table Value} {condition : Condition}
    (h : condition.missingVariable? store = none) (record : Value) :
    RaisesOnly Fault.OfSize (test store record condition) := by
  have hall := List.find?_eq_none.mp h
  refine (test_raises record fun name hn => by simpa using hall name hn).mono ?_
  rintro fault rfl
  trivial

theorem filter_overflowed {store : Table Value} {condition : Condition}
    (hm : condition.missingVariable? store = none) {rows : List Value}
    (hw : ∀ row ∈ rows, row.writable) :
    Overflowed (condition.filter store rows) ↔ ∃ row ∈ rows, condition.Unwritten store row := by
  induction rows with
  | nil => exact iff_of_false not_ok (by simp)
  | cons row rest ih =>
    have ih := ih fun other ho => hw other (List.mem_cons_of_mem _ ho)
    rw [filter, bind_iff, test_overflowed (hw row List.mem_cons_self)]
    simp only [return_iff, ih, List.mem_cons, exists_eq_or_imp]
    constructor
    · rintro (h | ⟨kept, -, h⟩)
      · exact .inl h
      · exact .inr h
    · intro h
      by_cases hr : condition.Unwritten store row
      · exact .inl hr
      · obtain ⟨kept, hk⟩ := exists_ok (test_raises_size hm row) fun ho =>
          hr ((test_overflowed (hw row List.mem_cons_self)).mp ho)
        exact .inr ⟨kept, hk, h.resolve_left hr⟩

end Condition

/-! ## Selections -/

namespace Binding

variable {binding : Binding} {source : Source}

theorem preferred_cases (fields : List String) (earlier later : Source) :
    preferred fields earlier later = earlier ∨ preferred fields earlier later = later := by
  unfold preferred
  split
  · exact .inr rfl
  · exact .inl rfl

theorem foldl_preferred_mem (fields : List String) (first : Source) (rest : List Source) :
    rest.foldl (preferred fields) first ∈ first :: rest := by
  induction rest generalizing first with
  | nil => exact List.mem_cons_self
  | cons next rest ih =>
    rw [List.foldl_cons]
    rcases List.mem_cons.mp (ih (preferred fields first next)) with h | h
    · rcases preferred_cases fields first next with hp | hp
      · rw [h, hp]
        exact List.mem_cons_self
      · rw [h, hp]
        exact List.mem_cons_of_mem _ List.mem_cons_self
    · exact List.mem_cons_of_mem _ (List.mem_cons_of_mem _ h)

theorem mem_of_best? {fields : List String} (h : best? binding fields = some source) :
    ∃ pair ∈ binding, pair.2 = source := by
  unfold best? at h
  split at h
  · cases h
  · next first rest hs =>
    cases h
    have hm := foldl_preferred_mem fields first rest
    rw [← hs, sources, List.mem_mergeSort] at hm
    exact List.mem_map.mp hm

/-- A selection reads from a source that is bound. -/
theorem mem_of_source {fields : Fields} {seen : List String}
    (h : (Binding.source binding fields seen).1 = some source) :
    ∃ pair ∈ binding, pair.2 = source := by
  cases fields with
  | all => exact mem_of_best? h
  | named names =>
    unfold Binding.source at h
    dsimp only at h
    cases hn : named? binding names.toList with
    | some found =>
      rw [hn] at h
      cases h
      obtain ⟨name, -, hg⟩ := List.exists_of_findSome?_eq_some hn
      exact ⟨_, Table.mem_of_get? hg, rfl⟩
    | none =>
      rw [hn] at h
      exact mem_of_best? (Option.filter_eq_some_iff.mp h).1

end Binding

namespace Select

/-- A selection comes to a row whose test would write out an operand that is too long. -/
def Overflows (select : Select) (binding : Binding) (store : Table Value) (seen : List String) :
    Prop :=
  select.missingVariable? store = none ∧
    ∃ source condition, (Binding.source binding select.fields seen).1 = some source ∧
      select.condition = some condition ∧ ∃ row ∈ source.rows, condition.Unwritten store row

theorem filter_overflowed {select : Select} {store : Table Value} {rows : List Value}
    (hm : select.missingVariable? store = none) (hw : ∀ row ∈ rows, row.writable) :
    Overflowed (select.filter store rows) ↔
      ∃ condition, select.condition = some condition ∧
        ∃ row ∈ rows, condition.Unwritten store row := by
  unfold filter
  unfold missingVariable? at hm
  cases hc : select.condition with
  | none => exact iff_of_false not_ok (by simp)
  | some condition =>
    rw [hc] at hm
    refine (Condition.filter_overflowed hm hw).trans ?_
    simp only [Option.some.injEq, exists_eq_left']

theorem run_overflowed {select : Select} {binding : Binding}
    (hw : ∀ pair ∈ binding, pair.2.value.writable) {store : Table Value} {seen : List String} :
    Overflowed (select.run binding store seen) ↔ select.Overflows binding store seen := by
  unfold run Overflows
  cases hm : select.missingVariable? store with
  | some name => exact iff_of_false (error_iff.not.mpr id) (by simp)
  | none =>
    rw [and_iff_right rfl]
    cases hs : Binding.source binding select.fields seen with
    | mk source? byName =>
      cases source? with
      | none => exact iff_of_false not_ok (by simp)
      | some source =>
        obtain ⟨pair, hp, rfl⟩ := Binding.mem_of_source (congrArg Prod.fst hs)
        have hrows : ∀ row ∈ pair.2.rows, row.writable := Value.writable_rows (hw pair hp)
        refine (map_iff.trans (filter_overflowed hm hrows)).trans ?_
        constructor
        · rintro ⟨condition, hc, h⟩
          exact ⟨pair.2, condition, rfl, hc, h⟩
        · rintro ⟨source, condition, hsource, hc, h⟩
          cases hsource
          exact ⟨condition, hc, h⟩

end Select

end RecordQuery
