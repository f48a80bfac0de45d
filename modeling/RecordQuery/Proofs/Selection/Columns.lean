/-
Selecting one column of a list of records.

Where the only declared path leads to a list of records and restricts them to a field set,
all listed names are bound to the restricted records, so selecting one of them always
takes these (`Context.leaves_of_lists`).  Restricting does not touch a listed field, and
what the field holds in the records that the condition keeps is the column.

The name of a column is also a bound name, and a bound name that no record has as a field
stands for the rows themselves.  So the column is what is selected if some record has the
field, and otherwise the restricted records are (`Program.run_column`).
-/
import RecordQuery.Proofs.Conditions.Meaning
import RecordQuery.Proofs.Context.Absence
import RecordQuery.Proofs.Elements

namespace RecordQuery

namespace Value

/-- What records hold in a field, null where one lacks it.  Lists and records among it are
written out. -/
def column (name : String) (rows : List Value) : List Value :=
  rows.map fun row => (row.field name).flat

theorem field?_restrictRecord {fields : Names} {name : String} (hn : name ∈ fields.toList)
    (value : Value) : (value.restrictRecord fields).field? name = value.field? name := by
  cases value with
  | record table => exact (get?_project table fields.toList name).trans (if_pos hn)
  | _ => rfl

theorem field_restrictRecord {fields : Names} {name : String} (hn : name ∈ fields.toList)
    (value : Value) : (value.restrictRecord fields).field name = value.field name := by
  rw [field, field?_restrictRecord hn, field]

theorem hasField_restrictRecord {fields : Names} {name : String} (hn : name ∈ fields.toList)
    (value : Value) : (value.restrictRecord fields).hasField name = value.hasField name := by
  rw [hasField, field?_restrictRecord hn, hasField]

theorem column_restrictRecord {fields : Names} {name : String} (hn : name ∈ fields.toList)
    (rows : List Value) : column name (rows.map (restrictRecord fields)) = column name rows := by
  rw [column, List.map_map]
  exact List.map_congr_left fun row _ => congrArg flat (field_restrictRecord hn row)

end Value

namespace Aggregate

/-- Numeric aggregates read a column row by row, and nothing else. -/
theorem numbers_column (name : String) (rows : List Value) :
    numbers (Value.column name rows) = rows.mapM fun row => (row.field name).flat.toNumber := by
  have hscalar : ∀ row ∈ Value.column name rows, row.isScalar :=
    List.forall_mem_map.mpr fun row _ => Value.isScalar_flat _
  rw [numbers, elements_of_isScalar hscalar]
  exact List.mapM_map

end Aggregate

/-! ## The rows that a condition keeps -/

namespace Select

variable {select : Select} {store : Table Value}

/-- Whether a row satisfies the condition of a selection, if there is one. -/
def keeps (select : Select) (store : Table Value) (row : Value) : Bool :=
  select.condition.all fun condition => condition.satisfied store row

theorem filter_eq_keeps (h : select.missingVariable? store = none)
    (hw : ∀ condition ∈ select.condition, condition.Writable store) {rows : List Value}
    (hr : ∀ row ∈ rows, row.writable) :
    select.filter store rows = .ok (rows.filter (select.keeps store)) := by
  obtain ⟨fields, condition, each⟩ := select
  cases condition with
  | none => exact congrArg Except.ok (List.filter_eq_self.mpr fun _ _ => rfl).symm
  | some condition => exact Condition.filter_eq_satisfied h (hw condition rfl) hr

end Select

/-! ## A declared list of records -/

/-- A path that leads to a list of records and restricts them to a field set. -/
structure UsePath.Lists (path : UsePath) (data : Value) (fields : Names) (items : List Value) :
    Prop where
  single : ∀ segment ∈ path.segments, segment.others = []
  listed : path.fields = some fields
  found : data.at? (path.segments.map Names.first) = some (.list items)
  records : ∀ item ∈ items, item.isRecord

/-- The restricted records of a list. -/
def Source.listed (fields : Names) (items : List Value) : Source :=
  ⟨.list (items.map (Value.restrictRecord fields)), 0⟩

/-- The only leaf binds the restricted records to all listed names. -/
theorem Context.leaves_of_lists {path : UsePath} {data : Value} {fields : Names}
    {items : List Value} (h : path.Lists data fields items) :
    (resolve [path] data).leaves = [⟨[], bind [] fields.toList (.listed fields items)⟩] := by
  have haxes : axesOf [path] = [] := by
    rw [axesOf, List.flatMap_singleton, UsePath.axes_of_single h.single]
    rfl
  have hbinding : ∀ choice,
      bindingFor [path] data choice = bind [] fields.toList (.listed fields items) := by
    intro choice
    have hconcrete := UsePath.concrete?_of_single h.single choice
    have hdeclare := declare_found hconcrete h.found [] 0
    rw [UsePath.exposed, h.listed] at hdeclare
    exact hdeclare
  rw [resolve, haxes]
  exact congrArg (fun binding => [Leaf.mk [] binding]) (hbinding _)

theorem Source.exposes_listed {fields : Names} {name : String} (hn : name ∈ fields.toList)
    (items : List Value) :
    (listed fields items).exposes name = items.any fun item => item.hasField name := by
  simp only [exposes, listed, rows, Value.rows, List.any_map, Function.comp_def,
    Value.hasField_restrictRecord hn]

/-- The first field of a selection leads to what it is bound to. -/
theorem Binding.source_of_bound {binding : Binding} {names : Names} {found : Source}
    (h : binding.get? names.first = some found) (seen : List String) :
    source binding (.named names) seen = (some found, true) := by
  rw [source, named?, Names.toList, List.findSome?_cons, h]

namespace Select

/-- The selection of one field. -/
def one (name : String) (condition : Option Condition) : Select :=
  ⟨.named ⟨name, []⟩, condition, false⟩

variable {fields : Names} {items : List Value} {name : String} {condition : Option Condition}
  {store : Table Value}

/-- A field that leads by name to records stands for their column, or for the records
themselves where none of them has it. -/
theorem shape_one (hn : name ∈ fields.toList) (kept : List Value) :
    (one name condition).shape (.listed fields items) true kept =
      ⟨if items.any fun item => item.hasField name then Value.column name kept else kept,
        false⟩ := by
  simp only [shape, one, Source.exposes_listed hn]
  cases items.any fun item => item.hasField name with
  | true => simp [Value.column, Source.listed, Value.isRecord]
  | false => simp

/-- Selecting a listed field takes the restricted records that the condition keeps, as a
column or as they are. -/
theorem run_one (hn : name ∈ fields.toList)
    (h : (one name condition).missingVariable? store = none)
    (hw : ∀ c ∈ condition, c.Writable store) (hi : ∀ item ∈ items, item.writable)
    (seen : List String) :
    (one name condition).run (Context.bind [] fields.toList (.listed fields items)) store seen =
      .ok ((one name condition).shape (.listed fields items) true
        ((items.map (Value.restrictRecord fields)).filter ((one name condition).keeps store))) := by
  have hget : Table.get? (Context.bind [] fields.toList (.listed fields items)) name =
      some (.listed fields items) := by
    rw [Context.get?_bind, if_pos hn]
  have hsource : Binding.source (Context.bind [] fields.toList (.listed fields items))
      (one name condition).fields seen = (some (.listed fields items), true) :=
    Binding.source_of_bound hget seen
  have hrows : ∀ row ∈ items.map (Value.restrictRecord fields), row.writable :=
    List.forall_mem_map.mpr fun item hm => Value.writable_restrictRecord (hi item hm) fields
  have hfilter : (one name condition).filter store (Source.listed fields items).rows = _ :=
    filter_eq_keeps h hw hrows
  rw [run, h]
  simp only [hsource, hfilter]
  rfl

end Select

theorem Operation.run_select_ok {binding : Binding} {session after : Session} {select : Select}
    {selected : Selection} (h : session.select binding select = (.ok selected, after)) :
    (Operation.select select).run binding session =
      (.ok selected.value, { after with workingSet := selected.rows }) := by
  rw [run, h]

namespace Program

/-- Selecting a listed field, where the only declared path leads to a list of records: if
some record has the field, the selection is its column in the records that satisfy the
condition, and the numeric aggregates that follow read that column; if none has it, the
selection is these records themselves. -/
theorem run_column {program : Program} {path : UsePath} (hp : program.paths = [path])
    {data : Value} (hd : data.writable) {fields : Names} {items : List Value}
    (hl : path.Lists data fields items) {name : String} (hn : name ∈ fields.toList)
    (condition : Option Condition) :
    ∃ binding, (Context.resolve program.paths data).leaves = [⟨[], binding⟩] ∧
      ∀ session : Session, (Select.one name condition).missingVariable? session.store = none →
        (∀ c ∈ condition, c.Writable session.store) →
        ∃ value after, (Operation.select (.one name condition)).run binding session =
            (.ok value, after) ∧
          let kept := items.filter fun item =>
            (Select.one name condition).keeps session.store (item.restrictRecord fields)
          ((∃ item ∈ items, item.hasField name) →
            value = .list (Value.column name kept) ∧
            after.workingSet = Value.column name kept ∧
            Aggregate.numbers after.workingSet =
              kept.mapM fun item => (item.field name).flat.toNumber) ∧
          ((∀ item ∈ items, item.hasField name = false) →
            value = .list (kept.map (Value.restrictRecord fields)) ∧
            after.workingSet = kept.map (Value.restrictRecord fields)) := by
  refine ⟨Context.bind [] fields.toList (.listed fields items),
    hp ▸ Context.leaves_of_lists hl, fun session hm hw => ?_⟩
  have hlist : (Value.list items).writable := Value.writable_at? hd hl.found
  have hitems : ∀ item ∈ items, item.writable := Value.writable_rows hlist
  have hrun := Select.run_one hn hm hw hitems (session.refer (.one name condition)).seen
  rw [Select.shape_one hn, List.filter_map, Value.column_restrictRecord hn] at hrun
  refine ⟨_, _, Operation.run_select_ok (Prod.ext hrun rfl), fun hsome => ?_, fun hnone => ?_⟩
  · have hany : (items.any fun item => item.hasField name) = true := List.any_eq_true.mpr hsome
    simp only [hany, if_true]
    exact ⟨rfl, rfl, Aggregate.numbers_column name _⟩
  · have hany : (items.any fun item => item.hasField name) = false := by simpa using hnone
    simp only [hany, Bool.false_eq_true, if_false]
    exact ⟨rfl, rfl⟩

/-- Two listed columns of orders, some of which have been paid. -/
def orders : UsePath :=
  ⟨⟨"orders", []⟩, [], some ⟨"paid", ["state"]⟩⟩

def ordered : List Value :=
  [.record [("paid", .list [.null]), ("by", .text "x")], .record [("state", .text "void")],
    .record [("state", .text "sent"), ("paid", .bool true)], .record [("state", .text "sent")]]

theorem run_column_orders :
    orders.Lists (.record [("orders", .list ordered)]) ⟨"paid", ["state"]⟩ ordered ∧
      ∃ binding,
        (Context.resolve [orders] (.record [("orders", .list ordered)])).leaves =
          [⟨[], binding⟩] ∧
        ∃ value after, (Operation.select (.one "paid" (some (.compare "state" .notEqual
            (.reference "x"))))).run binding ⟨[], [("x", .text "void")], []⟩ = (.ok value, after) ∧
          value = .list [.text "[null]", .bool true, .null] ∧
          Aggregate.numbers after.workingSet = .ok [.zero, .int 1, .zero] := by
  have hwritable : (Value.record [("orders", .list ordered)]).writable := by decide +kernel
  have hlists : orders.Lists (.record [("orders", .list ordered)]) ⟨"paid", ["state"]⟩ ordered :=
    ⟨by decide, rfl, rfl, by decide⟩
  have hname : "paid" ∈ (⟨"paid", ["state"]⟩ : Names).toList := List.mem_cons_self
  have hpaths : (⟨[orders], []⟩ : Program).paths = [orders] := rfl
  obtain ⟨binding, hleaves, hrun⟩ := run_column hpaths hwritable hlists hname
    (some (.compare "state" .notEqual (.reference "x")))
  have hstore : ∀ c ∈ some (Condition.compare "state" .notEqual (.reference "x")),
      c.Writable [("x", .text "void")] := by
    rintro c ⟨⟩ comparison hm value hd
    obtain rfl := List.mem_singleton.mp hm
    cases hd with
    | reference hg =>
      cases hg
      rfl
  obtain ⟨value, after, heq, hsome, -⟩ := hrun ⟨[], [("x", .text "void")], []⟩ rfl hstore
  obtain ⟨rfl, hkept, -⟩ := hsome ⟨_, List.mem_cons_self, rfl⟩
  have hcolumn : after.workingSet = [.text "[null]", .bool true, .null] := hkept.trans rfl
  refine ⟨hlists, binding, hleaves, _, after, heq, ?_, ?_⟩
  · rw [← hkept, hcolumn]
  · rw [hcolumn]
    rfl

/-- A list of records need not have a listed column: the records are selected then. -/
theorem run_column_absent :
    ¬ ∀ (path : UsePath) (data : Value) (fields : Names) (items : List Value),
      data.writable → path.Lists data fields items → ∀ name ∈ fields.toList,
        ∀ leaf ∈ (Context.resolve [path] data).leaves, ∀ session : Session,
          ((Operation.select (.one name none)).run leaf.binding session).1 =
            .ok (.list (Value.column name items)) := by
  intro h
  have hlists : orders.Lists (.record [("orders", .list [.record [("state", .text "void")]])])
      ⟨"paid", ["state"]⟩ [.record [("state", .text "void")]] :=
    ⟨by decide, rfl, rfl, by decide⟩
  have hrun := h orders _ _ _ (by decide +kernel) hlists "paid" List.mem_cons_self _
    (Context.leaves_of_lists hlists ▸ List.mem_cons_self) (.start [])
  have hrecords : ((Operation.select (.one "paid" none)).run
      (Context.bind [] ["paid", "state"]
        (.listed ⟨"paid", ["state"]⟩ [.record [("state", .text "void")]])) (.start [])).1 =
      .ok (.list [.record [("state", .text "void")]]) := by
    rfl
  cases hrecords.symm.trans hrun

end Program
end RecordQuery
