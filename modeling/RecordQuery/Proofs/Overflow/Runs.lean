/-
Runs that stop at the size of a number.

A run over data that was read stops at a size if and only if it comes to an operation
that overflows in its state (`Program.Overflows`).  A run that comes to none has a
result, or stops for one of the two reasons that lie in the query
(`Program.run_of_read`).  Some runs do stop at a size, such as a sum of one integer that
has no double (`Program.faults_beyond_query`).
-/
import Mathlib.Logic.Basic
import RecordQuery.Proofs.Grammar.Loops
import RecordQuery.Proofs.Overflow.Aggregates
import RecordQuery.Proofs.Overflow.Conditions
import RecordQuery.Proofs.Reach

namespace RecordQuery

open Overflowed

/-- The query is at fault: it reads a variable that is not assigned, or applies an
aggregate to rows with several fields. -/
def Fault.OfQuery : Fault → Prop
  | unassigned _ | ambiguousRow _ => True
  | _ => False

def Fault.OfRun (fault : Fault) : Prop :=
  fault.OfQuery ∨ fault.OfSize

theorem Fault.ofRun_of_ofNumbers (fault : Fault) (h : fault.OfNumbers) : fault.OfRun :=
  .inr (ofSize_of_ofNumbers fault h)

theorem Fault.ofRun_of_ofAggregates (fault : Fault) (h : fault.OfAggregates) : fault.OfRun := by
  cases fault with
  | ambiguousRow fields => exact .inl trivial
  | _ => exact ofRun_of_ofNumbers _ h

/-! ## Operations -/

theorem Select.run_raises_cause (select : Select) (binding : Binding) (store : Table Value)
    (seen : List String) : RaisesOnly Fault.OfRun (select.run binding store seen) := by
  unfold run
  cases hm : select.missingVariable? store with
  | some name => exact RaisesOnly.error (.inl trivial)
  | none =>
    dsimp only
    split
    · exact RaisesOnly.ok _
    · refine RaisesOnly.map _ ?_
      unfold Select.filter
      unfold missingVariable? at hm
      cases hc : select.condition with
      | none => exact RaisesOnly.ok _
      | some condition =>
        rw [hc] at hm
        have hall := List.find?_eq_none.mp hm
        refine (Condition.filter_raises (fun name hn => by simpa using hall name hn) _).mono ?_
        rintro fault rfl
        exact .inr trivial

/-- An operation cannot be done in a state because of the size of a number. -/
def Operation.Overflows (binding : Binding) (session : Session) : Operation → Prop
  | select selection | count selection =>
    selection.Overflows binding session.store (session.refer selection).seen
  | aggregate function => function.Overflows session.workingSet
  | arithmetic operator left right =>
    ∃ a b, session.store.get? left = some a ∧ session.store.get? right = some b ∧
      operator.Overflows a b
  | percentOf part whole =>
    part.Overflows binding session.store (session.refer part).seen ∨
      ∃ numerator, (session.select binding part).1 = .ok numerator ∧
        (whole.Overflows binding session.store ((session.refer part).refer whole).seen ∨
          ∃ denominator, ((session.refer part).select binding whole).1 = .ok denominator ∧
            denominator.rows.length ≠ 0 ∧
            Double.bound * denominator.rows.length ≤ 100 * numerator.rows.length)

namespace Session

theorem select_overflowed {binding : Binding} (hw : ∀ pair ∈ binding, pair.2.value.writable)
    {session : Session} {selection : Select} :
    Overflowed (session.select binding selection).1 ↔
      selection.Overflows binding session.store (session.refer selection).seen :=
  Select.run_overflowed hw

theorem read_not_overflowed {session : Session} {name : String} :
    ¬ Overflowed (session.read name) := by
  unfold read
  split
  · exact not_ok
  · exact error_iff.not.mpr id

theorem read_eq_ok {session : Session} {name : String} {value : Value} :
    session.read name = .ok value ↔ session.store.get? name = some value := by
  unfold read
  cases session.store.get? name with
  | none => simp
  | some found => simp

end Session

namespace Operation

section
variable (binding : Binding) (session : Session)

theorem run_select_eq (selection : Select) :
    (select selection).run binding session =
      match (session.select binding selection).1 with
      | .ok found =>
        (.ok found.value, { session.refer selection with workingSet := found.rows })
      | .error fault => (.error fault, session.refer selection) := by
  have hselect : session.select binding selection =
      ((session.select binding selection).1, session.refer selection) := rfl
  rw [run, hselect]
  cases (session.select binding selection).1 <;> rfl

/-- The second selection of a percentage is not come to where the first one stops. -/
theorem run_percentOf_eq (part whole : Select) :
    (percentOf part whole).run binding session =
      match (session.select binding part).1 with
      | .ok numerator =>
        (do Arithmetic.percentage numerator.rows.length
              (← ((session.refer part).select binding whole).1).rows.length,
          (session.refer part).refer whole)
      | .error fault => (.error fault, session.refer part) := by
  have hselect : session.select binding part =
      ((session.select binding part).1, session.refer part) := rfl
  rw [run, hselect]
  cases (session.select binding part).1 <;> rfl

theorem run_count_eq (selection : Select) :
    (count selection).run binding session =
      ((session.select binding selection).1.map fun found => .int found.rows.length,
        session.refer selection) :=
  rfl

theorem run_select (selection : Select) :
    ((select selection).run binding session).1 =
      (session.select binding selection).1.map Selection.value := by
  rw [run_select_eq]
  cases (session.select binding selection).1 <;> rfl

theorem run_percentOf (part whole : Select) :
    ((percentOf part whole).run binding session).1 = (do
      let numerator ← (session.select binding part).1
      let denominator ← ((session.refer part).select binding whole).1
      Arithmetic.percentage numerator.rows.length denominator.rows.length) := by
  rw [run_percentOf_eq]
  cases (session.select binding part).1 <;> rfl

end

variable {binding : Binding} {session : Session} {operation : Operation}

theorem run_overflowed (hw : ∀ pair ∈ binding, pair.2.value.writable) :
    Overflowed (operation.run binding session).1 ↔ operation.Overflows binding session := by
  cases operation with
  | select selection =>
    rw [run_select]
    exact map_iff.trans (Session.select_overflowed hw)
  | count selection => exact map_iff.trans (Session.select_overflowed hw)
  | aggregate function => exact Aggregate.apply_overflowed
  | arithmetic operator left right =>
    have hrun : (run binding session (arithmetic operator left right)).1 = (do
        let a ← session.read left
        let b ← session.read right
        operator.apply a b) := rfl
    rw [hrun, bind_iff, or_iff_right Session.read_not_overflowed]
    simp only [bind_iff (x := session.read right), Session.read_not_overflowed, false_or,
      Session.read_eq_ok, Arithmetic.apply_overflowed]
    constructor
    · rintro ⟨a, ha, b, hb, ho⟩
      exact ⟨a, b, ha, hb, ho⟩
    · rintro ⟨a, b, ha, hb, ho⟩
      exact ⟨a, ha, b, hb, ho⟩
  | percentOf part whole =>
    rw [run_percentOf, bind_iff, Session.select_overflowed hw]
    simp only [bind_iff, Session.select_overflowed hw, Arithmetic.percentage_overflowed]
    rfl

/-- An operation stops for a reason in the query or at a size. -/
theorem run_raises_cause (binding : Binding) (session : Session) (operation : Operation) :
    RaisesOnly Fault.OfRun (operation.run binding session).1 := by
  cases operation with
  | select selection =>
    rw [run_select]
    exact (selection.run_raises_cause binding _ _).map _
  | count selection => exact (selection.run_raises_cause binding _ _).map _
  | aggregate function => exact (function.apply_raises _).mono Fault.ofRun_of_ofAggregates
  | arithmetic operator left right =>
    have hread : ∀ name, RaisesOnly Fault.OfRun (session.read name) := by
      intro name
      unfold Session.read
      split
      · exact RaisesOnly.ok _
      · exact RaisesOnly.error (.inl trivial)
    exact (hread left).bind fun a => (hread right).bind fun b =>
      (operator.apply_raises a b).mono Fault.ofRun_of_ofNumbers
  | percentOf part whole =>
    rw [run_percentOf]
    exact (part.run_raises_cause binding _ _).bind fun numerator =>
      (whole.run_raises_cause binding _ _).bind fun denominator =>
        (Arithmetic.percentage_raises _ _).mono Fault.ofRun_of_ofNumbers

end Operation

/-! ## Runs -/

namespace Program

/-- A run over the data comes to an operation that overflows in its state. -/
def Overflows (program : Program) (data : Value) : Prop :=
  ∃ binding session operation, program.Reaches data binding session operation ∧
    operation.Overflows binding session

theorem writable_of_reaches {program : Program} {data : Value} {binding : Binding}
    {session : Session} {operation : Operation} (hw : data.writable)
    (h : program.Reaches data binding session operation) :
    ∀ pair ∈ binding, pair.2.value.writable := by
  obtain ⟨leaf, hm, rfl⟩ := h.mem
  obtain ⟨key, -, rfl⟩ := List.mem_map.mp hm
  exact Context.writable_bindingFor program.paths hw _

theorem run_overflowed {program : Program} {data : Value} (hw : data.writable) :
    Overflowed (program.run data) ↔ program.Overflows data := by
  constructor
  · rintro ⟨fault, hrun, hf⟩
    obtain ⟨binding, session, operation, hreach, ho⟩ := run_error_iff.mp hrun
    have hover := (Operation.run_overflowed (writable_of_reaches hw hreach)).mp ⟨fault, ho, hf⟩
    exact ⟨binding, session, operation, hreach, hover⟩
  · rintro ⟨binding, session, operation, hreach, hover⟩
    obtain ⟨fault, ho, hf⟩ :=
      (Operation.run_overflowed (writable_of_reaches hw hreach)).mpr hover
    exact ⟨fault, run_error_iff.mpr ⟨binding, session, operation, hreach, ho⟩, hf⟩

theorem run_raises_cause (program : Program) (data : Value) :
    RaisesOnly Fault.OfRun (program.run data) := by
  intro fault h
  obtain ⟨binding, session, operation, -, ho⟩ := run_error_iff.mp h
  exact operation.run_raises_cause binding session fault ho

/-- A run over data that was read stops at the size of a number if and only if it comes
to an operation that overflows in its state.  If it comes to none, it has a result or
stops for a reason in the query: a variable that is not assigned, or an aggregate of
rows with several fields. -/
theorem run_of_read (program : Program) {text : String} {data : Value}
    (h : Json.read text = .ok data) :
    (Overflowed (program.run data) ↔ program.Overflows data) ∧
    (¬ program.Overflows data →
      (∃ results, program.run data = .ok results) ∨
        (∃ name, program.run data = .error (.unassigned name)) ∨
        ∃ fields, program.run data = .error (.ambiguousRow fields)) := by
  have hsize := @run_overflowed program data (Json.writable_of_read h)
  refine ⟨hsize, fun hnone => ?_⟩
  cases hrun : program.run data with
  | ok results => exact .inl ⟨results, rfl⟩
  | error fault =>
    right
    rcases run_raises_cause program data fault hrun with hquery | hf
    · cases fault with
      | unassigned name => exact .inl ⟨name, rfl⟩
      | ambiguousRow fields => exact .inr ⟨fields, rfl⟩
      | _ => exact hquery.elim
    · exact absurd (hsize.mp ⟨fault, hrun, hf⟩) hnone

end Program

/-! ## A sum of an integer without a double -/

namespace Json

/-- A record whose one field holds an integer that begins with a one. -/
def recordChars (others : List Char) : List Char :=
  '\x7b' :: '"' :: 'v' :: '"' :: ':' :: '1' :: (others ++ ['\x7d'])

theorem read_recordChars {others : List Char} (hd : ∀ c ∈ others, c.isDigit)
    (hl : others.length < digitLimit) :
    read (String.ofList (recordChars others)) =
      .ok (.record [("v", .int (Nat.ofDigitChars 10 ('1' :: others) 0))]) := by
  have hname : string ('v' :: '"' :: ':' :: '1' :: (others ++ ['\x7d'])) =
      .ok ("v", ':' :: '1' :: (others ++ ['\x7d'])) := by
    rw [string, stringFrom, stringFrom]
    · rfl
    · decide
    · decide
  have hnumber : ∀ depth, value (depth + 1) ('1' :: (others ++ ['\x7d'])) =
      .ok (.int (Nat.ofDigitChars 10 ('1' :: others) 0), ['\x7d']) := fun depth =>
    @number_digits '1' others [] (by decide) (List.forall_mem_cons.mpr ⟨rfl, hd⟩) hl
  have hfields : ∀ depth count, fields (value (depth + 1)) (count + 1)
      ('"' :: 'v' :: '"' :: ':' :: '1' :: (others ++ ['\x7d'])) =
        .ok ([("v", .int (Nat.ofDigitChars 10 ('1' :: others) 0))], []) := by
    intro depth count
    rw [fields, hname]
    show Except.bind (value (depth + 1) ('1' :: (others ++ ['\x7d']))) _ = _
    rw [hnumber]
    rfl
  have hvalue : ∀ depth, value (depth + 2) (recordChars others) =
      .ok (.record [("v", .int (Nat.ofDigitChars 10 ('1' :: others) 0))], []) := by
    intro depth
    show Except.map _ (fields (value (depth + 1)) _ _) = _
    rw [hfields]
    rfl
  have hread : readChars (recordChars others) =
      .ok (.record [("v", .int (Nat.ofDigitChars 10 ('1' :: others) 0))]) := by
    show Except.bind (value (recordChars others).length.succ (recordChars others)) _ = _
    rw [recordChars, List.length_cons, ← recordChars, hvalue]
    rfl
  rw [read, String.toList_ofList, hread]

end Json

namespace Program

/-- Adds up one field. -/
def fieldSum : Program :=
  ⟨[⟨⟨"v", []⟩, [], none⟩],
    [⟨"q", [⟨none, .select ⟨.named ⟨"v", []⟩, none, false⟩⟩, ⟨none, .aggregate .sum⟩]⟩]⟩

theorem ofText_fieldSum : ofText "USE v QUERY q SELECT v SUM RETURN" = .ok fieldSum := by
  let ends : Token := ⟨.endOfText, "", 1, 34⟩
  let block : List Token := [⟨.identifier, "q", 1, 13⟩, ⟨.select, "SELECT", 1, 15⟩,
    ⟨.identifier, "v", 1, 22⟩, ⟨.aggregate .sum, "SUM", 1, 24⟩, ⟨.return_, "RETURN", 1, 28⟩, ends]
  have hts : Token.ofText "USE v QUERY q SELECT v SUM RETURN" =
      ⟨.use, "USE", 1, 1⟩ :: ⟨.identifier, "v", 1, 5⟩ :: ⟨.query, "QUERY", 1, 7⟩ :: block := by
    decide +kernel
  have hp : Grammar.path (⟨.identifier, "v", 1, 5⟩ :: ⟨.query, "QUERY", 1, 7⟩ :: block) =
      .ok (⟨⟨"v", []⟩, [], none⟩, ⟨.query, "QUERY", 1, 7⟩ :: block) := by
    simp only [Grammar.path, Grammar.segment]
    rw [Grammar.moreSegments]
    rfl
  have hb : Grammar.block block = .ok (⟨"q", [⟨none, .select ⟨.named ⟨"v", []⟩, none, false⟩⟩,
      ⟨none, .aggregate .sum⟩]⟩, [ends]) := by
    rw [Grammar.block_named rfl, Grammar.statements_read rfl rfl, Grammar.statements_read rfl rfl,
      Grammar.statements_end rfl]
    rfl
  rw [ofText_eq_ok, hts, ofTokens_eq_ok, Grammar.program_use rfl hp,
    Grammar.program_query rfl hb, Grammar.program_end rfl]
  rfl

theorem fieldSum_overflows {n : Nat} (h : Double.bound ≤ n) :
    fieldSum.Overflows (.record [("v", .int n)]) := by
  have hreads : ∃ value ∈ [Value.int n], value.Oversized :=
    ⟨.int n, List.mem_singleton_self _, h⟩
  exact ⟨_, _, .aggregate .sum, .inside (.inside (.later rfl .here)), rfl, [.int n], rfl,
    .inl hreads⟩

/-- The digits of ten to the power 309 after the first. -/
def zeros : List Char := List.replicate 309 '0'

/-- A record of the one integer ten to the power 309. -/
def vast : Value := .record [("v", .int (Nat.ofDigitChars 10 ('1' :: zeros) 0))]

theorem read_vast : Json.read (String.ofList (Json.recordChars zeros)) = .ok vast :=
  Json.read_recordChars (fun _ hc => List.eq_of_mem_replicate hc ▸ rfl)
    (lt_of_eq_of_lt List.length_replicate (by decide))

theorem vast_overflows : fieldSum.Overflows vast := by
  refine fieldSum_overflows ?_
  rw [zeros, Nat.ofDigitChars_cons, Nat.ofDigitChars_replicate_zero]
  unfold Double.bound
  decide +kernel

theorem run_of_read_vast :
    Json.read (String.ofList (Json.recordChars zeros)) = .ok vast ∧ fieldSum.Overflows vast ∧
      Overflowed (fieldSum.run vast) :=
  ⟨read_vast, vast_overflows, (run_of_read fieldSum read_vast).1.mpr vast_overflows⟩

/-- Not every fault of a run over data that was read concerns the query. -/
theorem faults_beyond_query :
    ¬ ∀ query text program data fault, ofText query = .ok program →
      Json.read text = .ok data → program.run data = .error fault → fault.concernsQuery := by
  intro h
  obtain ⟨fault, hrun, hsize⟩ :=
    (run_overflowed (Json.writable_of_read read_vast)).mpr vast_overflows
  have hquery := h _ _ _ _ fault ofText_fieldSum read_vast hrun
  cases fault <;> first | exact hsize | cases hquery

end Program

end RecordQuery
