/-
Runs go by the order of their accesses.

The store of a run has exactly the names written so far, and this ties the run to
the list of its accesses (`Tracks`): a run from a store of known names stops at a
stray read at the latest, and if an unassigned variable stops it, that variable
is the first one read astray.  Selections decide this before they look at any
row, so neither the data nor the order in which a condition is tested matters.
-/
import RecordQuery.Proofs.Causes
import RecordQuery.Proofs.Variables.Access

namespace RecordQuery

/-! ## One statement -/

namespace Fault

/-- If the fault is that of an unassigned variable, it names the missing one. -/
def Reports (missing : Option String) (fault : Fault) : Prop :=
  ∀ name, fault = .unassigned name → missing = some name

theorem reports_of_ofAggregates (missing : Option String) (fault : Fault)
    (h : fault.OfAggregates) : fault.Reports missing := by
  rintro name rfl
  exact h.elim

theorem reports_of_ofNumbers (missing : Option String) (fault : Fault) (h : fault.OfNumbers) :
    fault.Reports missing :=
  reports_of_ofAggregates missing fault (ofAggregates_of_ofNumbers fault h)

theorem reports_of_unwritable (missing : Option String) (fault : Fault)
    (h : fault = .unwritableInteger) : fault.Reports missing := by
  rintro name rfl
  cases h

end Fault

/-- The first of several names that a store does not have. -/
def Table.missing? {α : Type} (store : Table α) (names : List String) : Option String :=
  names.find? fun name => !store.has name

namespace Condition

variable {store : Table Value}

/-- A condition whose variables are all assigned stops only at a number that is
too long to be written out. -/
theorem test_raises (record : Value) : ∀ {c : Condition}, (∀ name ∈ c.reads, store.has name) →
    RaisesOnly (· = .unwritableInteger) (c.test store record)
  | compare field relation operand, h => by
    refine RaisesOnly.bind ?_ fun expected => relation.holds_raises _ expected
    cases operand with
    | literal value => exact RaisesOnly.ok value
    | reference name =>
      obtain ⟨value, hv⟩ := Option.isSome_iff_exists.mp (h name (by simp [reads]))
      simp only [Operand.value, hv]
      exact RaisesOnly.ok value
  | and left right, h => by
    have hl := test_raises record (c := left) fun name hn => h name (by simp [reads, hn])
    have hr := test_raises record (c := right) fun name hn => h name (by simp [reads, hn])
    refine RaisesOnly.bind hl fun truth => ?_
    cases truth with
    | true => exact hr
    | false => exact RaisesOnly.ok false
  | or left right, h => by
    have hl := test_raises record (c := left) fun name hn => h name (by simp [reads, hn])
    have hr := test_raises record (c := right) fun name hn => h name (by simp [reads, hn])
    refine RaisesOnly.bind hl fun truth => ?_
    cases truth with
    | true => exact RaisesOnly.ok true
    | false => exact hr
  | not inner, h => (test_raises record (c := inner) h).map _

theorem filter_raises {c : Condition} (h : ∀ name ∈ c.reads, store.has name)
    (rows : List Value) : RaisesOnly (· = .unwritableInteger) (c.filter store rows) := by
  induction rows with
  | nil => exact RaisesOnly.ok []
  | cons row rest ih =>
    exact (test_raises row h).bind fun kept => ih.bind fun others => RaisesOnly.ok _

end Condition

namespace Select

theorem missingVariable?_eq (select : Select) (store : Table Value) :
    select.missingVariable? store = store.missing? select.reads := by
  obtain ⟨fields, condition, each⟩ := select
  cases condition <;> rfl

theorem run_raises (select : Select) (binding : Binding) (store : Table Value)
    (seen : List String) :
    RaisesOnly (Fault.Reports (store.missing? select.reads)) (select.run binding store seen) := by
  simp only [run, missingVariable?_eq]
  split
  · next name hm =>
    rw [hm]
    refine RaisesOnly.error ?_
    rintro other heq
    cases heq
    rfl
  · next hm =>
    have assigned : ∀ name ∈ select.reads, store.has name := by
      simpa [Table.missing?] using hm
    split
    · exact RaisesOnly.ok _
    · refine RaisesOnly.map _ (RaisesOnly.mono ?_ (Fault.reports_of_unwritable _))
      unfold Select.filter
      split
      · exact RaisesOnly.ok _
      · next condition hc =>
        exact condition.filter_raises (by simpa [Select.reads, hc] using assigned) _

theorem run_stops {select : Select} {store : Table Value} {name : String}
    (h : store.missing? select.reads = some name) (binding : Binding) (seen : List String) :
    select.run binding store seen = .error (.unassigned name) := by
  simp only [run, missingVariable?_eq, h]

end Select

theorem Session.select_raises (session : Session) (binding : Binding) (select : Select) :
    RaisesOnly (Fault.Reports (session.store.missing? select.reads))
      (session.select binding select).1 :=
  select.run_raises binding session.store _

theorem Session.select_stops {session : Session} {select : Select} {name : String}
    (h : session.store.missing? select.reads = some name) (binding : Binding) :
    (session.select binding select).1 = .error (.unassigned name) :=
  Select.run_stops h binding _

theorem Table.missing?_append {α : Type} (store : Table α) (a b : List String) :
    store.missing? (a ++ b) = (store.missing? a).or (store.missing? b) :=
  List.find?_append

namespace Operation

/-- The second selection of a percentage runs only when the first has its
variables, and it finds the same store. -/
theorem select_between {session between : Session} {binding : Binding} {part : Select}
    {selected : Selection} (h : session.select binding part = (.ok selected, between)) :
    session.store.missing? part.reads = none ∧ between.store = session.store := by
  constructor
  · cases hm : session.store.missing? part.reads with
    | none => rfl
    | some name =>
      have := Session.select_stops hm binding
      rw [h] at this
      cases this
  · exact (congrArg (fun outcome => outcome.2.store) h).symm

/-- No operation touches the variables: only an assignment does, afterwards. -/
theorem run_store (binding : Binding) (session : Session) (operation : Operation) :
    (operation.run binding session).2.store = session.store := by
  cases operation with
  | select selection =>
    simp only [run]
    split
    · next h => exact (select_between h).2
    · next h => exact congrArg (fun outcome => outcome.2.store) h.symm
  | percentOf part whole =>
    simp only [run]
    split
    · next h => exact congrArg (fun outcome => outcome.2.store) h.symm
    · next h => exact (select_between h).2
  | _ => rfl

/-- Both operands of an arithmetic operation are looked up before it is done. -/
theorem run_arithmetic (binding : Binding) (session : Session) (operator : Arithmetic)
    (left right : String) :
    ((arithmetic operator left right).run binding session).1 =
      match session.store.missing? [left, right] with
      | some name => .error (.unassigned name)
      | none => operator.apply ((session.store.get? left).getD .null)
          ((session.store.get? right).getD .null) := by
  simp only [run, Session.read]
  cases hl : session.store.get? left with
  | none => simp [Table.missing?, Table.has, hl, bind, Except.bind]
  | some a =>
    cases hr : session.store.get? right with
    | none => simp [Table.missing?, Table.has, hl, hr, bind, Except.bind]
    | some b => simp [Table.missing?, Table.has, hl, hr, bind, Except.bind]

/-- An operation that stops at an unassigned variable stops at the first one it
reads. -/
theorem run_raises (binding : Binding) (session : Session) (operation : Operation) :
    RaisesOnly (Fault.Reports (session.store.missing? operation.reads))
      (operation.run binding session).1 := by
  cases operation with
  | select selection =>
    have hs := session.select_raises binding selection
    simp only [run]
    split
    · exact RaisesOnly.ok _
    · next h => exact RaisesOnly.error (hs _ (congrArg Prod.fst h))
  | count selection => exact (session.select_raises binding selection).map _
  | aggregate function =>
    exact (function.apply_raises _).mono (Fault.reports_of_ofAggregates _)
  | arithmetic operator left right =>
    rw [run_arithmetic, reads]
    split
    · next name hm =>
      rw [hm]
      exact RaisesOnly.error fun other heq => by cases heq; rfl
    · exact (operator.apply_raises _ _).mono (Fault.reports_of_ofNumbers _)
  | percentOf part whole =>
    have hp := session.select_raises binding part
    simp only [run, reads, Table.missing?_append]
    split
    · next fault after h =>
      refine RaisesOnly.error fun name heq => ?_
      rw [hp fault (congrArg Prod.fst h) name heq]
      rfl
    · next numerator between h =>
      obtain ⟨hm, hb⟩ := select_between h
      have hw := between.select_raises binding whole
      rw [hm, Option.none_or]
      rw [hb] at hw
      exact hw.bind fun denominator =>
        (Arithmetic.percentage_raises _ _).mono (Fault.reports_of_ofNumbers _)

/-- An operation that reads an unassigned variable stops. -/
theorem run_stops {session : Session} {operation : Operation}
    (h : (session.store.missing? operation.reads).isSome) (binding : Binding) :
    ∃ fault, (operation.run binding session).1 = .error fault := by
  obtain ⟨name, hm⟩ := Option.isSome_iff_exists.mp h
  cases operation with
  | select selection =>
    have hs := Session.select_stops hm binding
    simp only [run]
    split
    · next h => rw [h] at hs; cases hs
    · next fault after h => exact ⟨fault, rfl⟩
  | count selection =>
    refine ⟨.unassigned name, ?_⟩
    simp only [run, Session.select_stops hm binding]
    rfl
  | aggregate function => cases hm
  | arithmetic operator left right =>
    rw [reads] at hm
    exact ⟨.unassigned name, by rw [run_arithmetic, hm]⟩
  | percentOf part whole =>
    rw [reads, Table.missing?_append] at hm
    simp only [run]
    split
    · next fault after h => exact ⟨fault, rfl⟩
    · next numerator between h =>
      obtain ⟨hp, hb⟩ := select_between h
      rw [hp, Option.none_or, ← hb] at hm
      refine ⟨.unassigned name, ?_⟩
      simp only [Session.select_stops hm binding]
      rfl

end Operation

/-! ## Runs against the list of accesses -/

/-- A store has exactly the given names. -/
def Table.Exactly {α : Type} (known : List String) (store : Table α) : Prop :=
  ∀ name, store.has name ↔ name ∈ known

/-- How a computation goes that makes the given accesses to a store of exactly the
known names.  It stops if a read is stray, an unassigned variable at which it
stops is the first stray one, and in the end the store has the names written
too. -/
structure Tracks {α : Type} (known : List String) (accesses : List Access)
    (store : α → Table Value) (x : Except Fault α) : Prop where
  raises : RaisesOnly (Fault.Reports (Access.stray? known accesses)) x
  stops : (Access.stray? known accesses).isSome → ∃ fault, x = .error fault
  ends : ∀ a, x = .ok a → Table.Exactly (Access.learn known accesses) (store a)

/-- One computation after another makes the accesses of both. -/
theorem Tracks.append {α β : Type} {known : List String} {a b : List Access}
    {before : α → Table Value} {after : β → Table Value} {x : Except Fault α}
    {y : Except Fault β} (hx : Tracks known a before x)
    (hok : ∀ v, x = .ok v → Tracks (Access.learn known a) b after y)
    (herror : ∀ fault, x = .error fault → y = .error fault) :
    Tracks known (a ++ b) after y := by
  cases heq : x with
  | error fault =>
    have hy := herror fault heq
    refine ⟨fun other h name hname => ?_, fun _ => ⟨fault, hy⟩, fun v h => ?_⟩
    · obtain rfl : fault = other := by simpa [hy] using h
      rw [Access.stray?_append, hx.raises fault heq name hname]
      rfl
    · rw [hy] at h
      cases h
  | ok v =>
    have hnone : Access.stray? known a = none := by
      cases hs : Access.stray? known a with
      | none => rfl
      | some name =>
        obtain ⟨fault, hf⟩ := hx.stops (by rw [hs]; rfl)
        rw [heq] at hf
        cases hf
    have happ : Access.stray? known (a ++ b) = Access.stray? (Access.learn known a) b := by
      rw [Access.stray?_append, hnone, Option.none_or]
    obtain ⟨raises, stops, ends⟩ := hok v heq
    exact ⟨by rwa [happ], by rwa [happ], by rwa [Access.learn_append]⟩

namespace Statement

/-- The variables after a statement with a given outcome. -/
def keep (statement : Statement) (outcome : Except Fault Value) (store : Table Value) :
    Table Value :=
  match statement.target, outcome with
  | some name, .ok value => store.put name value
  | _, _ => store

theorem run_eq (binding : Binding) (session : Session) (statement : Statement) :
    statement.run binding session =
      ((statement.operation.run binding session).1,
        { (statement.operation.run binding session).2 with
          store := statement.keep (statement.operation.run binding session).1 session.store }) := by
  have hstore := Operation.run_store binding session statement.operation
  unfold run keep
  split
  · next name value after ht ho =>
    rw [ht, ho]
    rw [ho] at hstore
    simp only [← hstore]
  · next h =>
    rw [← hstore]
    split
    · next name value ht ho =>
      exact (h name value _ ht (Prod.ext ho rfl)).elim
    · rfl

theorem has_keep (statement : Statement) (value : Value) (store : Table Value) (name : String) :
    (statement.keep (.ok value) store).has name ↔
      store.has name ∨ .write name ∈ statement.accesses := by
  obtain ⟨target, operation⟩ := statement
  cases target with
  | none => simp [keep, accesses]
  | some other =>
    have hw : Access.write name ∈ accesses ⟨some other, operation⟩ ↔ name = other := by
      simp [accesses]
    show (store.put other value).has name ↔ _
    rw [hw, Table.has_put, Bool.or_eq_true, decide_eq_true_eq, or_comm, @eq_comm _ other]

theorem run_tracks {known : List String} {session : Session} (h : session.store.Exactly known)
    (binding : Binding) (statement : Statement) :
    Tracks known statement.accesses (fun value => statement.keep (.ok value) session.store)
      (statement.operation.run binding session).1 := by
  have hstray : Access.stray? known statement.accesses =
      session.store.missing? statement.operation.reads := by
    have hwrites : ∀ known', Access.stray? known' (statement.target.toList.map .write) = none := by
      intro known'
      cases statement.target <;> rfl
    have hknown : ∀ name, (!session.store.has name) = decide (name ∉ known) := by
      intro name
      by_cases hn : session.store.has name
      · simp [hn, (h name).mp hn]
      · simp [hn, mt (h name).mpr hn]
    rw [accesses, Access.stray?_append, hwrites, Option.or_none, Access.stray?_reads,
      Table.missing?, funext hknown]
  refine ⟨?_, ?_, fun value _ name => ?_⟩
  · rw [hstray]
    exact Operation.run_raises binding session statement.operation
  · rw [hstray]
    exact fun hs => Operation.run_stops hs binding
  · rw [has_keep, Access.mem_learn, h name]

theorem runAll_tracks {known : List String} {session : Session}
    (h : session.store.Exactly known) (binding : Binding) (last : Value)
    (statements : List Statement) :
    Tracks known (statements.flatMap accesses) (fun result => result.2.store)
      (runAll binding last statements session) := by
  induction statements generalizing known session last with
  | nil =>
    refine ⟨RaisesOnly.ok _, fun hs => (Bool.false_ne_true hs).elim, fun result heq => ?_⟩
    cases heq
    exact h
  | cons statement rest ih =>
    rw [List.flatMap_cons]
    have hstep := run_tracks h binding statement
    refine hstep.append (fun value heq => ?_) fun fault heq => ?_
    · simp only [runAll, run_eq, heq]
      exact ih (hstep.ends value heq) value
    · simp only [runAll, run_eq, heq]

end Statement

namespace Block

theorem run_tracks {known : List String} {store : Table Value} (h : store.Exactly known)
    (binding : Binding) (block : Block) :
    Tracks known block.accesses (fun result => result.2) (block.run binding store) := by
  have hb : Tracks known block.accesses (fun result => result.2.store)
      (Statement.runAll binding .null block.statements (.start store)) :=
    Statement.runAll_tracks h binding .null block.statements
  unfold run
  cases heq : Statement.runAll binding .null block.statements (.start store) with
  | error fault =>
    exact ⟨RaisesOnly.error (hb.raises fault heq), fun _ => ⟨fault, rfl⟩, fun _ h => by cases h⟩
  | ok result =>
    refine ⟨RaisesOnly.ok _, fun hs => ?_, fun pair hp => ?_⟩
    · obtain ⟨fault, hf⟩ := hb.stops hs
      rw [heq] at hf
      cases hf
    · cases hp
      exact hb.ends result heq

theorem runAll_tracks {known : List String} {store : Table Value} (h : store.Exactly known)
    (binding : Binding) (blocks : List Block) (values : Table Value) :
    Tracks known (blocks.flatMap accesses) (fun result => result.2)
      (runAll binding blocks values store) := by
  induction blocks generalizing known store values with
  | nil =>
    refine ⟨RaisesOnly.ok _, fun hs => (Bool.false_ne_true hs).elim, fun result heq => ?_⟩
    cases heq
    exact h
  | cons block rest ih =>
    rw [List.flatMap_cons]
    have hstep := run_tracks h binding block
    refine hstep.append (fun result heq => ?_) fun fault heq => ?_
    · simp only [runAll, heq]
      exact ih (hstep.ends result heq) _
    · simp only [runAll, heq]

end Block

end RecordQuery
