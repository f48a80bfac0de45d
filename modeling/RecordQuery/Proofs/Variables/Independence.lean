/-
Variables left over from another leaf make no difference.

A run without stray reads overwrites every variable before it reads it, so it
goes alike from any two stores (`runAll_alike`).  A run with a stray read stops in
its first leaf, which does start from no variables.  Either way each leaf has the
outcome that it has when it runs alone (`Leaf.runAll_eq_mapM`), and whether an
unassigned variable stops a run can be told from the order of the accesses.
-/
import RecordQuery.Proofs.Variables.Tracking

namespace RecordQuery

/-! ## Runs from different variables -/

/-- Two stores agree on some names. -/
def Table.AgreeOn {α : Type} (names : List String) (a b : Table α) : Prop :=
  ∀ name ∈ names, a.get? name = b.get? name

theorem Table.AgreeOn.mono {α : Type} {names fewer : List String} {a b : Table α}
    (h : a.AgreeOn names b) (hsub : fewer ⊆ names) : a.AgreeOn fewer b :=
  fun name hn => h name (hsub hn)

/-- Two computations end alike: at the same fault, or with related results. -/
def Alike {α β : Type} (related : α → β → Prop) : Except Fault α → Except Fault β → Prop
  | .ok a, .ok b => related a b
  | .error fault, .error other => fault = other
  | _, _ => False

namespace Condition

variable {store other : Table Value}

theorem test_congr (record : Value) : ∀ {c : Condition}, store.AgreeOn c.reads other →
    c.test store record = c.test other record
  | compare field relation operand, h => by
    cases operand with
    | literal value => rfl
    | reference name =>
      have : store.get? name = other.get? name := h name (by simp [reads])
      simp only [test, Operand.value, this]
  | and left right, h => by
    have hl := test_congr record (c := left) (h.mono (List.subset_append_left _ _))
    have hr := test_congr record (c := right) (h.mono (List.subset_append_right _ _))
    simp only [test, hl, hr]
  | or left right, h => by
    have hl := test_congr record (c := left) (h.mono (List.subset_append_left _ _))
    have hr := test_congr record (c := right) (h.mono (List.subset_append_right _ _))
    simp only [test, hl, hr]
  | not inner, h => by
    have hi := test_congr record (c := inner) h
    simp only [test, hi]

theorem filter_congr {c : Condition} (h : store.AgreeOn c.reads other) (rows : List Value) :
    c.filter store rows = c.filter other rows := by
  induction rows with
  | nil => rfl
  | cons row rest ih => simp only [filter, test_congr row h, ih]

end Condition

theorem Table.missing?_congr {α : Type} {store other : Table α} {names : List String}
    (h : store.AgreeOn names other) : store.missing? names = other.missing? names := by
  induction names with
  | nil => rfl
  | cons name rest ih =>
    have hname : store.has name = other.has name := by rw [has, has, h name List.mem_cons_self]
    have hrest := ih (h.mono (List.subset_cons_self name rest))
    simp only [missing?, List.find?_cons, hname] at hrest ⊢
    rw [hrest]

theorem Select.run_congr {select : Select} {store other : Table Value}
    (h : store.AgreeOn select.reads other) (binding : Binding) (seen : List String) :
    select.run binding store seen = select.run binding other seen := by
  have hfilter : ∀ rows, select.filter store rows = select.filter other rows := by
    intro rows
    unfold Select.filter
    split
    · rfl
    · next condition hc =>
      exact condition.filter_congr (by simpa [Select.reads, hc] using h) rows
  simp only [run, missingVariable?_eq, Table.missing?_congr h, hfilter]

/-- A selection finds the same rows in a session with other variables if these
agree on what it reads. -/
theorem Session.select_congr {session : Session} {other : Table Value} {select : Select}
    (h : session.store.AgreeOn select.reads other) (binding : Binding) :
    ({ session with store := other }).select binding select =
      ((session.select binding select).1,
        { (session.select binding select).2 with store := other }) := by
  have := Select.run_congr h binding (session.refer select).seen
  exact Prod.ext this.symm rfl

/-- The variables that an operation does not read make no difference to it. -/
theorem Operation.run_congr {session : Session} {other : Table Value} {operation : Operation}
    (h : session.store.AgreeOn operation.reads other) (binding : Binding) :
    operation.run binding { session with store := other } =
      ((operation.run binding session).1,
        { (operation.run binding session).2 with store := other }) := by
  cases operation with
  | select selection =>
    simp only [run, Session.select_congr h]
    cases session.select binding selection with
    | mk selected after => cases selected <;> rfl
  | count selection => simp only [run, Session.select_congr h]
  | aggregate function => rfl
  | arithmetic operator left right =>
    have hl : session.store.get? left = other.get? left := h left (by simp [reads])
    have hr : session.store.get? right = other.get? right := h right (by simp [reads])
    simp only [run, Session.read, hl, hr]
  | percentOf part whole =>
    have hp := h.mono (List.subset_append_left part.reads whole.reads)
    have hw := h.mono (List.subset_append_right part.reads whole.reads)
    simp only [run, Session.select_congr hp]
    cases heq : session.select binding part with
    | mk selected between =>
      cases selected with
      | error fault => rfl
      | ok numerator =>
        rw [← (select_between heq).2] at hw
        simp only [Session.select_congr hw]

theorem Alike.cases {α β : Type} {related : α → β → Prop} {x : Except Fault α}
    {y : Except Fault β} (h : Alike related x y) :
    (∃ fault, x = .error fault ∧ y = .error fault) ∨
      ∃ a b, x = .ok a ∧ y = .ok b ∧ related a b := by
  cases x with
  | error fault =>
    cases y with
    | error other => exact .inl ⟨fault, rfl, by rw [(h : fault = other)]⟩
    | ok b => exact h.elim
  | ok a =>
    cases y with
    | error other => exact h.elim
    | ok b => exact .inr ⟨a, b, rfl, rfl, h⟩

namespace Statement

theorem agreeOn_reads {known : List String} {statement : Statement}
    (h : Access.stray? known statement.accesses = none) :
    statement.operation.reads ⊆ known := by
  rw [accesses, Access.stray?_append, Option.or_eq_none_iff, Access.stray?_reads] at h
  intro name hn
  simpa using List.find?_eq_none.mp h.1 name hn

theorem keep_agreeOn {known : List String} {store other : Table Value}
    (h : store.AgreeOn known other) (statement : Statement) (value : Value) :
    (statement.keep (.ok value) store).AgreeOn (Access.learn known statement.accesses)
      (statement.keep (.ok value) other) := by
  obtain ⟨target, operation⟩ := statement
  intro name hn
  rw [Access.mem_learn] at hn
  cases target with
  | none => exact h name (by simpa [accesses] using hn)
  | some written =>
    have hw : Access.write name ∈ accesses ⟨some written, operation⟩ ↔ name = written := by
      simp [accesses]
    show (store.put written value).get? name = (other.put written value).get? name
    rw [Table.get?_put, Table.get?_put]
    by_cases heq : written = name
    · rw [if_pos heq, if_pos heq]
    · rw [if_neg heq, if_neg heq]
      exact h name (hn.resolve_right fun h => heq (hw.mp h).symm)

/-- Without stray reads, statements run alike from stores that agree on the known
names. -/
theorem runAll_alike {known : List String} {session : Session} {other : Table Value}
    {statements : List Statement}
    (hs : Access.stray? known (statements.flatMap accesses) = none)
    (ha : session.store.AgreeOn known other) (binding : Binding) (last : Value) :
    Alike (fun a b => a.1 = b.1 ∧
        a.2.store.AgreeOn (Access.learn known (statements.flatMap accesses)) b.2.store)
      (runAll binding last statements session)
      (runAll binding last statements { session with store := other }) := by
  induction statements generalizing known session other last with
  | nil => exact ⟨rfl, ha⟩
  | cons statement rest ih =>
    rw [List.flatMap_cons, Access.stray?_append, Option.or_eq_none_iff] at hs
    have hop := Operation.run_congr (ha.mono (agreeOn_reads hs.1)) binding
    rw [List.flatMap_cons, Access.learn_append]
    simp only [runAll, run_eq, hop]
    cases heq : (statement.operation.run binding session).1 with
    | error fault => rfl
    | ok value => exact ih hs.2 (keep_agreeOn ha statement value) value

end Statement

namespace Block

theorem run_alike {known : List String} {store other : Table Value} {block : Block}
    (hs : Access.stray? known block.accesses = none) (ha : store.AgreeOn known other)
    (binding : Binding) :
    Alike (fun a b => a.1 = b.1 ∧ a.2.AgreeOn (Access.learn known block.accesses) b.2)
      (block.run binding store) (block.run binding other) := by
  have h : Alike _ (Statement.runAll binding .null block.statements (.start store))
      (Statement.runAll binding .null block.statements (.start other)) :=
    Statement.runAll_alike hs ha binding .null
  unfold run
  obtain ⟨fault, hx, hy⟩ | ⟨a, b, hx, hy, hab⟩ := h.cases
  · rw [hx, hy]
    rfl
  · rw [hx, hy]
    exact hab

/-- Without stray reads, blocks have the same values whatever the variables they
start with. -/
theorem runAll_alike {known : List String} {store other : Table Value} {blocks : List Block}
    (hs : Access.stray? known (blocks.flatMap accesses) = none)
    (ha : store.AgreeOn known other) (binding : Binding) (values : Table Value) :
    Alike (fun a b => a.1 = b.1)
      (runAll binding blocks values store) (runAll binding blocks values other) := by
  induction blocks generalizing known store other values with
  | nil => rfl
  | cons block rest ih =>
    rw [List.flatMap_cons, Access.stray?_append, Option.or_eq_none_iff] at hs
    simp only [runAll]
    obtain ⟨fault, hx, hy⟩ | ⟨⟨v, σ⟩, ⟨w, τ⟩, hx, hy, hvw, hab⟩ :=
      (run_alike hs.1 ha binding).cases
    · rw [hx, hy]
      rfl
    · obtain rfl : v = w := hvw
      rw [hx, hy]
      exact ih hs.2 hab _

end Block

/-! ## Leaves -/

/-- The values of all blocks in one leaf, run from no variables. -/
def Leaf.alone (blocks : List Block) (leaf : Leaf) : Except Fault (List String × Table Value) :=
  (Block.runAll leaf.binding blocks [] []).map fun result => (leaf.key, result.1)

theorem Table.exactly_nil {α : Type} : Table.Exactly [] ([] : Table α) := by
  intro name
  simp [has]

/-- Each leaf of a run has the outcome that it has when it runs alone. -/
theorem Leaf.runAll_eq_mapM (blocks : List Block) (leaves : List Leaf) :
    Leaf.runAll blocks leaves [] = leaves.mapM (Leaf.alone blocks) := by
  cases hs : Access.stray? [] (blocks.flatMap Block.accesses) with
  | some name =>
    -- The first leaf does start from no variables, and it stops.
    cases leaves with
    | nil => rfl
    | cons leaf rest =>
      have ht := Block.runAll_tracks Table.exactly_nil leaf.binding blocks []
      obtain ⟨fault, hf⟩ := ht.stops (by rw [hs]; rfl)
      rw [List.mapM_cons]
      simp only [runAll, alone, hf]
      rfl
  | none =>
    suffices ∀ store, Leaf.runAll blocks leaves store = leaves.mapM (Leaf.alone blocks) from
      this []
    intro store
    induction leaves generalizing store with
    | nil => rfl
    | cons leaf rest ih =>
      have hnone : Table.AgreeOn [] [] store := fun name hn => (List.not_mem_nil hn).elim
      have hl := Block.runAll_alike hs hnone leaf.binding []
      rw [List.mapM_cons]
      obtain ⟨fault, hx, hy⟩ | ⟨⟨values, σ⟩, ⟨others, after⟩, hx, hy, hl⟩ := hl.cases
      · simp only [runAll, alone, hx, hy]
        rfl
      · obtain rfl : values = others := hl
        simp only [runAll, alone, hx, hy, ih after]
        cases rest.mapM (Leaf.alone blocks) <;> rfl

/-! ## Unassigned variables -/

theorem Leaf.alone_raises (blocks : List Block) (leaf : Leaf) :
    RaisesOnly (Fault.Reports (Access.stray? [] (blocks.flatMap Block.accesses)))
      (leaf.alone blocks) :=
  (Block.runAll_tracks Table.exactly_nil leaf.binding blocks []).raises.map _

namespace Context

/-- There is always a leaf. -/
theorem keys_ne_nil (axes : List Axis) : keys axes ≠ [] := by
  induction axes with
  | nil => exact List.cons_ne_nil _ _
  | cons axis rest ih => simp [keys, Names.toList, ih]

theorem leaves_ne_nil (paths : List UsePath) (data : Value) : (resolve paths data).leaves ≠ [] := by
  simp [resolve, keys_ne_nil]

end Context

/-- The order of the accesses decides what becomes of unassigned variables, for
all data alike.  If every read comes after a write, none is ever met; otherwise
every run fails, and one that fails for an unassigned variable names the first
that is read astray. -/
theorem Program.run_unassigned (program : Program) :
    (Access.Settled program.accesses →
      ∀ data name, program.run data ≠ .error (.unassigned name)) ∧
    (¬ Access.Settled program.accesses →
      ∃ first, Access.FirstStray program.accesses first ∧
        ∀ data, ∃ fault, program.run data = .error fault ∧
          ∀ name, fault = .unassigned name → name = first) := by
  have raises : ∀ data, RaisesOnly (Fault.Reports (Access.stray? [] program.accesses))
      (program.run data) := fun data => by
    simp only [run, Leaf.runAll_eq_mapM]
    exact (RaisesOnly.mapM (Leaf.alone_raises program.blocks) _).map _
  constructor
  · intro hs data name heq
    have := raises data _ heq name rfl
    rw [Access.settled_iff.mp hs] at this
    cases this
  · intro hs
    obtain ⟨first, hf⟩ := Option.ne_none_iff_exists'.mp (mt Access.settled_iff.mpr hs)
    refine ⟨first, Access.firstStray_of_stray? hf, fun data => ?_⟩
    obtain ⟨leaf, rest, hl⟩ :=
      List.exists_cons_of_ne_nil (Context.leaves_ne_nil program.paths data)
    obtain ⟨fault, hfault⟩ :=
      (Block.runAll_tracks Table.exactly_nil leaf.binding program.blocks []).stops
        (by rw [← Program.accesses, hf]; rfl)
    have hrun : program.run data = .error fault := by
      simp only [run, hl, Leaf.runAll, hfault]
      rfl
    refine ⟨fault, hrun, fun name heq => ?_⟩
    have := raises data fault hrun name heq
    rw [hf] at this
    exact (Option.some.inj this).symm

end RecordQuery
