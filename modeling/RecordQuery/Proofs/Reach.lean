/-
The operations that a run comes to.

A run comes to an operation in some state if all that it does before ends without a
fault (`Program.Reaches`).  What a run stops at is the fault of an operation that it
comes to, and every fault of such an operation stops it (`Program.run_error_iff`).
-/
import RecordQuery.Proofs.Attempts
import RecordQuery.Proofs.Variables.Tracking

namespace RecordQuery

/-- Statements in a state come to an operation in another state. -/
inductive Statement.Reaches (binding : Binding) :
    List Statement → Session → Session → Operation → Prop
  | here {statement : Statement} {rest : List Statement} {session : Session} :
      Reaches binding (statement :: rest) session session statement.operation
  | later {statement : Statement} {rest : List Statement} {session after target : Session}
      {value : Value} {operation : Operation} :
      statement.run binding session = (.ok value, after) →
      Reaches binding rest after target operation →
      Reaches binding (statement :: rest) session target operation

/-- Blocks with some variables come to an operation. -/
inductive Block.Reaches (binding : Binding) :
    List Block → Table Value → Session → Operation → Prop
  | inside {block : Block} {rest : List Block} {store : Table Value} {target : Session}
      {operation : Operation} :
      Statement.Reaches binding block.statements (.start store) target operation →
      Reaches binding (block :: rest) store target operation
  | after {block : Block} {rest : List Block} {store after : Table Value} {target : Session}
      {value : Value} {operation : Operation} :
      block.run binding store = .ok (value, after) →
      Reaches binding rest after target operation →
      Reaches binding (block :: rest) store target operation

/-- Leaves with some variables come to an operation, in the binding of one of them. -/
inductive Leaf.Reaches (blocks : List Block) :
    List Leaf → Table Value → Binding → Session → Operation → Prop
  | inside {leaf : Leaf} {rest : List Leaf} {store : Table Value} {target : Session}
      {operation : Operation} :
      Block.Reaches leaf.binding blocks store target operation →
      Reaches blocks (leaf :: rest) store leaf.binding target operation
  | after {leaf : Leaf} {rest : List Leaf} {store after : Table Value} {binding : Binding}
      {target : Session} {values : Table Value} {operation : Operation} :
      Block.runAll leaf.binding blocks [] store = .ok (values, after) →
      Reaches blocks rest after binding target operation →
      Reaches blocks (leaf :: rest) store binding target operation

/-- A run over the data comes to an operation in a state. -/
def Program.Reaches (program : Program) (data : Value) (binding : Binding) (session : Session)
    (operation : Operation) : Prop :=
  Leaf.Reaches program.blocks (Context.resolve program.paths data).leaves [] binding session
    operation

section Reached

variable {binding : Binding} {target : Session} {operation : Operation} {fault : Fault}

theorem Statement.runAll_error_iff {last : Value} {statements : List Statement}
    {session : Session} :
    runAll binding last statements session = .error fault ↔
      ∃ target operation, Reaches binding statements session target operation ∧
        (operation.run binding target).1 = .error fault := by
  induction statements generalizing last session with
  | nil =>
    refine iff_of_false (fun h => by cases h) ?_
    rintro ⟨target, operation, ⟨⟩, -⟩
  | cons statement rest ih =>
    have hcons : runAll binding last (statement :: rest) session =
        (statement.run binding session).1 >>= fun value =>
          runAll binding value rest (statement.run binding session).2 := by
      rw [runAll]
      rcases statement.run binding session with ⟨_ | value, after⟩ <;> rfl
    have hfst : (statement.run binding session).1 =
        (statement.operation.run binding session).1 := by
      rw [run_eq]
    rw [hcons, bind_eq_error]
    simp only [ih]
    constructor
    · rintro (h | ⟨value, hv, target, operation, hreach, h⟩)
      · exact ⟨session, statement.operation, .here, hfst ▸ h⟩
      · exact ⟨target, operation, .later (Prod.ext hv rfl) hreach, h⟩
    · rintro ⟨target, operation, hreach, h⟩
      cases hreach with
      | here => exact .inl (hfst.trans h)
      | later hrun hlater =>
        rw [hrun]
        exact .inr ⟨_, rfl, target, operation, hlater, h⟩

theorem Block.runAll_error_iff {blocks : List Block} {values store : Table Value} :
    runAll binding blocks values store = .error fault ↔
      ∃ target operation, Reaches binding blocks store target operation ∧
        (operation.run binding target).1 = .error fault := by
  induction blocks generalizing values store with
  | nil =>
    refine iff_of_false (fun h => by cases h) ?_
    rintro ⟨target, operation, ⟨⟩, -⟩
  | cons block rest ih =>
    have hcons : runAll binding (block :: rest) values store =
        block.run binding store >>= fun result =>
          runAll binding rest (values.put block.name result.1) result.2 := by
      rw [runAll]
      cases block.run binding store <;> rfl
    have hinside : block.run binding store = .error fault ↔
        ∃ target operation, Statement.Reaches binding block.statements (.start store) target
          operation ∧ (operation.run binding target).1 = .error fault :=
      map_eq_error.trans Statement.runAll_error_iff
    rw [hcons, bind_eq_error, hinside]
    simp only [ih]
    constructor
    · rintro (⟨target, operation, hreach, h⟩ | ⟨⟨value, after⟩, hb, target, operation, hreach, h⟩)
      · exact ⟨target, operation, .inside hreach, h⟩
      · exact ⟨target, operation, .after hb hreach, h⟩
    · rintro ⟨target, operation, hreach, h⟩
      cases hreach with
      | inside hin => exact .inl ⟨target, operation, hin, h⟩
      | after hb hlater => exact .inr ⟨_, hb, target, operation, hlater, h⟩

theorem Leaf.runAll_error_iff {blocks : List Block} {leaves : List Leaf} {store : Table Value} :
    runAll blocks leaves store = .error fault ↔
      ∃ binding target operation, Reaches blocks leaves store binding target operation ∧
        (operation.run binding target).1 = .error fault := by
  induction leaves generalizing store with
  | nil =>
    refine iff_of_false (fun h => by cases h) ?_
    rintro ⟨binding, target, operation, ⟨⟩, -⟩
  | cons leaf rest ih =>
    have hcons : runAll blocks (leaf :: rest) store =
        Block.runAll leaf.binding blocks [] store >>= fun result =>
          (runAll blocks rest result.2).map fun others => (leaf.key, result.1) :: others := by
      rw [runAll]
      cases Block.runAll leaf.binding blocks [] store with
      | error stop => rfl
      | ok result =>
        obtain ⟨values, after⟩ := result
        dsimp only
        cases h : runAll blocks rest after with
        | error stop =>
          show _ = (runAll blocks rest after).map _
          rw [h]
          rfl
        | ok others =>
          show _ = (runAll blocks rest after).map _
          rw [h]
          rfl
    rw [hcons, bind_eq_error, Block.runAll_error_iff]
    simp only [map_eq_error, ih]
    constructor
    · rintro (⟨target, operation, hreach, h⟩ |
        ⟨⟨values, after⟩, hb, binding, target, operation, hreach, h⟩)
      · exact ⟨leaf.binding, target, operation, .inside hreach, h⟩
      · exact ⟨binding, target, operation, .after hb hreach, h⟩
    · rintro ⟨binding, target, operation, hreach, h⟩
      cases hreach with
      | inside hin => exact .inl ⟨target, operation, hin, h⟩
      | after hb hlater => exact .inr ⟨_, hb, binding, target, operation, hlater, h⟩

/-- A run stops at a fault if and only if it comes to an operation that does. -/
theorem Program.run_error_iff {program : Program} {data : Value} :
    program.run data = .error fault ↔
      ∃ binding session operation, program.Reaches data binding session operation ∧
        (operation.run binding session).1 = .error fault :=
  map_eq_error.trans Leaf.runAll_error_iff

end Reached

theorem Leaf.Reaches.mem {blocks : List Block} {leaves : List Leaf} {store : Table Value}
    {binding : Binding} {target : Session} {operation : Operation}
    (h : Reaches blocks leaves store binding target operation) :
    ∃ leaf ∈ leaves, leaf.binding = binding := by
  induction h with
  | inside _ => exact ⟨_, List.mem_cons_self, rfl⟩
  | after _ _ ih =>
    obtain ⟨leaf, hm, hb⟩ := ih
    exact ⟨leaf, List.mem_cons_of_mem _ hm, hb⟩

end RecordQuery
