/-
Running programs.

The statements of a block share a working set and a list of the fields referred
to so far; both are new for every block and leaf.  Variables are shared by all
blocks and leaves of a run, which go through the leaves in order and, within a
leaf, through the blocks in order.
-/
import RecordQuery.Operator.Aggregate
import RecordQuery.Operator.Arithmetic
import RecordQuery.Selection

namespace RecordQuery

/-- The state between two statements. -/
structure Session where
  workingSet : List Value
  store : Table Value
  seen : List String

namespace Session

/-- The state before the first statement of a block. -/
def start (store : Table Value) : Session := ⟨[], store, []⟩

/-- Adds a name to those seen, once. -/
def addSeen (seen : List String) (name : String) : List String :=
  if name ∈ seen then seen else seen ++ [name]

/-- The state in which a selection has referred to its fields. -/
def refer (session : Session) (select : Select) : Session :=
  { session with seen := select.references.foldl addSeen session.seen }

/-- Runs a selection.  The fields it refers to are noted even if it fails. -/
def select (session : Session) (binding : Binding) (select : Select) :
    Except Fault Selection × Session :=
  let referred := session.refer select
  (select.run binding referred.store referred.seen, referred)

def read (session : Session) (name : String) : Except Fault Value :=
  match session.store.get? name with
  | some value => .ok value
  | none => .error (.unassigned name)

end Session

/-- An operation on a state: its value or what stopped it, and the state it
leaves. -/
def Operation.run (binding : Binding) (session : Session) :
    Operation → Except Fault Value × Session
  | select selection =>
    match session.select binding selection with
    | (.ok selected, after) => (.ok selected.value, { after with workingSet := selected.rows })
    | (.error fault, after) => (.error fault, after)
  | count selection =>
    let (selected, after) := session.select binding selection
    (selected.map fun selected => .int selected.rows.length, after)
  | aggregate function => (function.apply session.workingSet, session)
  | arithmetic operator left right =>
    (do operator.apply (← session.read left) (← session.read right), session)
  | percentOf part whole =>
    match session.select binding part with
    | (.error fault, after) => (.error fault, after)
    | (.ok numerator, between) =>
      let (denominator, after) := between.select binding whole
      (do Arithmetic.percentage numerator.rows.length (← denominator).rows.length, after)

/-- A statement on a state.  Only a value that was computed is kept. -/
def Statement.run (binding : Binding) (session : Session) (statement : Statement) :
    Except Fault Value × Session :=
  match statement.target, statement.operation.run binding session with
  | some name, (.ok value, after) =>
    (.ok value, { after with store := after.store.put name value })
  | _, outcome => outcome

/-- Statements in order; the value is that of the last one, or the given value
if there is none. -/
def Statement.runAll (binding : Binding) :
    Value → List Statement → Session → Except Fault (Value × Session)
  | last, [], session => .ok (last, session)
  | _, statement :: rest, session =>
    match statement.run binding session with
    | (.ok value, after) => runAll binding value rest after
    | (.error fault, _) => .error fault

/-- A block, from the variables before it to its value and the variables after
it. -/
def Block.run (binding : Binding) (store : Table Value) (block : Block) :
    Except Fault (Value × Table Value) :=
  (Statement.runAll binding .null block.statements (.start store)).map
    fun (value, session) => (value, session.store)

/-- Blocks in order.  The values go into the given table under the names of the
blocks. -/
def Block.runAll (binding : Binding) :
    List Block → Table Value → Table Value → Except Fault (Table Value × Table Value)
  | [], values, store => .ok (values, store)
  | block :: rest, values, store =>
    match block.run binding store with
    | .ok (value, after) => runAll binding rest (values.put block.name value) after
    | .error fault => .error fault

/-- Leaves in order, each with the values of all blocks. -/
def Leaf.runAll (blocks : List Block) :
    List Leaf → Table Value → Except Fault (List (List String × Table Value))
  | [], _ => .ok []
  | leaf :: rest, store =>
    match Block.runAll leaf.binding blocks [] store with
    | .ok (values, after) =>
      match runAll blocks rest after with
      | .ok others => .ok ((leaf.key, values) :: others)
      | .error fault => .error fault
    | .error fault => .error fault

/-- Puts a value under a path of names into nested records. -/
def nest : List (String × Value) → List String → Value → List (String × Value)
  | fields, [], _ => fields
  | fields, [name], value => Table.put fields name value
  | fields, name :: names, value =>
    let inner := match Table.get? fields name with
      | some (.record inner) => inner
      | _ => []
    Table.put fields name (.record (nest inner names value))

namespace Program

/-- The values of one block over all leaves, in records nested by the axes. -/
def assemble (axes : List Axis) (leaves : List (List String × Table Value)) (name : String) :
    Value :=
  if axes.isEmpty then
    match leaves with
    | (_, values) :: _ => (values.get? name).getD .null
    | [] => .null
  else
    .record (leaves.foldl (fun fields (key, values) =>
      nest fields key ((values.get? name).getD .null)) [])

/-- The names of the blocks, each once. -/
def blockNames (program : Program) : List String :=
  (program.blocks.map Block.name).eraseDups

/-- The result of a program over the data: a value under the name of every
block. -/
def run (program : Program) (data : Value) : Except Fault (Table Value) :=
  let context := Context.resolve program.paths data
  (Leaf.runAll program.blocks context.leaves []).map fun leaves =>
    program.blockNames.map fun name => (name, assemble context.axes leaves name)

end Program

/-! ## Step by step -/

/-- One statement of a run: where it stands, its outcome, and the state it
leaves. -/
structure Step where
  leaf : List String
  block : String
  index : Nat
  outcome : Except Fault Value
  session : Session

namespace Step

/-- The steps of a block from a state on, and the state at its end unless a
statement fails. -/
def ofStatements (leaf : Leaf) (block : String) :
    Nat → List Statement → Session → List Step × Option Session
  | _, [], session => ([], some session)
  | index, statement :: rest, session =>
    let (outcome, after) := statement.run leaf.binding session
    let step : Step := ⟨leaf.key, block, index, outcome, after⟩
    match outcome with
    | .error _ => ([step], none)
    | .ok _ =>
      let (later, last) := ofStatements leaf block (index + 1) rest after
      (step :: later, last)

/-- The steps of blocks in a leaf, and the variables after them unless a
statement fails. -/
def ofBlocks (leaf : Leaf) : List Block → Table Value → List Step × Option (Table Value)
  | [], store => ([], some store)
  | block :: rest, store =>
    match ofStatements leaf block.name 0 block.statements (.start store) with
    | (steps, none) => (steps, none)
    | (steps, some session) =>
      let (later, last) := ofBlocks leaf rest session.store
      (steps ++ later, last)

def ofLeaves (blocks : List Block) : List Leaf → Table Value → List Step
  | [], _ => []
  | leaf :: rest, store =>
    match ofBlocks leaf blocks store with
    | (steps, none) => steps
    | (steps, some after) => steps ++ ofLeaves blocks rest after

end Step

/-- The steps of a run, up to one that fails. -/
def Program.steps (program : Program) (data : Value) : List Step :=
  Step.ofLeaves program.blocks (Context.resolve program.paths data).leaves []

end RecordQuery
