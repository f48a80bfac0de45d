/-
Notes on what parsing and running did.

A journal never decides anything: it is read off a parse or a run after the
fact, by going through the same pieces in the same order.
-/
import RecordQuery.Execution
import RecordQuery.Program.Parser

namespace RecordQuery

inductive Note
  /-- A token that begins nothing was passed over. -/
  | skipped (token : Token)
  | missingPath (names : List String)
  | resolved (leaves axes : Nat)
  | executing (block : String) (leaf : List String)
  /-- Several sources expose equally many of the fields, and the earliest
  declared was taken. -/
  | tie (score : Nat) (fields : List String) (declaration : Nat)

namespace Note

/-- Whether a note is for users, and not only for whoever looks for a mistake. -/
def isInformative : Note → Bool
  | tie _ _ _ => true
  | _ => false

def text : Note → String
  | skipped token =>
    s!"Skipping unexpected token {token.kind.label} " ++ Text.quoted token.lexeme ++
      s!" at line {token.line}"
  | missingPath names => "USE path " ++ ".".intercalate names ++ " not found in data"
  | resolved leaves axes => s!"Resolved {leaves} leaves across {axes} axes"
  | executing block leaf => "Executing query " ++ block ++ " for leaf " ++ Text.quotedList leaf
  | tie score fields declaration =>
    s!"Several sources match {score} of fields " ++ Text.quotedList fields ++
      s!"; the earliest USE declaration wins (USE #{declaration + 1})"

/-- A note with its level. -/
def message (note : Note) : String :=
  (if note.isInformative then "INFO " else "DEBUG ") ++ note.text

/-! ## Parsing -/

/-- The tokens passed over among statements, as far as these can be read. -/
def skippedStatements (ts : List Token) : List Token :=
  match ts with
  | [] => []
  | t :: ts =>
    if Grammar.endsBlock t.kind then []
    else
      match hs : Grammar.statement t with
      | none => t :: skippedStatements ts
      | some parse =>
        match h : parse ts with
        | .error _ => []
        | .ok (_, rest) =>
          have := (Grammar.reads_statement hs h).length_le
          skippedStatements rest
termination_by ts.length

/-- The tokens passed over in a program, as far as it can be read. -/
def skippedTokens (ts : List Token) : List Token :=
  match ts with
  | [] => []
  | t :: ts =>
    match t.kind with
    | .endOfText => []
    | .use =>
      match h : Grammar.path ts with
      | .error _ => []
      | .ok (_, rest) =>
        have := (Grammar.reads_path h).length_le
        skippedTokens rest
    | .query =>
      (match Grammar.expect .identifier .queryName ts with
        | .error _ => []
        | .ok (_, rest) => skippedStatements rest) ++
        match h : Grammar.block ts with
        | .error _ => []
        | .ok (_, rest) =>
          have := (Grammar.reads_block h).length_le
          skippedTokens rest
    | _ => t :: skippedTokens ts
termination_by ts.length

/-- Comments are passed over without a note. -/
def ofTokens (tokens : List Token) : List Note :=
  ((skippedTokens tokens).filter fun t => t.kind ≠ .comment).map skipped

/-! ## Running -/

/-- The paths that lead nowhere in a leaf. -/
def missingPaths (paths : List UsePath) (data : Value) (choice : Choice) : List Note :=
  paths.filterMap fun path =>
    match path.concrete? choice with
    | none => none
    | some names => if (data.at? names).isSome then none else some (missingPath names)

def ofContext (paths : List UsePath) (data : Value) : List Note :=
  let context := Context.resolve paths data
  (context.leaves.flatMap fun leaf => missingPaths paths data (context.axes.zip leaf.key)) ++
    [resolved context.leaves.length context.axes.length]

/-- The bound sources, each once. -/
def distinctSources (binding : Binding) : List Source :=
  (Binding.sources binding).eraseDupsBy fun a b => a.declaration == b.declaration

/-- The source that is ahead of those gone through so far, and whether another of them is
level with it. -/
structure Front where
  source : Source
  level : Bool

/-- The front after one more source. -/
def Front.pass (fields : List String) (front : Front) (next : Source) : Front :=
  if front.source.score fields < next.score fields then ⟨next, false⟩
  else if next.score fields = front.source.score fields then { front with level := true }
  else front

/-- The front after all bound sources, if there are any. -/
def front? (binding : Binding) (fields : List String) : Option Front :=
  match distinctSources binding with
  | [] => none
  | first :: rest => some (rest.foldl (Front.pass fields) ⟨first, false⟩)

/-- A tie between the chosen source and others. -/
def tied (binding : Binding) (fields : List String) (chosen : Option Source) : List Note :=
  match chosen, front? binding fields with
  | some source, some front =>
    if front.level then [tie (source.score fields) fields source.declaration] else []
  | _, _ => []

def ofSelect (binding : Binding) (session : Session) (select : Select) : List Note :=
  let referred := session.refer select
  if (select.missingVariable? referred.store).isSome then []
  else
    match select.fields, Binding.source binding select.fields referred.seen with
    | _, (_, true) => []
    | .all, (chosen, _) => tied binding referred.seen chosen
    | .named names, (chosen, _) => tied binding names.toList chosen

def ofOperation (binding : Binding) (session : Session) : Operation → List Note
  | .select selection | .count selection => ofSelect binding session selection
  | .percentOf part whole =>
    ofSelect binding session part ++
      match session.select binding part with
      | (.ok _, between) => ofSelect binding between whole
      | (.error _, _) => []
  | _ => []

/-- The notes of statements, and the state after them unless one fails. -/
def ofStatements (binding : Binding) : List Statement → Session → List Note × Option Session
  | [], session => ([], some session)
  | statement :: rest, session =>
    let notes := ofOperation binding session statement.operation
    match statement.run binding session with
    | (.error _, _) => (notes, none)
    | (.ok _, after) =>
      let (later, last) := ofStatements binding rest after
      (notes ++ later, last)

def ofBlocks (leaf : Leaf) : List Block → Table Value → List Note × Option (Table Value)
  | [], store => ([], some store)
  | block :: rest, store =>
    let opening := executing block.name leaf.key
    match ofStatements leaf.binding block.statements (.start store) with
    | (notes, none) => (opening :: notes, none)
    | (notes, some session) =>
      let (later, last) := ofBlocks leaf rest session.store
      (opening :: notes ++ later, last)

def ofLeaves (blocks : List Block) : List Leaf → Table Value → List Note
  | [], _ => []
  | leaf :: rest, store =>
    match ofBlocks leaf blocks store with
    | (notes, none) => notes
    | (notes, some after) => notes ++ ofLeaves blocks rest after

/-- The notes of a run. -/
def ofRun (program : Program) (data : Value) : List Note :=
  ofContext program.paths data ++
    ofLeaves program.blocks (Context.resolve program.paths data).leaves []

end Note

end RecordQuery
