/-
What an operation leaves as it was.

Only a selection changes the working set, and only an assignment the variables, at one name.
The fields referred to are added at the end of those seen, each once
(`Operation.run_seen`).  An operation that stops has changed neither the working set nor the
variables, wherever it stops (`Statement.run_frame`).

The fields seen are the one part of the state that is kept when an operation stops: those of
a selection are noted before it reads anything.  Of a percentage that stops at its first
selection only the fields of that one are noted, so what an operation notes is in general
the beginning of what it refers to, and all of it if the operation has a value.
-/
import RecordQuery.Proofs.Conditions.Origin
import RecordQuery.Proofs.FirstAppearance
import RecordQuery.Proofs.Overflow.Runs
import RecordQuery.Proofs.Variables.Tracking

namespace RecordQuery

/-! ## The fields of a condition -/

namespace Grammar

theorem operand_not_identifier {t : Token} {found : Operand} (h : operand t = .ok found) :
    t.kind ≠ .identifier := by
  intro hk
  simp only [operand, hk] at h
  cases h

/-- The identifiers among the tokens of a condition are the fields it refers to, in order. -/
theorem SpellsCondition.fields_eq {tier : Tier} {xs : List Token} {c : Condition}
    (h : SpellsCondition tier xs c) :
    c.fields = (xs.filter fun t => t.kind = .identifier).map Token.lexeme := by
  induction h with
  | compare hf hr ho =>
    have ho := operand_not_identifier ho
    simp [Condition.fields, hf, hr, ho]
  | paren hl _ hr ih => simpa [hl, hr] using ih
  | not hn _ ih => simpa [Condition.fields, hn] using ih
  | and _ hm _ ihl ihr | or _ hm _ ihl ihr => simp [Condition.fields, hm, ihl, ihr]
  | primary _ ih | negation _ ih | conjunction _ ih => exact ih

end Grammar

/-! ## The fields seen -/

theorem eraseDups_concat (xs : List String) (x : String) :
    (xs ++ [x]).eraseDups = Session.addSeen xs.eraseDups x := by
  rw [List.eraseDups_append, Session.addSeen]
  by_cases hx : x ∈ xs
  · rw [if_pos (List.mem_eraseDups.mpr hx)]
    simp [List.removeAll, hx]
  · rw [if_neg (mt List.mem_eraseDups.mp hx)]
    simp [List.removeAll, hx, List.eraseDups_cons]

namespace Session

/-- Names are added to those seen at the end. -/
theorem prefix_foldl_addSeen (seen names : List String) : seen <+: names.foldl addSeen seen := by
  induction names generalizing seen with
  | nil => exact List.prefix_refl seen
  | cons name rest ih =>
    refine List.IsPrefix.trans ?_ (ih (addSeen seen name))
    unfold addSeen
    split
    · exact List.prefix_refl seen
    · exact List.prefix_append seen [name]

/-- What is seen after more names are the members of all, in the order in which they first
appear. -/
theorem foldl_addSeen (seen names : List String) :
    names.foldl addSeen seen.eraseDups = (seen ++ names).eraseDups := by
  induction names generalizing seen with
  | nil => rw [List.append_nil, List.foldl_nil]
  | cons name rest ih =>
    rw [List.foldl_cons, ← eraseDups_concat, ih, List.append_assoc, List.singleton_append]

theorem foldl_addSeen_of_nodup {seen : List String} (h : seen.Nodup) (names : List String) :
    names.foldl addSeen seen = (seen ++ names).eraseDups := by
  rw [← foldl_addSeen, eraseDups_of_nodup h]

end Session

namespace Operation

/-- The fields an operation refers to: those of its selections, in order. -/
def references : Operation → List String
  | select selection | count selection => selection.references
  | percentOf part whole => part.references ++ whole.references
  | aggregate _ | arithmetic _ _ _ => []

variable (binding : Binding) (session : Session)

/-- An operation notes the fields it refers to from the first on, and all of them if it has
a value. -/
theorem run_seen (operation : Operation) :
    ∃ noted, noted <+: operation.references ∧
      (operation.run binding session).2.seen = noted.foldl Session.addSeen session.seen ∧
      ∀ value, (operation.run binding session).1 = .ok value → noted = operation.references := by
  cases operation with
  | select selection =>
    refine ⟨selection.references, List.prefix_refl _, ?_, fun _ _ => rfl⟩
    rw [run_select_eq]
    cases (session.select binding selection).1 <;> rfl
  | count selection => exact ⟨selection.references, List.prefix_refl _, rfl, fun _ _ => rfl⟩
  | aggregate function => exact ⟨[], List.prefix_refl _, rfl, fun _ _ => rfl⟩
  | arithmetic operator left right => exact ⟨[], List.prefix_refl _, rfl, fun _ _ => rfl⟩
  | percentOf part whole =>
    rw [run_percentOf_eq]
    cases (session.select binding part).1 with
    | error fault =>
      -- Only here is it not all: the second selection is not come to.
      exact ⟨part.references, List.prefix_append _ _, rfl, fun _ hv => by cases hv⟩
    | ok numerator =>
      exact ⟨part.references ++ whole.references, List.prefix_refl _, List.foldl_append.symm,
        fun _ _ => rfl⟩

/-- A selection that has a value leaves the rows it selected as the working set. -/
theorem run_select_workingSet {selection : Select} {value : Value}
    (h : ((select selection).run binding session).1 = .ok value) :
    ∃ found, (session.select binding selection).1 = .ok found ∧ value = found.value ∧
      ((select selection).run binding session).2.workingSet = found.rows := by
  rw [run_select_eq] at h ⊢
  cases hs : (session.select binding selection).1 with
  | ok found =>
    rw [hs] at h
    cases h
    exact ⟨found, rfl, rfl, rfl⟩
  | error fault =>
    rw [hs] at h
    cases h

/-- What is no selection, or stops, leaves the working set alone. -/
theorem run_workingSet (operation : Operation)
    (h : (∃ selection, operation = .select selection) →
      ∃ fault, (operation.run binding session).1 = .error fault) :
    (operation.run binding session).2.workingSet = session.workingSet := by
  cases operation with
  | select selection =>
    obtain ⟨fault, hf⟩ := h ⟨selection, rfl⟩
    rw [run_select_eq] at hf ⊢
    cases hs : (session.select binding selection).1 with
    | ok found =>
      rw [hs] at hf
      cases hf
    | error fault => rfl
  | percentOf part whole =>
    rw [run_percentOf_eq]
    cases (session.select binding part).1 <;> rfl
  | count selection => rfl
  | aggregate function => rfl
  | arithmetic operator left right => rfl

/-- A count is the length of the working set that the selection would leave, and stops where
the selection does. -/
theorem run_count (selection : Select) :
    ((count selection).run binding session).1 =
      ((select selection).run binding session).1.map fun _ =>
        .int ((select selection).run binding session).2.workingSet.length := by
  rw [run_count_eq, run_select_eq]
  cases (session.select binding selection).1 <;> rfl

end Operation

/-! ## Statements -/

namespace Statement

/-- What a statement may change of the state it runs on, given its outcome and the state
after it. -/
structure Frame (binding : Binding) (session : Session) (statement : Statement)
    (outcome : Except Fault Value) (after : Session) : Prop where
  value : outcome = (statement.operation.run binding session).1
  selected : ∀ selection, statement.operation = .select selection → ∀ value,
    outcome = .ok value → ∃ found, (session.select binding selection).1 = .ok found ∧
      value = found.value ∧ after.workingSet = found.rows
  unselected : (∀ selection, statement.operation ≠ .select selection) →
    after.workingSet = session.workingSet
  assigned : ∀ name, statement.target = some name → ∀ value, outcome = .ok value →
    ∀ other, after.store.get? other =
      if name = other then some value else session.store.get? other
  unassigned : statement.target = none → after.store = session.store
  failed : ∀ fault, outcome = .error fault →
    after.workingSet = session.workingSet ∧ after.store = session.store
  extended : session.seen <+: after.seen
  distinct : session.seen.Nodup → after.seen.Nodup
  seen : session.seen.Nodup → ∀ value, outcome = .ok value →
    after.seen = (session.seen ++ statement.operation.references).eraseDups

theorem frame (binding : Binding) (session : Session) (statement : Statement) :
    Frame binding session statement (statement.run binding session).1
      (statement.run binding session).2 := by
  obtain ⟨noted, -, hseen, hall⟩ := statement.operation.run_seen binding session
  have hkept := Operation.run_workingSet binding session statement.operation
  rw [run_eq]
  constructor
  case value => rfl
  case selected =>
    intro selection hs value hv
    rw [hs] at hv ⊢
    exact Operation.run_select_workingSet binding session hv
  case unselected => exact fun hs => hkept fun ⟨selection, heq⟩ => absurd heq (hs selection)
  case assigned =>
    intro name ht value hv other
    show (statement.keep (statement.operation.run binding session).1 session.store).get? other = _
    rw [hv]
    simp only [keep, ht]
    exact Table.get?_put session.store name other value
  case unassigned =>
    intro ht
    show statement.keep _ session.store = _
    simp only [keep, ht]
  case failed =>
    intro fault hf
    refine ⟨hkept fun _ => ⟨fault, hf⟩, ?_⟩
    show statement.keep (statement.operation.run binding session).1 session.store = _
    rw [hf]
    unfold keep
    cases statement.target <;> rfl
  case extended =>
    show session.seen <+: (statement.operation.run binding session).2.seen
    rw [hseen]
    exact Session.prefix_foldl_addSeen session.seen noted
  case distinct =>
    intro hd
    show (statement.operation.run binding session).2.seen.Nodup
    rw [hseen, Session.foldl_addSeen_of_nodup hd]
    exact nodup_eraseDups _
  case seen =>
    intro hd value hv
    show (statement.operation.run binding session).2.seen = _
    rw [hseen, hall value hv, Session.foldl_addSeen_of_nodup hd]

/-- After a run from fields that do not repeat, these are followed by the fields that the
statements refer to, each at its first place. -/
theorem seen_runAll {binding : Binding} {statements : List Statement} {last value : Value}
    {session after : Session} (hd : session.seen.Nodup)
    (h : runAll binding last statements session = .ok (value, after)) :
    after.seen = (session.seen ++
      statements.flatMap fun statement => statement.operation.references).eraseDups := by
  induction statements generalizing last session with
  | nil =>
    cases h
    rw [List.flatMap_nil, List.append_nil, eraseDups_of_nodup hd]
  | cons statement rest ih =>
    have hframe := statement.frame binding session
    rw [runAll] at h
    split at h
    · next own between hrun =>
      rw [hrun] at hframe
      -- The fields seen so far are without repetitions, so adding to them goes on where the
      -- first statement stopped.
      have hbetween : between.seen = _ := hframe.seen hd own rfl
      have hdistinct : between.seen.Nodup := hframe.distinct hd
      rw [ih hdistinct h, ← Session.foldl_addSeen_of_nodup hdistinct, hbetween,
        Session.foldl_addSeen, List.append_assoc, List.flatMap_cons]
    · cases h

/-- A statement has the value of its operation.  The working set is changed by a selection
only, to the rows selected, and the variables by an assignment only, at its name and to its
value; if the statement stops, neither is changed.  A count is the length of the working set
that the selection would leave.  Fields are added at the end of those seen and do not repeat,
and after a run of statements those seen are the fields the statements refer to in the order
in which they first appear, where those of a condition are in the order of its tokens. -/
theorem run_frame (binding : Binding) :
    (∀ session statement, Frame binding session statement (run binding session statement).1
      (run binding session statement).2) ∧
    (∀ session selection, ((Operation.count selection).run binding session).1 =
      ((Operation.select selection).run binding session).1.map fun _ =>
        .int ((Operation.select selection).run binding session).2.workingSet.length) ∧
    (∀ statements last store value after,
      runAll binding last statements (.start store) = .ok (value, after) →
      let referred := statements.flatMap fun statement => statement.operation.references
      after.seen = referred.eraseDups ∧ FirstAppearances referred after.seen) ∧
    ∀ tokens program, Program.ofTokens tokens = .ok program →
      ∀ condition ∈ program.conditions, ∃ own, own <:+: tokens ∧
        Grammar.SpellsCondition .disjunction own condition ∧
        condition.fields = (own.filter fun t => t.kind = .identifier).map Token.lexeme := by
  refine ⟨frame binding, Operation.run_count binding, ?_, ?_⟩
  · intro statements last store value after h
    have hseen := seen_runAll List.nodup_nil h
    exact ⟨hseen, hseen ▸ firstAppearances_eraseDups _⟩
  · intro tokens program hp condition hc
    obtain ⟨own, hown, hspells⟩ := Program.exists_spelled hp hc
    exact ⟨own, hown, hspells, hspells.fields_eq⟩

/-- Two books, one of them without a year. -/
def shelf : Binding :=
  [("books", ⟨.list [.record [("title", .text "a"), ("year", .int 1)],
    .record [("title", .text "b")]], 0⟩)]

/-- Counts the books of a title, by their years. -/
def dated : Select :=
  ⟨.named ⟨"year", ["title"]⟩, some (.compare "title" .equal (.literal (.text "a"))), false⟩

def survey : List Statement :=
  [⟨none, .select ⟨.named ⟨"title", []⟩, none, false⟩⟩, ⟨some "n", .count dated⟩]

def surveyed : Session :=
  ⟨[.text "a", .text "b"], [("n", .int 1)], ["title", "year"]⟩

/-- Stops at the second variable it reads. -/
def shortfall : Statement :=
  ⟨some "n", .arithmetic .subtract "n" "m"⟩

theorem run_frame_survey :
    runAll shelf .null survey (.start []) = .ok (.int 1, surveyed) ∧
      FirstAppearances ["title", "year", "title", "title"] surveyed.seen ∧
      (run shelf surveyed shortfall).1 = .error (.unassigned "m") ∧
      (run shelf surveyed shortfall).2.workingSet = surveyed.workingSet ∧
      (run shelf surveyed shortfall).2.store = surveyed.store := by
  obtain ⟨hframe, -, hrun, -⟩ := run_frame shelf
  have hsurvey : runAll shelf .null survey (.start []) = .ok (.int 1, surveyed) := by
    with_unfolding_all rfl
  have hstops : (run shelf surveyed shortfall).1 = .error (.unassigned "m") := by
    rfl
  exact ⟨hsurvey, (hrun _ _ _ _ _ hsurvey).2, hstops, (hframe _ _).failed _ hstops⟩

end Statement
end RecordQuery
