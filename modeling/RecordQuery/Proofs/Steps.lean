/-
The steps of a run.

Listing the steps of a run and computing its results go through the same statements.  The
steps stand at the statements of the program, leaf by leaf and block by block, from the
first one on without a gap.  If the run succeeds there is one for every statement, and
their outcomes are the values that the results are made of; if it fails, it does so as
the last step (`Program.steps_run`).
-/
import RecordQuery.Proofs.Results

namespace RecordQuery
namespace Step

/-- Where a step stands: in which leaf and block, and at which statement of it. -/
def place (step : Step) : List String × String × Nat :=
  (step.leaf, step.block, step.index)

/-- The last of the steps fails, the others have values. -/
def Stop (steps : List Step) (fault : Fault) : Prop :=
  ∃ before last, steps = before ++ [last] ∧ (∀ step ∈ before, ∃ value, step.outcome = .ok value) ∧
    last.outcome = .error fault

theorem Stop.prepend {earlier steps : List Step} {values : List Value} {fault : Fault}
    (h : Stop steps fault) (he : earlier.map outcome = values.map .ok) :
    Stop (earlier ++ steps) fault := by
  obtain ⟨before, last, rfl, hbefore, hlast⟩ := h
  refine ⟨earlier ++ before, last, (List.append_assoc ..).symm, fun step hm => ?_, hlast⟩
  rcases List.mem_append.mp hm with hm | hm
  · obtain ⟨value, -, hv⟩ := List.mem_map.mp (he ▸ List.mem_map_of_mem hm)
    exact ⟨value, hv.symm⟩
  · exact hbefore step hm

theorem Stop.eq {steps : List Step} {fault other : Fault} (h : Stop steps fault)
    (h' : Stop steps other) : fault = other := by
  obtain ⟨before, last, rfl, -, hlast⟩ := h
  obtain ⟨before', last', hsteps, -, hlast'⟩ := h'
  obtain ⟨-, rfl⟩ := List.append_singleton_inj.mp hsteps
  exact Except.error.inj (hlast.symm.trans hlast')

theorem Stop.outcomes_ne {steps : List Step} {fault : Fault} (h : Stop steps fault)
    (values : List Value) : steps.map outcome ≠ values.map .ok := by
  obtain ⟨before, last, rfl, -, hlast⟩ := h
  intro houtcomes
  have hm : last.outcome ∈ values.map .ok :=
    houtcomes ▸ List.mem_map_of_mem (List.mem_append_right _ List.mem_cons_self)
  obtain ⟨value, -, hv⟩ := List.mem_map.mp hm
  cases hv.trans hlast

/-! ## Statements -/

section Statements

variable {leaf : Leaf} {block : String} {statement : Statement} {statements : List Statement}
  {session after : Session} {index : Nat}

theorem ofStatements_ok {value : Value}
    (h : statement.run leaf.binding session = (.ok value, after)) :
    ofStatements leaf block index (statement :: statements) session =
      (⟨leaf.key, block, index, .ok value, after⟩ ::
        (ofStatements leaf block (index + 1) statements after).1,
        (ofStatements leaf block (index + 1) statements after).2) := by
  rw [ofStatements, h]

theorem ofStatements_error {fault : Fault}
    (h : statement.run leaf.binding session = (.error fault, after)) :
    ofStatements leaf block index (statement :: statements) session =
      ([⟨leaf.key, block, index, .error fault, after⟩], none) := by
  rw [ofStatements, h]

theorem ofStatements_evaluates {values : List Value}
    (h : Statement.Evaluates leaf.binding session statements values after) :
    (ofStatements leaf block index statements session).2 = some after ∧
      (ofStatements leaf block index statements session).1.map outcome = values.map .ok := by
  induction h generalizing index with
  | none => exact ⟨rfl, rfl⟩
  | next hrun _ ih =>
    obtain ⟨hend, hothers⟩ := ih
    rw [ofStatements_ok hrun, List.map_cons, List.map_cons, hothers]
    exact ⟨hend, rfl⟩

theorem ofStatements_stops {last : Value} {fault : Fault}
    (h : Statement.runAll leaf.binding last statements session = .error fault) :
    (ofStatements leaf block index statements session).2 = none ∧
      Stop (ofStatements leaf block index statements session).1 fault := by
  induction statements generalizing last session index with
  | nil => cases h
  | cons statement rest ih =>
    rw [Statement.runAll] at h
    split at h
    · next value between hrun =>
      obtain ⟨hend, hstop⟩ := @ih between (index + 1) value h
      have hown : [(⟨leaf.key, block, index, .ok value, between⟩ : Step)].map outcome =
        [value].map .ok := rfl
      rw [ofStatements_ok hrun]
      exact ⟨hend, hstop.prepend hown⟩
    · next other between hrun =>
      cases h
      rw [ofStatements_error hrun]
      exact ⟨rfl, [], _, rfl, fun _ hm => (List.not_mem_nil hm).elim, rfl⟩

end Statements
/-! ## Blocks -/

section Blocks

variable {leaf : Leaf} {block : Block} {blocks : List Block} {store after : Table Value}

theorem ofBlocks_some {session : Session}
    (h : (ofStatements leaf block.name 0 block.statements (.start store)).2 = some session) :
    ofBlocks leaf (block :: blocks) store =
      ((ofStatements leaf block.name 0 block.statements (.start store)).1 ++
        (ofBlocks leaf blocks session.store).1, (ofBlocks leaf blocks session.store).2) := by
  rw [ofBlocks]
  split
  · next heq =>
    rw [heq] at h
    cases h
  · next heq =>
    rw [heq] at h ⊢
    cases h
    rfl

theorem ofBlocks_none
    (h : (ofStatements leaf block.name 0 block.statements (.start store)).2 = none) :
    ofBlocks leaf (block :: blocks) store =
      ((ofStatements leaf block.name 0 block.statements (.start store)).1, none) := by
  rw [ofBlocks]
  split
  · next heq => rw [heq]
  · next heq =>
    rw [heq] at h
    cases h

theorem ofBlocks_evaluates {values : List (List Value)}
    (h : Block.Evaluates leaf.binding store blocks values after) :
    (ofBlocks leaf blocks store).2 = some after ∧
      (ofBlocks leaf blocks store).1.map outcome = values.flatten.map .ok := by
  induction h with
  | none => exact ⟨rfl, rfl⟩
  | next hown _ ih =>
    obtain ⟨hend, hothers⟩ := ih
    obtain ⟨hsession, houtcomes⟩ := ofStatements_evaluates hown
    rw [ofBlocks_some hsession, List.map_append, houtcomes, hothers, List.flatten_cons,
      List.map_append]
    exact ⟨hend, rfl⟩

theorem ofBlocks_stops {table : Table Value} {fault : Fault}
    (h : Block.runAll leaf.binding blocks table store = .error fault) :
    (ofBlocks leaf blocks store).2 = none ∧ Stop (ofBlocks leaf blocks store).1 fault := by
  induction blocks generalizing table store with
  | nil => cases h
  | cons block rest ih =>
    rw [Block.runAll] at h
    split at h
    · next value between hrun =>
      obtain ⟨values, session, hvalues, -, rfl⟩ := Block.run_evaluates hrun
      obtain ⟨hsession, houtcomes⟩ := ofStatements_evaluates hvalues
      obtain ⟨hend, hstop⟩ := ih h
      rw [ofBlocks_some hsession]
      exact ⟨hend, hstop.prepend houtcomes⟩
    · next other hrun =>
      cases h
      obtain ⟨hend, hstop⟩ := ofStatements_stops (map_eq_error.mp hrun)
      rw [ofBlocks_none hend]
      exact ⟨rfl, hstop⟩

end Blocks

/-! ## Leaves -/

section Leaves

variable {leaf : Leaf} {leaves : List Leaf} {blocks : List Block} {store : Table Value}

theorem ofLeaves_some {after : Table Value} (h : (ofBlocks leaf blocks store).2 = some after) :
    ofLeaves blocks (leaf :: leaves) store =
      (ofBlocks leaf blocks store).1 ++ ofLeaves blocks leaves after := by
  rw [ofLeaves]
  split
  · next heq =>
    rw [heq] at h
    cases h
  · next heq =>
    rw [heq] at h ⊢
    cases h
    rfl

theorem ofLeaves_none (h : (ofBlocks leaf blocks store).2 = none) :
    ofLeaves blocks (leaf :: leaves) store = (ofBlocks leaf blocks store).1 := by
  rw [ofLeaves]
  split
  · next heq => rw [heq]
  · next heq =>
    rw [heq] at h
    cases h

theorem ofLeaves_evaluates {values : List (List (List Value))}
    (h : Leaf.Evaluates blocks store leaves values) :
    (ofLeaves blocks leaves store).map outcome = values.flatten.flatten.map .ok := by
  induction h with
  | none => rfl
  | next hown _ ih =>
    obtain ⟨hafter, houtcomes⟩ := ofBlocks_evaluates hown
    rw [ofLeaves_some hafter, List.map_append, houtcomes, ih, List.flatten_cons,
      List.flatten_append, List.map_append]

theorem ofLeaves_stops {fault : Fault} (h : Leaf.runAll blocks leaves store = .error fault) :
    Stop (ofLeaves blocks leaves store) fault := by
  induction leaves generalizing store with
  | nil => cases h
  | cons leaf rest ih =>
    rw [Leaf.runAll] at h
    split at h
    · next table after hrun =>
      obtain ⟨values, hvalues, -⟩ := Block.runAll_evaluates hrun
      obtain ⟨hafter, houtcomes⟩ := ofBlocks_evaluates hvalues
      rw [ofLeaves_some hafter]
      split at h
      · cases h
      · next other hothers =>
        cases h
        exact (ih hothers).prepend houtcomes
    · next other hrun =>
      cases h
      obtain ⟨hend, hstop⟩ := ofBlocks_stops hrun
      rw [ofLeaves_none hend]
      exact hstop

end Leaves

/-! ## Places -/

/-- The places of statements in a block, from an index on. -/
def placesFrom (leaf : Leaf) (block : String) (index : Nat) (statements : List Statement) :
    List (List String × String × Nat) :=
  (List.range' index statements.length).map fun place => (leaf.key, block, place)

/-- The places of all statements of some blocks in a leaf. -/
def placesIn (blocks : List Block) (leaf : Leaf) : List (List String × String × Nat) :=
  blocks.flatMap fun block => placesFrom leaf block.name 0 block.statements

theorem places_ofStatements (leaf : Leaf) (block : String) (index : Nat)
    (statements : List Statement) (session : Session) :
    (ofStatements leaf block index statements session).1.map place <+:
        placesFrom leaf block index statements ∧
      ((ofStatements leaf block index statements session).2.isSome →
        (ofStatements leaf block index statements session).1.map place =
          placesFrom leaf block index statements) := by
  induction statements generalizing index session with
  | nil => exact ⟨List.prefix_rfl, fun _ => rfl⟩
  | cons statement rest ih =>
    rcases hrun : statement.run leaf.binding session with ⟨fault | value, after⟩
    · rw [ofStatements_error hrun]
      exact ⟨List.cons_prefix_cons.mpr ⟨rfl, List.nil_prefix⟩, nofun⟩
    · obtain ⟨hfirst, hall⟩ := ih (index + 1) after
      rw [ofStatements_ok hrun]
      exact ⟨List.cons_prefix_cons.mpr ⟨rfl, hfirst⟩, fun hend => congrArg (_ :: ·) (hall hend)⟩

theorem places_ofBlocks (leaf : Leaf) (blocks : List Block) (store : Table Value) :
    (ofBlocks leaf blocks store).1.map place <+: placesIn blocks leaf ∧
      ((ofBlocks leaf blocks store).2.isSome →
        (ofBlocks leaf blocks store).1.map place = placesIn blocks leaf) := by
  induction blocks generalizing store with
  | nil => exact ⟨List.prefix_rfl, fun _ => rfl⟩
  | cons block rest ih =>
    obtain ⟨hfirst, hall⟩ :=
      places_ofStatements leaf block.name 0 block.statements (.start store)
    rw [placesIn, List.flatMap_cons]
    cases hend : (ofStatements leaf block.name 0 block.statements (.start store)).2 with
    | none =>
      rw [ofBlocks_none hend]
      exact ⟨hfirst.trans (List.prefix_append _ _), nofun⟩
    | some session =>
      obtain ⟨hothers, hrest⟩ := ih session.store
      rw [ofBlocks_some hend, List.map_append, hall (hend ▸ rfl)]
      exact ⟨(List.prefix_append_right_inj _).mpr hothers, fun h => congrArg (_ ++ ·) (hrest h)⟩

theorem places_ofLeaves (blocks : List Block) (leaves : List Leaf) (store : Table Value) :
    (ofLeaves blocks leaves store).map place <+: leaves.flatMap (placesIn blocks) := by
  induction leaves generalizing store with
  | nil => exact List.prefix_rfl
  | cons leaf rest ih =>
    obtain ⟨hfirst, hall⟩ := places_ofBlocks leaf blocks store
    rw [List.flatMap_cons]
    cases hend : (ofBlocks leaf blocks store).2 with
    | none =>
      rw [ofLeaves_none hend]
      exact hfirst.trans (List.prefix_append _ _)
    | some after =>
      rw [ofLeaves_some hend, List.map_append, hall (hend ▸ rfl)]
      exact (List.prefix_append_right_inj _).mpr (ih after)

theorem places_ofLeaves_evaluates {blocks : List Block} {leaves : List Leaf} {store : Table Value}
    {values : List (List (List Value))} (h : Leaf.Evaluates blocks store leaves values) :
    (ofLeaves blocks leaves store).map place = leaves.flatMap (placesIn blocks) := by
  induction h with
  | none => rfl
  | @next store after leaf rest _ _ hown _ ih =>
    obtain ⟨hafter, -⟩ := ofBlocks_evaluates hown
    have hall := (places_ofBlocks leaf blocks store).2 (hafter ▸ rfl)
    rw [ofLeaves_some hafter, List.map_append, hall, ih, List.flatMap_cons]

end Step

namespace Program

/-- The places of all statements in all leaves. -/
def places (program : Program) (data : Value) : List (List String × String × Nat) :=
  (Context.resolve program.paths data).leaves.flatMap (Step.placesIn program.blocks)

/-- Steps stand at the places of the program from the first one on.  If the run succeeds they
stand at all of them, and their outcomes are the values that the results are made of; and it
fails if and only if the steps end with one that fails so. -/
theorem steps_run (program : Program) (data : Value) :
    (program.steps data).map Step.place <+: program.places data ∧
      (∀ results, program.run data = .ok results →
        (program.steps data).map Step.place = program.places data ∧
          ∃ values, program.Shaped (Context.resolve program.paths data) values results ∧
            (program.steps data).map Step.outcome = values.flatten.flatten.map .ok) ∧
      ∀ fault, program.run data = .error fault ↔ Step.Stop (program.steps data) fault := by
  have hok : ∀ results, program.run data = .ok results →
      (program.steps data).map Step.place = program.places data ∧ ∃ values,
        program.Shaped (Context.resolve program.paths data) values results ∧
          (program.steps data).map Step.outcome = values.flatten.flatten.map .ok := by
    intro results h
    obtain ⟨outcomes, houtcomes, rfl⟩ := map_eq_ok.mp h
    obtain ⟨values, hvalues, hlast⟩ := Leaf.runAll_evaluates houtcomes
    exact ⟨Step.places_ofLeaves_evaluates hvalues, values, shaped_of_runAll houtcomes hlast,
      Step.ofLeaves_evaluates hvalues⟩
  have hstop : ∀ fault, program.run data = .error fault → Step.Stop (program.steps data) fault :=
    fun fault h => Step.ofLeaves_stops (map_eq_error.mp h)
  refine ⟨Step.places_ofLeaves _ _ _, hok, fun fault => ⟨hstop fault, fun h => ?_⟩⟩
  cases hrun : program.run data with
  | ok results =>
    obtain ⟨-, values, -, houtcomes⟩ := hok results hrun
    exact absurd houtcomes (h.outcomes_ne _)
  | error other => rw [(hstop other hrun).eq h]

end Program
end RecordQuery
