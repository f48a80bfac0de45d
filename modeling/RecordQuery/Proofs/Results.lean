/-
The shape of the results.

A run goes through the leaves, in each leaf through the blocks and in each block through
the statements, and every statement has a value (`Leaf.Evaluates`).  The results have an
entry for every block name.  Without axes the entry is the value of the last statement
of the last block of that name.  With axes it is a record nested as deep as there are
axes, with the alternatives of each axis as names (`Value.Nested`), in which the key of
each leaf leads to the value in that leaf (`Program.run_shaped`).

Putting values under the keys one after another meets a record again that is complete
already where an axis repeats an alternative, so the invariant of the nesting is that a
record has no field yet or is nested as it should be.
-/
import Mathlib.Data.List.Forall2
import Mathlib.Data.List.Nodup
import RecordQuery.Proofs.Attempts
import RecordQuery.Proofs.Expansion
import RecordQuery.Proofs.FirstAppearance

namespace RecordQuery

/-! ## What a run evaluates -/

/-- Statements run in order, each to its value. -/
inductive Statement.Evaluates (binding : Binding) :
    Session → List Statement → List Value → Session → Prop
  | none {session : Session} : Evaluates binding session [] [] session
  | next {session between after : Session} {statement : Statement} {rest : List Statement}
      {value : Value} {others : List Value} :
      statement.run binding session = (.ok value, between) →
      Evaluates binding between rest others after →
      Evaluates binding session (statement :: rest) (value :: others) after

/-- Blocks run in order on the variables that the ones before left.  Each has the values
of its statements. -/
inductive Block.Evaluates (binding : Binding) :
    Table Value → List Block → List (List Value) → Table Value → Prop
  | none {store : Table Value} : Evaluates binding store [] [] store
  | next {store after : Table Value} {session : Session} {block : Block} {rest : List Block}
      {values : List Value} {others : List (List Value)} :
      Statement.Evaluates binding (.start store) block.statements values session →
      Evaluates binding session.store rest others after →
      Evaluates binding store (block :: rest) (values :: others) after

/-- Leaves run in order on the variables that the ones before left.  Each has the values
of all blocks. -/
inductive Leaf.Evaluates (blocks : List Block) :
    Table Value → List Leaf → List (List (List Value)) → Prop
  | none {store : Table Value} : Evaluates blocks store [] []
  | next {store after : Table Value} {leaf : Leaf} {rest : List Leaf}
      {values : List (List Value)} {others : List (List (List Value))} :
      Block.Evaluates leaf.binding store blocks values after →
      Evaluates blocks after rest others →
      Evaluates blocks store (leaf :: rest) (values :: others)

/-- The value of a block whose statements have some values: that of the last one, null
if there is none. -/
def Block.valueOf (values : List Value) : Value :=
  values.getLast?.getD .null

theorem Statement.runAll_evaluates {binding : Binding} {statements : List Statement}
    {last value : Value} {session after : Session}
    (h : runAll binding last statements session = .ok (value, after)) :
    ∃ values, Evaluates binding session statements values after ∧
      value = values.getLast?.getD last := by
  induction statements generalizing last session with
  | nil =>
    cases h
    exact ⟨[], .none, rfl⟩
  | cons statement rest ih =>
    rw [runAll] at h
    split at h
    · next own between hrun =>
      obtain ⟨others, hrest, rfl⟩ := ih h
      exact ⟨own :: others, .next hrun hrest, by rw [List.getLast?_cons, Option.getD_some]⟩
    · cases h

namespace Block

variable {binding : Binding} {blocks : List Block}

theorem run_evaluates {store after : Table Value} {block : Block} {value : Value}
    (h : block.run binding store = .ok (value, after)) :
    ∃ values session, Statement.Evaluates binding (.start store) block.statements values session ∧
      value = valueOf values ∧ after = session.store := by
  unfold run at h
  cases hs : Statement.runAll binding .null block.statements (.start store) with
  | error fault =>
    rw [hs] at h
    cases h
  | ok ended =>
    rw [hs] at h
    cases h
    obtain ⟨values, hv, hvalue⟩ := Statement.runAll_evaluates hs
    exact ⟨values, ended.2, hv, hvalue, rfl⟩

/-- That a table has under the name of each block the value of the last block of that
name. -/
def LastWins (blocks : List Block) (values : List (List Value)) (table : Table Value) : Prop :=
  ∀ before block after, blocks = before ++ block :: after →
    (∀ later ∈ after, later.name ≠ block.name) →
    ∃ own, values[before.length]? = some own ∧ table.get? block.name = some (valueOf own)

/-- Blocks leave alone what is under other names than theirs. -/
theorem get?_runAll {table results store after : Table Value} {name : String}
    (hn : ∀ block ∈ blocks, block.name ≠ name)
    (h : runAll binding blocks table store = .ok (results, after)) :
    results.get? name = table.get? name := by
  induction blocks generalizing table store with
  | nil =>
    cases h
    rfl
  | cons block rest ih =>
    rw [runAll] at h
    split at h
    · next value between _ =>
      rw [ih (fun other hm => hn other (List.mem_cons_of_mem _ hm)) h, Table.get?_put,
        if_neg (hn block List.mem_cons_self)]
    · cases h

theorem runAll_evaluates {table results store after : Table Value}
    (h : runAll binding blocks table store = .ok (results, after)) :
    ∃ values, Evaluates binding store blocks values after ∧ LastWins blocks values results := by
  induction blocks generalizing table store with
  | nil =>
    cases h
    exact ⟨[], .none, fun before block after hb => absurd hb (by simp)⟩
  | cons block rest ih =>
    rw [runAll] at h
    split at h
    · next value between hrun =>
      obtain ⟨own, session, hown, rfl, rfl⟩ := run_evaluates hrun
      obtain ⟨others, hrest, hlast⟩ := ih h
      refine ⟨own :: others, .next hown hrest, fun before other later hb hne => ?_⟩
      cases before with
      | nil =>
        obtain ⟨rfl, rfl⟩ := List.cons.inj hb
        exact ⟨own, rfl, by rw [get?_runAll hne h, Table.get?_put, if_pos rfl]⟩
      | cons first before => exact hlast before other later (List.cons.inj hb).2 hne
    · cases h

end Block

/-- Leaves that run to their end have in the tables of their blocks the values of their
statements. -/
theorem Leaf.runAll_evaluates {blocks : List Block} {leaves : List Leaf} {store : Table Value}
    {outcomes : List (List String × Table Value)}
    (h : runAll blocks leaves store = .ok outcomes) :
    ∃ values, Evaluates blocks store leaves values ∧
      List.Forall₂ (fun outcome own => Block.LastWins blocks own outcome.2) outcomes values := by
  induction leaves generalizing store outcomes with
  | nil =>
    cases h
    exact ⟨[], .none, .nil⟩
  | cons leaf rest ih =>
    rw [runAll] at h
    split at h
    · next table after hrun =>
      split at h
      · next others hothers =>
        cases h
        obtain ⟨own, hown, hlast⟩ := Block.runAll_evaluates hrun
        obtain ⟨values, hvalues, hall⟩ := ih hothers
        exact ⟨own :: values, .next hown hvalues, .cons hlast hall⟩
      · cases h
    · cases h

/-! ## Nested records -/

/-- A record nested as deep as there are axes: on each level it has the alternatives of
the axis as names, each once, and no other names. -/
inductive Value.Nested : List Axis → Value → Prop
  | leaf {value : Value} : Nested [] value
  | level {axis : Axis} {rest : List Axis} {fields : List (String × Value)} :
      FirstAppearances axis.alternatives.toList (Table.names fields) →
      (∀ name value, Table.get? fields name = some value → Nested rest value) →
      Nested (axis :: rest) (.record fields)

theorem FirstAppearances.concat {xs ys : List String} (h : FirstAppearances xs ys) (a : String) :
    FirstAppearances (xs ++ [a]) (if a ∈ ys then ys else ys ++ [a]) := by
  have horder : ys.Pairwise fun p q =>
      ∃ before after, xs ++ [a] = before ++ p :: after ∧ q ∉ before :=
    h.order.imp fun ⟨before, after, heq, hq⟩ => ⟨before, after ++ [a], by simp [heq], hq⟩
  split
  · next ha =>
    refine ⟨h.nodup, fun b => ?_, horder⟩
    rw [List.mem_append, List.mem_singleton, h.mem]
    exact ⟨.inl, fun hb => hb.elim id fun hb => hb ▸ (h.mem a).mp ha⟩
  · next ha =>
    refine ⟨List.concat_eq_append ▸ List.Nodup.concat ha h.nodup, fun b => ?_, ?_⟩
    · rw [List.mem_append, List.mem_append, h.mem]
    · refine List.pairwise_append.mpr ⟨horder, List.pairwise_singleton _ _, fun p hp q hq => ?_⟩
      obtain rfl := List.mem_singleton.mp hq
      obtain ⟨before, after, rfl⟩ := List.append_of_mem ((h.mem p).mp hp)
      refine ⟨before, after ++ [q], by simp, fun hm => ha ((h.mem q).mpr ?_)⟩
      exact List.mem_append_left _ hm

namespace Table

variable {α : Type} (entry : Table α → String → α)

theorem put_put (table : Table α) (key : String) (old value : α) :
    (table.put key old).put key value = table.put key value := by
  induction table with
  | nil => simp [put]
  | cons pair rest ih =>
    obtain ⟨name, first⟩ := pair
    by_cases h : name = key
    · simp [put, h]
    · simp [put, h, ih]

theorem names_foldl_put {xs : List String} {table : Table α}
    (h : FirstAppearances xs table.names) (names : List String) :
    FirstAppearances (xs ++ names)
      (names.foldl (fun table name => table.put name (entry table name)) table).names := by
  induction names generalizing xs table with
  | nil => rwa [List.append_nil]
  | cons name rest ih =>
    have hput := h.concat name
    rw [← names_put table name (entry table name)] at hput
    simpa using ih hput

theorem names_foldl_put_of_subset {table : Table α} {names : List String}
    (h : names ⊆ table.names) :
    (names.foldl (fun table name => table.put name (entry table name)) table).names =
      table.names := by
  induction names generalizing table with
  | nil => rfl
  | cons name rest ih =>
    have hput : (table.put name (entry table name)).names = table.names := by
      rw [names_put, if_pos (h List.mem_cons_self)]
    rw [List.foldl_cons, ih (hput ▸ List.subset_of_cons_subset h), hput]

/-- What is put under names has a property if it has it where what stood there has it. -/
theorem forall_foldl_put {p : α → Prop}
    (hp : ∀ table name, (∀ value, table.get? name = some value → p value) → p (entry table name))
    (names : List String) {table : Table α}
    (h : ∀ name value, table.get? name = some value → p value) (name : String) (value : α)
    (hv : (names.foldl (fun table name => table.put name (entry table name)) table).get? name =
      some value) : p value := by
  induction names generalizing table with
  | nil => exact h name value hv
  | cons first rest ih =>
    refine ih (fun other found hf => ?_) hv
    rw [get?_put] at hf
    split at hf
    · cases hf
      exact hp table first (h first)
    · exact h other found hf

end Table

section Nest

theorem inside_put (fields : List (String × Value)) (name : String)
    (inner : List (String × Value)) :
    inside (Table.put fields name (.record inner)) name = inner := by
  rw [inside, Table.get?_put, if_pos rfl]

/-- Putting values under keys that begin with one name is putting them into the record
under that name. -/
theorem foldl_nest_put (entry : List String → Value) (name : String) {keys : List (List String)}
    (hk : ∀ key ∈ keys, key ≠ []) (fields inner : List (String × Value)) :
    (keys.map (name :: ·)).foldl (fun fields key => nest fields key (entry key))
        (Table.put fields name (.record inner)) =
      Table.put fields name
        (.record (keys.foldl (fun inner key => nest inner key (entry (name :: key))) inner)) := by
  induction keys generalizing inner with
  | nil => rfl
  | cons key rest ih =>
    obtain ⟨next, names, rfl⟩ := List.exists_cons_of_ne_nil (hk key List.mem_cons_self)
    rw [List.map_cons, List.foldl_cons, nest_cons_cons, inside_put, Table.put_put,
      ih fun other hm => hk other (List.mem_cons_of_mem _ hm)]
    rfl

/-- What stands under a name of the first axis when values have been put under all the
keys that begin with the name. -/
def branch (rest : List Axis) (entry : List String → Value) (fields : List (String × Value))
    (name : String) : Value :=
  match rest with
  | [] => entry [name]
  | axis :: axes => .record ((Context.keys (axis :: axes)).foldl
      (fun inner key => nest inner key (entry (name :: key))) (inside fields name))

theorem foldl_nest_branch (rest : List Axis) (entry : List String → Value)
    (fields : List (String × Value)) (name : String) :
    ((Context.keys rest).map (name :: ·)).foldl (fun fields key => nest fields key (entry key))
        fields = Table.put fields name (branch rest entry fields name) := by
  cases rest with
  | nil => rfl
  | cons axis rest =>
    have hne : ∀ key ∈ Context.keys (axis :: rest), key ≠ [] := by
      rintro _ hm rfl
      cases Context.length_of_mem_keys hm
    obtain ⟨key, keys, hkeys⟩ :=
      List.exists_cons_of_ne_nil (Context.keys_ne_nil (axis :: rest))
    rw [branch, hkeys]
    rw [hkeys] at hne
    obtain ⟨next, names, rfl⟩ := List.exists_cons_of_ne_nil (hne key List.mem_cons_self)
    rw [List.map_cons, List.foldl_cons, nest_cons_cons,
      foldl_nest_put entry name fun other hm => hne other (List.mem_cons_of_mem _ hm)]
    rfl

/-- Values put under all the keys of several axes stand in a record nested by the axes. -/
theorem nested_foldl_nest {axes : List Axis} (hne : axes ≠ []) (entry : List String → Value)
    {fields : List (String × Value)} (h : fields = [] ∨ Value.Nested axes (.record fields)) :
    Value.Nested axes (.record ((Context.keys axes).foldl
      (fun fields key => nest fields key (entry key)) fields)) := by
  induction axes generalizing entry fields with
  | nil => exact absurd rfl hne
  | cons axis rest ih =>
    have hbranch : ∀ fields name,
        (∀ value, Table.get? fields name = some value → Value.Nested rest value) →
        Value.Nested rest (branch rest entry fields name) := by
      intro fields name hv
      cases rest with
      | nil => exact .leaf
      | cons next rest =>
        refine ih (List.cons_ne_nil _ _) _ ?_
        unfold inside
        split
        · next inner hi => exact .inr (hv _ hi)
        · exact .inl rfl
    rw [Context.keys, List.foldl_flatMap]
    simp only [foldl_nest_branch]
    rcases h with rfl | h
    · refine .level ?_ (Table.forall_foldl_put (branch rest entry) hbranch _ (by simp))
      have hnone : FirstAppearances [] (Table.names ([] : Table Value)) :=
        firstAppearances_eraseDups []
      exact Table.names_foldl_put (branch rest entry) hnone _
    · cases h with
      | level hnames hinner =>
        refine .level ?_ (Table.forall_foldl_put (branch rest entry) hbranch _ hinner)
        rwa [Table.names_foldl_put_of_subset]
        exact fun name hm => (hnames.mem name).mpr hm

end Nest

/-! ## Results -/

namespace Program

/-- That the results of a program are what its statements evaluated to in each leaf. -/
structure Shaped (program : Program) (context : Context) (values : List (List (List Value)))
    (results : Table Value) : Prop where
  names : FirstAppearances (program.blocks.map Block.name) results.names
  nested : ∀ name value, results.get? name = some value → value.Nested context.axes
  entries : List.Forall₂ (fun leaf own => ∀ before block after,
    program.blocks = before ++ block :: after → (∀ later ∈ after, later.name ≠ block.name) →
    ∃ value last, results.get? block.name = some value ∧ own[before.length]? = some last ∧
      value.at? leaf.key = some (Block.valueOf last)) context.leaves values

theorem names_tabulate (names : List String) (value : String → Value) :
    Table.names (names.map fun name => (name, value name)) = names := by
  simp [Table.names, Function.comp_def]

theorem nested_assemble (axes : List Axis) (values : List String → Table Value) (name : String) :
    (assemble axes ((Context.keys axes).map fun key => (key, values key)) name).Nested axes := by
  unfold assemble
  split
  · next he =>
    rw [List.isEmpty_iff.mp he]
    exact .leaf
  · next he =>
    rw [List.foldl_map]
    exact nested_foldl_nest (fun h => he (List.isEmpty_iff.mpr h))
      (fun key => ((values key).get? name).getD .null) (.inl rfl)

/-- The outcomes of the leaves depend on their keys only. -/
theorem outcomes_of_runAll {program : Program} {data : Value}
    {outcomes : List (List String × Table Value)}
    (h : Leaf.runAll program.blocks (Context.resolve program.paths data).leaves [] =
      .ok outcomes) :
    ∃ table : List String → Table Value,
      outcomes = program.keys.map fun key => (key, table key) := by
  rw [Leaf.runAll_eq_mapM, resolve_eq, List.mapM_map] at h
  simp only [Function.comp_def, alone_leafOf] at h
  obtain ⟨table, -, rfl⟩ := values_of_mapM h
  exact ⟨table, rfl⟩

/-- Results put together from the last values of the blocks have the shape of the
program. -/
theorem shaped_of_runAll {program : Program} {data : Value}
    {outcomes : List (List String × Table Value)} {values : List (List (List Value))}
    (h : Leaf.runAll program.blocks (Context.resolve program.paths data).leaves [] = .ok outcomes)
    (hlast : List.Forall₂ (fun outcome own => Block.LastWins program.blocks own outcome.2)
      outcomes values) :
    program.Shaped (Context.resolve program.paths data) values (program.blockNames.map fun name =>
      (name, assemble (Context.axesOf program.paths) outcomes name)) := by
  obtain ⟨table, rfl⟩ := outcomes_of_runAll h
  rw [resolve_eq]
  refine ⟨?_, ?_, ?_⟩
  · rw [names_tabulate]
    exact firstAppearances_eraseDups _
  · intro name value hv
    rw [Table.get?_tabulate] at hv
    split at hv
    · cases hv
      exact nested_assemble _ table name
    · cases hv
  · rw [List.forall₂_map_left_iff] at hlast ⊢
    refine ((List.forall₂_and_left _ _).mpr ⟨fun _ hk => hk, hlast⟩).imp ?_
    rintro key own ⟨hk, hwins⟩ before block after hb hlater
    obtain ⟨last, hl, ht⟩ := hwins before block after hb hlater
    have hname : block.name ∈ program.blockNames :=
      List.mem_eraseDups.mpr (List.mem_map_of_mem (by simp [hb]))
    refine ⟨_, last, by rw [Table.get?_tabulate, if_pos hname], hl, ?_⟩
    show (assemble _ _ _).at? key = _
    rw [at?_assemble table _ hk, ht]
    rfl

/-- The results of a run that succeeds: the names are those of the blocks, in the order
in which they first appear; under a name stands a record nested by the axes; and where
the key of a leaf leads in it, there is the last value, in that leaf, of the last block
of that name. -/
theorem run_shaped {program : Program} {data : Value} {results : Table Value}
    (h : program.run data = .ok results) :
    ∃ values, Leaf.Evaluates program.blocks [] (Context.resolve program.paths data).leaves values ∧
      program.Shaped (Context.resolve program.paths data) values results := by
  obtain ⟨outcomes, houtcomes, rfl⟩ := map_eq_ok.mp h
  obtain ⟨values, hvalues, hlast⟩ := Leaf.runAll_evaluates houtcomes
  exact ⟨values, hvalues, shaped_of_runAll houtcomes hlast⟩

/-- A program with two axes, of which the first has an alternative twice, and with two
blocks of one name. -/
def repeating : Program :=
  ⟨[⟨⟨"a", ["z", "a"]⟩, [⟨"b", ["c"]⟩], none⟩],
    [⟨"q", [⟨none, .count .everything⟩]⟩, ⟨"none", []⟩,
      ⟨"q", [⟨none, .select .everything⟩, ⟨none, .aggregate .mostFrequent⟩]⟩]⟩

/-- Only one of the places that the program declares is there, and what it gets from
there is a record. -/
def onePlace : Value :=
  .record [("a", .record [("b", .list [.record [("v", .record [("w", .int 1)])]])])]

def repeatingResults : Table Value :=
  [("q", .record [("a", .record [("b", .record [("w", .int 1)]), ("c", .null)]),
      ("z", .record [("b", .null), ("c", .null)])]),
    ("none", .record [("a", .record [("b", .null), ("c", .null)]),
      ("z", .record [("b", .null), ("c", .null)])])]

theorem run_shaped_repeating :
    repeating.run onePlace = .ok repeatingResults ∧
      ∃ values,
        Leaf.Evaluates repeating.blocks []
          (Context.resolve repeating.paths onePlace).leaves values ∧
        repeating.Shaped (Context.resolve repeating.paths onePlace) values repeatingResults := by
  have hrun : repeating.run onePlace = .ok repeatingResults := by with_unfolding_all rfl
  exact ⟨hrun, run_shaped hrun⟩

end Program
end RecordQuery
