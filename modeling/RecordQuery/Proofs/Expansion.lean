/-
Names in the place of axes.

`Program.choose` puts the names of a key in the place of the axes.  The program
that results has one leaf, which binds what the leaf of the key binds, because a
path with chosen names leads where the choice leads (`locate?_choose`).  Leaves do
not see one another's variables, so the run of a program with axes is the run of
these programs in the order of the keys, with the results nested by the names of
each key (`Program.run_choose`).
-/
import RecordQuery.Proofs.Variables.Independence

namespace RecordQuery

/-! ## Choosing -/

namespace UsePath

/-- A segment with the name that is chosen for its axis, if it is one. -/
def chooseSegment (choice : Choice) (segment : Names) (position : Nat) : Names :=
  if segment.others.isEmpty then segment
  else ⟨(choice.lookup ⟨position, segment⟩).getD segment.first, []⟩

/-- The path with a chosen name in the place of every axis. -/
def choose (choice : Choice) (path : UsePath) : UsePath where
  first := chooseSegment choice path.first 0
  others := (path.others.zipIdx 1).map fun (segment, position) =>
    chooseSegment choice segment position
  fields := path.fields

theorem segments_choose (choice : Choice) (path : UsePath) :
    (path.choose choice).segments =
      path.segments.zipIdx.map fun (segment, position) => chooseSegment choice segment position :=
  rfl

theorem others_chooseSegment (choice : Choice) (segment : Names) (position : Nat) :
    (chooseSegment choice segment position).others = [] := by
  unfold chooseSegment
  split
  · next h => exact List.isEmpty_iff.mp h
  · rfl

/-- A path of which every axis is chosen has none left. -/
theorem axes_choose (choice : Choice) (path : UsePath) : (path.choose choice).axes = [] := by
  rw [axes, List.filterMap_eq_nil_iff]
  rintro ⟨segment, position⟩ hm
  obtain ⟨⟨original, place⟩, -, rfl⟩ :=
    List.mem_map.mp (segments_choose choice path ▸ List.fst_mem_of_mem_zipIdx hm)
  simp only [others_chooseSegment, List.isEmpty_nil, if_true]

/-- The name that a choice gives a segment at a position. -/
def nameOf? (choice : Choice) (placed : Names × Nat) : Option String :=
  if placed.1.others.isEmpty then some placed.1.first else choice.lookup ⟨placed.2, placed.1⟩

theorem concrete?_eq (path : UsePath) (choice : Choice) :
    path.concrete? choice = path.segments.zipIdx.mapM (nameOf? choice) := rfl

theorem nameOf?_chooseSegment {choice : Choice} {segment : Names} {position : Nat}
    (h : ¬ segment.others.isEmpty → (choice.lookup ⟨position, segment⟩).isSome) :
    nameOf? [] (chooseSegment choice segment position, position) =
      nameOf? choice (segment, position) := by
  have hempty : (chooseSegment choice segment position).others.isEmpty = true := by
    rw [others_chooseSegment]
    rfl
  rw [nameOf?, nameOf?, if_pos hempty, chooseSegment]
  split
  · rfl
  · next hne =>
    obtain ⟨name, hn⟩ := Option.isSome_iff_exists.mp (h hne)
    rw [hn, Option.getD_some]

/-- Following the chosen names is following the choice. -/
theorem concrete?_choose {choice : Choice} {path : UsePath}
    (h : ∀ axis ∈ path.axes, (choice.lookup axis).isSome) :
    (path.choose choice).concrete? [] = path.concrete? choice := by
  have hsegments : ∀ placed ∈ path.segments.zipIdx, ¬ placed.1.others.isEmpty →
      (choice.lookup ⟨placed.2, placed.1⟩).isSome := by
    intro placed hm hne
    refine h _ (List.mem_filterMap.mpr ⟨placed, hm, ?_⟩)
    simp only [hne, if_false, Bool.false_eq_true]
  rw [concrete?_eq, concrete?_eq, segments_choose]
  -- The positions are those of the remaining segments, from some place on.
  generalize path.segments = segments, 0 = place at hsegments ⊢
  induction segments generalizing place with
  | nil => rfl
  | cons segment rest ih =>
    have hhead := nameOf?_chooseSegment (hsegments (segment, place) List.mem_cons_self)
    have hrest := ih (place + 1) fun placed hm => hsegments placed (List.mem_cons_of_mem _ hm)
    simp only [List.zipIdx_cons, List.map_cons, List.mapM_cons, hhead, hrest]

end UsePath

namespace Context

theorem length_of_mem_keys {axes : List Axis} {key : List String} (h : key ∈ keys axes) :
    key.length = axes.length := by
  induction axes generalizing key with
  | nil => simp_all [keys]
  | cons axis rest ih =>
    simp only [keys, List.mem_flatMap, List.mem_map] at h
    obtain ⟨name, -, tail, ht, rfl⟩ := h
    rw [List.length_cons, List.length_cons, ih ht]

/-- A key chooses a name on every axis. -/
theorem isSome_lookup_zip {axes : List Axis} {key : List String} {axis : Axis}
    (hl : key.length = axes.length) (h : axis ∈ axes) :
    (List.lookup axis (axes.zip key)).isSome := by
  induction axes generalizing key with
  | nil => cases h
  | cons first rest ih =>
    cases key with
    | nil => cases hl
    | cons name key =>
      rw [List.zip_cons_cons, List.lookup_cons]
      split
      · rfl
      · next hne =>
        refine ih (Nat.succ.inj hl) ((List.mem_cons.mp h).resolve_left fun heq => ?_)
        simp [heq] at hne

theorem axes_subset {paths : List UsePath} {path : UsePath} (h : path ∈ paths) :
    ∀ axis ∈ path.axes, axis ∈ axesOf paths := fun _ ha =>
  List.mem_eraseDups.mpr (List.mem_flatMap.mpr ⟨path, h, ha⟩)

theorem locate?_choose {choice : Choice} {path : UsePath}
    (h : ∀ axis ∈ path.axes, (choice.lookup axis).isSome) (data : Value) (declaration : Nat) :
    locate? data [] (path.choose choice) declaration = locate? data choice path declaration := by
  simp only [locate?, UsePath.concrete?_choose h]
  rfl

theorem exposed_choose (choice : Choice) (path : UsePath) (names : List String) :
    (path.choose choice).exposed names = path.exposed names := rfl

/-- Chosen paths bind what the choice binds. -/
theorem bindingFor_choose {choice : Choice} {paths : List UsePath}
    (h : ∀ path ∈ paths, ∀ axis ∈ path.axes, (choice.lookup axis).isSome) (data : Value) :
    bindingFor (paths.map (UsePath.choose choice)) data [] = bindingFor paths data choice := by
  unfold bindingFor
  generalize ([] : Binding) = binding, 0 = declaration
  induction paths generalizing binding declaration with
  | nil => rfl
  | cons path rest ih =>
    simp only [List.map_cons, List.zipIdx_cons, List.foldl_cons,
      locate?_choose (h path List.mem_cons_self), exposed_choose]
    exact ih (fun other hm => h other (List.mem_cons_of_mem _ hm)) _ _

theorem axesOf_choose (choice : Choice) (paths : List UsePath) :
    axesOf (paths.map (UsePath.choose choice)) = [] := by
  have : (paths.map (UsePath.choose choice)).flatMap UsePath.axes = [] := by
    simp [List.flatMap_map, UsePath.axes_choose]
  rw [axesOf, this]
  rfl

end Context

/-! ## Nesting -/

/-- The fields of the record under a name, none if there is no record. -/
def inside (fields : List (String × Value)) (name : String) : List (String × Value) :=
  match Table.get? fields name with
  | some (.record inner) => inner
  | _ => []

theorem nest_cons_cons (fields : List (String × Value)) (name next : String)
    (names : List String) (value : Value) :
    nest fields (name :: next :: names) value =
      Table.put fields name (.record (nest (inside fields name) (next :: names) value)) := rfl

theorem at?_inside (fields : List (String × Value)) (name next : String) (names : List String) :
    (Value.record (inside fields name)).at? (next :: names) =
      (Value.record fields).at? (name :: next :: names) := by
  simp only [inside, Value.at?, Value.field?]
  cases Table.get? fields name with
  | none => rfl
  | some value => cases value <;> rfl

/-- A value put under one path of names is found there, and what lies at the other
paths of the same length is unmoved. -/
theorem at?_nest (fields : List (String × Value)) (value : Value) {key other : List String}
    (hne : key ≠ []) (hl : key.length = other.length) :
    (Value.record (nest fields key value)).at? other =
      if key = other then some value else (Value.record fields).at? other := by
  induction key generalizing fields other with
  | nil => exact absurd rfl hne
  | cons name names ih =>
    cases other with
    | nil => cases hl
    | cons name' names' =>
      have hl' : names.length = names'.length := Nat.succ.inj hl
      cases names with
      | nil =>
        obtain rfl : names' = [] := List.length_eq_zero_iff.mp hl'.symm
        show (Table.get? (Table.put fields name value) name').bind _ = _
        rw [Table.get?_put]
        by_cases hn : name = name'
        · simp [hn, Value.at?]
        · simp [hn, Value.at?, Value.field?]
      | cons next rest =>
        obtain ⟨next', rest', rfl⟩ : ∃ first others, names' = first :: others :=
          List.exists_cons_of_length_pos (by rw [← hl']; exact Nat.succ_pos _)
        rw [nest_cons_cons]
        show (Table.get? (Table.put fields name _) name').bind _ = _
        rw [Table.get?_put]
        by_cases hn : name = name'
        · subst hn
          rw [if_pos rfl, Option.bind_some, ih _ (List.cons_ne_nil _ _) hl', at?_inside]
          simp only [List.cons.injEq, true_and]
        · rw [if_neg hn, if_neg fun h => hn (List.cons.inj h).1]
          rfl

/-- Of several values put under paths of one length, each is found at its path. -/
theorem at?_foldl_nest (value : List String → Value) {key : List String} (hne : key ≠ [])
    (keys : List (List String)) (hl : ∀ other ∈ keys, other.length = key.length)
    (fields : List (String × Value)) :
    (Value.record (keys.foldl (fun fields key => nest fields key (value key)) fields)).at? key =
      if key ∈ keys then some (value key) else (Value.record fields).at? key := by
  induction keys generalizing fields with
  | nil => rfl
  | cons first rest ih =>
    have hfirst : first.length = key.length := hl first List.mem_cons_self
    have hne' : first ≠ [] := by
      intro h
      rw [h] at hfirst
      exact hne (List.length_eq_zero_iff.mp hfirst.symm)
    rw [List.foldl_cons, ih (fun other hm => hl other (List.mem_cons_of_mem _ hm)),
      at?_nest fields (value first) hne' hfirst]
    by_cases hr : key ∈ rest
    · rw [if_pos hr, if_pos (List.mem_cons_of_mem _ hr)]
    · by_cases hk : first = key
      · subst hk
        rw [if_neg hr, if_pos rfl, if_pos List.mem_cons_self]
      · rw [if_neg hr, if_neg hk, if_neg fun h => (List.mem_cons.mp h).elim (hk ·.symm) hr]

/-! ## Computations over a list -/

section mapM

variable {α β ε : Type} {f : α → Except ε β}

/-- Computations that all succeed, each labelled with what it was done for. -/
theorem values_of_mapM [Inhabited β] {xs : List α} {ys : List (α × β)}
    (h : xs.mapM (fun x => (f x).map fun y => (x, y)) = .ok ys) :
    ∃ g : α → β, (∀ x ∈ xs, f x = .ok (g x)) ∧ ys = xs.map fun x => (x, g x) := by
  refine ⟨fun x => (f x).toOption.getD default, ?_⟩
  induction xs generalizing ys with
  | nil =>
    cases h
    exact ⟨fun _ hm => (List.not_mem_nil hm).elim, rfl⟩
  | cons x rest ih =>
    rw [List.mapM_cons] at h
    cases hx : f x with
    | error e => rw [hx] at h; cases h
    | ok y =>
      cases hr : rest.mapM fun x => (f x).map fun y => (x, y) with
      | error e => rw [hx, hr] at h; cases h
      | ok others =>
        obtain ⟨hall, heq⟩ := ih hr
        rw [hx, hr] at h
        cases h
        refine ⟨fun other hm => ?_, ?_⟩
        · rcases List.mem_cons.mp hm with rfl | hm
          · show f other = .ok ((f other).toOption.getD default)
            rw [hx]
            rfl
          · exact hall other hm
        · rw [List.map_cons, ← heq]
          show (x, y) :: others = (x, (f x).toOption.getD default) :: others
          rw [hx]
          rfl

/-- What stops is the first computation that fails. -/
theorem split_of_mapM_error {xs : List α} {e : ε} (h : xs.mapM f = .error e) :
    ∃ before x after, xs = before ++ x :: after ∧ (∀ other ∈ before, ∃ y, f other = .ok y) ∧
      f x = .error e := by
  induction xs with
  | nil => cases h
  | cons x rest ih =>
    rw [List.mapM_cons] at h
    cases hx : f x with
    | error e' =>
      rw [hx] at h
      cases h
      exact ⟨[], x, rest, rfl, fun _ hm => (List.not_mem_nil hm).elim, hx⟩
    | ok y =>
      cases hr : rest.mapM f with
      | ok others => rw [hx, hr] at h; cases h
      | error e' =>
        rw [hx, hr] at h
        cases h
        obtain ⟨before, x', after, rfl, hb, he⟩ := ih hr
        refine ⟨x :: before, x', after, rfl, fun other hm => ?_, he⟩
        rcases List.mem_cons.mp hm with rfl | hm
        · exact ⟨y, hx⟩
        · exact hb other hm

end mapM

/-! ## Programs -/

theorem Table.get?_tabulate {α : Type} (names : List String) (value : String → α)
    (name : String) :
    Table.get? (names.map fun n => (n, value n)) name =
      if name ∈ names then some (value name) else none := by
  induction names with
  | nil => rfl
  | cons first rest ih =>
    rw [List.map_cons, Table.get?_cons, ih]
    by_cases hn : first = name
    · simp [hn]
    · simp [hn, Ne.symm hn]

namespace Program

/-- The keys of the leaves, in the order in which they run. -/
def keys (program : Program) : List (List String) :=
  Context.keys (Context.axesOf program.paths)

/-- The choice that a key makes. -/
def choiceOf (program : Program) (key : List String) : Choice :=
  (Context.axesOf program.paths).zip key

/-- The program with the names of a key in the place of its axes. -/
def choose (program : Program) (key : List String) : Program :=
  { program with paths := program.paths.map (UsePath.choose (program.choiceOf key)) }

def leafOf (program : Program) (data : Value) (key : List String) : Leaf :=
  ⟨key, Context.bindingFor program.paths data (program.choiceOf key)⟩

/-- The values of all blocks in the leaf of a key, run from no variables. -/
def ownValues (program : Program) (data : Value) (key : List String) :
    Except Fault (Table Value) :=
  (Block.runAll (program.leafOf data key).binding program.blocks [] []).map Prod.fst

theorem alone_leafOf (program : Program) (data : Value) (key : List String) :
    (program.leafOf data key).alone program.blocks =
      (program.ownValues data key).map fun values => (key, values) := by
  unfold Leaf.alone ownValues
  cases Block.runAll (program.leafOf data key).binding program.blocks [] [] <;> rfl

theorem resolve_eq (program : Program) (data : Value) :
    Context.resolve program.paths data =
      ⟨Context.axesOf program.paths, program.keys.map (program.leafOf data)⟩ := rfl

/-- A run goes through the leaves one by one, and each has its own values. -/
theorem run_eq (program : Program) (data : Value) :
    program.run data =
      (program.keys.mapM fun key => (program.ownValues data key).map fun values =>
        (key, values)).map fun leaves => program.blockNames.map fun name =>
          (name, assemble (Context.axesOf program.paths) leaves name) := by
  simp only [run, resolve_eq, Leaf.runAll_eq_mapM, List.mapM_map, Function.comp_def, alone_leafOf]

theorem resolve_choose {program : Program} {key : List String} (hk : key ∈ program.keys)
    (data : Value) :
    Context.resolve (program.choose key).paths data =
      ⟨[], [⟨[], (program.leafOf data key).binding⟩]⟩ := by
  have hl := Context.length_of_mem_keys hk
  have hchosen : ∀ path ∈ program.paths, ∀ axis ∈ path.axes,
      ((program.choiceOf key).lookup axis).isSome := fun path hp axis ha =>
    Context.isSome_lookup_zip hl (Context.axes_subset hp axis ha)
  have hbinding := Context.bindingFor_choose hchosen data
  unfold Context.resolve
  rw [choose, Context.axesOf_choose]
  simp only [Context.keys, List.map_cons, List.map_nil, List.zip_nil_left, hbinding, leafOf]

/-- The program of a key has the values of the leaf of that key. -/
theorem run_choose {program : Program} {key : List String} (hk : key ∈ program.keys)
    (data : Value) :
    (program.choose key).run data =
      (program.ownValues data key).map fun values => program.blockNames.map fun name =>
        (name, (values.get? name).getD .null) := by
  have hblocks : (program.choose key).blocks = program.blocks := rfl
  simp only [run, resolve_choose hk, Leaf.runAll, ownValues, hblocks]
  cases Block.runAll (program.leafOf data key).binding program.blocks [] [] <;> rfl

theorem run_choose_ok {program : Program} {data : Value} {key : List String}
    {values : Table Value} (hk : key ∈ program.keys) (h : program.ownValues data key = .ok values) :
    (program.choose key).run data = .ok (program.blockNames.map fun name =>
      (name, (values.get? name).getD .null)) := by
  rw [run_choose hk, h]
  rfl

/-- Following a key through the assembled results leads to the value in the leaf
of the key. -/
theorem at?_assemble {program : Program} (values : List String → Table Value) (name : String)
    {key : List String} (hk : key ∈ program.keys) :
    (assemble (Context.axesOf program.paths) (program.keys.map fun key => (key, values key))
      name).at? key = some (((values key).get? name).getD .null) := by
  have hlength : ∀ other ∈ program.keys, other.length = (Context.axesOf program.paths).length :=
    fun other hm => Context.length_of_mem_keys hm
  unfold assemble
  split
  · next he =>
    have haxes : Context.axesOf program.paths = [] := List.isEmpty_iff.mp he
    have hkeys : program.keys = [[]] := by rw [keys, haxes]; rfl
    obtain rfl : key = [] := by simpa [hkeys] using hk
    simp only [hkeys, List.map_cons, List.map_nil, Value.at?]
  · next he =>
    have hne : key ≠ [] := by
      rintro rfl
      exact he (List.isEmpty_iff.mpr (List.length_eq_zero_iff.mp (hlength [] hk).symm))
    rw [List.foldl_map, at?_foldl_nest (fun key => ((values key).get? name).getD .null) hne
      program.keys (fun other hm => (hlength other hm).trans (hlength key hk).symm), if_pos hk]

end Program

end RecordQuery
