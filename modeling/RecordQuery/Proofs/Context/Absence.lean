/-
Paths that lead nowhere make no difference.

A declared path without axes whose place is not in the data binds nothing.  All that
it does is to move the numbers of the later declarations up by one.  A selection takes
its rows by the order of these numbers and not by the numbers themselves
(`Select.run_renumber`), and nothing else in a run looks at the sources, so the run is
the same with the path and without it (`Program.run_insert_absent`).
-/
import Mathlib.Data.List.Forall2
import Mathlib.Order.Monotone.Basic
import RecordQuery.Proofs.Context.Declared

namespace RecordQuery

/-! ## Tables with other values -/

namespace Table

variable {α β : Type}

/-- The table with every value changed, under the same names. -/
def mapValues (f : α → β) (table : Table α) : Table β :=
  table.map fun pair => (pair.1, f pair.2)

theorem get?_mapValues (f : α → β) (table : Table α) (key : String) :
    (table.mapValues f).get? key = (table.get? key).map f := by
  induction table with
  | nil => rfl
  | cons pair rest ih =>
    obtain ⟨name, value⟩ := pair
    show (if name = key then some (f value) else (mapValues f rest).get? key) = _
    rw [ih, get?_cons]
    split <;> rfl

theorem put_mapValues (f : α → β) (table : Table α) (key : String) (value : α) :
    (table.mapValues f).put key (f value) = (table.put key value).mapValues f := by
  induction table with
  | nil => rfl
  | cons pair rest ih =>
    obtain ⟨name, old⟩ := pair
    by_cases h : name = key
    · simp [mapValues, put, h]
    · have hrest : put (mapValues f rest) key (f value) = mapValues f (put rest key value) := ih
      simp only [mapValues, List.map_cons, put, if_neg h] at hrest ⊢
      rw [hrest]

end Table

/-! ## Other numbers for the declarations -/

namespace Source

/-- The source as that of the declaration with another number. -/
def renumber (f : Nat → Nat) (source : Source) : Source :=
  { source with declaration := f source.declaration }

theorem score_renumber (f : Nat → Nat) (source : Source) (fields : List String) :
    (source.renumber f).score fields = source.score fields := rfl

end Source

namespace Binding

/-- The binding with other numbers for the declarations of its sources. -/
def renumber (f : Nat → Nat) (binding : Binding) : Binding :=
  Table.mapValues (Source.renumber f) binding

section
variable {f : Nat → Nat}

theorem preferred_renumber (fields : List String) (earlier later : Source) :
    preferred fields (earlier.renumber f) (later.renumber f) =
      (preferred fields earlier later).renumber f := by
  unfold preferred
  rw [Source.score_renumber, Source.score_renumber]
  split <;> rfl

theorem named?_renumber (binding : Binding) (names : List String) :
    named? (renumber f binding) names = (named? binding names).map (Source.renumber f) := by
  unfold named?
  induction names with
  | nil => rfl
  | cons name rest ih =>
    rw [List.findSome?_cons, List.findSome?_cons, renumber, Table.get?_mapValues]
    cases Table.get? binding name with
    | none => exact ih
    | some source => rfl

variable (hf : StrictMono f) (binding : Binding)
include hf

theorem sources_renumber :
    sources (renumber f binding) = (sources binding).map (Source.renumber f) := by
  have hvalues : (renumber f binding).map Prod.snd =
      (binding.map Prod.snd).map (Source.renumber f) := by
    simp [renumber, Table.mapValues]
  rw [sources, sources, hvalues]
  refine (List.map_mergeSort fun a _ b _ => ?_).symm
  exact decide_eq_decide.mpr hf.le_iff_le.symm

theorem best?_renumber (fields : List String) :
    best? (renumber f binding) fields = (best? binding fields).map (Source.renumber f) := by
  rw [best?, best?, sources_renumber hf]
  cases sources binding with
  | nil => rfl
  | cons first rest =>
    show some ((rest.map (Source.renumber f)).foldl (preferred fields) (first.renumber f)) =
      some ((rest.foldl (preferred fields) first).renumber f)
    rw [List.foldl_map]
    exact congrArg some (List.foldl_hom _ fun earlier later =>
      preferred_renumber fields earlier later)

theorem overlapping?_renumber (fields : List String) :
    overlapping? (renumber f binding) fields =
      (overlapping? binding fields).map (Source.renumber f) := by
  rw [overlapping?, overlapping?, best?_renumber hf]
  cases best? binding fields with
  | none => rfl
  | some source =>
    rw [Option.map_some, Option.filter_some, Option.filter_some, Source.score_renumber]
    by_cases hs : 0 < source.score fields <;> simp [hs]

/-- The source that is chosen is the same one under its new number. -/
theorem source_renumber (fields : Fields) (seen : List String) :
    source (renumber f binding) fields seen =
      ((source binding fields seen).1.map (Source.renumber f), (source binding fields seen).2) := by
  cases fields with
  | all => exact Prod.ext (best?_renumber hf binding seen) rfl
  | named names =>
    simp only [source, named?_renumber]
    cases named? binding names.toList with
    | none => exact Prod.ext (overlapping?_renumber hf binding names.toList) rfl
    | some found => rfl

end

/-- No selection can tell two bindings apart. -/
def Indistinct (binding other : Binding) : Prop :=
  ∀ (select : Select) (store : Table Value) (seen : List String),
    select.run binding store seen = select.run other store seen

/-- A selection sees the order of the declarations and not their numbers. -/
theorem indistinct_renumber {f : Nat → Nat} (hf : StrictMono f) (binding : Binding) :
    Indistinct (renumber f binding) binding := by
  intro select store seen
  simp only [Select.run, source_renumber hf]
  split
  · rfl
  · obtain ⟨found, byName⟩ := source binding select.fields seen
    cases found with
    | none => rfl
    | some found => rfl

end Binding

/-! ## Runs over bindings that no selection tells apart -/

section Runs

variable {binding other : Binding} (h : binding.Indistinct other)
include h

theorem Session.select_indistinct (session : Session) (select : Select) :
    session.select binding select = session.select other select :=
  Prod.ext (h select _ _) rfl

theorem Operation.run_indistinct (session : Session) (operation : Operation) :
    operation.run binding session = operation.run other session := by
  cases operation <;> simp only [run, Session.select_indistinct h]

theorem Statement.run_indistinct (session : Session) (statement : Statement) :
    statement.run binding session = statement.run other session := by
  simp only [run, Operation.run_indistinct h]

theorem Statement.runAll_indistinct (last : Value) (statements : List Statement)
    (session : Session) :
    runAll binding last statements session = runAll other last statements session := by
  induction statements generalizing last session with
  | nil => rfl
  | cons statement rest ih => simp only [runAll, run_indistinct h, ih]

theorem Block.run_indistinct (store : Table Value) (block : Block) :
    block.run binding store = block.run other store := by
  simp only [run, Statement.runAll_indistinct h]

theorem Block.runAll_indistinct (blocks : List Block) (values store : Table Value) :
    runAll binding blocks values store = runAll other blocks values store := by
  induction blocks generalizing values store with
  | nil => rfl
  | cons block rest ih => simp only [runAll, run_indistinct h, ih]

end Runs

theorem Leaf.runAll_indistinct (blocks : List Block) {leaves others : List Leaf}
    (h : List.Forall₂ (fun a b => a.key = b.key ∧ a.binding.Indistinct b.binding) leaves others)
    (store : Table Value) : runAll blocks leaves store = runAll blocks others store := by
  induction h generalizing store with
  | nil => rfl
  | cons hab _ ih => simp only [runAll, Block.runAll_indistinct hab.2, hab.1, ih]

/-! ## Paths without axes -/

namespace UsePath

variable {path : UsePath} (h : ∀ segment ∈ path.segments, segment.others = [])
include h

theorem axes_of_single : path.axes = [] := by
  refine List.filterMap_eq_nil_iff.mpr fun placed hm => ?_
  simp [h placed.1 (List.fst_mem_of_mem_zipIdx hm)]

/-- Such a path takes its own names under every choice. -/
theorem concrete?_of_single (choice : Choice) :
    path.concrete? choice = some (path.segments.map Names.first) := by
  rw [concrete?_eq]
  generalize path.segments = segments, 0 = place at h ⊢
  induction segments generalizing place with
  | nil => rfl
  | cons segment rest ih =>
    have hhead : nameOf? choice (segment, place) = some segment.first :=
      if_pos (List.isEmpty_iff.mpr (h segment List.mem_cons_self))
    have hrest := ih (place + 1) fun other hm => h other (List.mem_cons_of_mem _ hm)
    rw [List.zipIdx_cons, List.mapM_cons, hhead, hrest]
    rfl

end UsePath

/-! ## A declaration more -/

/-- The numbers with one left out. -/
def skip (n d : Nat) : Nat :=
  if d < n then d else d + 1

theorem skip_strictMono (n : Nat) : StrictMono (skip n) := by
  intro a b hab
  unfold skip
  split <;> split <;> omega

theorem zipIdx_skip {α : Type} (before after : List α) :
    (before ++ after).zipIdx.map (fun placed => (placed.1, skip before.length placed.2)) =
      before.zipIdx ++ after.zipIdx (before.length + 1) := by
  have hbefore : ∀ placed ∈ before.zipIdx,
      (placed.1, skip before.length placed.2) = placed := fun placed hm =>
    Prod.ext rfl (if_pos (List.snd_lt_of_mem_zipIdx hm))
  have hafter : ∀ placed ∈ after.zipIdx before.length,
      (placed.1, skip before.length placed.2) = (placed.1, placed.2 + 1) := fun placed hm =>
    Prod.ext rfl (if_neg (Nat.not_lt.mpr (List.le_snd_of_mem_zipIdx hm)))
  rw [List.zipIdx_append, List.map_append, List.map_congr_left hbefore, Nat.zero_add,
    List.map_congr_left hafter, List.zipIdx_succ, List.map_id']

namespace Context

theorem bind_renumber (f : Nat → Nat) (binding : Binding) (names : List String)
    (source : Source) :
    bind (binding.renumber f) names (source.renumber f) = (bind binding names source).renumber f :=
  List.foldl_hom (Binding.renumber f) fun binding name =>
    Table.put_mapValues (Source.renumber f) binding name source

theorem declare_renumber (f : Nat → Nat) (data : Value) (choice : Choice) (binding : Binding)
    (path : UsePath) (declaration : Nat) :
    declare data choice (binding.renumber f) path (f declaration) =
      (declare data choice binding path declaration).renumber f := by
  cases hn : path.concrete? choice with
  | none => simp [declare, locate?, hn]
  | some names =>
    cases hv : data.at? names with
    | none => rw [declare_missing hn hv, declare_missing hn hv]
    | some value =>
      rw [declare_found hn hv, declare_found hn hv]
      exact bind_renumber f binding _ ⟨value.restrict path.fields, declaration⟩

/-- A binding with one more declared path, which comes with its number. -/
def place (data : Value) (choice : Choice) (binding : Binding) (placed : UsePath × Nat) :
    Binding :=
  declare data choice binding placed.1 placed.2

/-- A declaration that binds nothing makes the later ones count one more. -/
theorem bindingFor_insert {data : Value} {choice : Choice} {path : UsePath}
    {names : List String} (hn : path.concrete? choice = some names) (ha : data.at? names = none)
    (before after : List UsePath) :
    bindingFor (before ++ path :: after) data choice =
      (bindingFor (before ++ after) data choice).renumber (skip before.length) := by
  have hfold : ∀ paths, bindingFor paths data choice =
      paths.zipIdx.foldl (place data choice) [] := fun _ => rfl
  have hpath : ∀ binding declaration, place data choice binding (path, declaration) = binding :=
    declare_missing hn ha
  calc bindingFor (before ++ path :: after) data choice
      = (before.zipIdx ++ after.zipIdx (before.length + 1)).foldl (place data choice) [] := by
        rw [hfold, List.zipIdx_append, List.foldl_append, List.zipIdx_cons, List.foldl_cons, hpath,
          List.foldl_append, Nat.zero_add]
    _ = (before ++ after).zipIdx.foldl
          (fun binding (placed : UsePath × Nat) =>
            place data choice binding (placed.1, skip before.length placed.2)) [] := by
        rw [← zipIdx_skip, List.foldl_map]
    _ = (bindingFor (before ++ after) data choice).renumber (skip before.length) := by
        rw [hfold]
        exact @List.foldl_hom _ _ _ (Binding.renumber (skip before.length)) (place data choice)
          _ _ [] fun binding placed => declare_renumber _ data choice binding placed.1 placed.2

theorem axesOf_insert {path : UsePath} (h : path.axes = []) (before after : List UsePath) :
    axesOf (before ++ path :: after) = axesOf (before ++ after) := by
  simp only [axesOf, List.flatMap_append, List.flatMap_cons, h, List.nil_append]

end Context

namespace Program

/-- A declared path whose segments all have one name, and whose place is not in the
data, can be added at any position among the declared paths: the outcome stays the
same. -/
theorem run_insert_absent {path : UsePath} {data : Value}
    (hs : ∀ segment ∈ path.segments, segment.others = [])
    (ha : ∀ value, ¬ data.Lies (path.segments.map Names.first) value)
    (before after : List UsePath) (blocks : List Block) :
    run ⟨before ++ path :: after, blocks⟩ data = run ⟨before ++ after, blocks⟩ data := by
  have hnone : data.at? (path.segments.map Names.first) = none :=
    Option.eq_none_iff_forall_not_mem.mpr fun value hv => ha value (Value.at?_eq_some.mp hv)
  have haxes := Context.axesOf_insert (UsePath.axes_of_single hs) before after
  have hleaves : List.Forall₂ (fun a b : Leaf => a.key = b.key ∧ a.binding.Indistinct b.binding)
      (Context.resolve (before ++ path :: after) data).leaves
      (Context.resolve (before ++ after) data).leaves := by
    simp only [Context.resolve, haxes]
    refine List.forall₂_map_left_iff.mpr (List.forall₂_map_right_iff.mpr ?_)
    refine List.forall₂_same.mpr fun key _ => ⟨rfl, ?_⟩
    show Binding.Indistinct (Context.bindingFor _ data _) _
    rw [Context.bindingFor_insert (UsePath.concrete?_of_single hs _) hnone]
    exact Binding.indistinct_renumber (skip_strictMono _) _
  have hcontext : (Context.resolve (before ++ path :: after) data).axes =
      (Context.resolve (before ++ after) data).axes := haxes
  simp only [run, Leaf.runAll_indistinct blocks hleaves, hcontext, blockNames]

/-- Two declared records with a field in common, and the selection of everything after
that field was referred to: both records expose it, and the earlier one is taken. -/
def nearRecord : UsePath :=
  ⟨⟨"near", []⟩, [], some ⟨"x", ["y"]⟩⟩

def farRecord : UsePath :=
  ⟨⟨"far", []⟩, [], some ⟨"x", ["z"]⟩⟩

def everythingAfterX : Block :=
  ⟨"q", [⟨none, .count ⟨.named ⟨"x", []⟩, none, false⟩⟩, ⟨none, .select .everything⟩]⟩

/-- A path into a record that is missing, with the same field. -/
def missingRecord : UsePath :=
  ⟨⟨"near", []⟩, [⟨"x", []⟩, ⟨"deep", []⟩], some ⟨"x", []⟩⟩

def nearAndFar : Value :=
  .record [("near", .record [("x", .text "a"), ("y", .null)]),
    ("far", .record [("x", .text "b"), ("z", .null)])]

/-- What is selected is the near record, as it is declared first. -/
theorem run_nearAndFar :
    run ⟨[nearRecord, farRecord], [everythingAfterX]⟩ nearAndFar =
      .ok [("q", .list [.record [("x", .text "a"), ("y", .null)]])] := by
  let near : Source := ⟨.record [("x", .text "a"), ("y", .null)], 0⟩
  let far : Source := ⟨.record [("x", .text "b"), ("z", .null)], 1⟩
  let binding : Binding := [("x", far), ("y", near), ("z", far)]
  have hsources : binding.sources = [near, far, far] := by
    simp [binding, near, far, Binding.sources, List.mergeSort]
  have hsource : binding.source .all ["x"] = (some near, false) := by
    rw [Binding.source, Binding.best?, hsources]
    rfl
  have hselect : Select.everything.run binding [] ["x"] = .ok ⟨near.rows, false⟩ := by
    simp only [Select.run, Select.everything, Select.missingVariable?, Option.bind_none, hsource]
    rfl
  have hcount : (⟨none, .count ⟨.named ⟨"x", []⟩, none, false⟩⟩ : Statement).run binding
      (.start []) = (.ok (.int 1), ⟨[], [], ["x"]⟩) := rfl
  have hlast : (⟨none, .select .everything⟩ : Statement).run binding ⟨[], [], ["x"]⟩ =
      (.ok (.list near.rows), ⟨near.rows, [], ["x"]⟩) := by
    have hrefer : Session.refer ⟨[], [], ["x"]⟩ .everything = ⟨[], [], ["x"]⟩ := rfl
    simp only [Statement.run, Operation.run, Session.select, hrefer, hselect]
    rfl
  have hblock : everythingAfterX.run binding [] = .ok (.list near.rows, []) := by
    simp only [Block.run, everythingAfterX, Statement.runAll, hcount, hlast]
    rfl
  show (Leaf.runAll [everythingAfterX] [⟨[], binding⟩] []).map _ = _
  simp only [Leaf.runAll, Block.runAll, hblock]
  rfl

theorem run_insert_absent_nearAndFar :
    (∀ segment ∈ missingRecord.segments, segment.others = []) ∧
      (∀ value, ¬ nearAndFar.Lies (missingRecord.segments.map Names.first) value) ∧
      run ⟨[nearRecord, farRecord], [everythingAfterX]⟩ nearAndFar =
        .ok [("q", .list [.record [("x", .text "a"), ("y", .null)]])] ∧
      run ⟨missingRecord :: [nearRecord, farRecord], [everythingAfterX]⟩ nearAndFar =
        run ⟨[nearRecord, farRecord], [everythingAfterX]⟩ nearAndFar := by
  have hs : ∀ segment ∈ missingRecord.segments, segment.others = [] := by decide
  have hnone : nearAndFar.at? (missingRecord.segments.map Names.first) = none := rfl
  have ha : ∀ value, ¬ nearAndFar.Lies (missingRecord.segments.map Names.first) value :=
    fun value h => by simpa [hnone] using Value.at?_eq_some.mpr h
  exact ⟨hs, ha, run_nearAndFar,
    run_insert_absent hs ha [] [nearRecord, farRecord] [everythingAfterX]⟩

end Program
end RecordQuery
