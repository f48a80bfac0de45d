/-
The context of declared paths is what they declare.

In each leaf a path becomes concrete: its segments of one name keep it, the others
take the name that the key of the leaf has for their axis (`UsePath.Takes`).  Where
that leads somewhere in the data, the path provides a value under the names it
exposes.  `Context.Declared` says of a context that it has the axes of the paths,
all keys in their order, and in each leaf under every name the source of the last
path that provides a value there, and of the context that is computed this holds
(`Context.declared_resolve`).
-/
import RecordQuery.Proofs.Context.Axes
import Mathlib.Data.List.Induction

namespace RecordQuery

/-! ## Places in the data -/

/-- What lies at a path of names: each name on the way is that of a field. -/
inductive Value.Lies : Value → List String → Value → Prop
  | here {value : Value} : Lies value [] value
  | field {fields : List (String × Value)} {name : String} {names : List String}
      {inner value : Value} :
      Table.get? fields name = some inner → Lies inner names value →
      Lies (.record fields) (name :: names) value

theorem Value.at?_eq_some {value found : Value} {names : List String} :
    value.at? names = some found ↔ value.Lies names found := by
  induction names generalizing value with
  | nil =>
    constructor
    · rintro ⟨⟩
      exact .here
    · rintro ⟨⟩
      rfl
  | cons name rest ih =>
    rw [at?]
    constructor
    · intro h
      obtain ⟨inner, hi, hr⟩ := Option.bind_eq_some_iff.mp h
      cases value with
      | record fields => exact .field hi (ih.mp hr)
      | _ => cases hi
    · rintro ⟨⟩
      next fields inner hi hr => exact Option.bind_eq_some_iff.mpr ⟨inner, hi, ih.mpr hr⟩

/-! ## Restriction to a field set -/

namespace Value

/-- A record cut down to some fields, in the order of these; what is no record
stays as it is. -/
inductive CutTo (fields : List String) : Value → Value → Prop
  | record {table kept : List (String × Value)} :
      Table.names kept = (fields.filter (Table.has table)).eraseDups →
      (∀ name, Table.get? kept name = if name ∈ fields then Table.get? table name else none) →
      CutTo fields (.record table) (.record kept)
  | other {value : Value} : value.isRecord = false → CutTo fields value value

/-- What a path with or without a field set makes of what it finds, in a list
record by record. -/
inductive RestrictsTo : Option Names → Value → Value → Prop
  | whole {value : Value} : RestrictsTo none value value
  | list {fields : Names} {items kept : List Value} :
      List.Forall₂ (CutTo fields.toList) items kept →
      RestrictsTo (some fields) (.list items) (.list kept)
  | single {fields : Names} {value kept : Value} :
      (∀ items, value ≠ .list items) → CutTo fields.toList value kept →
      RestrictsTo (some fields) value kept

theorem project_concat (table : List (String × Value)) (names : List String) (name : String) :
    project table (names ++ [name]) =
      match Table.get? table name with
      | some value => Table.put (project table names) name value
      | none => project table names := by
  rw [project, List.foldl_append]
  rfl

theorem get?_project (table : List (String × Value)) (names : List String) (name : String) :
    Table.get? (project table names) name =
      if name ∈ names then Table.get? table name else none := by
  induction names using List.reverseRecOn with
  | nil => rfl
  | append_singleton names last ih =>
    rw [project_concat]
    by_cases hl : last = name
    · subst hl
      rw [if_pos (List.mem_append_right _ List.mem_cons_self)]
      cases hg : Table.get? table last with
      | none =>
        rw [ih, hg]
        exact ite_self none
      | some value => rw [Table.get?_put, if_pos rfl]
    · have hm : name ∈ names ++ [last] ↔ name ∈ names := by simp [Ne.symm hl]
      simp only [hm]
      cases Table.get? table last with
      | none => exact ih
      | some value => rw [Table.get?_put, if_neg hl, ih]

theorem names_project (table : List (String × Value)) (names : List String) :
    Table.names (project table names) = (names.filter (Table.has table)).eraseDups := by
  induction names using List.reverseRecOn with
  | nil => rfl
  | append_singleton names last ih =>
    rw [project_concat, List.filter_append, List.eraseDups_append, ← ih]
    cases hg : Table.get? table last with
    | none => simp [Table.has, hg, List.removeAll]
    | some value =>
      have hmem : last ∈ Table.names (project table names) ↔ last ∈ names := by
        simp [ih, Table.has, hg]
      rw [Table.names_put]
      by_cases hm : last ∈ names
      · simp [hmem, hm, Table.has, hg, List.removeAll]
      · simp [hmem, hm, Table.has, hg, List.removeAll, List.eraseDups_cons]

theorem cutTo_restrictRecord (fields : Names) (value : Value) :
    CutTo fields.toList value (value.restrictRecord fields) := by
  cases value with
  | record table => exact .record (names_project table _) (get?_project table _)
  | _ => exact .other rfl

theorem restrictsTo_restrict (fields : Option Names) (value : Value) :
    RestrictsTo fields value (value.restrict fields) := by
  cases fields with
  | none => exact .whole
  | some fields =>
    cases value with
    | list items =>
      refine .list (List.forall₂_map_right_iff.mpr (List.forall₂_same.mpr fun item _ => ?_))
      exact cutTo_restrictRecord fields item
    | _ => exact .single (by simp) (cutTo_restrictRecord fields _)

end Value

/-! ## Concrete paths -/

namespace UsePath

/-- The names that a key puts along a path: the only name of a segment, or the one
that the key has for the axis. -/
def Takes (path : UsePath) (axes : List Axis) (key names : List String) : Prop :=
  names.length = path.segments.length ∧
    ∀ position segment, path.segments[position]? = some segment →
      names[position]? =
        if segment.others = [] then some segment.first
        else key[axes.idxOf ⟨position, segment⟩]?

/-- The names under which a path exposes what it leads to: its field set, or without
one its last name. -/
inductive Exposes (path : UsePath) (names : List String) : String → Prop
  | field {fields : Names} {name : String} :
      path.fields = some fields → name ∈ fields.toList → Exposes path names name
  | last {name : String} :
      path.fields = none → names.getLast? = some name → Exposes path names name

theorem mem_exposed {path : UsePath} {names : List String} {name : String} :
    name ∈ path.exposed names ↔ path.Exposes names name := by
  unfold exposed
  constructor
  · intro h
    split at h
    · next fields hf => exact .field hf h
    · next hf => exact .last hf (Option.mem_toList.mp h)
  · rintro (⟨hf, hm⟩ | ⟨hf, hl⟩)
    · rw [hf]
      exact hm
    · rw [hf]
      exact Option.mem_toList.mpr hl

end UsePath

/-- Looking an axis up in a choice is looking up its place in the key. -/
theorem Context.lookup_zip {axes : List Axis} {key : List String}
    (hl : key.length = axes.length) (axis : Axis) :
    List.lookup axis (axes.zip key) = key[axes.idxOf axis]? := by
  induction axes generalizing key with
  | nil =>
    obtain rfl : key = [] := List.length_eq_zero_iff.mp hl
    rfl
  | cons first rest ih =>
    cases key with
    | nil => cases hl
    | cons name key =>
      rw [List.zip_cons_cons, List.lookup_cons, List.idxOf_cons]
      by_cases h : axis = first
      · subst h
        simp
      · have hne : (axis == first) = false := beq_eq_false_iff_ne.mpr h
        have hne' : (first == axis) = false := beq_eq_false_iff_ne.mpr (Ne.symm h)
        rw [hne, hne']
        exact ih (Nat.succ.inj hl)

namespace UsePath

/-- A computation on every item of a list that never fails has a result for each. -/
theorem exists_mapM {α β : Type} {f : α → Option β} {xs : List α}
    (h : ∀ x ∈ xs, (f x).isSome) :
    ∃ ys : List β, xs.mapM f = some ys ∧ ys.length = xs.length ∧
      ∀ i : Nat, ys[i]? = xs[i]?.bind f := by
  induction xs with
  | nil => exact ⟨[], rfl, rfl, fun i => by simp⟩
  | cons x rest ih =>
    obtain ⟨y, hy⟩ := Option.isSome_iff_exists.mp (h x List.mem_cons_self)
    obtain ⟨ys, hys, hlen, hall⟩ := ih fun other hm => h other (List.mem_cons_of_mem _ hm)
    refine ⟨y :: ys, ?_, congrArg Nat.succ hlen, fun i => ?_⟩
    · rw [List.mapM_cons, hy, hys]
      rfl
    · cases i with
      | zero => simp [hy]
      | succ i => simpa using hall i

/-- A key that has a name for every axis of a path puts names along it. -/
theorem exists_concrete? {path : UsePath} {axes : List Axis} {key : List String}
    (hl : key.length = axes.length) (h : ∀ axis ∈ path.axes, axis ∈ axes) :
    ∃ names, path.concrete? (axes.zip key) = some names ∧ path.Takes axes key names := by
  have hsome : ∀ placed ∈ path.segments.zipIdx, (nameOf? (axes.zip key) placed).isSome := by
    rintro ⟨segment, position⟩ hm
    unfold nameOf?
    split
    · rfl
    · next hne =>
      have haxis : ⟨position, segment⟩ ∈ path.axes :=
        mem_axes.mpr ⟨List.mem_zipIdx_iff_getElem?.mp hm, fun he => hne (List.isEmpty_iff.mpr he)⟩
      exact Context.isSome_lookup_zip hl (h _ haxis)
  obtain ⟨names, hnames, hlen, hall⟩ := exists_mapM hsome
  refine ⟨names, hnames, by rw [hlen, List.length_zipIdx], fun position segment hs => ?_⟩
  rw [hall, List.getElem?_zipIdx, hs, Nat.zero_add]
  show nameOf? (axes.zip key) (segment, position) = _
  simp only [nameOf?, List.isEmpty_iff, Context.lookup_zip hl]

theorem Takes.unique {path : UsePath} {axes : List Axis} {key names others : List String}
    (h : path.Takes axes key names) (ho : path.Takes axes key others) : names = others := by
  refine List.ext_getElem? fun i => ?_
  cases hs : path.segments[i]? with
  | none =>
    have hle := List.getElem?_eq_none_iff.mp hs
    rw [List.getElem?_eq_none (h.1 ▸ hle), List.getElem?_eq_none (ho.1 ▸ hle)]
  | some segment => rw [h.2 i segment hs, ho.2 i segment hs]

/-- A path leads somewhere in the data, with a key, and exposes a name there. -/
def Provides (path : UsePath) (axes : List Axis) (key : List String) (data : Value)
    (name : String) (value : Value) : Prop :=
  ∃ names, path.Takes axes key names ∧ data.Lies names value ∧ path.Exposes names name

end UsePath

/-! ## Bindings -/

namespace Context

theorem get?_bind (binding : Binding) (names : List String) (source : Source) (name : String) :
    (bind binding names source).get? name =
      if name ∈ names then some source else binding.get? name := by
  induction names generalizing binding with
  | nil => rfl
  | cons first rest ih =>
    show (bind (binding.put first source) rest source).get? name = _
    rw [ih, Table.get?_put]
    by_cases hr : name ∈ rest
    · rw [if_pos hr, if_pos (List.mem_cons_of_mem _ hr)]
    · rw [if_neg hr]
      by_cases hf : first = name
      · rw [if_pos hf, if_pos (hf ▸ List.mem_cons_self)]
      · rw [if_neg hf, if_neg fun hm => (List.mem_cons.mp hm).elim (fun h => hf h.symm) hr]

/-- A binding with what one more declared path leads to. -/
def declare (data : Value) (choice : Choice) (binding : Binding) (path : UsePath)
    (declaration : Nat) : Binding :=
  match locate? data choice path declaration with
  | some (names, source) => bind binding (path.exposed names) source
  | none => binding

theorem bindingFor_eq (paths : List UsePath) (data : Value) (choice : Choice) :
    bindingFor paths data choice =
      paths.zipIdx.foldl (fun binding (path, declaration) =>
        declare data choice binding path declaration) [] := rfl

theorem declare_found {data value : Value} {choice : Choice} {path : UsePath}
    {names : List String} (hn : path.concrete? choice = some names)
    (hv : data.at? names = some value) (binding : Binding) (declaration : Nat) :
    declare data choice binding path declaration =
      bind binding (path.exposed names) ⟨value.restrict path.fields, declaration⟩ := by
  have hlocate : locate? data choice path declaration =
      some (names, ⟨value.restrict path.fields, declaration⟩) := by
    rw [locate?, hn, Option.bind_eq_bind, Option.bind_some, hv]
    rfl
  rw [declare, hlocate]

theorem declare_missing {data : Value} {choice : Choice} {path : UsePath} {names : List String}
    (hn : path.concrete? choice = some names) (hv : data.at? names = none) (binding : Binding)
    (declaration : Nat) : declare data choice binding path declaration = binding := by
  have hlocate : locate? data choice path declaration = none := by
    rw [locate?, hn, Option.bind_eq_bind, Option.bind_some, hv]
    rfl
  rw [declare, hlocate]

section Leaf

variable {axes : List Axis} {key : List String} (data : Value)

/-- A declared path takes over the names that it provides, and no others. -/
theorem get?_declare {path : UsePath} (hl : key.length = axes.length)
    (h : ∀ axis ∈ path.axes, axis ∈ axes) (binding : Binding) (declaration : Nat) (name : String) :
    (∃ value, path.Provides axes key data name value ∧
      (declare data (axes.zip key) binding path declaration).get? name =
        some ⟨value.restrict path.fields, declaration⟩) ∨
    (∀ value, ¬ path.Provides axes key data name value) ∧
      (declare data (axes.zip key) binding path declaration).get? name = binding.get? name := by
  obtain ⟨names, hnames, htakes⟩ := UsePath.exists_concrete? hl h
  cases hv : data.at? names with
  | none =>
    refine .inr ⟨?_, by rw [declare_missing hnames hv]⟩
    rintro value ⟨others, ho, hlies, -⟩
    obtain rfl := htakes.unique ho
    rw [Value.at?_eq_some.mpr hlies] at hv
    cases hv
  | some value =>
    rw [declare_found hnames hv, get?_bind]
    by_cases he : name ∈ path.exposed names
    · rw [if_pos he]
      exact .inl ⟨value, ⟨names, htakes, Value.at?_eq_some.mp hv, UsePath.mem_exposed.mp he⟩, rfl⟩
    · rw [if_neg he]
      refine .inr ⟨?_, rfl⟩
      rintro other ⟨others, ho, -, hexposes⟩
      obtain rfl := htakes.unique ho
      exact he (UsePath.mem_exposed.mpr hexposes)

/-- After several declared paths a name has the source of the last one that provides
it, or what it had before if none does. -/
theorem get?_foldl_declare (hl : key.length = axes.length) {paths : List UsePath}
    (h : ∀ path ∈ paths, ∀ axis ∈ path.axes, axis ∈ axes) (binding : Binding) (start : Nat)
    (name : String) :
    (∃ before path after value, paths = before ++ path :: after ∧
      path.Provides axes key data name value ∧
      (∀ later ∈ after, ∀ other, ¬ later.Provides axes key data name other) ∧
      ((paths.zipIdx start).foldl (fun binding (path, declaration) =>
        declare data (axes.zip key) binding path declaration) binding).get? name =
          some ⟨value.restrict path.fields, start + before.length⟩) ∨
    (∀ path ∈ paths, ∀ value, ¬ path.Provides axes key data name value) ∧
      ((paths.zipIdx start).foldl (fun binding (path, declaration) =>
        declare data (axes.zip key) binding path declaration) binding).get? name =
          binding.get? name := by
  induction paths generalizing binding start with
  | nil => exact .inr ⟨fun _ hm => absurd hm List.not_mem_nil, rfl⟩
  | cons path rest ih =>
    rw [List.zipIdx_cons, List.foldl_cons]
    have hhead := h path List.mem_cons_self
    have hrest := ih (fun other hm => h other (List.mem_cons_of_mem _ hm))
      (declare data (axes.zip key) binding path start) (start + 1)
    obtain ⟨before, last, after, value, rfl, hp, hlast, heq⟩ | ⟨hnone, heq⟩ := hrest
    · refine .inl ⟨path :: before, last, after, value, rfl, hp, hlast, ?_⟩
      rw [heq, List.length_cons, Nat.add_right_comm, Nat.add_assoc]
    · rw [heq]
      obtain ⟨value, hp, hd⟩ | ⟨hno, hd⟩ := get?_declare data hl hhead binding start name
      · exact .inl ⟨[], path, rest, value, rfl, hp, hnone, hd⟩
      · exact .inr ⟨List.forall_mem_cons.mpr ⟨hno, hnone⟩, hd⟩

end Leaf

/-! ## Contexts -/

/-- That a context is the one that paths declare over the data. -/
structure Declared (paths : List UsePath) (data : Value) (context : Context) : Prop where
  axes_nodup : context.axes.Nodup
  mem_axes : ∀ axis, axis ∈ context.axes ↔ ∃ path ∈ paths, path.Branches axis
  /-- An axis before another one appears before it. -/
  axes_order : context.axes.Pairwise fun a b => ∀ before path after,
    paths = before ++ path :: after → path.Branches b →
      (∃ earlier ∈ before, earlier.Branches a) ∨ path.Branches a ∧ a.position < b.position
  length_leaves : context.leaves.length = choices context.axes
  length_key : ∀ leaf ∈ context.leaves, leaf.key.length = context.axes.length
  /-- The keys are numbered in mixed radix, the last axis being the lowest digit. -/
  key : ∀ (i : Nat) (leaf : Leaf), context.leaves[i]? = some leaf →
    ∀ (j : Nat) (axis : Axis), context.axes[j]? = some axis →
      leaf.key[j]? = axis.alternatives.toList[i / choices (context.axes.drop (j + 1)) %
        axis.alternatives.toList.length]?
  /-- No choice is missing when a path is made concrete. -/
  concrete : ∀ leaf ∈ context.leaves, ∀ path ∈ paths, ∃ names,
    path.concrete? (context.axes.zip leaf.key) = some names ∧
      path.Takes context.axes leaf.key names
  bound : ∀ leaf ∈ context.leaves, ∀ name, (leaf.binding.get? name).isSome ↔
    ∃ path ∈ paths, ∃ value, path.Provides context.axes leaf.key data name value
  /-- The last path that provides a name supplies its source. -/
  source : ∀ leaf ∈ context.leaves, ∀ name source, leaf.binding.get? name = some source →
    ∃ before path after value, paths = before ++ path :: after ∧
      path.Provides context.axes leaf.key data name value ∧
      (∀ later ∈ after, ∀ other, ¬ later.Provides context.axes leaf.key data name other) ∧
      source.declaration = before.length ∧ value.RestrictsTo path.fields source.value

/-- The context of declared paths over any data is the one they declare. -/
theorem declared_resolve (paths : List UsePath) (data : Value) :
    Declared paths data (resolve paths data) := by
  have hleaves : ∀ leaf ∈ (resolve paths data).leaves,
      leaf.key.length = (axesOf paths).length ∧
        leaf.binding = bindingFor paths data ((axesOf paths).zip leaf.key) := by
    intro leaf hm
    obtain ⟨key, hk, rfl⟩ := List.mem_map.mp hm
    exact ⟨length_of_mem_keys hk, rfl⟩
  obtain ⟨hnodup, hmem, horder⟩ := declaredAxes_axesOf paths
  refine ⟨hnodup, hmem, horder, ?_,
    fun leaf hm => (hleaves leaf hm).1, ?_, fun leaf hm path hp =>
      UsePath.exists_concrete? (hleaves leaf hm).1 (axes_subset hp), ?_, ?_⟩
  · show ((keys (axesOf paths)).map _).length = choices (axesOf paths)
    rw [List.length_map, length_keys]
  · intro i leaf hi j axis hj
    have hi : ((keys (axesOf paths)).map _)[i]? = some leaf := hi
    rw [List.getElem?_map] at hi
    obtain ⟨key, hk, rfl⟩ := Option.map_eq_some_iff.mp hi
    exact getElem?_of_keys hk hj
  · intro leaf hm name
    obtain ⟨hl, hb⟩ := hleaves leaf hm
    rw [hb, bindingFor_eq]
    obtain ⟨before, path, after, value, rfl, hp, -, heq⟩ | ⟨hnone, heq⟩ :=
      get?_foldl_declare data hl (fun path hp => axes_subset hp) [] 0 name
    · rw [heq]
      exact ⟨fun _ => ⟨path, by simp, value, hp⟩, fun _ => rfl⟩
    · rw [heq]
      refine ⟨fun h => absurd h Bool.false_ne_true, ?_⟩
      rintro ⟨path, hm, value, hp⟩
      exact absurd hp (hnone path hm value)
  · intro leaf hm name source hs
    obtain ⟨hl, hb⟩ := hleaves leaf hm
    rw [hb, bindingFor_eq] at hs
    obtain ⟨before, path, after, value, hpaths, hp, hlater, heq⟩ | ⟨-, heq⟩ :=
      get?_foldl_declare data hl (fun path hp => axes_subset hp) [] 0 name
    · rw [heq] at hs
      cases hs
      exact ⟨before, path, after, value, hpaths, hp, hlater, Nat.zero_add _,
        Value.restrictsTo_restrict path.fields value⟩
    · rw [heq] at hs
      cases hs

end Context
end RecordQuery
