/-
A program reads nothing outside its declared paths.

An edit changes what lies at a place, which may be inside lists as well as records
(`Value.alter`).  A path cannot tell the edit where it parts from the place before
either of them ends (`at?_alter_of_apart`), and neither can a path that leads to a
record above the place, or to a list of such records, and whose field set leaves
out the field that the place goes on with (`restrict_alter`).  Where no path can
tell, the context is the same, and so is all that is computed from it
(`Program.run_alter`).
-/
import RecordQuery.Proofs.Context.Declared

namespace RecordQuery

/-! ## Edits of a table -/

namespace Table

variable {α : Type}

def erase (table : Table α) (name : String) : Table α :=
  table.filter fun pair => decide (pair.1 ≠ name)

/-- Changes what stands under a name; it may come or go. -/
def alter (table : Table α) (name : String) (change : Option α → Option α) : Table α :=
  match change (table.get? name) with
  | some value => table.put name value
  | none => erase table name

theorem get?_erase (table : Table α) (name other : String) :
    (erase table name).get? other = if name = other then none else table.get? other := by
  induction table with
  | nil => exact (ite_self none).symm
  | cons pair rest ih =>
    obtain ⟨key, value⟩ := pair
    by_cases hk : key = name
    · subst hk
      have herase : erase ((key, value) :: rest) key = erase rest key := by simp [erase]
      rw [herase, ih, get?_cons]
      by_cases ho : key = other
      · rw [if_pos ho, if_pos ho]
      · rw [if_neg ho, if_neg ho, if_neg ho]
    · have herase : erase ((key, value) :: rest) name = (key, value) :: erase rest name := by
        simp [erase, hk]
      rw [herase, get?_cons, get?_cons, ih]
      by_cases ho : key = other
      · rw [if_pos ho, if_pos ho, if_neg fun h => hk (ho.trans h.symm)]
      · rw [if_neg ho, if_neg ho]

theorem get?_alter (table : Table α) (name other : String) (change : Option α → Option α) :
    (table.alter name change).get? other =
      if name = other then change (table.get? name) else table.get? other := by
  unfold alter
  split
  · next value hv => rw [get?_put, hv]
  · next hv => rw [get?_erase, hv]

end Table

/-! ## Edits of a value -/

/-- One turn on the way down into a value: to a field of a record, or to an item of
a list. -/
inductive Turn
  | field (name : String)
  | item (index : Nat)
  deriving DecidableEq

namespace Value

/-- Changes what lies at a place: what is there may be replaced or deleted, and
where nothing is, something may be added, with the records on the way to it.  A
place on which a value stands that has no such parts is left alone. -/
def alter (change : Option Value → Option Value) : List Turn → Option Value → Option Value
  | [], old => change old
  | .field name :: rest, some (.record table) =>
    some (.record (Table.alter table name (alter change rest)))
  | .field name :: rest, none => (alter change rest none).map fun value => .record [(name, value)]
  | .item index :: rest, some (.list items) =>
    match alter change rest items[index]? with
    | some value => some (.list (items.set index value))
    | none => some (.list (items.eraseIdx index))
  | _, old => old

variable (change : Option Value → Option Value)

/-- The turns at the fields of a path. -/
def turns (names : List String) : List Turn :=
  names.map .field

theorem turns_append_inj {names others : List String} {rest last : List Turn}
    (h : turns names ++ rest = turns others ++ last) (hl : names.length = others.length) :
    names = others := by
  have hlt : (turns names).length = (turns others).length := by
    rw [turns, turns, List.length_map, List.length_map, hl]
  refine List.map_injective_iff.mpr (fun a b hab => ?_) (List.append_inj h hlt).1
  exact Turn.field.inj hab

/-- A path and a place part before either of them ends. -/
def Apart (names : List String) (place : List Turn) : Prop :=
  ¬ turns names <+: place ∧ ¬ place <+: turns names

instance (names : List String) (place : List Turn) : Decidable (Apart names place) :=
  inferInstanceAs (Decidable (_ ∧ _))

theorem Apart.tail {name : String} {names : List String} {place : List Turn}
    (h : Apart (name :: names) (.field name :: place)) : Apart names place :=
  ⟨fun hp => h.1 (List.cons_prefix_cons.mpr ⟨rfl, hp⟩),
    fun hp => h.2 (List.cons_prefix_cons.mpr ⟨rfl, hp⟩)⟩

theorem field?_alter_item (index : Nat) (rest : List Turn) (old : Option Value) (name : String) :
    (alter change (.item index :: rest) old).bind (·.field? name) =
      old.bind (·.field? name) := by
  cases old with
  | none => rfl
  | some value =>
    cases value with
    | list items =>
      rw [alter]
      split <;> rfl
    | _ => rfl

theorem field?_alter_of_ne {name other : String} (hne : name ≠ other) (rest : List Turn)
    (old : Option Value) :
    (alter change (.field name :: rest) old).bind (·.field? other) =
      old.bind (·.field? other) := by
  cases old with
  | none =>
    rw [alter]
    cases alter change rest none with
    | none => rfl
    | some value => exact if_neg hne
  | some value =>
    cases value with
    | record table => exact (Table.get?_alter table name other _).trans (if_neg hne)
    | _ => rfl

/-- An edit at a field of a record changes the field, and one of nothing may make a
record of it. -/
theorem field?_alter_self {old : Option Value} (h : ∀ value ∈ old, value.isRecord) (name : String)
    (rest : List Turn) :
    (alter change (.field name :: rest) old).bind (·.field? name) =
      alter change rest (old.bind (·.field? name)) := by
  cases old with
  | none =>
    show ((alter change rest none).map _).bind _ = alter change rest none
    cases alter change rest none with
    | none => rfl
    | some value => exact if_pos rfl
  | some value =>
    cases value with
    | record table => exact (Table.get?_alter table name name _).trans (if_pos rfl)
    | _ => exact absurd (h _ rfl) Bool.false_ne_true

theorem alter_of_not_record {value : Value} (h : value.isRecord = false) (name : String)
    (rest : List Turn) : alter change (.field name :: rest) (some value) = some value := by
  cases value with
  | record table => cases h
  | _ => rfl

theorem bind_at?_cons (old : Option Value) (name : String) (names : List String) :
    old.bind (·.at? (name :: names)) = (old.bind (·.field? name)).bind (·.at? names) := by
  rw [Option.bind_assoc]
  rfl

/-- What lies at a path is not changed by an edit at a place apart from it. -/
theorem at?_alter_of_apart {names : List String} {place : List Turn} (h : Apart names place)
    (old : Option Value) :
    (alter change place old).bind (·.at? names) = old.bind (·.at? names) := by
  induction place generalizing names old with
  | nil => exact absurd List.nil_prefix h.2
  | cons turn rest ih =>
    cases names with
    | nil => exact absurd List.nil_prefix h.1
    | cons first names =>
      rw [bind_at?_cons, bind_at?_cons]
      cases turn with
      | item index => rw [field?_alter_item]
      | field name =>
        by_cases hn : name = first
        · subst hn
          by_cases hr : ∀ value ∈ old, value.isRecord
          · rw [field?_alter_self change hr, ih h.tail]
          · obtain ⟨value, rfl, hv⟩ : ∃ value, old = some value ∧ ¬ value.isRecord := by
              simpa using hr
            rw [alter_of_not_record change (Bool.eq_false_iff.mpr hv)]
        · rw [field?_alter_of_ne change hn]

/-- An edit below what lies at a path is an edit of what lies there. -/
theorem at?_alter_below {names : List String} {value found : Value}
    (hv : value.at? names = some found) (rest : List Turn) :
    (alter change (turns names ++ rest) (some value)).bind (·.at? names) =
      alter change rest (some found) := by
  induction names generalizing value with
  | nil =>
    obtain rfl : value = found := Option.some.inj hv
    exact Option.bind_fun_some _
  | cons name names ih =>
    obtain ⟨inner, hi, hr⟩ := Option.bind_eq_some_iff.mp hv
    have hrecord : ∀ other ∈ some value, other.isRecord := by
      rintro _ ⟨⟩
      cases value with
      | record table => rfl
      | _ => cases hi
    show (alter change (.field name :: (turns names ++ rest)) (some value)).bind _ = _
    rw [bind_at?_cons, field?_alter_self change hrecord, Option.bind_some, hi]
    exact ih hr

/-! ## Edits that a field set hides -/

/-- What is left of a place goes on, from a record or an item of a list, with a field
that is not in a field set. -/
def Hides (fields : Names) : List Turn → Prop
  | .field name :: _ => name ∉ fields.toList
  | .item _ :: .field name :: _ => name ∉ fields.toList
  | _ => False

instance (fields : Names) : (rest : List Turn) → Decidable (Hides fields rest)
  | .field _ :: _ => inferInstanceAs (Decidable (_ ∉ _))
  | .item _ :: .field _ :: _ => inferInstanceAs (Decidable (_ ∉ _))
  | [] | [.item _] | .item _ :: .item _ :: _ => .isFalse id

theorem Hides.cases {fields : Names} {rest : List Turn} (h : Hides fields rest) :
    (∃ name below, rest = .field name :: below ∧ name ∉ fields.toList) ∨
      ∃ index name below, rest = .item index :: .field name :: below ∧ name ∉ fields.toList := by
  unfold Hides at h
  split at h
  · exact .inl ⟨_, _, rfl, h⟩
  · exact .inr ⟨_, _, _, rfl, h⟩
  · exact h.elim

theorem project_congr {table other : List (String × Value)} {names : List String}
    (h : ∀ name ∈ names, Table.get? table name = Table.get? other name) :
    project table names = project other names := by
  induction names using List.reverseRecOn with
  | nil => rfl
  | append_singleton names last ih =>
    have hlast := h last (List.mem_append_right _ List.mem_cons_self)
    rw [project_concat, project_concat, hlast,
      ih fun name hm => h name (List.mem_append_left _ hm)]

theorem restrictRecord_alter {fields : Names} {name : String} (h : name ∉ fields.toList)
    (table : List (String × Value)) :
    (record (Table.alter table name change)).restrictRecord fields =
      (record table).restrictRecord fields := by
  refine congrArg Value.record (project_congr fun other hm => ?_)
  rw [Table.get?_alter, if_neg fun (he : name = other) => h (he ▸ hm)]

/-- A record of a list, or what else is in its place, is not changed by an edit that
the field set hides. -/
theorem restrictRecord_alter_item {fields : Names} {name : String} (h : name ∉ fields.toList)
    (rest : List Turn) (value : Value) :
    ∃ edited, alter change (.field name :: rest) (some value) = some edited ∧
      edited.restrictRecord fields = value.restrictRecord fields := by
  cases value with
  | record table => exact ⟨_, rfl, restrictRecord_alter _ h table⟩
  | _ => exact ⟨_, rfl, rfl⟩

theorem set_of_getElem? {α : Type} {xs : List α} {i : Nat} {x : α} (h : xs[i]? = some x) :
    xs.set i x = xs := by
  obtain ⟨hlt, rfl⟩ := List.getElem?_eq_some_iff.mp h
  exact List.set_getElem_self hlt

/-- Restricted to a field set, a value is not changed by an edit that the field set
hides. -/
theorem restrict_alter {fields : Names} {rest : List Turn} (h : Hides fields rest) (value : Value) :
    ∃ edited, alter change rest (some value) = some edited ∧
      edited.restrict (some fields) = value.restrict (some fields) := by
  obtain ⟨name, below, rfl, hn⟩ | ⟨index, name, below, rfl, hn⟩ := h.cases
  · cases value with
    | record table => exact ⟨_, rfl, restrictRecord_alter _ hn table⟩
    | _ => exact ⟨_, rfl, rfl⟩
  · cases value with
    | list items =>
      rw [alter]
      cases hi : items[index]? with
      | none =>
        have hle : items.length ≤ index := List.getElem?_eq_none_iff.mp hi
        split
        · exact ⟨_, rfl, by rw [List.set_eq_of_length_le hle]⟩
        · exact ⟨_, rfl, by rw [List.eraseIdx_of_length_le hle]⟩
      | some item =>
        obtain ⟨edited, he, hr⟩ := restrictRecord_alter_item change hn below item
        rw [he]
        refine ⟨_, rfl, congrArg Value.list ?_⟩
        show (items.set index edited).map _ = items.map _
        rw [List.map_set, hr]
        exact set_of_getElem? (by rw [List.getElem?_map, hi]; rfl)
    | _ => exact ⟨_, rfl, rfl⟩

end Value

/-! ## Paths that cannot tell -/

namespace UsePath

/-- A place lies in a record that a path leads to, or in one of a list of records
there, and goes on with a field outside the field set of the path. -/
def Hides (path : UsePath) (names : List String) (data : Value) (place : List Turn) : Prop :=
  ∃ fields rest, path.fields = some fields ∧ (data.at? names).isSome ∧
    place = Value.turns names ++ rest ∧ Value.Hides fields rest

/-- A path with its concrete names cannot tell what lies at a place. -/
def Blind (path : UsePath) (names : List String) (data : Value) (place : List Turn) : Prop :=
  Value.Apart names place ∨ path.Hides names data place

end UsePath

section Edit

variable {change : Option Value → Option Value} {place : List Turn} {data edited : Value}

theorem UsePath.Blind.restrict_at? {path : UsePath} {names : List String}
    (h : path.Blind names data place) (he : Value.alter change place (some data) = some edited) :
    (edited.at? names).map (·.restrict path.fields) =
      (data.at? names).map (·.restrict path.fields) := by
  obtain hapart | ⟨fields, rest, hf, hsome, rfl, hrest⟩ := h
  · have hat := Value.at?_alter_of_apart change hapart (some data)
    rw [he] at hat
    exact congrArg (Option.map _) hat
  · obtain ⟨found, hfound⟩ := Option.isSome_iff_exists.mp hsome
    obtain ⟨after, hafter, hr⟩ := Value.restrict_alter change hrest found
    have hat := Value.at?_alter_below change hfound rest
    rw [he, hafter, Option.bind_some] at hat
    rw [hat, hfound, hf, Option.map_some, Option.map_some, hr]

namespace Context

theorem locate?_eq {path : UsePath} {choice : Choice} {names : List String}
    (hn : path.concrete? choice = some names) (data : Value) (declaration : Nat) :
    locate? data choice path declaration =
      ((data.at? names).map (·.restrict path.fields)).map fun value =>
        (names, ⟨value, declaration⟩) := by
  rw [locate?, hn, Option.bind_eq_bind, Option.bind_some, Option.map_map]
  cases data.at? names <;> rfl

theorem bindingFor_alter {paths : List UsePath} {choice : Choice}
    (he : Value.alter change place (some data) = some edited)
    (h : ∀ path ∈ paths, ∃ names, path.concrete? choice = some names ∧
      path.Blind names data place) :
    bindingFor paths edited choice = bindingFor paths data choice := by
  rw [bindingFor_eq, bindingFor_eq]
  refine List.foldl_ext _ _ _ fun binding placed hm => ?_
  obtain ⟨path, declaration⟩ := placed
  obtain ⟨names, hn, hblind⟩ := h path (List.fst_mem_of_mem_zipIdx hm)
  show declare _ _ _ _ _ = declare _ _ _ _ _
  rw [declare, declare, locate?_eq hn, locate?_eq hn, hblind.restrict_at? he]

end Context

namespace Program

/-- The declared paths with the names that they take, over all choices on the axes. -/
def concretePaths (program : Program) : List (UsePath × List String) :=
  program.keys.flatMap fun key => program.paths.filterMap fun path =>
    (path.concrete? (program.choiceOf key)).map fun names => (path, names)

theorem mem_concretePaths {program : Program} {path : UsePath} {names : List String} :
    (path, names) ∈ program.concretePaths ↔ path ∈ program.paths ∧
      ∃ key ∈ program.keys, path.concrete? (program.choiceOf key) = some names := by
  simp only [concretePaths, List.mem_flatMap, List.mem_filterMap, Option.map_eq_some_iff]
  constructor
  · rintro ⟨key, hk, path, hp, names, hn, ⟨⟩⟩
    exact ⟨hp, key, hk, hn⟩
  · rintro ⟨hp, key, hk, hn⟩
    exact ⟨key, hk, path, hp, names, hn, rfl⟩

theorem exists_concretePath {program : Program} {path : UsePath} {key : List String}
    (hp : path ∈ program.paths) (hk : key ∈ program.keys) :
    ∃ names, path.concrete? (program.choiceOf key) = some names ∧
      names.length = path.segments.length ∧ (path, names) ∈ program.concretePaths := by
  obtain ⟨names, hn, htakes⟩ := UsePath.exists_concrete? (Context.length_of_mem_keys hk)
    (Context.axes_subset hp)
  exact ⟨names, hn, htakes.1, mem_concretePaths.mpr ⟨hp, key, hk, hn⟩⟩

theorem length_of_mem_concretePaths {program : Program} {path : UsePath} {names : List String}
    (h : (path, names) ∈ program.concretePaths) : names.length = path.segments.length := by
  obtain ⟨hp, key, hk, hn⟩ := mem_concretePaths.mp h
  obtain ⟨others, ho, hl, -⟩ := exists_concretePath hp hk
  rw [hn] at ho
  cases ho
  exact hl

variable {program : Program}

/-- An edit that no declared path can tell leaves the context as it is. -/
theorem resolve_alter (he : Value.alter change place (some data) = some edited)
    (h : ∀ path names, (path, names) ∈ program.concretePaths → path.Blind names data place) :
    Context.resolve program.paths edited = Context.resolve program.paths data := by
  have hleaves : program.keys.map (program.leafOf edited) =
      program.keys.map (program.leafOf data) := by
    refine List.map_congr_left fun key hk => congrArg (Leaf.mk key) ?_
    refine Context.bindingFor_alter he fun path hp => ?_
    obtain ⟨names, hn, -, hm⟩ := exists_concretePath hp hk
    exact ⟨names, hn, h path names hm⟩
  rw [resolve_eq, resolve_eq, hleaves]

theorem run_alter (he : Value.alter change place (some data) = some edited)
    (h : ∀ path names, (path, names) ∈ program.concretePaths → path.Blind names data place) :
    program.run edited = program.run data := by
  simp only [run, resolve_alter he h]

/-- A path hides a place from itself under every choice: with other names on its axes
it leads to somewhere apart from the place. -/
theorem blind_of_hides {path : UsePath} {names others : List String}
    (hm : (path, names) ∈ program.concretePaths) (ho : (path, others) ∈ program.concretePaths)
    (h : path.Hides names data place) : path.Blind others data place := by
  have hl : others.length = names.length := by
    rw [length_of_mem_concretePaths ho, length_of_mem_concretePaths hm]
  by_cases hne : others = names
  · exact .inr (hne ▸ h)
  · obtain ⟨fields, rest, -, -, rfl, -⟩ := h
    refine .inl ⟨fun ⟨last, heq⟩ => hne (Value.turns_append_inj heq hl), fun ⟨last, heq⟩ => ?_⟩
    rw [List.append_assoc, ← List.append_nil (Value.turns others)] at heq
    exact hne (Value.turns_append_inj heq hl.symm).symm

/-- An edit leaves the outcome of a program as it is, first, if every declared path
parts from the place of the edit before either ends, whatever is chosen on the axes;
and second, if the place goes on from a record that a path leads to, or from one of a
list of records there, with a field outside the field set of the path, and no other
path can tell it. -/
theorem run_edited (program : Program) {change : Option Value → Option Value}
    {place : List Turn} {data edited : Value}
    (he : Value.alter change place (some data) = some edited) :
    ((∀ path names, (path, names) ∈ program.concretePaths → Value.Apart names place) →
      program.run edited = program.run data) ∧
    ∀ path names, (path, names) ∈ program.concretePaths → path.Hides names data place →
      (∀ other others, (other, others) ∈ program.concretePaths → other ≠ path →
        other.Blind others data place) →
      program.run edited = program.run data := by
  refine ⟨fun h => run_alter he fun path names hm => .inl (h path names hm), ?_⟩
  intro path names hm hh hothers
  refine run_alter he fun other others ho => ?_
  by_cases heq : other = path
  · subst heq
    exact blind_of_hides hm ho hh
  · exact hothers other others ho heq

end Program

end Edit

namespace Program

/-- The items that a shop stocks at either place, and what they cost there. -/
def stock : UsePath :=
  ⟨⟨"shop", []⟩, [⟨"north", ["south"]⟩], some ⟨"item", ["price"]⟩⟩

def stockedItems : Program :=
  ⟨[stock, ⟨⟨"rate", []⟩, [], none⟩],
    [⟨"q", [⟨none, .select ⟨.named ⟨"item", []⟩, none, false⟩⟩]⟩]⟩

/-- A shop with a name for its owner and a note on the first item in the north. -/
def shopWith (owner : Value) (first : List (String × Value)) : Value :=
  .record [("shop", .record [("north", .list [.record (("item", .text "tea") :: first)]),
    ("south", .record [("item", .text "jam"), ("price", .int 3)])]),
    ("rate", .int 2), ("owner", .record [("name", owner)])]

theorem run_edited_shop :
    let shop := shopWith (.text "Ada") [("price", .int 2), ("note", .text "old")]
    let name : List Turn := [.field "owner", .field "name"]
    let note : List Turn := [.field "shop", .field "north", .item 0, .field "note"]
    Value.alter (fun _ => some .null) name (some shop) =
        some (shopWith .null [("price", .int 2), ("note", .text "old")]) ∧
      Value.alter (fun _ => none) note (some shop) =
        some (shopWith (.text "Ada") [("price", .int 2)]) ∧
      (∀ path names, (path, names) ∈ stockedItems.concretePaths → Value.Apart names name) ∧
      (stock, ["shop", "north"]) ∈ stockedItems.concretePaths ∧
      stock.Hides ["shop", "north"] shop note ∧
      (∀ other others, (other, others) ∈ stockedItems.concretePaths → other ≠ stock →
        other.Blind others shop note) ∧
      stockedItems.run (shopWith .null [("price", .int 2), ("note", .text "old")]) =
        stockedItems.run shop ∧
      stockedItems.run (shopWith (.text "Ada") [("price", .int 2)]) = stockedItems.run shop := by
  intro shop name note
  have happart : ∀ lead ∈ stockedItems.concretePaths, Value.Apart lead.2 name := by decide
  have hothers : ∀ lead ∈ stockedItems.concretePaths, lead.1 ≠ stock →
      Value.Apart lead.2 note := by decide
  have hm : (stock, ["shop", "north"]) ∈ stockedItems.concretePaths := by decide
  have hhides : stock.Hides ["shop", "north"] shop note :=
    ⟨⟨"item", ["price"]⟩, [.item 0, .field "note"], rfl, rfl, rfl, by decide⟩
  have hblind : ∀ other others, (other, others) ∈ stockedItems.concretePaths → other ≠ stock →
      other.Blind others shop note := fun other others ho hne =>
    .inl (hothers (other, others) ho hne)
  refine ⟨rfl, rfl, fun path names => happart (path, names), hm, hhides, hblind, ?_, ?_⟩
  · exact (@run_edited stockedItems (fun _ => some .null) name shop _ rfl).1
      fun path names => happart (path, names)
  · exact (@run_edited stockedItems (fun _ => none) note shop _ rfl).2
      stock ["shop", "north"] hm hhides hblind

end Program

end RecordQuery
