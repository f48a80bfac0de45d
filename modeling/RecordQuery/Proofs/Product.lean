/-
A program with axes is a bundle of programs without.

A key of the product has a name on every axis, among the alternatives there
(`Context.IsKey`).  Keys come in the order of the alternatives, the first axis on
which they differ deciding (`Context.Precedes`).  A run goes through all keys in this
order, and what it says under a key is what the program says in which the names of the
key stand in the place of the axes (`Program.run_expands`).

Where an axis repeats a name, some keys come more than once in a run.  They count from
where they first come, so the order looks for the first place of a name.
-/
import RecordQuery.Proofs.Attempts
import RecordQuery.Proofs.Context.Axes

namespace RecordQuery
namespace Context

/-- A name on every axis, among its alternatives. -/
def IsKey (axes : List Axis) (key : List String) : Prop :=
  List.Forall₂ (fun axis name => name ∈ axis.alternatives.toList) axes key

/-- One key before another: on the first axis where they differ, its name comes before
that of the other. -/
inductive Precedes : List Axis → List String → List String → Prop
  | here {axis : Axis} {axes : List Axis} {name other : String} {key others : List String} :
      axis.alternatives.toList.idxOf name < axis.alternatives.toList.idxOf other →
      Precedes (axis :: axes) (name :: key) (other :: others)
  | later {axis : Axis} {axes : List Axis} {name : String} {key others : List String} :
      Precedes axes key others → Precedes (axis :: axes) (name :: key) (name :: others)

theorem mem_keys {axes : List Axis} {key : List String} : key ∈ keys axes ↔ IsKey axes key := by
  unfold IsKey
  induction axes generalizing key with
  | nil => rw [keys, List.mem_singleton, List.forall₂_nil_left_iff]
  | cons axis rest ih =>
    simp only [keys, List.mem_flatMap, List.mem_map, ih, List.forall₂_cons_left_iff]
    constructor
    · rintro ⟨name, hn, others, ho, rfl⟩
      exact ⟨name, others, hn, ho, rfl⟩
    · rintro ⟨name, others, hn, ho, rfl⟩
      exact ⟨name, hn, others, ho, rfl⟩

/-- Of two keys one precedes the other. -/
theorem IsKey.precedes_or {axes : List Axis} {key other : List String} (hk : IsKey axes key)
    (ho : IsKey axes other) : other = key ∨ Precedes axes key other ∨ Precedes axes other key := by
  induction hk generalizing other with
  | nil => exact .inl (List.forall₂_nil_left_iff.mp ho)
  | @cons axis name axes key hn _ ih =>
    obtain ⟨name', others, -, hothers, rfl⟩ := List.forall₂_cons_left_iff.mp ho
    rcases Nat.lt_trichotomy (axis.alternatives.toList.idxOf name)
      (axis.alternatives.toList.idxOf name') with hlt | heq | hgt
    · exact .inr (.inl (.here hlt))
    · obtain rfl : name = name' := (List.idxOf_inj hn).mp heq
      rcases ih hothers with rfl | h | h
      · exact .inl rfl
      · exact .inr (.inl (.later h))
      · exact .inr (.inr (.later h))
    · exact .inr (.inr (.here hgt))

end Context

/-- A name that comes before another in a list stands before any place of the other. -/
theorem mem_of_idxOf_lt {names before after : List String} {name other : String}
    (hs : names = before ++ other :: after) (h : names.idxOf name < names.idxOf other) :
    name ∈ before := by
  by_contra hn
  have hname : before.length ≤ names.idxOf name := by
    rw [hs, List.idxOf_append_of_notMem hn]
    exact Nat.le_add_right _ _
  have hother : names.idxOf other ≤ before.length := by
    by_cases ho : other ∈ before
    · rw [hs, List.idxOf_append_of_mem ho]
      exact Nat.le_of_lt (List.idxOf_lt_length_of_mem ho)
    · rw [hs, List.idxOf_append_of_notMem ho, List.idxOf_cons_self]
      exact Nat.le_refl _
  omega

/-- A place in a list made of blocks is a place in one of them. -/
theorem split_of_flatMap {α β : Type} {f : α → List β} {xs : List α} {before after : List β} {b : β}
    (h : xs.flatMap f = before ++ b :: after) :
    ∃ front x back before' after', xs = front ++ x :: back ∧ f x = before' ++ b :: after' ∧
      before = front.flatMap f ++ before' := by
  induction xs generalizing before with
  | nil => simp at h
  | cons x rest ih =>
    rw [List.flatMap_cons] at h
    obtain ⟨more, hb, hr⟩ | ⟨more, hx, ha⟩ := List.append_eq_append_iff.mp h
    · obtain ⟨front, y, back, before', after', rfl, hy, rfl⟩ := ih hr
      exact ⟨x :: front, y, back, before', after', rfl, hy,
        by rw [hb, List.flatMap_cons, List.append_assoc]⟩
    · cases more with
      | nil =>
        have hrest : rest.flatMap f = [] ++ b :: after := ha.symm
        obtain ⟨front, y, back, before', after', rfl, hy, hnil⟩ := ih hrest
        refine ⟨x :: front, y, back, before', after', rfl, hy, ?_⟩
        rw [List.flatMap_cons, List.append_assoc, ← hnil, hx]
        simp
      | cons first more =>
        obtain ⟨rfl, -⟩ := List.cons.inj ha
        exact ⟨[], x, rest, before, more, rfl, hx, rfl⟩

namespace Context

/-- A key stands in the enumeration before any place of a key that it precedes. -/
theorem Precedes.mem_before {axes : List Axis} {earlier key : List String}
    (h : Precedes axes earlier key) (he : IsKey axes earlier) {before after : List (List String)}
    (hs : keys axes = before ++ key :: after) : earlier ∈ before := by
  induction h generalizing before after with
  | @here axis axes name other names others hlt =>
    obtain ⟨hn, hnames⟩ := List.forall₂_cons.mp he
    obtain ⟨front, x, back, before', after', hfront, hx, rfl⟩ := split_of_flatMap hs
    obtain rfl : x = other := by
      obtain ⟨_, -, heq⟩ := List.mem_map.mp (hx ▸ List.mem_append_right _ List.mem_cons_self)
      exact (List.cons.inj heq).1
    refine List.mem_append_left _ (List.mem_flatMap.mpr ⟨name, mem_of_idxOf_lt hfront hlt, ?_⟩)
    exact List.mem_map_of_mem (mem_keys.mpr hnames)
  | @later axis axes name names others _ ih =>
    obtain ⟨-, hnames⟩ := List.forall₂_cons.mp he
    obtain ⟨front, x, back, before', after', hfront, hx, rfl⟩ := split_of_flatMap hs
    obtain ⟨tail, rest, hrest, rfl, hmap⟩ := List.map_eq_append_iff.mp hx
    obtain ⟨last, rest, rfl, heq, rfl⟩ := List.map_eq_cons_iff.mp hmap
    obtain ⟨rfl, rfl⟩ := List.cons.inj heq
    exact List.mem_append_right _ (List.mem_map_of_mem (ih hnames hrest))

end Context

namespace Program

open Context

theorem mem_keys {program : Program} {key : List String} :
    key ∈ program.keys ↔ IsKey (axesOf program.paths) key := Context.mem_keys

/-- Under each key the results of a run have what the program of the key says. -/
theorem run_keys {program : Program} {data : Value} {results : Table Value}
    (h : program.run data = .ok results) {key : List String}
    (hkey : IsKey (axesOf program.paths) key) :
    ∃ own, (program.choose key).run data = .ok own ∧
      ∀ block ∈ program.blocks, ∃ value, own.get? block.name = some value ∧
        (results.get? block.name).bind (·.at? key) = some value := by
  have hk := mem_keys.mpr hkey
  rw [run_eq] at h
  obtain ⟨leaves, hleaves, rfl⟩ := map_eq_ok.mp h
  obtain ⟨values, hv, rfl⟩ := values_of_mapM hleaves
  refine ⟨_, run_choose_ok hk (hv key hk), fun block hb => ?_⟩
  have hname : block.name ∈ program.blockNames :=
    List.mem_eraseDups.mpr (List.mem_map_of_mem hb)
  refine ⟨_, by rw [Table.get?_tabulate, if_pos hname], ?_⟩
  rw [Table.get?_tabulate, if_pos hname, Option.bind_some, at?_assemble values _ hk]

/-- A run that fails does so as the program of a key, before which no other one fails. -/
theorem run_stops {program : Program} {data : Value} {fault : Fault}
    (h : program.run data = .error fault) :
    ∃ key, IsKey (axesOf program.paths) key ∧ (program.choose key).run data = .error fault ∧
      ∀ other, IsKey (axesOf program.paths) other →
        ∀ reason, (program.choose other).run data = .error reason →
          other = key ∨ Precedes (axesOf program.paths) key other := by
  rw [run_eq] at h
  obtain ⟨before, key, after, hkeys, hbefore, hfault⟩ := split_of_mapM_error (map_eq_error.mp h)
  have hk : key ∈ program.keys := by simp [hkeys]
  refine ⟨key, mem_keys.mp hk, ?_, fun other ho reason hr => ?_⟩
  · rw [run_choose hk, map_eq_error]
    exact map_eq_error.mp hfault
  · rcases (mem_keys.mp hk).precedes_or ho with heq | hlater | hearlier
    · exact .inl heq
    · exact .inr hlater
    · obtain ⟨pair, hp⟩ := hbefore other (hearlier.mem_before ho hkeys)
      obtain ⟨values, hv, -⟩ := map_eq_ok.mp hp
      rw [run_choose_ok (mem_keys.mpr ho) hv] at hr
      cases hr

/-- A program with axes succeeds if and only if its programs without axes do, one for each
key.  What it then says of a block lies, under each key, where the program of that key has
it; and if it fails, it fails as the first of these programs that does.  The programs
without axes share nothing, so no leaf of a run sees the variables of another. -/
theorem run_expands (program : Program) (data : Value) :
    DeclaredAxes program.paths (axesOf program.paths) ∧
    ((∃ results, program.run data = .ok results) ↔
      ∀ key, IsKey (axesOf program.paths) key →
        ∃ own, (program.choose key).run data = .ok own) ∧
    (∀ results, program.run data = .ok results →
      ∀ key, IsKey (axesOf program.paths) key →
        ∀ own, (program.choose key).run data = .ok own →
          ∀ block ∈ program.blocks, ∃ value, own.get? block.name = some value ∧
            (results.get? block.name).bind (·.at? key) = some value) ∧
    (∀ fault, program.run data = .error fault →
      ∃ key, IsKey (axesOf program.paths) key ∧ (program.choose key).run data = .error fault ∧
        ∀ other, IsKey (axesOf program.paths) other →
          ∀ reason, (program.choose other).run data = .error reason →
            other = key ∨ Precedes (axesOf program.paths) key other) := by
  refine ⟨declaredAxes_axesOf program.paths, ⟨?_, fun hall => ?_⟩, ?_, fun fault => run_stops⟩
  · rintro ⟨results, h⟩ key hkey
    obtain ⟨own, hown, -⟩ := run_keys h hkey
    exact ⟨own, hown⟩
  · cases hrun : program.run data with
    | ok results => exact ⟨results, rfl⟩
    | error fault =>
      obtain ⟨key, hkey, hfault, -⟩ := run_stops hrun
      obtain ⟨own, hown⟩ := hall key hkey
      cases hown.symm.trans hfault
  · intro results h key hkey own hown
    obtain ⟨_, hown', hblocks⟩ := run_keys h hkey
    cases hown.symm.trans hown'
    exact hblocks

end Program
end RecordQuery
