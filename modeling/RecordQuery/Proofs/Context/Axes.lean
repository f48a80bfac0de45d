/-
The axes of declared paths, and the choices on them.

A path branches on an axis when the segment at its position has two or more names
and they are the alternatives.  The axes of several paths are these, each once, in
the order in which they first appear (`declaredAxes_axesOf`).  The keys are
all choices of a name on every axis, numbered like the numerals of a mixed radix:
the number of a key tells the alternative on each axis, the last axis being the
digit that changes fastest (`getElem?_of_keys`).
-/
import RecordQuery.Proofs.Expansion
import RecordQuery.Proofs.FirstAppearance
import Mathlib.Algebra.BigOperators.Group.List.Basic

namespace RecordQuery

/-! ## Axes -/

namespace UsePath

/-- The path has a choice at the position of an axis, among its alternatives. -/
def Branches (path : UsePath) (axis : Axis) : Prop :=
  path.segments[axis.position]? = some axis.alternatives ∧ axis.alternatives.others ≠ []

/-- The axis that a segment at a position is, if it has two or more names. -/
def axisAt? (placed : Names × Nat) : Option Axis :=
  if placed.1.others.isEmpty then none else some ⟨placed.2, placed.1⟩

theorem axes_eq (path : UsePath) : path.axes = path.segments.zipIdx.filterMap axisAt? := rfl

theorem axisAt?_eq_some {placed : Names × Nat} {axis : Axis} :
    axisAt? placed = some axis ↔
      placed = (axis.alternatives, axis.position) ∧ axis.alternatives.others ≠ [] := by
  obtain ⟨segment, place⟩ := placed
  obtain ⟨position, alternatives⟩ := axis
  unfold axisAt?
  by_cases h : segment.others.isEmpty
  · rw [if_pos h]
    constructor
    · intro hn
      cases hn
    · rintro ⟨⟨⟩, hne⟩
      exact absurd (List.isEmpty_iff.mp h) hne
  · rw [if_neg h]
    constructor
    · rintro ⟨⟩
      exact ⟨rfl, fun he => h (List.isEmpty_iff.mpr he)⟩
    · rintro ⟨⟨⟩, -⟩
      rfl

theorem mem_axes {path : UsePath} {axis : Axis} : axis ∈ path.axes ↔ path.Branches axis := by
  rw [axes_eq, List.mem_filterMap]
  constructor
  · rintro ⟨placed, hm, h⟩
    obtain ⟨rfl, hne⟩ := axisAt?_eq_some.mp h
    exact ⟨List.mem_zipIdx_iff_getElem?.mp hm, hne⟩
  · rintro ⟨hs, hne⟩
    exact ⟨(axis.alternatives, axis.position), List.mem_zipIdx_iff_getElem?.mpr hs,
      axisAt?_eq_some.mpr ⟨rfl, hne⟩⟩

theorem axes_pairwise (path : UsePath) :
    path.axes.Pairwise fun a b => a.position < b.position := by
  have hplaces : path.segments.zipIdx.Pairwise fun a b => a.2 < b.2 := by
    rw [← List.pairwise_map, List.zipIdx_map_snd]
    exact List.pairwise_lt_range' 1
  rw [axes_eq, List.pairwise_filterMap]
  refine hplaces.imp fun {p q} hlt a ha b hb => ?_
  obtain ⟨rfl, -⟩ := axisAt?_eq_some.mp ha
  obtain ⟨rfl, -⟩ := axisAt?_eq_some.mp hb
  exact hlt

end UsePath

/-- A list that lacks a member and has it further on goes over into what stands
before the member. -/
theorem exists_of_append_eq {α : Type} {xs ys before after : List α} {a : α}
    (h : xs ++ ys = before ++ a :: after) (hx : a ∉ xs) :
    ∃ middle, before = xs ++ middle ∧ ys = middle ++ a :: after := by
  obtain ⟨middle, hb, hy⟩ | ⟨middle, rfl, hy⟩ := List.append_eq_append_iff.mp h
  · exact ⟨middle, hb, hy⟩
  · cases middle with
    | nil => exact ⟨[], by simp, hy.symm⟩
    | cons first middle =>
      obtain ⟨rfl, -⟩ := List.cons.inj hy
      exact absurd (List.mem_append_right before List.mem_cons_self) hx

namespace Context

theorem mem_axesOf {paths : List UsePath} {axis : Axis} :
    axis ∈ axesOf paths ↔ ∃ path ∈ paths, path.Branches axis := by
  simp only [axesOf, List.mem_eraseDups, List.mem_flatMap, UsePath.mem_axes]

/-- An axis listed before another appears before it: whenever a path branches on
the second, an earlier path branches on the first, or the same path does so at an
earlier position. -/
theorem axesOf_order (paths : List UsePath) :
    (axesOf paths).Pairwise fun a b => ∀ before path after, paths = before ++ path :: after →
      path.Branches b →
        (∃ earlier ∈ before, earlier.Branches a) ∨ path.Branches a ∧ a.position < b.position := by
  have hdistinct : (axesOf paths).Pairwise (· ≠ ·) := nodup_eraseDups _
  refine ((eraseDups_order (paths.flatMap UsePath.axes)).and hdistinct).imp fun {a b} h => ?_
  rintro before path after rfl hb
  obtain ⟨⟨front, back, hall, hfront⟩, hne⟩ := h
  by_cases ha : a ∈ before.flatMap UsePath.axes
  · obtain ⟨earlier, he, hae⟩ := List.mem_flatMap.mp ha
    exact .inl ⟨earlier, he, UsePath.mem_axes.mp hae⟩
  right
  rw [List.flatMap_append, List.flatMap_cons] at hall
  obtain ⟨middle, rfl, hmiddle⟩ := exists_of_append_eq hall ha
  have hb : b ∈ path.axes := UsePath.mem_axes.mpr hb
  have hbm : b ∉ middle := fun hm => hfront (List.mem_append_right _ hm)
  -- The axes of the path reach beyond what stands before `a`, since `b` is among them.
  obtain ⟨last, haxes⟩ : ∃ last, path.axes = middle ++ a :: last := by
    obtain ⟨rest, rfl, -⟩ | ⟨rest, haxes, hrest⟩ := List.append_eq_append_iff.mp hmiddle
    · exact absurd (List.mem_append_left rest hb) hbm
    · cases rest with
      | nil =>
        rw [haxes, List.append_nil] at hb
        exact absurd hb hbm
      | cons first rest =>
        obtain ⟨rfl, -⟩ := List.cons.inj hrest
        exact ⟨rest, haxes⟩
  have hplaces := path.axes_pairwise
  rw [haxes] at hb hplaces
  have hlast : b ∈ last := by
    rcases List.mem_append.mp hb with h | h
    · exact absurd h hbm
    · exact (List.mem_cons.mp h).resolve_left fun heq => hne heq.symm
  refine ⟨UsePath.mem_axes.mp (haxes ▸ List.mem_append_right _ List.mem_cons_self), ?_⟩
  exact List.rel_of_pairwise_cons (List.pairwise_append.mp hplaces).2.1 hlast

/-- That some axes are those of the paths: each on which one of these branches, once, in
the order in which they appear. -/
structure DeclaredAxes (paths : List UsePath) (axes : List Axis) : Prop where
  nodup : axes.Nodup
  mem_iff : ∀ axis, axis ∈ axes ↔ ∃ path ∈ paths, path.Branches axis
  order : axes.Pairwise fun a b => ∀ before path after, paths = before ++ path :: after →
    path.Branches b →
      (∃ earlier ∈ before, earlier.Branches a) ∨ path.Branches a ∧ a.position < b.position

theorem declaredAxes_axesOf (paths : List UsePath) : DeclaredAxes paths (axesOf paths) :=
  ⟨nodup_eraseDups _, fun _ => mem_axesOf, axesOf_order paths⟩

/-! ## Keys -/

/-- How many choices there are on several axes together. -/
def choices (axes : List Axis) : Nat :=
  (axes.map fun axis => axis.alternatives.toList.length).prod

theorem choices_cons (axis : Axis) (rest : List Axis) :
    choices (axis :: rest) = axis.alternatives.toList.length * choices rest := by
  rw [choices, List.map_cons, List.prod_cons]
  rfl

theorem choices_pos (axes : List Axis) : 0 < choices axes := by
  induction axes with
  | nil => exact Nat.one_pos
  | cons axis rest ih =>
    rw [choices_cons]
    exact Nat.mul_pos (Nat.succ_pos _) ih

theorem choices_drop_dvd (axes : List Axis) (j : Nat) : choices (axes.drop j) ∣ choices axes := by
  unfold choices
  rw [List.map_drop]
  exact ⟨_, (by rw [Nat.mul_comm, List.prod_take_mul_prod_drop])⟩

theorem length_keys (axes : List Axis) : (keys axes).length = choices axes := by
  induction axes with
  | nil => rfl
  | cons axis rest ih =>
    have hconst : ∀ name ∈ axis.alternatives.toList,
        ((keys rest).map (name :: ·)).length = choices rest := by
      intro name _
      rw [List.length_map, ih]
    rw [keys, List.length_flatMap, List.map_congr_left hconst, List.map_const',
      List.sum_replicate_nat, choices_cons]

end Context

/-- In a list made of blocks of one length, the quotient tells the block and the
remainder the place in it. -/
theorem getElem?_flatMap {α β : Type} {xs : List α} {f : α → List β} {n : Nat} (hn : 0 < n)
    (hf : ∀ x ∈ xs, (f x).length = n) (i : Nat) :
    (xs.flatMap f)[i]? = xs[i / n]?.bind fun x => (f x)[i % n]? := by
  induction xs generalizing i with
  | nil => simp
  | cons x rest ih =>
    have hx : (f x).length = n := hf x List.mem_cons_self
    have hrest := ih fun y hm => hf y (List.mem_cons_of_mem _ hm)
    rw [List.flatMap_cons]
    by_cases hi : i < n
    · rw [List.getElem?_append_left (by omega), Nat.div_eq_of_lt hi, Nat.mod_eq_of_lt hi]
      rfl
    · obtain ⟨k, rfl⟩ := Nat.exists_eq_add_of_le (Nat.le_of_not_lt hi)
      rw [List.getElem?_append_right (by omega), hx, Nat.add_sub_cancel_left, hrest,
        Nat.add_div_left k hn, Nat.add_mod_left]
      rfl

namespace Context

theorem getElem?_keys_cons (axis : Axis) (rest : List Axis) (i : Nat) :
    (keys (axis :: rest))[i]? = axis.alternatives.toList[i / choices rest]?.bind fun name =>
      (keys rest)[i % choices rest]?.map (name :: ·) := by
  have hconst : ∀ name ∈ axis.alternatives.toList,
      ((keys rest).map (name :: ·)).length = choices rest := by
    intro name _
    rw [List.length_map, length_keys]
  rw [keys, getElem?_flatMap (choices_pos rest) hconst]
  simp only [List.getElem?_map]

/-- The number of a key tells its name on every axis: there it is the digit whose
weight is the number of choices on the axes that follow. -/
theorem getElem?_of_keys {axes : List Axis} {i : Nat} {key : List String}
    (h : (keys axes)[i]? = some key) {j : Nat} {axis : Axis} (hj : axes[j]? = some axis) :
    key[j]? = axis.alternatives.toList[i / choices (axes.drop (j + 1)) %
      axis.alternatives.toList.length]? := by
  induction axes generalizing i j key with
  | nil => simp at hj
  | cons first rest ih =>
    rw [getElem?_keys_cons] at h
    obtain ⟨name, hname, h⟩ := Option.bind_eq_some_iff.mp h
    obtain ⟨tail, ht, rfl⟩ := Option.map_eq_some_iff.mp h
    cases j with
    | zero =>
      obtain rfl : first = axis := by simpa using hj
      have hlt : i / choices rest < first.alternatives.toList.length :=
        (List.getElem?_eq_some_iff.mp hname).1
      rw [List.drop_succ_cons, List.drop_zero, Nat.mod_eq_of_lt hlt, hname]
      rfl
    | succ j =>
      have hj : rest[j]? = some axis := by simpa using hj
      rw [List.getElem?_cons_succ, ih ht hj, List.drop_succ_cons]
      -- The weight and the size of a later axis divide what the first axis weighs.
      have hdvd : choices (rest.drop (j + 1)) * axis.alternatives.toList.length ∣ choices rest := by
        have hdrop : rest.drop j = axis :: rest.drop (j + 1) := by
          obtain ⟨hlt, heq⟩ := List.getElem?_eq_some_iff.mp hj
          rw [List.drop_eq_getElem_cons hlt, heq]
        have h := choices_drop_dvd rest j
        rwa [hdrop, choices_cons, Nat.mul_comm] at h
      rw [← Nat.mod_mul_right_div_self i, ← Nat.mod_mod_of_dvd i hdvd, Nat.mod_mul_right_div_self]

end Context
end RecordQuery
