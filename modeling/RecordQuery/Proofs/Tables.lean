/-
What stands in a table.

Where no name comes twice, a table is known by the values under its names: a name has the
value that stands beside it (`Table.get?_eq_some_iff`), and two tables have the same
pairs, in whatever order, if and only if they have the same names and under each name the
same value (`Table.perm_iff_matches`).  A table that is made by putting values under names
is of this kind (`Table.nodup_ofPairs`).
-/
import Mathlib.Data.List.Nodup
import Mathlib.Data.List.Perm.Subperm
import RecordQuery.Table

namespace RecordQuery
namespace Table

variable {α β : Type} {table other : Table α} {name : String} {value : α}

/-! ## Looking up and putting -/

theorem mem_of_get? (h : table.get? name = some value) : (name, value) ∈ table := by
  induction table with
  | nil => cases h
  | cons pair rest ih =>
    obtain ⟨key, old⟩ := pair
    rw [get?_cons] at h
    split at h
    · next hk =>
      cases h
      exact hk ▸ List.mem_cons_self
    · exact List.mem_cons_of_mem _ (ih h)

theorem mem_put {pair : String × α} (h : pair ∈ table.put name value) :
    pair ∈ table ∨ pair.2 = value := by
  induction table with
  | nil => exact .inr (congrArg Prod.snd (List.mem_singleton.mp h))
  | cons first rest ih =>
    obtain ⟨key, old⟩ := first
    unfold put at h
    split at h
    · rcases List.mem_cons.mp h with rfl | hm
      · exact .inr rfl
      · exact .inl (List.mem_cons_of_mem _ hm)
    · rcases List.mem_cons.mp h with rfl | hm
      · exact .inl List.mem_cons_self
      · exact (ih hm).imp_left (List.mem_cons_of_mem _)

/-- Where no name comes twice, a name has the value that stands beside it. -/
theorem get?_eq_some_iff (h : table.names.Nodup) {name : String} {value : α} :
    table.get? name = some value ↔ (name, value) ∈ table := by
  refine ⟨mem_of_get?, fun hm => ?_⟩
  induction table with
  | nil => cases hm
  | cons pair rest ih =>
    obtain ⟨key, old⟩ := pair
    obtain ⟨hkey, hrest⟩ := List.nodup_cons.mp h
    rw [get?_cons]
    rcases List.mem_cons.mp hm with heq | hm
    · cases heq
      exact if_pos rfl
    · have hne : key ≠ name := by
        rintro rfl
        exact hkey (List.mem_map.mpr ⟨_, hm, rfl⟩)
      rw [if_neg hne]
      exact ih hrest hm

theorem get?_perm (h : table.names.Nodup) (ho : other.Perm table) (name : String) :
    other.get? name = table.get? name := by
  have hother : other.names.Nodup := (ho.map Prod.fst).nodup_iff.mpr h
  refine Option.ext fun value => ?_
  rw [get?_eq_some_iff hother, get?_eq_some_iff h, ho.mem_iff]

/-! ## Tables in which no name comes twice -/

theorem nodup_put (h : table.names.Nodup) (name : String) (value : α) :
    (table.put name value).names.Nodup := by
  rw [names_put]
  split
  · exact h
  · next hm => exact List.concat_eq_append ▸ h.concat hm

/-- A table made of pairs has no name twice, and its values are among those of the pairs. -/
theorem nodup_ofPairs (pairs : List (String × α)) :
    (ofPairs pairs).names.Nodup ∧ ∀ pair ∈ ofPairs pairs, ∃ given ∈ pairs, given.2 = pair.2 := by
  unfold ofPairs
  suffices ∀ table : Table α, table.names.Nodup → ∀ made,
      made = pairs.foldl (fun table pair => table.put pair.1 pair.2) table →
      made.names.Nodup ∧
        ∀ pair ∈ made, pair ∈ table ∨ ∃ given ∈ pairs, given.2 = pair.2 from by
    obtain ⟨hnodup, hmem⟩ := this [] List.nodup_nil _ rfl
    exact ⟨hnodup, fun pair hm => (hmem pair hm).resolve_left List.not_mem_nil⟩
  induction pairs with
  | nil =>
    intro table h made hmade
    subst hmade
    exact ⟨h, fun pair hm => .inl hm⟩
  | cons first rest ih =>
    intro table h made hmade
    obtain ⟨hnodup, hmem⟩ := ih _ (nodup_put h first.1 first.2) made hmade
    refine ⟨hnodup, fun pair hm => ?_⟩
    rcases hmem pair hm with hput | ⟨given, hgiven, heq⟩
    · exact (mem_put hput).imp_right fun heq => ⟨first, List.mem_cons_self, heq.symm⟩
    · exact .inr ⟨given, List.mem_cons_of_mem _ hgiven, heq⟩

theorem names_map (f : α → β) (table : Table α) :
    names (table.map fun pair => (pair.1, f pair.2)) = table.names := by
  simp [names]

/-- That two tables have the same names, in whatever order, and values that are so related
under each name. -/
structure Matches (r : α → β → Prop) (table : Table α) (other : Table β) : Prop where
  names : table.names.Perm other.names
  values : ∀ {one two}, one ∈ table → two ∈ other → one.1 = two.1 → r one.2 two.2

namespace Matches

variable {r q : α → β → Prop} {table : Table α} {other : Table β}

theorem swap (h : Matches r table other) : Matches (fun two one => r one two) other table :=
  ⟨h.names.symm, fun htwo hone heq => h.values hone htwo heq.symm⟩

theorem imp (h : ∀ one ∈ table, ∀ two ∈ other, r one.2 two.2 → q one.2 two.2)
    (hm : Matches r table other) : Matches q table other :=
  ⟨hm.names, fun hone htwo heq => h _ hone _ htwo (hm.values hone htwo heq)⟩

theorem congr (h : ∀ one ∈ table, ∀ two ∈ other, r one.2 two.2 ↔ q one.2 two.2) :
    Matches r table other ↔ Matches q table other :=
  ⟨imp fun one hone two htwo => (h one hone two htwo).mp,
    imp fun one hone two htwo => (h one hone two htwo).mpr⟩

/-- Values that are related once they are mapped are so by the relation that maps them. -/
theorem map_iff {γ δ : Type} {f : γ → α} {g : δ → β} {table : Table γ} {other : Table δ} :
    Matches r (table.map fun pair => (pair.1, f pair.2))
        (other.map fun pair => (pair.1, g pair.2)) ↔
      Matches (fun a b => r (f a) (g b)) table other := by
  constructor
  · intro hm
    refine ⟨by simpa only [names_map] using hm.names, fun hone htwo heq => ?_⟩
    exact hm.values (List.mem_map_of_mem hone) (List.mem_map_of_mem htwo) heq
  · intro hm
    refine ⟨by simpa only [names_map] using hm.names, fun hone htwo heq => ?_⟩
    obtain ⟨_, hleft, rfl⟩ := List.mem_map.mp hone
    obtain ⟨_, hright, rfl⟩ := List.mem_map.mp htwo
    exact hm.values hleft hright heq

end Matches

/-- Names without repetition, each found again in a table as long, are its names. -/
theorem names_perm {table : Table α} {other : Table β} (h : table.names.Nodup)
    (hs : table.names ⊆ other.names) (hl : table.length = other.length) :
    table.names.Perm other.names := by
  refine (List.subperm_of_subset h hs).perm_of_length_le ?_
  simp only [Table.names, List.length_map, hl]
  exact Nat.le_refl _

/-- Tables in which no name comes twice have the same pairs if and only if they have the
same names and the same values under them. -/
theorem perm_iff_matches (h : table.names.Nodup) (ho : other.names.Nodup) :
    table.Perm other ↔ Matches (· = ·) table other := by
  constructor
  · intro hp
    refine ⟨hp.map Prod.fst, fun {one two} hone htwo heq => ?_⟩
    have hvalue : other.get? one.1 = some one.2 := (get?_eq_some_iff ho).mpr (hp.mem_iff.mp hone)
    rw [heq, (get?_eq_some_iff ho).mpr htwo] at hvalue
    exact (Option.some.inj hvalue).symm
  · intro hm
    have hnames := hm.names
    refine (List.perm_ext_iff_of_nodup (h.of_map Prod.fst) (ho.of_map Prod.fst)).mpr fun pair => ?_
    constructor
    · intro hp
      obtain ⟨two, htwo, heq⟩ := List.mem_map.mp (hnames.mem_iff.mp (List.mem_map_of_mem hp))
      rwa [Prod.ext heq.symm (hm.values hp htwo heq.symm)]
    · intro hp
      obtain ⟨one, hone, heq⟩ := List.mem_map.mp (hnames.mem_iff.mpr (List.mem_map_of_mem hp))
      rwa [← Prod.ext heq (hm.values hone hp heq)]

/-- Tables in which no name comes twice are the same in the order of their names if and only
if they have the same pairs. -/
theorem mergeSort_eq_iff_perm (h : table.names.Nodup) :
    (table.mergeSort fun one two => decide (one.1 ≤ two.1)) =
        (other.mergeSort fun one two => decide (one.1 ≤ two.1)) ↔ table.Perm other := by
  have hsorted (table : Table α) :
      (table.mergeSort fun one two => decide (one.1 ≤ two.1)).Pairwise
        fun one two => decide (one.1 ≤ two.1) := by
    apply List.pairwise_mergeSort
    · simpa using fun _ _ _ _ _ _ => String.le_trans
    · simpa using fun _ _ _ _ => String.le_total _ _
  constructor
  · intro heq
    have hp := List.mergeSort_perm table fun one two => decide (one.1 ≤ two.1)
    exact hp.symm.trans (heq ▸ List.mergeSort_perm other _)
  · intro hp
    refine List.Perm.eq_of_pairwise (fun one two hone htwo hle hge => ?_) (hsorted table)
      (hsorted other) ?_
    · have hone := (List.mergeSort_perm _ _).mem_iff.mp hone
      have htwo := hp.mem_iff.mpr ((List.mergeSort_perm _ _).mem_iff.mp htwo)
      exact List.inj_on_of_nodup_map h hone htwo
        (String.le_antisymm (of_decide_eq_true hle) (of_decide_eq_true hge))
    · exact (List.mergeSort_perm _ _).trans (hp.trans (List.mergeSort_perm _ _).symm)

end Table
end RecordQuery
