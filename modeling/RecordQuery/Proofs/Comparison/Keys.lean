/-
Keys and what they tell apart.

The key of a list or record is its text with the fields of every record in the order of
their names.  Where the numbers within are integers that text belongs to one value only,
up to the order of fields (`Value.sorted_eq_iff`), and values that are so rearranged are
equal.  The key of a scalar is the scalar itself, and a number has the key of the place
where it lies.  So values with one key are equal, unless they are the one that is no number
(`Value.key_separates`), and when repetitions are dropped no value is lost that has no
equal among those that are left (`Aggregate.exists_equal_mem_distinct`).
-/
import RecordQuery.Proofs.Comparison.Symmetry
import RecordQuery.Proofs.Repetition
import RecordQuery.Proofs.Writing
import RecordQuery.Value.Key

namespace RecordQuery
namespace Value

/-! ## The order of fields -/

/-- That two values are one up to the order of fields, at every level. -/
inductive Rearranged : Value → Value → Prop
  | scalar {value : Value} : value.isScalar → Rearranged value value
  | list {items others : List Value} :
      List.Forall₂ Rearranged items others → Rearranged (.list items) (.list others)
  | record {fields others : List (String × Value)} :
      (Table.names fields).Perm (Table.names others) →
      (∀ {one two}, one ∈ fields → two ∈ others → one.1 = two.1 → Rearranged one.2 two.2) →
      Rearranged (.record fields) (.record others)

theorem rearranged_of_isScalar {a b : Value} (h : a.isScalar) : Rearranged a b ↔ a = b := by
  constructor
  · intro hr
    cases hr with
    | scalar => rfl
    | list | record => cases h
  · intro heq
    exact heq ▸ .scalar h

theorem rearranged_list {items others : List Value} :
    Rearranged (list items) (list others) ↔ List.Forall₂ Rearranged items others := by
  refine ⟨fun h => ?_, .list⟩
  cases h with
  | scalar h => cases h
  | list h => exact h

theorem rearranged_record {fields others : List (String × Value)} :
    Rearranged (record fields) (record others) ↔ Table.Matches Rearranged fields others := by
  refine ⟨fun h => ?_, fun h => .record h.names h.values⟩
  cases h with
  | scalar h => cases h
  | record hnames hvalues => exact ⟨hnames, hvalues⟩

/-! ## Values with their fields in order -/

theorem sorted_of_isScalar {value : Value} (h : value.isScalar) : value.sorted = value := by
  cases value with
  | list | record => cases h
  | _ => rfl

theorem isScalar_sorted (value : Value) : value.sorted.isScalar = value.isScalar := by
  cases value <;> rfl

theorem sorted_list (items : List Value) : (list items).sorted = list (items.map sorted) := by
  have hitems : sortedItems items = items.map sorted := by
    induction items with
    | nil => rfl
    | cons item rest ih => rw [sortedItems, ih, List.map_cons]
  rw [sorted, hitems]

theorem sorted_record (fields : List (String × Value)) :
    (record fields).sorted =
      record ((fields.map fun pair => (pair.1, pair.2.sorted)).mergeSort
        fun one two => decide (one.1 ≤ two.1)) := by
  have hfields : sortedFields fields = fields.map fun pair => (pair.1, pair.2.sorted) := by
    induction fields with
    | nil => rfl
    | cons pair rest ih =>
      obtain ⟨name, value⟩ := pair
      rw [sortedFields, ih, List.map_cons]
  rw [sorted, hfields]

theorem integral_sorted {value : Value} (h : value.integral) : value.sorted.integral := by
  induction value using inductOn with
  | scalar value hscalar => rwa [sorted_of_isScalar hscalar]
  | list items ih =>
    have hitems := integral_list.mp h
    rw [sorted_list, integral_list, List.forall_mem_map]
    exact fun item hm => ih item hm (hitems item hm)
  | record fields ih =>
    have hfields := integral_record.mp h
    rw [sorted_record, integral_record]
    intro pair hm
    obtain ⟨field, hfield, rfl⟩ := List.mem_map.mp (List.mem_mergeSort.mp hm)
    exact ih field hfield (hfields field hfield)

/-- Values are the same once their fields are in order if and only if one is the other up to
the order of fields. -/
theorem sorted_eq_iff {a b : Value} (ha : a.unrepeating) (hb : b.unrepeating) :
    a.sorted = b.sorted ↔ Rearranged a b := by
  induction a using inductOn generalizing b with
  | scalar a hscalar =>
    rw [sorted_of_isScalar hscalar, rearranged_of_isScalar hscalar]
    constructor
    · intro heq
      have hb : b.isScalar := by rwa [← isScalar_sorted, ← heq]
      rw [heq, sorted_of_isScalar hb]
    · intro heq
      rw [← heq, sorted_of_isScalar hscalar]
  | list items ih =>
    cases b with
    | list others =>
      have hitems := unrepeating_list.mp ha
      have hothers := unrepeating_list.mp hb
      have hiff : List.Forall₂ (fun a b : Value => a.sorted = b.sorted) items others ↔
          List.Forall₂ Rearranged items others :=
        forall₂_congr fun one hone two htwo =>
          ih one hone (hitems one hone) (hothers two htwo)
      rw [sorted_list, sorted_list, list.injEq, rearranged_list, ← hiff, ← List.forall₂_eq_eq_eq,
        List.forall₂_map_left_iff, List.forall₂_map_right_iff]
    | _ => exact iff_of_false nofun nofun
  | record fields ih =>
    cases b with
    | record others =>
      obtain ⟨hf, hfields⟩ := unrepeating_record.mp ha
      obtain ⟨ho, hothers⟩ := unrepeating_record.mp hb
      have hiff : Table.Matches (fun a b : Value => a.sorted = b.sorted) fields others ↔
          Table.Matches Rearranged fields others :=
        Table.Matches.congr fun one hone two htwo =>
          ih one hone (hfields one hone) (hothers two htwo)
      -- A table in order stands for its pairs, and these for the values under the names.
      have hfmap := (Table.names_map sorted fields).symm ▸ hf
      have homap := (Table.names_map sorted others).symm ▸ ho
      rw [sorted_record, sorted_record, record.injEq, Table.mergeSort_eq_iff_perm hfmap,
        Table.perm_iff_matches hfmap homap, Table.Matches.map_iff, hiff, rearranged_record]
    | _ => exact iff_of_false nofun nofun

theorem rearranged_refl {value : Value} (h : value.unrepeating) : Rearranged value value :=
  (sorted_eq_iff h h).mp rfl

/-- The fields of a record may be put in any order. -/
theorem rearranged_of_perm {fields others : List (String × Value)}
    (h : (record fields).unrepeating) (hp : fields.Perm others) :
    Rearranged (record fields) (record others) := by
  obtain ⟨hf, hfields⟩ := unrepeating_record.mp h
  have ho : (Table.names others).Nodup := (hp.map Prod.fst).nodup_iff.mp hf
  have hmatches := (Table.perm_iff_matches hf ho).mp hp
  refine rearranged_record.mpr (hmatches.imp fun one hone two _ heq => ?_)
  exact heq ▸ rearranged_refl (hfields one hone)

/-- A value is the same as itself with its fields in another order. -/
theorem same_of_rearranged {a b : Value} (ha : a.unrepeating) (hb : b.unrepeating)
    (h : Rearranged a b) : a.same b := by
  induction a using inductOn generalizing b with
  | scalar a hscalar =>
    obtain rfl := (rearranged_of_isScalar hscalar).mp h
    cases a with
    | list | record => cases hscalar
    | _ => simp [same, numeric?, Number.same]
  | list items ih =>
    cases b with
    | list others =>
      have hitems := unrepeating_list.mp ha
      have hothers := unrepeating_list.mp hb
      refine same_list.mpr (forall₂_imp (fun one hone two htwo => ?_) (rearranged_list.mp h))
      exact ih one hone (hitems one hone) (hothers two htwo)
    | _ => cases h
  | record fields ih =>
    cases b with
    | record others =>
      obtain ⟨hf, hfields⟩ := unrepeating_record.mp ha
      obtain ⟨ho, hothers⟩ := unrepeating_record.mp hb
      refine (same_record hf ho).mpr ((rearranged_record.mp h).imp fun one hone two htwo => ?_)
      exact ih one hone (hfields one hone) (hothers two htwo)
    | _ => cases h

/-! ## Keys -/

/-- All numbers within a list or record are integers. -/
def integralInside (value : Value) : Bool :=
  value.isScalar || value.integral

theorem key_of_not_isScalar {value : Value} (h : value.isScalar = false) :
    value.key = .nested (Json.chars .ascii7 0 value.sorted) := by
  cases value with
  | list | record => rfl
  | _ => cases h

/-- The key of a list or record is that of the same value up to the order of fields, and of
no other. -/
theorem key_eq_iff {a b : Value} (ha : a.unrepeating) (hb : b.unrepeating)
    (hia : a.integral) (hib : b.integral) (hna : a.isScalar = false) (hnb : b.isScalar = false) :
    a.key = b.key ↔ Rearranged a b := by
  rw [key_of_not_isScalar hna, key_of_not_isScalar hnb, Key.nested.injEq, ← sorted_eq_iff ha hb]
  refine ⟨fun h => ?_, fun h => h ▸ rfl⟩
  exact Json.chars_inj rfl (integral_sorted hia) (integral_sorted hib) h

theorem equal_eq_same {a b : Value} (h : a.isScalar = false) : a.equal b = a.same b := by
  cases a with
  | list | record => cases b <;> rfl
  | _ => cases h

theorem equal_of_key_of_isScalar {a b : Value} (hb : b.isScalar) (hn : a ≠ .double .nan)
    (h : a.key = b.key) : a.equal b := by
  cases b with
  | list | record => cases hb
  | null =>
    cases a <;> cases h
    rfl
  | bool =>
    cases a <;> cases h
    exact beq_self_eq_true _
  | text =>
    cases a <;> cases h
    exact beq_self_eq_true _
  | number n =>
    cases a with
    | number m =>
      have hplace : m.place = n.place := Key.number.inj h
      have hm : m ≠ .double .nan := fun heq => hn (congrArg number heq)
      obtain ⟨p, hp⟩ := Option.isSome_iff_exists.mp (Number.place_isSome hm)
      show m.equal n
      rw [Number.equal, ← hplace, hp]
      exact beq_self_eq_true p
    | _ => cases h

/-- Values with one key are equal, unless they are no numbers. -/
theorem equal_of_key {a b : Value} (ha : a.unrepeating) (hb : b.unrepeating)
    (hia : a.integralInside) (hib : b.integralInside) (hn : a ≠ .double .nan)
    (h : a.key = b.key) : a.equal b := by
  by_cases hsb : b.isScalar
  · exact equal_of_key_of_isScalar hsb hn h
  · rw [Bool.not_eq_true] at hsb
    have hsa : a.isScalar = false := by
      rw [key_of_not_isScalar hsb] at h
      cases a with
      | list | record => rfl
      | _ => cases h
    have hia : a.integral := by simpa [integralInside, hsa] using hia
    have hib : b.integral := by simpa [integralInside, hsb] using hib
    have hsame := same_of_rearranged ha hb ((key_eq_iff ha hb hia hib hsa hsb).mp h)
    rwa [equal_eq_same hsa]

/-- Values with one key are equal, if they are not the value that is no number; and the key
of a list or record belongs to no other value but those that are the same up to the order of
fields, at every level. -/
theorem key_separates {a b : Value} (ha : a.unrepeating) (hb : b.unrepeating)
    (hia : a.integralInside) (hib : b.integralInside) (hn : a ≠ .double .nan) :
    (a.key = b.key → Comparator.equal.holds a b = .ok true) ∧
    (a.isScalar = false → b.isScalar = false → (a.key = b.key ↔ Rearranged a b)) := by
  constructor
  · intro h
    exact congrArg Except.ok (equal_of_key ha hb hia hib hn h)
  · intro hsa hsb
    have hia : a.integral := by simpa [integralInside, hsa] using hia
    have hib : b.integral := by simpa [integralInside, hsb] using hib
    exact key_eq_iff ha hb hia hib hsa hsb

theorem key_separates_nested :
    ∃ a b,
      Json.read "[\x7b\"k\": [-7, \"é\\n\"], \"t\": \x7b\"x\": 10\x7d, \"y\": null\x7d]" = .ok a ∧
      Json.read "[\x7b\"y\": null, \"k\": [-7, \"é\\n\"], \"t\": \x7b\"x\": 10\x7d\x7d]" = .ok b ∧
      a.unrepeating ∧ b.unrepeating ∧ a.integralInside ∧ b.integralInside ∧
      a ≠ .double .nan ∧ a.isScalar = false ∧ b.isScalar = false ∧
      Rearranged a b ∧ a.key = b.key ∧ Comparator.equal.holds a b = .ok true := by
  let k : Value := .list [.int (-7), .text "é\n"]
  let t : Value := .record [("x", .int 10)]
  let a : Value := .list [.record [("k", k), ("t", t), ("y", .null)]]
  let b : Value := .list [.record [("y", .null), ("k", k), ("t", t)]]
  have ha : a.unrepeating := by decide
  have hb : b.unrepeating := by decide
  have hrearranged : Rearranged a b := by
    refine .list (.cons (rearranged_of_perm (by decide) ?_) .nil)
    show ([("k", k), ("t", t)] ++ [("y", Value.null)]).Perm _
    exact List.perm_append_comm
  obtain ⟨hequal, hiff⟩ := key_separates ha hb rfl rfl nofun
  have hkey : a.key = b.key := (hiff rfl rfl).mpr hrearranged
  exact ⟨a, b, by with_unfolding_all rfl, by with_unfolding_all rfl, ha, hb, rfl, rfl, nofun, rfl,
    rfl, hrearranged, hkey, hequal hkey⟩

end Value

namespace Aggregate

/-- When repetitions are dropped, every value but one that is no number has its equal among
those that are left. -/
theorem exists_equal_mem_distinct {values : List Value}
    (h : ∀ v ∈ values, v.unrepeating ∧ v.integralInside) {v : Value} (hm : v ∈ values)
    (hn : v ≠ .double .nan) : ∃ w ∈ distinct [] values, v.equal w := by
  cases hf : values.find? fun w => w.key == v.key with
  | none => exact absurd (beq_self_eq_true _) (List.find?_eq_none.mp hf v hm)
  | some w =>
    have hkey : w.key = v.key := by simpa using List.find?_some hf
    refine ⟨w, mem_distinct.mpr ⟨List.not_mem_nil, hkey ▸ hf⟩, ?_⟩
    obtain ⟨hv, hiv⟩ := h v hm
    obtain ⟨hw, hiw⟩ := h w (List.mem_of_find?_eq_some hf)
    exact Value.equal_of_key hv hw hiv hiw hn hkey.symm

end Aggregate
end RecordQuery
