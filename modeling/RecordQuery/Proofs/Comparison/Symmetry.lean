/-
Comparing from either side.

A comparison reads its operands one after the other and by the kind of each, but it does
not matter which of them comes first.  Equality is symmetric (`Value.equal_comm`), and the
order of two values, if they have one, turns round with them (`Value.order?_swap`), so
that a relation holds of two values if and only if its mirror image holds of them in the
other order (`Comparator.holds_mirrored`).

The equality of records looks every field of the one up in the other.  That is symmetric
because no name comes twice in a record: records of one length of which the names of the
one are found in the other have the same names.
-/
import RecordQuery.Proofs.Comparison.Trichotomy
import RecordQuery.Proofs.Nesting

namespace RecordQuery
namespace Value

/-! ## Orders -/

theorem orderNumbers_swap (m n : Number) : orderNumbers n m = (orderNumbers m n).swap := by
  have hless : m.less n → n.less m = false := by
    unfold Number.less
    cases m.place with
    | none => exact nofun
    | some p =>
      cases n.place with
      | none => exact nofun
      | some q =>
        simp only [Bool.or_eq_true, Bool.or_eq_false_iff, Bool.and_eq_true, Bool.and_eq_false_iff,
          decide_eq_true_eq, decide_eq_false_iff_not, beq_iff_eq, beq_eq_false_iff_ne]
        omega
  unfold orderNumbers
  by_cases hm : m.less n
  · simp [hm, hless hm]
  · by_cases hn : n.less m
    · simp [hm, hn]
    · simp [hm, hn]

theorem orderTexts_swap (s t : String) : orderTexts t s = (orderTexts s t).swap := by
  unfold orderTexts
  by_cases hs : s < t
  · have ht : ¬ t < s := String.lt_asymm hs
    simp [hs, ht]
  · by_cases ht : t < s
    · simp [hs, ht]
    · simp [hs, ht]

theorem order?_of_swap {a b : Value} {order : Ordering} (h : order? a b = some order) :
    order? b a = some order.swap := by
  rcases order?_eq_some.mp h with ⟨s, t, ha, hb, ho⟩ | ⟨hnumber, m, n, ha, hb, ho⟩
  · exact order?_eq_some.mpr (.inl ⟨t, s, hb, ha, ho ▸ orderTexts_swap s t⟩)
  · exact order?_eq_some.mpr (.inr ⟨hnumber.symm, n, m, hb, ha, ho ▸ orderNumbers_swap m n⟩)

/-- Two values are ordered if they are so in the other order, and then the other way
round. -/
theorem order?_swap (a b : Value) : order? b a = (order? a b).map Ordering.swap := by
  cases h : order? a b with
  | some order => exact order?_of_swap h
  | none =>
    cases h' : order? b a with
    | none => rfl
    | some order =>
      rw [order?_of_swap h'] at h
      cases h

/-! ## Equality part by part -/

theorem same_list {items others : List Value} :
    (list items).same (list others) ↔ List.Forall₂ (fun a b => a.same b) items others := by
  show sameItems items others ↔ _
  induction items generalizing others with
  | nil => cases others <;> simp [sameItems]
  | cons item rest ih => cases others <;> simp [sameItems, ih]

theorem sameFields_iff {fields others : List (String × Value)} :
    sameFields fields others ↔
      ∀ pair ∈ fields, ∃ other, Table.get? others pair.1 = some other ∧ pair.2.same other := by
  induction fields with
  | nil => simp [sameFields]
  | cons pair rest ih =>
    obtain ⟨name, value⟩ := pair
    rw [sameFields, Bool.and_eq_true, ih, List.forall_mem_cons]
    refine and_congr_left' ?_
    cases Table.get? others name <;> simp

/-- Records in which no name comes twice are the same if they have the same names and under
each name the same value. -/
theorem same_record {fields others : List (String × Value)} (hf : (Table.names fields).Nodup)
    (ho : (Table.names others).Nodup) :
    (record fields).same (record others) ↔
      Table.Matches (fun a b => a.same b) fields others := by
  have hsame : (record fields).same (record others) ↔
      fields.length = others.length ∧ sameFields fields others := by
    simp [same]
  rw [hsame, sameFields_iff]
  constructor
  · intro h
    obtain ⟨hl, hfound⟩ := h
    have hnames : (Table.names fields).Perm (Table.names others) := by
      refine Table.names_perm hf (fun name hm => ?_) hl
      obtain ⟨pair, hp, rfl⟩ := List.mem_map.mp hm
      obtain ⟨other, hother, -⟩ := hfound pair hp
      exact List.mem_map.mpr ⟨_, Table.mem_of_get? hother, rfl⟩
    refine ⟨hnames, fun {one two} hone htwo heq => ?_⟩
    obtain ⟨other, hother, hvalue⟩ := hfound one hone
    rw [heq, (Table.get?_eq_some_iff ho).mpr htwo] at hother
    exact Option.some.inj hother ▸ hvalue
  · intro hm
    have hl : fields.length = others.length := by simpa [Table.names] using hm.names.length_eq
    refine ⟨hl, fun pair hp => ?_⟩
    obtain ⟨two, htwo, heq⟩ :=
      List.mem_map.mp (hm.names.mem_iff.mp (List.mem_map_of_mem hp))
    exact ⟨two.2, (Table.get?_eq_some_iff ho).mpr (heq ▸ htwo), hm.values hp htwo heq.symm⟩

theorem same_comm_of_isScalar {a b : Value} (h : a.isScalar) : a.same b = b.same a := by
  cases a with
  | list | record => cases h
  | text s =>
    cases b with
    | text t => exact Bool.beq_comm
    | _ => rfl
  | _ => cases b <;> first | rfl | exact Number.same_comm _ _

theorem same_comm {a b : Value} (ha : a.unrepeating) (hb : b.unrepeating) :
    a.same b = b.same a := by
  rw [Bool.eq_iff_iff]
  induction a using inductOn generalizing b with
  | scalar a h => rw [same_comm_of_isScalar h]
  | list items ih =>
    cases b with
    | list others =>
      have hitems := unrepeating_list.mp ha
      have hothers := unrepeating_list.mp hb
      have hcomm : List.Forall₂ (fun a b => a.same b) items others ↔
          List.Forall₂ (flip fun a b => a.same b) items others :=
        forall₂_congr fun one hone two htwo =>
          ih one hone (hitems one hone) (hothers two htwo)
      rw [same_list, same_list, hcomm]
      exact ⟨.flip, .flip⟩
    | record => rfl
    | _ => rw [← same_comm_of_isScalar (b := list items) rfl]
  | record fields ih =>
    cases b with
    | record others =>
      obtain ⟨hf, hfields⟩ := unrepeating_record.mp ha
      obtain ⟨ho, hothers⟩ := unrepeating_record.mp hb
      have hcomm : Table.Matches (fun a b => a.same b) fields others ↔
          Table.Matches (fun a b => b.same a) fields others :=
        Table.Matches.congr fun one hone two htwo =>
          ih one hone (hfields one hone) (hothers two htwo)
      rw [same_record hf ho, same_record ho hf, hcomm]
      exact ⟨Table.Matches.swap, Table.Matches.swap⟩
    | list => rfl
    | _ => rw [← same_comm_of_isScalar (b := record fields) rfl]

/-! ## Equality -/

/-- Equality takes both operands in the same way. -/
theorem equal_comm {a b : Value} (ha : a.unrepeating) (hb : b.unrepeating) :
    a.equal b = b.equal a := by
  have hsame := same_comm ha hb
  cases a <;> cases b <;> first
    | rfl
    | exact hsame
    | exact Bool.beq_comm
    | exact Number.equal_comm _ _

end Value

namespace Comparator

open Value

/-- The relation that holds of two values in the other order. -/
def mirrored : Comparator → Comparator
  | greater => less
  | less => greater
  | atLeast => atMost
  | atMost => atLeast
  | relation => relation

theorem admits_mirrored {relation : Comparator} (hr : relation ∈ ordering) (order : Ordering) :
    relation.mirrored.admits order.swap = relation.admits order := by
  simp only [ordering, List.mem_cons, List.not_mem_nil, or_false] at hr
  rcases hr with rfl | rfl | rfl | rfl <;> cases order <;> rfl

theorem mirrored_mem_ordering {relation : Comparator} (hr : relation ∈ ordering) :
    relation.mirrored ∈ ordering := by
  simp only [ordering, List.mem_cons, List.not_mem_nil, or_false] at hr
  rcases hr with rfl | rfl | rfl | rfl <;> decide

theorem holds_mirrored_of_order {relation : Comparator} (hr : relation ∈ ordering) (a b : Value) :
    relation.holds a b = relation.mirrored.holds b a := by
  rw [holds_eq hr, holds_eq (mirrored_mem_ordering hr), order?_swap a b]
  cases order? a b with
  | none => rfl
  | some order =>
    show Except.ok (relation.admits order) = .ok (relation.mirrored.admits order.swap)
    rw [admits_mirrored hr]

/-- It does not matter which of two values is the first.  They are equal in both orders or
in none, and ordered in both or in none and then the other way round, so that a relation
holds of them if and only if its mirror image holds in the other order. -/
theorem holds_mirrored {a b : Value} (ha : a.unrepeating) (hb : b.unrepeating) :
    a.equal b = b.equal a ∧
    order? b a = (order? a b).map Ordering.swap ∧
    ∀ relation ∈ [equal, notEqual, less, greater, atLeast, atMost],
      relation.holds a b = relation.mirrored.holds b a := by
  have hequal := equal_comm ha hb
  refine ⟨hequal, order?_swap a b, fun relation hm => ?_⟩
  by_cases hr : relation ∈ ordering
  · exact holds_mirrored_of_order hr a b
  · have heither : relation = equal ∨ relation = notEqual := by
      cases relation <;> simp_all [ordering]
    rcases heither with rfl | rfl
    · exact congrArg Except.ok hequal
    · exact congrArg (fun truth => Except.ok !truth) hequal

theorem holds_mirrored_nested :
    ∃ a b, Json.read "\x7b\"x\": [NaN, 1], \"y\": false\x7d" = .ok a ∧
      Json.read "\x7b\"y\": 0.0, \"x\": [NaN, true]\x7d" = .ok b ∧
      a.unrepeating ∧ b.unrepeating ∧ a.equal b = b.equal a ∧
      order? b a = (order? a b).map Ordering.swap ∧ less.holds a b = greater.holds b a := by
  let a : Value := .record [("x", .list [.double .nan, .int 1]), ("y", .bool false)]
  let b : Value := .record [("y", .double .zero), ("x", .list [.double .nan, .bool true])]
  have hreada : Json.read "\x7b\"x\": [NaN, 1], \"y\": false\x7d" = .ok a := by
    with_unfolding_all rfl
  have hreadb : Json.read "\x7b\"y\": 0.0, \"x\": [NaN, true]\x7d" = .ok b := by
    with_unfolding_all rfl
  have ha := Json.unrepeating_of_read hreada
  have hb := Json.unrepeating_of_read hreadb
  obtain ⟨hequal, horder, hholds⟩ := holds_mirrored ha hb
  exact ⟨a, b, hreada, hreadb, ha, hb, hequal, horder, hholds less (by decide)⟩

end Comparator
end RecordQuery
