/-
Values within values.

What holds of a list if it holds of its items, and of a record if it holds of the values
of its fields, holds of every value once it holds of those without parts
(`Value.inductOn`).  Values that were read are made in no other way, and no record among
them has a name twice (`Json.read_induct`), as the comparison of records presupposes.
-/
import Mathlib.Data.List.Forall2
import RecordQuery.Json.Reader
import RecordQuery.Proofs.Attempts
import RecordQuery.Proofs.Tables

namespace RecordQuery

/-- Lists that are related item by item are so by any relation to which it leads on their
items. -/
theorem forall₂_imp {α β : Type} {r q : α → β → Prop} {xs : List α} {ys : List β}
    (h : ∀ x ∈ xs, ∀ y ∈ ys, r x y → q x y) (hr : List.Forall₂ r xs ys) : List.Forall₂ q xs ys := by
  rw [List.forall₂_iff_zip] at hr ⊢
  refine ⟨hr.1, fun {x y} hm => ?_⟩
  obtain ⟨hx, hy⟩ := List.of_mem_zip hm
  exact h x hx y hy (hr.2 hm)

theorem forall₂_congr {α β : Type} {r q : α → β → Prop} {xs : List α} {ys : List β}
    (h : ∀ x ∈ xs, ∀ y ∈ ys, r x y ↔ q x y) : List.Forall₂ r xs ys ↔ List.Forall₂ q xs ys :=
  ⟨forall₂_imp fun x hx y hy => (h x hx y hy).mp,
    forall₂_imp fun x hx y hy => (h x hx y hy).mpr⟩

namespace Value

/-- Induction over what a value is made of. -/
@[elab_as_elim]
theorem inductOn {motive : Value → Prop} (value : Value)
    (scalar : ∀ value : Value, value.isScalar → motive value)
    (list : ∀ items, (∀ item ∈ items, motive item) → motive (.list items))
    (record : ∀ fields, (∀ pair ∈ fields, motive pair.2) → motive (.record fields)) :
    motive value :=
  @Value.rec motive (fun items => ∀ item ∈ items, motive item)
    (fun fields => ∀ pair ∈ fields, motive pair.2) (fun pair => motive pair.2)
    (scalar null rfl) (fun truth => scalar (bool truth) rfl) (fun n => scalar (number n) rfl)
    (fun s => scalar (text s) rfl) list record
    (List.forall_mem_nil _) (fun _ _ first rest => List.forall_mem_cons.mpr ⟨first, rest⟩)
    (List.forall_mem_nil _) (fun _ _ first rest => List.forall_mem_cons.mpr ⟨first, rest⟩)
    (fun _ _ inner => inner) value

mutual

/-- Whether a property holds of a value and of all values found in it. -/
def everywhere (p : Value → Bool) : Value → Bool
  | list items => p (list items) && everyItem p items
  | record fields => p (record fields) && everyField p fields
  | value => p value

def everyItem (p : Value → Bool) : List Value → Bool
  | [] => true
  | value :: rest => everywhere p value && everyItem p rest

def everyField (p : Value → Bool) : List (String × Value) → Bool
  | [] => true
  | (_, value) :: rest => everywhere p value && everyField p rest

end

section
variable {p : Value → Bool}

theorem everywhere_of_isScalar {value : Value} (h : value.isScalar) :
    value.everywhere p = p value := by
  cases value with
  | list | record => cases h
  | _ => rfl

theorem everywhere_list {items : List Value} :
    (list items).everywhere p ↔ p (list items) ∧ ∀ item ∈ items, item.everywhere p := by
  have hitems : everyItem p items ↔ ∀ item ∈ items, item.everywhere p := by
    induction items with
    | nil => simp [everyItem]
    | cons item rest ih => simp [everyItem, ih]
  rw [everywhere, Bool.and_eq_true, hitems]

theorem everywhere_record {fields : List (String × Value)} :
    (record fields).everywhere p ↔ p (record fields) ∧ ∀ pair ∈ fields, pair.2.everywhere p := by
  have hfields : everyField p fields ↔ ∀ pair ∈ fields, pair.2.everywhere p := by
    induction fields with
    | nil => simp [everyField]
    | cons pair rest ih =>
      obtain ⟨name, value⟩ := pair
      simp [everyField, ih]
  rw [everywhere, Bool.and_eq_true, hfields]

end

/-- A record has no name twice. -/
def namesApart : Value → Bool
  | record fields => decide (Table.names fields).Nodup
  | _ => true

/-- No record in a value has a name twice. -/
def unrepeating (value : Value) : Bool :=
  value.everywhere namesApart

theorem unrepeating_list {items : List Value} :
    (list items).unrepeating ↔ ∀ item ∈ items, item.unrepeating :=
  everywhere_list.trans (and_iff_right rfl)

theorem unrepeating_record {fields : List (String × Value)} :
    (record fields).unrepeating ↔
      (Table.names fields).Nodup ∧ ∀ pair ∈ fields, pair.2.unrepeating :=
  everywhere_record.trans (and_congr_left' decide_eq_true_iff)

theorem unrepeating_of_isScalar {value : Value} (h : value.isScalar) : value.unrepeating := by
  rw [unrepeating, everywhere_of_isScalar h]
  cases value with
  | record => cases h
  | _ => rfl

end Value

namespace Json

/-! ## What is read -/

section Parts

variable {element : List Char → Reading Value} {P : Value → Prop}
  (h : ∀ cs value rest, element cs = .ok (value, rest) → P value)

include h

theorem items_induct {count : Nat} {cs rest : List Char} {values : List Value}
    (hr : items element count cs = .ok (values, rest)) : ∀ value ∈ values, P value := by
  induction count generalizing cs rest values with
  | zero => cases hr
  | succ count ih =>
    rw [items] at hr
    obtain ⟨⟨value, left⟩, he, hr⟩ := bind_eq_ok.mp hr
    have hvalue := h cs value left he
    dsimp only at hr
    split at hr
    · cases hr
      exact List.forall_mem_singleton.mpr hvalue
    · obtain ⟨⟨others, left⟩, ho, ⟨⟩⟩ := bind_eq_ok.mp hr
      exact List.forall_mem_cons.mpr ⟨hvalue, ih ho⟩
    · cases hr

theorem fields_induct {count : Nat} {cs rest : List Char} {pairs : List (String × Value)}
    (hr : fields element count cs = .ok (pairs, rest)) : ∀ pair ∈ pairs, P pair.2 := by
  induction count generalizing cs rest pairs with
  | zero => cases hr
  | succ count ih =>
    rw [fields.eq_def] at hr
    dsimp only at hr
    split at hr
    · cases hr
    · next hc =>
      cases hc
      obtain ⟨⟨name, left⟩, -, hr⟩ := bind_eq_ok.mp hr
      dsimp only at hr
      split at hr
      · obtain ⟨⟨value, left⟩, he, hr⟩ := bind_eq_ok.mp hr
        have hvalue := h _ value left he
        dsimp only at hr
        split at hr
        · cases hr
          exact List.forall_mem_singleton.mpr hvalue
        · obtain ⟨⟨others, left⟩, ho, ⟨⟩⟩ := bind_eq_ok.mp hr
          exact List.forall_mem_cons.mpr ⟨hvalue, ih ho⟩
        · cases hr
      · cases hr
    · cases hr

end Parts

section

variable {P : Value → Prop}
  (atom : ∀ cs value rest, Json.atom cs = .ok (value, rest) → P value)
  (text : ∀ s, P (.text s))
  (list : ∀ items, (∀ item ∈ items, P item) → P (.list items))
  (record : ∀ fields, (Table.names fields).Nodup → (∀ pair ∈ fields, P pair.2) →
    P (.record fields))

include atom text list record

theorem value_induct (depth : Nat) (cs : List Char) (result : Value) (rest : List Char)
    (h : value depth cs = .ok (result, rest)) : P result := by
  induction depth generalizing cs result rest with
  | zero => cases cs <;> cases h
  | succ depth ih =>
    cases cs with
    | nil => cases h
    | cons c cs =>
      rw [value] at h
      split at h
      · obtain ⟨⟨s, left⟩, -, ⟨⟩⟩ := map_eq_ok.mp h
        exact text s
      · split at h
        · split at h
          · cases h
            exact list [] (List.forall_mem_nil _)
          · obtain ⟨⟨values, left⟩, hr, ⟨⟩⟩ := map_eq_ok.mp h
            exact list values (items_induct ih hr)
        · split at h
          · split at h
            · cases h
              exact record [] List.nodup_nil (List.forall_mem_nil _)
            · obtain ⟨⟨pairs, left⟩, hr, ⟨⟩⟩ := map_eq_ok.mp h
              obtain ⟨hnodup, hmem⟩ := Table.nodup_ofPairs pairs
              refine record _ hnodup fun pair hm => ?_
              obtain ⟨given, hgiven, heq⟩ := hmem pair hm
              exact heq ▸ fields_induct ih hr given hgiven
          · exact atom _ result rest h

/-- What is read is made of atoms and texts by lists and by records in which no name comes
twice. -/
theorem read_induct {source : String} {result : Value} (h : read source = .ok result) :
    P result := by
  unfold read at h
  split at h
  · next value hr =>
    cases h
    unfold readChars at hr
    split at hr
    · cases hr
    · obtain ⟨⟨value, left⟩, hv, hr⟩ := bind_eq_ok.mp hr
      dsimp only at hr
      split at hr
      · cases hr
        exact value_induct atom text list record _ _ _ _ hv
      · cases hr
  · split at h <;> cases h

end

theorem isScalar_of_number {cs rest : List Char} {result : Value}
    (h : number cs = .ok (result, rest)) : result.isScalar := by
  unfold number at h
  split at h
  dsimp only at h
  split at h
  all_goals
    split at h
    · cases h
    · split at h
      · split at h <;> cases h
        rfl
      · cases h
        rfl

theorem isScalar_of_atom {cs rest : List Char} {result : Value}
    (h : atom cs = .ok (result, rest)) : result.isScalar := by
  unfold atom at h
  split at h
  · next word found hf =>
    cases h
    have hwords : ∀ word ∈ words, word.2.isScalar := by decide
    exact hwords _ (List.mem_of_find?_eq_some hf)
  · exact isScalar_of_number h

/-- No record in a value that was read has a name twice. -/
theorem unrepeating_of_read {source : String} {result : Value} (h : read source = .ok result) :
    result.unrepeating := by
  refine read_induct (P := fun value => value.unrepeating) ?_ ?_ ?_ ?_ h
  · intro cs value rest ha
    exact Value.unrepeating_of_isScalar (isScalar_of_atom ha)
  · intro s
    exact Value.unrepeating_of_isScalar rfl
  · intro items hitems
    exact Value.unrepeating_list.mpr hitems
  · intro fields hnodup hfields
    exact Value.unrepeating_record.mpr ⟨hnodup, hfields⟩

end Json
end RecordQuery
