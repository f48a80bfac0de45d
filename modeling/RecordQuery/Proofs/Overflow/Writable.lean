/-
Values that can be written out.

An integer numeral is refused when it has more digits than an integer may have that is
written out, so whatever is read from JSON text is writable (`Json.writable_of_read`).
So is what is found in a writable value, at any place and in any field, and what is
bound from it (`Context.writable_bindingFor`).
-/
import RecordQuery.Proofs.Context.Declared
import RecordQuery.Proofs.Digits
import RecordQuery.Proofs.Nesting

namespace RecordQuery

/-! ## What is found in a writable value -/

namespace Value

theorem itemsWritable_iff {items : List Value} :
    itemsWritable items ↔ ∀ item ∈ items, item.writable := by
  induction items with
  | nil => simp [itemsWritable]
  | cons item rest ih => simp [itemsWritable, ih]

theorem fieldsWritable_iff {fields : List (String × Value)} :
    fieldsWritable fields ↔ ∀ pair ∈ fields, pair.2.writable := by
  induction fields with
  | nil => simp [fieldsWritable]
  | cons pair rest ih =>
    obtain ⟨name, value⟩ := pair
    simp [fieldsWritable, ih]

theorem writable_field? {value inner : Value} {name : String} (hw : value.writable)
    (h : value.field? name = some inner) : inner.writable := by
  cases value with
  | record fields => exact fieldsWritable_iff.mp hw _ (Table.mem_of_get? h)
  | _ => cases h

theorem writable_field {value : Value} (hw : value.writable) (name : String) :
    (value.field name).writable := by
  unfold field
  cases h : value.field? name with
  | none => rfl
  | some inner => exact writable_field? hw h

theorem writable_at? {value found : Value} {names : List String} (hw : value.writable)
    (h : value.at? names = some found) : found.writable := by
  induction names generalizing value with
  | nil =>
    cases h
    exact hw
  | cons name names ih =>
    obtain ⟨inner, hi, hf⟩ := Option.bind_eq_some_iff.mp h
    exact ih (writable_field? hw hi) hf

theorem writable_rows {value : Value} (hw : value.writable) : ∀ row ∈ value.rows, row.writable := by
  cases value with
  | list items => exact itemsWritable_iff.mp hw
  | _ => exact fun row hm => List.mem_singleton.mp hm ▸ hw

theorem writable_project {fields : List (String × Value)} (hw : fieldsWritable fields)
    (names : List String) : fieldsWritable (project fields names) := by
  induction names using List.reverseRecOn with
  | nil => rfl
  | append_singleton names last ih =>
    rw [project_concat]
    cases h : Table.get? fields last with
    | none => exact ih
    | some value =>
      refine fieldsWritable_iff.mpr fun pair hp => ?_
      rcases Table.mem_put hp with hm | hv
      · exact fieldsWritable_iff.mp ih pair hm
      · rw [hv]
        exact fieldsWritable_iff.mp hw _ (Table.mem_of_get? h)

theorem writable_restrictRecord {value : Value} (hw : value.writable) (fields : Names) :
    (value.restrictRecord fields).writable := by
  cases value with
  | record table => exact writable_project hw fields.toList
  | _ => exact hw

theorem writable_restrict {value : Value} (hw : value.writable) (fields : Option Names) :
    (value.restrict fields).writable := by
  cases fields with
  | none => exact hw
  | some fields =>
    cases value with
    | list items =>
      refine itemsWritable_iff.mpr (List.forall_mem_map.mpr fun item hm => ?_)
      exact writable_restrictRecord (itemsWritable_iff.mp hw item hm) fields
    | _ => exact writable_restrictRecord hw fields

end Value

namespace Context

theorem writable_bind {binding : Binding} (hw : ∀ pair ∈ binding, pair.2.value.writable)
    {source : Source} (hs : source.value.writable) (names : List String) :
    ∀ pair ∈ bind binding names source, pair.2.value.writable := by
  induction names generalizing binding with
  | nil => exact hw
  | cons name rest ih =>
    refine ih fun pair hp => ?_
    rcases Table.mem_put hp with hm | hv
    · exact hw pair hm
    · rw [hv]
      exact hs

/-- What is bound in a leaf is found in the data. -/
theorem writable_bindingFor (paths : List UsePath) {data : Value} (hw : data.writable)
    (choice : Choice) : ∀ pair ∈ bindingFor paths data choice, pair.2.value.writable := by
  rw [bindingFor_eq]
  suffices ∀ (placed : List (UsePath × Nat)) (binding : Binding),
      (∀ pair ∈ binding, pair.2.value.writable) →
      ∀ pair ∈ placed.foldl (fun binding path => declare data choice binding path.1 path.2) binding,
        pair.2.value.writable from
    this paths.zipIdx [] (by simp)
  intro placed
  induction placed with
  | nil => exact fun binding h => h
  | cons first rest ih =>
    obtain ⟨path, declaration⟩ := first
    refine fun binding h => ih _ ?_
    show ∀ pair ∈ declare data choice binding path declaration, pair.2.value.writable
    rw [declare]
    split
    · next names source hl =>
      obtain ⟨names', hn, hl⟩ := Option.bind_eq_some_iff.mp hl
      obtain ⟨value, hv, hl⟩ := Option.bind_eq_some_iff.mp hl
      cases hl
      exact writable_bind h (Value.writable_restrict (Value.writable_at? hw hv) path.fields) _
    · exact h

end Context

/-! ## What is read -/

namespace Json

theorem ofDigitChars_lt {cs : List Char} (h : ∀ c ∈ cs, c.isDigit) :
    Nat.ofDigitChars 10 cs 0 < 10 ^ cs.length := by
  have hlt := @Numeral.digitsFrom_lt .none cs (by decide)
  rw [Numeral.digitsFrom_isDigit h] at hlt
  simpa [Numeral.Digits.none] using hlt

/-- Whatever is read can be written out. -/
def Writable (reading : Reading Value) : Prop :=
  ∀ value rest, reading = .ok (value, rest) → value.writable

theorem natAbs_signed (negative : Bool) (n : Nat) :
    (if negative then -(n : Int) else n).natAbs = n := by
  cases negative
  · exact Int.natAbs_natCast n
  · exact (Int.natAbs_neg _).trans (Int.natAbs_natCast n)

theorem int_writable {whole : List Char} (hd : ∀ c ∈ whole, c.isDigit)
    (hl : whole.length ≤ digitLimit) (negative : Bool) :
    (Value.int (if negative then -(Nat.ofDigitChars 10 whole 0 : Int)
      else Nat.ofDigitChars 10 whole 0)).writable := by
  have hlt := Numeral.lt_firstUnwritable (ofDigitChars_lt hd) hl
  rw [← natAbs_signed negative (Nat.ofDigitChars 10 whole 0)] at hlt
  rw [Value.int, Value.writable]
  exact decide_eq_true hlt

theorem number_writable (cs : List Char) : Writable (number cs) := by
  intro value rest h
  unfold number at h
  split at h
  next negative unsigned hs =>
  dsimp only at h
  -- The digits before the point are a single zero, or as many as there are.
  split at h
  all_goals
    split at h
    · cases h
    · split at h
      · split at h
        · cases h
        · next hl =>
          cases h
          refine int_writable (fun c hc => ?_) (Nat.le_of_not_lt hl) negative
          first
          | exact List.all_eq_true.mp List.all_takeWhile c hc
          | exact List.mem_singleton.mp hc ▸ rfl
      · cases h
        rfl

theorem atom_writable (cs : List Char) : Writable (atom cs) := by
  intro value rest h
  unfold atom at h
  split at h
  · next word found hf =>
    cases h
    have hm := List.mem_of_find?_eq_some hf
    simp only [words, List.mem_cons, List.not_mem_nil, or_false, Prod.mk.injEq] at hm
    rcases hm with ⟨-, rfl⟩ | ⟨-, rfl⟩ | ⟨-, rfl⟩ | ⟨-, rfl⟩ | ⟨-, rfl⟩ | ⟨-, rfl⟩ <;> rfl
  · exact number_writable cs value rest h

theorem writable_of_read {text : String} {result : Value} (h : read text = .ok result) :
    result.writable := by
  refine read_induct (P := fun value => value.writable) ?_ ?_ ?_ ?_ h
  · exact atom_writable
  · intro s
    rfl
  · intro items hitems
    rw [Value.writable]
    exact Value.itemsWritable_iff.mpr hitems
  · intro fields _ hfields
    rw [Value.writable]
    exact Value.fieldsWritable_iff.mpr hfields

/-- The digits of an integer are read as that integer, up to the end of the record. -/
theorem number_digits {first : Char} {others rest : List Char} (hz : first ≠ '0')
    (hd : ∀ c ∈ first :: others, c.isDigit) (hl : others.length < digitLimit) :
    number (first :: others ++ '\x7d' :: rest) =
      .ok (.int (Nat.ofDigitChars 10 (first :: others) 0), '\x7d' :: rest) := by
  have hwhole : (first :: others ++ '\x7d' :: rest).takeWhile Char.isDigit = first :: others := by
    rw [List.takeWhile_append_of_pos hd]
    exact List.append_nil _
  have hrest : (first :: others ++ '\x7d' :: rest).drop (first :: others).length =
      '\x7d' :: rest := List.drop_left
  have hminus : first ≠ '-' := by
    rintro rfl
    exact absurd (hd '-' List.mem_cons_self) (by decide)
  unfold number
  rw [List.cons_append] at hwhole hrest ⊢
  split
  next negative unsigned hs =>
  split at hs
  · next heq => exact absurd (List.cons.inj heq).1 hminus
  · cases hs
    dsimp only
    split
    · next heq => exact absurd (List.cons.inj heq).1 hz
    · rw [hwhole, hrest]
      exact if_neg (Nat.not_lt.mpr hl)

end Json

end RecordQuery
