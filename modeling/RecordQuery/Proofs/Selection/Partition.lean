/-
A condition and its denial share out the rows of a selection.

Which source a selection reads from does not depend on its condition, and each record it
keeps gives rows by itself (`Select.rows_shape`).  So where testing stops at nothing, the
rows under a condition and those under its denial are in order what is selected without a
condition (`Interleaves`), and the counts and sums of these add up (`Select.run_partition`).

A selection of everything reads from where most of the fields referred to are, and the
condition refers to fields too.  In a block, where the fields referred to are kept from one
statement to the next, the three selections read from one source because the one without a
condition comes last.
-/
import RecordQuery.Proofs.Results
import RecordQuery.Proofs.Selection.Percentage

namespace RecordQuery

/-! ## Lists shared out -/

/-- That the third list is the first two merged, each of them in order. -/
inductive Interleaves {α : Type} : List α → List α → List α → Prop
  | none : Interleaves [] [] []
  | left {a : α} {xs ys zs : List α} : Interleaves xs ys zs → Interleaves (a :: xs) ys (a :: zs)
  | right {a : α} {xs ys zs : List α} : Interleaves xs ys zs → Interleaves xs (a :: ys) (a :: zs)

namespace Interleaves

variable {α β : Type} {xs ys zs us vs ws : List α}

theorem swap (h : Interleaves xs ys zs) : Interleaves ys xs zs := by
  induction h with
  | none => exact .none
  | left _ ih => exact .right ih
  | right _ ih => exact .left ih

theorem append (h : Interleaves xs ys zs) (h' : Interleaves us vs ws) :
    Interleaves (xs ++ us) (ys ++ vs) (zs ++ ws) := by
  induction h with
  | none => exact h'
  | left _ ih => exact .left ih
  | right _ ih => exact .right ih

theorem nil_right (xs : List α) : Interleaves xs [] xs := by
  induction xs with
  | nil => exact .none
  | cons x rest ih => exact .left ih

/-- Each member gives members to the list that it is in. -/
theorem flatMap (h : Interleaves xs ys zs) (f : α → List β) :
    Interleaves (xs.flatMap f) (ys.flatMap f) (zs.flatMap f) := by
  induction h with
  | none => exact .none
  | @left a _ _ _ _ ih => exact (nil_right (f a)).append ih
  | @right a _ _ _ _ ih => exact (nil_right (f a)).swap.append ih

theorem filter (p : α → Bool) (xs : List α) :
    Interleaves (xs.filter p) (xs.filter fun x => !p x) xs := by
  induction xs with
  | nil => exact .none
  | cons x rest ih =>
    cases hp : p x with
    | true => simpa [hp] using ih.left
    | false => simpa [hp] using ih.right

theorem sublist_left (h : Interleaves xs ys zs) : xs.Sublist zs := by
  induction h with
  | none => exact .slnil
  | @left a _ _ _ _ ih => exact ih.cons_cons a
  | @right a _ _ _ _ ih => exact ih.cons a

theorem length_eq (h : Interleaves xs ys zs) : zs.length = xs.length + ys.length := by
  induction h with
  | none => rfl
  | left _ ih =>
    simp only [List.length_cons, ih]
    omega
  | right _ ih =>
    simp only [List.length_cons, ih]
    omega

theorem sum_eq (h : Interleaves xs ys zs) (f : α → Int) :
    (zs.map f).sum = (xs.map f).sum + (ys.map f).sum := by
  induction h with
  | none => rfl
  | left _ ih =>
    simp only [List.map_cons, List.sum_cons, ih]
    omega
  | right _ ih =>
    simp only [List.map_cons, List.sum_cons, ih]
    omega

end Interleaves

/-! ## Sums of integers -/

/-- The sum of rows that each count as an integer. -/
theorem Aggregate.apply_sum_of_ints {rows : List Value} {f : Value → Int}
    (h : ∀ row ∈ rows, CountsAs row (f row)) : sum.apply rows = .ok (.int (rows.map f).sum) :=
  apply_sum (List.forall₂_map_right_iff.mpr (List.forall₂_same.mpr h))

namespace Select

/-! ## The rows of one record -/

/-- The rows that one record gives. -/
def yield (select : Select) (source : Source) (byName : Bool) (record : Value) : List Value :=
  (select.shape source byName [record]).rows

theorem rows_shape (select : Select) (source : Source) (byName : Bool) (records : List Value) :
    (select.shape source byName records).rows =
      records.flatMap (select.yield source byName) := by
  show _ = records.flatMap fun record => (select.shape source byName [record]).rows
  -- Spread lists may give any number of rows, so this is no `map`.
  obtain ⟨fields, condition, each⟩ := select
  cases fields with
  | all => exact (List.flatMap_singleton' records).symm
  | named names =>
    obtain ⟨field, others⟩ := names
    cases others with
    | nil =>
      simp only [shape]
      cases byName && !source.exposes field <;> cases each <;>
        simp [spread, List.map_eq_flatMap, List.flatMap_assoc]
    | cons second others => exact List.map_eq_flatMap

/-! ## One source for three selections -/

section
variable {select : Select} {binding : Binding} {store : Table Value} {seen : List String}
  {byName : Bool}

theorem run_of_none (hm : select.missingVariable? store = none)
    (hs : Binding.source binding select.fields seen = (none, byName)) :
    select.run binding store seen = .ok ⟨[], false⟩ := by
  rw [run, hm]
  simp only [hs]

/-- A selection that stops at nothing takes the rows of the records it keeps. -/
theorem run_of_source (hb : ∀ pair ∈ binding, pair.2.value.writable)
    (hm : select.missingVariable? store = none)
    (hw : ∀ condition ∈ select.condition, condition.Writable store) {source : Source}
    (hs : Binding.source binding select.fields seen = (some source, byName)) :
    select.run binding store seen =
      .ok (select.shape source byName (source.rows.filter (select.keeps store))) := by
  obtain ⟨pair, hp, rfl⟩ := Binding.mem_of_source (congrArg Prod.fst hs)
  have hfilter := filter_eq_keeps hm hw (Value.writable_rows (hb pair hp))
  rw [run, hm]
  simp only [hs]
  exact congrArg (Except.map _) hfilter

end

section
variable {binding : Binding} {store : Table Value} {condition : Condition}

/-- Records that a condition keeps, and those that its denial keeps, give the rows of all
records. -/
theorem interleaves_shape (condition : Condition) (store : Table Value) (fields : Fields)
    (each : Bool) (source : Source) (byName : Bool) (records : List Value) :
    let kept : Select := ⟨fields, some condition, each⟩
    let dropped : Select := ⟨fields, some (.not condition), each⟩
    let whole : Select := ⟨fields, none, each⟩
    Interleaves (kept.shape source byName (records.filter (kept.keeps store))).rows
      (dropped.shape source byName (records.filter (dropped.keeps store))).rows
      (whole.shape source byName (records.filter (whole.keeps store))).rows := by
  intro kept dropped whole
  have hwhole : records.filter (whole.keeps store) = records :=
    List.filter_eq_self.mpr fun _ _ => rfl
  rw [rows_shape, rows_shape, rows_shape, hwhole]
  -- What a record gives does not depend on the condition.
  exact (Interleaves.filter (kept.keeps store) records).flatMap (whole.yield source byName)

theorem run_interleaves (hb : ∀ pair ∈ binding, pair.2.value.writable)
    (hm : condition.missingVariable? store = none) (hw : condition.Writable store)
    (fields : Fields) (each : Bool) (seen : List String) :
    ∃ kept dropped whole : Selection,
      run ⟨fields, some condition, each⟩ binding store seen = .ok kept ∧
      run ⟨fields, some (.not condition), each⟩ binding store seen = .ok dropped ∧
      run ⟨fields, none, each⟩ binding store seen = .ok whole ∧
      Interleaves kept.rows dropped.rows whole.rows := by
  have hkept : missingVariable? ⟨fields, some condition, each⟩ store = none := hm
  have hdropped : missingVariable? ⟨fields, some (.not condition), each⟩ store = none := hm
  cases hs : Binding.source binding fields seen with
  | mk found byName =>
    cases found with
    | none =>
      exact ⟨⟨[], false⟩, ⟨[], false⟩, ⟨[], false⟩, run_of_none hkept hs, run_of_none hdropped hs,
        run_of_none rfl hs, .none⟩
    | some source =>
      refine ⟨_, _, _, run_of_source hb hkept ?_ hs, run_of_source hb hdropped ?_ hs,
        run_of_source hb rfl (fun _ h => by cases h) hs,
        interleaves_shape condition store fields each source byName source.rows⟩
      · rintro other ⟨⟩
        exact hw
      · rintro other ⟨⟩
        exact hw

end

end Select

/-! ## In a block -/

theorem Session.foldl_addSeen_of_subset {names seen : List String}
    (h : ∀ name ∈ names, name ∈ seen) : names.foldl addSeen seen = seen := by
  induction names with
  | nil => rfl
  | cons name rest ih =>
    obtain ⟨hname, hrest⟩ := List.forall_mem_cons.mp h
    rw [List.foldl_cons, addSeen, if_pos hname, ih hrest]

/-- A selection adds no fields to those that one before it has referred to. -/
theorem Session.refer_refer {session : Session} {select other : Select}
    (h : ∀ name ∈ other.references, name ∈ select.references) :
    (session.refer select).refer other = session.refer select := by
  have hseen : ∀ name ∈ other.references, name ∈ (session.refer select).seen :=
    fun name hm => mem_refer.mpr (.inr (h name hm))
  exact congrArg (fun seen => { session with seen := seen }) (foldl_addSeen_of_subset hseen)

theorem Statement.run_count {binding : Binding} {session after : Session} {select : Select}
    {found : Selection} (ha : session.refer select = after)
    (h : select.run binding after.store after.seen = .ok found) :
    run binding session ⟨none, .count select⟩ = (.ok (.int found.rows.length), after) := by
  subst ha
  have hselect : (session.select binding select).1 = .ok found := h
  show (Operation.count select).run binding session = _
  rw [Operation.run_count_eq, hselect]
  rfl

namespace Select

/-- A condition and its denial share out a selection.  What is selected without a condition
is in order what each of them selects, so where all of its rows count as integers their sums
add up, and in a block that counts under the condition, under its denial and without a
condition the last count is the sum of the others. -/
theorem run_partition {binding : Binding} {store : Table Value} {condition : Condition}
    (hb : ∀ pair ∈ binding, pair.2.value.writable)
    (hm : condition.missingVariable? store = none) (hw : condition.Writable store)
    (fields : Fields) (each : Bool) :
    (∀ seen, ∃ kept dropped whole : Selection,
      run ⟨fields, some condition, each⟩ binding store seen = .ok kept ∧
      run ⟨fields, some (.not condition), each⟩ binding store seen = .ok dropped ∧
      run ⟨fields, none, each⟩ binding store seen = .ok whole ∧
      Interleaves kept.rows dropped.rows whole.rows ∧
      ((∀ row ∈ whole.rows, ∃ n, (Aggregate.element row >>= Value.toNumber) = .ok (.int n)) →
        ∃ m n, Aggregate.sum.apply kept.rows = .ok (.int m) ∧
          Aggregate.sum.apply dropped.rows = .ok (.int n) ∧
          Aggregate.sum.apply whole.rows = .ok (.int (m + n)))) ∧
    ∀ workingSet seen, ∃ (m n : Nat) (after : Session),
      Statement.Evaluates binding ⟨workingSet, store, seen⟩
        [⟨none, .count ⟨fields, some condition, each⟩⟩,
          ⟨none, .count ⟨fields, some (.not condition), each⟩⟩,
          ⟨none, .count ⟨fields, none, each⟩⟩]
        [.int m, .int n, .int (m + n)] after := by
  have hrun := run_interleaves hb hm hw fields each
  constructor
  · intro seen
    obtain ⟨kept, dropped, whole, hkept, hdropped, hwhole, hshared⟩ := hrun seen
    refine ⟨kept, dropped, whole, hkept, hdropped, hwhole, hshared, fun hints => ?_⟩
    choose! f hf using hints
    refine ⟨(kept.rows.map f).sum, (dropped.rows.map f).sum, ?_, ?_, ?_⟩
    · exact Aggregate.apply_sum_of_ints fun row hr => hf row (hshared.sublist_left.subset hr)
    · exact Aggregate.apply_sum_of_ints fun row hr =>
        hf row (hshared.swap.sublist_left.subset hr)
    · rw [← hshared.sum_eq f]
      exact Aggregate.apply_sum_of_ints hf
  · intro workingSet seen
    -- The first selection refers to all fields that the others refer to.
    let first : Session := .refer ⟨workingSet, store, seen⟩ ⟨fields, some condition, each⟩
    have hsecond : first.refer ⟨fields, some (.not condition), each⟩ = first :=
      Session.refer_refer fun _ hn => hn
    have hthird : first.refer ⟨fields, none, each⟩ = first :=
      Session.refer_refer fun _ hn => List.mem_append_left _ (by simpa [references] using hn)
    obtain ⟨kept, dropped, whole, hkept, hdropped, hwhole, hshared⟩ := hrun first.seen
    have hlast := Statement.run_count hthird hwhole
    rw [hshared.length_eq, Int.natCast_add] at hlast
    exact ⟨kept.rows.length, dropped.rows.length, first,
      .next (Statement.run_count rfl hkept)
        (.next (Statement.run_count hsecond hdropped) (.next hlast .none))⟩

/-- Records that count as integers in a field, and a row that is no record. -/
def tallies : Binding :=
  [("tally", ⟨.list [.record [("a", .text "1"), ("v", .text "2")], .record [("v", .bool true)],
    .null, .record [("a", .text "1"), ("v", .text "3")]], 0⟩)]

theorem run_partition_tallies :
    let condition := Condition.compare "a" .equal (.reference "x")
    let whole : List Value := [.text "2", .bool true, .null, .text "3"]
    (∀ pair ∈ tallies, pair.2.value.writable) ∧
      condition.missingVariable? [("x", .text "1")] = none ∧
      condition.Writable [("x", .text "1")] ∧
      Interleaves [.text "2", .text "3"] [.bool true, .null] whole ∧
      (∃ m n, Aggregate.sum.apply [.text "2", .text "3"] = .ok (.int m) ∧
        Aggregate.sum.apply [.bool true, .null] = .ok (.int n) ∧
        Aggregate.sum.apply whole = .ok (.int (m + n))) ∧
      ∃ (m n : Nat) (after : Session), Statement.Evaluates tallies (.start [("x", .text "1")])
        [⟨none, .count ⟨.all, some condition, false⟩⟩,
          ⟨none, .count ⟨.all, some (.not condition), false⟩⟩,
          ⟨none, .count ⟨.all, none, false⟩⟩]
        [.int m, .int n, .int (m + n)] after := by
  intro condition whole
  have hb : ∀ pair ∈ tallies, pair.2.value.writable := by
    decide +kernel
  have hw : condition.Writable [("x", .text "1")] := by
    intro comparison hm value hd
    obtain rfl := List.mem_singleton.mp hm
    cases hd with
    | reference hg =>
      cases hg
      rfl
  obtain ⟨kept, dropped, all, hkept, hdropped, hall, hshared, hsum⟩ :=
    (run_partition hb rfl hw (.named ⟨"v", []⟩) false).1 []
  obtain rfl : (⟨[.text "2", .text "3"], false⟩ : Selection) = kept :=
    Except.ok.inj (.trans (by with_unfolding_all rfl) hkept)
  obtain rfl : (⟨[.bool true, .null], false⟩ : Selection) = dropped :=
    Except.ok.inj (.trans (by with_unfolding_all rfl) hdropped)
  obtain rfl : (⟨whole, false⟩ : Selection) = all :=
    Except.ok.inj (.trans (by with_unfolding_all rfl) hall)
  have hints : ∀ row ∈ whole, ∃ n,
      (Aggregate.element row >>= Value.toNumber) = .ok (.int n) := by
    simp only [whole, List.forall_mem_cons]
    exact ⟨⟨2, by decide +kernel⟩, ⟨1, rfl⟩, ⟨0, rfl⟩, ⟨3, by decide +kernel⟩,
      fun _ hm => absurd hm List.not_mem_nil⟩
  exact ⟨hb, rfl, hw, hshared, hsum hints, (run_partition hb rfl hw .all false).2 [] []⟩

end Select
end RecordQuery
