/-
Repeated values.

Values with one key count as repetitions of one another.  Dropping repetitions leaves the
first value of each key and nothing else, in the order in which the keys first appear, and
a working set that goes on after another adds to it only what the other does not have
(`Aggregate.unique_firsts`).

Counting them, the value chosen is the first of those whose key occurs most often, or least
often.  It is therefore the first of its own key, as values of one key occur equally often,
and so among those left when repetitions are dropped; rows that stand for null count
neither way (`Aggregate.frequent_foremost`).
-/
import Mathlib.Data.List.Induction
import RecordQuery.Json.Reader
import RecordQuery.Operator.Aggregate
import RecordQuery.Proofs.Attempts
import RecordQuery.Proofs.FirstAppearance

namespace RecordQuery
namespace Aggregate

open Value (Key key)

/-! ## The elements of rows -/

theorem present_append (xs ys : List Value) :
    present (xs ++ ys) = do
      let us ← present xs
      let vs ← present ys
      return us ++ vs := by
  simp only [present, elements, List.mapM_append, bind_assoc, pure_bind, List.filter_append]

theorem present_append_eq_ok {xs ys values : List Value} :
    present (xs ++ ys) = .ok values ↔
      ∃ us vs, present xs = .ok us ∧ present ys = .ok vs ∧ values = us ++ vs := by
  rw [present_append, bind_eq_ok]
  constructor
  · intro h
    obtain ⟨us, hus, h⟩ := h
    obtain ⟨vs, hvs, ⟨⟩⟩ := bind_eq_ok.mp h
    exact ⟨us, vs, hus, hvs, rfl⟩
  · intro h
    obtain ⟨us, vs, hus, hvs, rfl⟩ := h
    exact ⟨us, hus, bind_eq_ok.mpr ⟨vs, hvs, rfl⟩⟩

theorem present_of_null {rows : List Value} (h : ∀ row ∈ rows, element row = .ok .null) :
    present rows = .ok [] := by
  have hnull : elements rows = .ok (rows.map fun _ => .null) := mapM_eq_ok h
  have hnone : (rows.map fun _ => Value.null).filter (!·.isNull) = [] := by
    simp [Value.isNull]
  rw [present, hnull]
  exact congrArg Except.ok hnone

theorem present_insert_null {nulls : List Value} (h : ∀ row ∈ nulls, element row = .ok .null)
    (before after : List Value) :
    present (before ++ nulls ++ after) = present (before ++ after) := by
  simp only [List.append_assoc, present_append, present_of_null h, bind_assoc, pure_bind]
  rfl

theorem isNull_of_mem_present {rows values : List Value} (h : present rows = .ok values)
    {v : Value} (hm : v ∈ values) : v.isNull = false := by
  obtain ⟨all, -, ⟨⟩⟩ := bind_eq_ok.mp h
  simpa using (List.mem_filter.mp hm).2

/-! ## Dropping repetitions -/

section
variable {seen : List Key} {values : List Value} {v : Value}

theorem distinct_of_seen (h : v.key ∈ seen) :
    distinct seen (v :: values) = distinct seen values :=
  if_pos h

theorem distinct_of_unseen (h : v.key ∉ seen) :
    distinct seen (v :: values) = v :: distinct (v.key :: seen) values :=
  if_neg h

theorem distinct_sublist (seen : List Key) (values : List Value) :
    (distinct seen values).Sublist values := by
  induction values generalizing seen with
  | nil => exact .slnil
  | cons v rest ih =>
    by_cases h : v.key ∈ seen
    · rw [distinct_of_seen h]
      exact (ih seen).cons v
    · rw [distinct_of_unseen h]
      exact (ih _).cons_cons v

/-- What is left are the values that come first of their key, if it is a new one. -/
theorem mem_distinct :
    v ∈ distinct seen values ↔
      v.key ∉ seen ∧ values.find? (fun w => w.key == v.key) = some v := by
  induction values generalizing seen with
  | nil => simp [distinct]
  | cons w rest ih =>
    by_cases hkey : w.key = v.key
    · rw [List.find?_cons_of_pos (by simpa using hkey)]
      by_cases h : w.key ∈ seen
      · rw [distinct_of_seen h, ih]
        simp [← hkey, h]
      · rw [distinct_of_unseen h, List.mem_cons, ih]
        simp [← hkey, h, eq_comm]
    · rw [List.find?_cons_of_neg (by simpa using hkey)]
      by_cases h : w.key ∈ seen
      · rw [distinct_of_seen h, ih]
      · have hne : v ≠ w := fun heq => hkey (heq ▸ rfl)
        rw [distinct_of_unseen h, List.mem_cons, ih]
        simp [hne, Ne.symm hkey]

/-- The keys of what is left are the keys that are new, without repetitions. -/
theorem keys_distinct (seen : List Key) (values : List Value) :
    (distinct seen values).map key =
      ((values.map key).filter fun k => k ∉ seen).eraseDups := by
  induction values generalizing seen with
  | nil => rfl
  | cons v rest ih =>
    by_cases h : v.key ∈ seen
    · rw [distinct_of_seen h, ih, List.map_cons, List.filter_cons_of_neg (by simpa using h)]
    · rw [distinct_of_unseen h, List.map_cons, ih, List.map_cons,
        List.filter_cons_of_pos (by simpa using h), List.eraseDups_cons, List.filter_filter]
      congr 2
      refine List.filter_congr fun k _ => ?_
      simp [Bool.beq_eq_decide_eq]

/-- To have seen more keys is to leave out their values. -/
theorem distinct_seen {more all : List Key} (h : ∀ k, k ∈ all ↔ k ∈ more ∨ k ∈ seen) :
    distinct all values = (distinct seen values).filter fun v => v.key ∉ more := by
  -- The keys enter as a hypothesis on their members: the order in which they were seen changes
  -- from step to step.
  induction values generalizing seen all with
  | nil => rfl
  | cons v rest ih =>
    by_cases hseen : v.key ∈ seen
    · rw [distinct_of_seen hseen, distinct_of_seen ((h _).mpr (.inr hseen)), ih h]
    · have hcons : ∀ k, k ∈ v.key :: all ↔ k ∈ more ∨ k ∈ v.key :: seen := by
        intro k
        rw [List.mem_cons, List.mem_cons, h]
        exact or_left_comm
      rw [distinct_of_unseen hseen]
      by_cases hmore : v.key ∈ more
      · have hall : v.key ∈ all := (h _).mpr (.inl hmore)
        have hsame : ∀ k, k ∈ all ↔ k ∈ more ∨ k ∈ v.key :: seen := by
          intro k
          rw [← hcons k, List.mem_cons]
          exact (or_iff_right_of_imp fun heq => heq ▸ hall).symm
        rw [distinct_of_seen hall, List.filter_cons_of_neg (by simpa using hmore), ih hsame]
      · have hall : v.key ∉ all := fun hm => ((h _).mp hm).elim hmore hseen
        rw [distinct_of_unseen hall, List.filter_cons_of_pos (by simpa using hmore), ih hcons]

theorem distinct_append (seen : List Key) (xs ys : List Value) :
    distinct seen (xs ++ ys) =
      distinct seen xs ++ (distinct [] ys).filter fun v => v.key ∉ xs.map key ++ seen := by
  induction xs generalizing seen with
  | nil =>
    have hunseen : ∀ k : Key, k ∈ seen ↔ k ∈ seen ∨ k ∈ [] := by simp
    exact distinct_seen hunseen
  | cons x rest ih =>
    rw [List.cons_append]
    by_cases h : x.key ∈ seen
    · rw [distinct_of_seen h, distinct_of_seen h, ih]
      congr 1
      refine List.filter_congr fun v _ => ?_
      grind
    · rw [distinct_of_unseen h, distinct_of_unseen h, ih, List.cons_append]
      congr 2
      refine List.filter_congr fun v _ => ?_
      grind

end

theorem apply_unique {rows : List Value} {result : Value} :
    unique.apply rows = .ok result ↔
      ∃ values, present rows = .ok values ∧ .list (distinct [] values) = result := by
  show (present rows).bind (fun values => .ok (.list (distinct [] values))) = .ok result ↔ _
  cases present rows <;> simp [Except.bind]

/-- Dropping repetitions leaves the first value of each key, in the order in which the keys
first appear, and of the rows that follow others what these do not have. -/
theorem unique_firsts (rows : List Value) :
    (∀ result, unique.apply rows = .ok result →
      ∃ values kept, present rows = .ok values ∧ result = .list kept ∧
        kept.Sublist values ∧
        FirstAppearances (values.map key) (kept.map key) ∧
        ∀ v, v ∈ kept ↔ values.find? (fun w => w.key == v.key) = some v) ∧
    ∀ more result, unique.apply (rows ++ more) = .ok result ↔
      ∃ values us vs, present rows = .ok values ∧
        unique.apply rows = .ok (.list us) ∧ unique.apply more = .ok (.list vs) ∧
        result = .list (us ++ vs.filter fun v => v.key ∉ values.map key) := by
  constructor
  · intro result h
    obtain ⟨values, hp, rfl⟩ := apply_unique.mp h
    refine ⟨values, distinct [] values, hp, rfl, distinct_sublist [] values, ?_, fun v => ?_⟩
    · have hkeys : (distinct [] values).map key = (values.map key).eraseDups := by
        rw [keys_distinct]
        simp
      exact hkeys ▸ firstAppearances_eraseDups _
    · rw [mem_distinct, and_iff_right List.not_mem_nil]
  · intro more result
    constructor
    · intro h
      obtain ⟨values, hp, rfl⟩ := apply_unique.mp h
      obtain ⟨us, vs, hus, hvs, rfl⟩ := present_append_eq_ok.mp hp
      refine ⟨us, distinct [] us, distinct [] vs, hus, apply_unique.mpr ⟨us, hus, rfl⟩,
        apply_unique.mpr ⟨vs, hvs, rfl⟩, ?_⟩
      rw [distinct_append, List.append_nil]
    · intro h
      obtain ⟨us, _, _, hus, hu, hv, rfl⟩ := h
      obtain ⟨us', hus', ⟨⟩⟩ := apply_unique.mp hu
      obtain ⟨vs, hvs, ⟨⟩⟩ := apply_unique.mp hv
      cases hus.symm.trans hus'
      have hp := present_append_eq_ok.mpr ⟨us, vs, hus, hvs, rfl⟩
      refine apply_unique.mpr ⟨us ++ vs, hp, ?_⟩
      rw [distinct_append, List.append_nil]

/-- Rows of several kinds, null and records of no field among them. -/
def mixed : List Value :=
  [.null, .record [("v", .int 0)], .text "x", .record [("v", .double .zero)], .bool false,
    .record [], .text "x"]

/-- What the rows stand for: zero comes as an integer and as a double. -/
def mixedValues : List Value :=
  [.int 0, .text "x", .double .zero, .bool false, .text "x"]

def mixedKept : List Value :=
  [.int 0, .text "x", .bool false]

theorem present_mixed : present mixed = .ok mixedValues := rfl

theorem unique_mixed : unique.apply mixed = .ok (.list mixedKept) := by
  have hkept : distinct [] mixedValues = mixedKept := by
    simp [mixedValues, mixedKept, distinct, key, Value.int, Value.double, Number.place,
      Double.signed, Double.zero]
  exact apply_unique.mpr ⟨_, present_mixed, congrArg Value.list hkept⟩

theorem unique_firsts_mixed :
    Json.read "[null, \x7b\"v\": 0\x7d, \"x\", \x7b\"v\": 0.0\x7d, false, \x7b\x7d, \"x\"]" =
        .ok (.list mixed) ∧
      present mixed = .ok mixedValues ∧ unique.apply mixed = .ok (.list mixedKept) ∧
      mixedKept.Sublist mixedValues ∧
      FirstAppearances (mixedValues.map key) (mixedKept.map key) ∧
      (∀ v, v ∈ mixedKept ↔ mixedValues.find? (fun w => w.key == v.key) = some v) ∧
      unique.apply (mixed ++ [.bool true, .int 0, .bool true, .text "y"]) =
        .ok (.list (mixedKept ++ [.bool true, .text "y"])) := by
  obtain ⟨hfirsts, hmore⟩ := unique_firsts mixed
  obtain ⟨_, _, hp, ⟨⟩, hsub, hfirst, hmem⟩ := hfirsts _ unique_mixed
  cases present_mixed.symm.trans hp
  have hlater : unique.apply [.bool true, .int 0, .bool true, .text "y"] =
      .ok (.list [.bool true, .int 0, .text "y"]) := by
    have hkept : distinct [] [.bool true, .int 0, .bool true, .text "y"] =
        [.bool true, .int 0, .text "y"] := by
      simp [distinct, key, Value.int, Number.place]
    exact apply_unique.mpr ⟨_, rfl, congrArg Value.list hkept⟩
  have hnew : [Value.bool true, .int 0, .text "y"].filter (fun v => v.key ∉ mixedValues.map key) =
      [.bool true, .text "y"] := by
    simp [mixedValues, key, Value.int, Value.double, Number.place, Double.signed, Double.zero]
  have hboth := (hmore _ _).mpr ⟨_, _, _, present_mixed, unique_mixed, hlater, rfl⟩
  rw [hnew] at hboth
  exact ⟨by with_unfolding_all rfl, present_mixed, unique_mixed, hsub, hfirst, hmem, hboth⟩

/-! ## Counting repetitions -/

theorem frequency_congr {values : List Value} {v w : Value} (h : v.key = w.key) :
    frequency values v = frequency values w := by
  unfold frequency
  rw [h]

/-- That a value is the first of those whose frequency comes last, in an order of numbers. -/
def Foremost (le : Nat → Nat → Prop) (values : List Value) (v : Value) : Prop :=
  ∃ before after, values = before ++ v :: after ∧
    (∀ w ∈ values, le (frequency values w) (frequency values v)) ∧
    ∀ w ∈ before, frequency values w ≠ frequency values v

section
variable {le : Nat → Nat → Prop} {values : List Value} {v : Value} (h : Foremost le values v)

include h

theorem Foremost.mem : v ∈ values := by
  obtain ⟨before, after, hsplit, -⟩ := h
  rw [hsplit]
  exact List.mem_append_right _ List.mem_cons_self

/-- What is the first of its frequency is the first of its key. -/
theorem Foremost.mem_distinct : v ∈ distinct [] values := by
  obtain ⟨before, after, hsplit, -, hbefore⟩ := h
  refine Aggregate.mem_distinct.mpr ⟨List.not_mem_nil, List.find?_eq_some_iff_append.mpr ?_⟩
  refine ⟨beq_self_eq_true _, before, after, hsplit, fun w hw => ?_⟩
  simpa using fun hkey => hbefore w hw (frequency_congr hkey)

end

/-- That a choice between two numbers is one of them that neither exceeds, in an order. -/
structure Prefers (pick : Nat → Nat → Nat) (le : Nat → Nat → Prop) : Prop where
  either : ∀ m n, pick m n = m ∨ pick m n = n
  left : ∀ m n, le m (pick m n)
  right : ∀ m n, le n (pick m n)
  refl : ∀ n, le n n
  trans : ∀ {l m n}, le l m → le m n → le l n

theorem prefers_max : Prefers Nat.max (· ≤ ·) where
  either m n := (Nat.le_total n m).imp Nat.max_eq_left Nat.max_eq_right
  left := Nat.le_max_left
  right := Nat.le_max_right
  refl := Nat.le_refl
  trans := Nat.le_trans

theorem prefers_min : Prefers Nat.min (· ≥ ·) where
  either m n := (Nat.le_total m n).imp Nat.min_eq_left Nat.min_eq_right
  left := Nat.min_le_left
  right := Nat.min_le_right
  refl := Nat.le_refl
  trans h h' := Nat.le_trans h' h

section
variable {pick : Nat → Nat → Nat} {le : Nat → Nat → Prop} (h : Prefers pick le)

include h

/-- Picking through a list ends with a number that is met on the way and that none of those
met exceeds. -/
theorem Prefers.foldl {α : Type} (f : α → Nat) (first : α) (rest : List α) :
    ∃ v ∈ first :: rest, rest.foldl (fun best v => pick best (f v)) (f first) = f v ∧
      ∀ w ∈ first :: rest, le (f w) (f v) := by
  induction rest using List.reverseRecOn with
  | nil => exact ⟨first, List.mem_cons_self, rfl, by simpa using h.refl _⟩
  | append_singleton rest last ih =>
    obtain ⟨v, hm, hbest, hle⟩ := ih
    rw [List.foldl_concat, hbest, ← List.cons_append]
    rcases h.either (f v) (f last) with hpick | hpick
    · refine ⟨v, List.mem_append_left _ hm, hpick, fun w hw => ?_⟩
      rcases List.mem_append.mp hw with hw | hw
      · exact hle w hw
      · rw [List.mem_singleton.mp hw]
        exact hpick ▸ h.right _ _
    · refine ⟨last, List.mem_append_right _ (List.mem_singleton_self _), hpick, fun w hw => ?_⟩
      rcases List.mem_append.mp hw with hw | hw
      · exact h.trans (hle w hw) (hpick ▸ h.left _ _)
      · rw [List.mem_singleton.mp hw]
        exact h.refl _

theorem Prefers.foremost {values : List Value} (hne : values ≠ []) :
    Foremost le values (representative pick values) := by
  cases values with
  | nil => exact absurd rfl hne
  | cons first rest =>
    obtain ⟨v, hm, htarget, hle⟩ := h.foldl (frequency (first :: rest)) first rest
    unfold representative
    dsimp only
    rw [htarget]
    cases hf : (first :: rest).find? fun w =>
        frequency (first :: rest) w == frequency (first :: rest) v with
    | none => exact absurd (beq_self_eq_true _) (List.find?_eq_none.mp hf v hm)
    | some chosen =>
      obtain ⟨heq, before, after, hsplit, hbefore⟩ := List.find?_eq_some_iff_append.mp hf
      have hchosen := beq_iff_eq.mp heq
      refine ⟨before, after, hsplit, fun w hw => ?_, fun w hw => ?_⟩
      · exact hchosen ▸ hle w hw
      · show _ ≠ frequency _ chosen
        rw [hchosen]
        simpa using hbefore w hw

end

/-- The aggregates that choose a value by its frequency, with the order in which that comes
last. -/
inductive Favours : Aggregate → (Nat → Nat → Prop) → Prop
  | most : Favours mostFrequent (· ≤ ·)
  | least : Favours leastFrequent (· ≥ ·)

theorem Favours.apply {function : Aggregate} {le : Nat → Nat → Prop} (h : Favours function le) :
    ∃ pick, Prefers pick le ∧
      ∀ rows, function.apply rows = (present rows).map (representative pick) := by
  cases h with
  | most => exact ⟨Nat.max, prefers_max, fun _ => rfl⟩
  | least => exact ⟨Nat.min, prefers_min, fun _ => rfl⟩

/-- Counting repetitions chooses the first of the values whose key occurs most often, or
least often, which is one of those left when repetitions are dropped; it chooses none if
there is none, and rows that stand for null have no part in it. -/
theorem frequent_foremost {function : Aggregate} {le : Nat → Nat → Prop}
    (h : Favours function le) :
    (∀ rows result, function.apply rows = .ok result →
      ∃ values kept, present rows = .ok values ∧ unique.apply rows = .ok (.list kept) ∧
        (result = .null ↔ values = []) ∧
        (result ≠ .null → Foremost le values result ∧ result ∈ kept)) ∧
    ∀ nulls, (∀ row ∈ nulls, element row = .ok .null) → ∀ before after,
      function.apply (before ++ nulls ++ after) = function.apply (before ++ after) := by
  obtain ⟨pick, hpick, happly⟩ := h.apply
  constructor
  · intro rows result hr
    rw [happly] at hr
    obtain ⟨values, hp, rfl⟩ := map_eq_ok.mp hr
    have hunique : unique.apply rows = .ok (.list (distinct [] values)) :=
      apply_unique.mpr ⟨values, hp, rfl⟩
    refine ⟨values, _, hp, hunique, ?_⟩
    by_cases hnil : values = []
    · have hnull : representative pick values = .null := hnil ▸ rfl
      exact ⟨iff_of_true hnull hnil, fun hne => absurd hnull hne⟩
    · have hforemost := hpick.foremost hnil
      have hpresent := isNull_of_mem_present hp hforemost.mem
      have hne : representative pick values ≠ .null := by
        intro hnull
        rw [hnull] at hpresent
        cases hpresent
      exact ⟨iff_of_false hne hnil, fun _ => ⟨hforemost, hforemost.mem_distinct⟩⟩
  · intro nulls hnulls before after
    rw [happly, happly, present_insert_null hnulls]

theorem frequent_foremost_tie :
    Json.read "[null, \x7b\"v\": 0\x7d, \"x\", \x7b\"v\": 0.0\x7d, false, \x7b\x7d, \"x\"]" =
        .ok (.list mixed) ∧
      mostFrequent.apply mixed = .ok (.int 0) ∧ leastFrequent.apply mixed = .ok (.bool false) ∧
      present mixed = .ok mixedValues ∧ unique.apply mixed = .ok (.list mixedKept) ∧
      (Foremost (· ≤ ·) mixedValues (.int 0) ∧ .int 0 ∈ mixedKept) ∧
      (Foremost (· ≥ ·) mixedValues (.bool false) ∧ .bool false ∈ mixedKept) ∧
      mostFrequent.apply (mixed ++ [.null] ++ mixed) = mostFrequent.apply (mixed ++ mixed) := by
  have hmost : mostFrequent.apply mixed = .ok (.int 0) := by
    simp [apply, present_mixed, mixedValues, representative, frequency, key, Value.int,
      Value.double, Number.place, Double.signed, Double.zero]
  have hleast : leastFrequent.apply mixed = .ok (.bool false) := by
    simp [apply, present_mixed, mixedValues, representative, frequency, key, Value.int,
      Value.double, Number.place, Double.signed, Double.zero]
  obtain ⟨hchosen, hinsert⟩ := frequent_foremost .most
  obtain ⟨_, _, hp, hkept, -, hfirst⟩ := hchosen mixed _ hmost
  cases present_mixed.symm.trans hp
  cases unique_mixed.symm.trans hkept
  obtain ⟨_, _, hp, hkept, -, hrarest⟩ := (frequent_foremost .least).1 mixed _ hleast
  cases present_mixed.symm.trans hp
  cases unique_mixed.symm.trans hkept
  have hnull : ∀ row ∈ [Value.null], element row = .ok .null :=
    List.forall_mem_singleton.mpr rfl
  exact ⟨by with_unfolding_all rfl, hmost, hleast, present_mixed, unique_mixed, hfirst nofun,
    hrarest nofun, hinsert _ hnull mixed mixed⟩

/-- Where there is no value to choose from, none is left either, and so null is not among
those left. -/
theorem frequent_leaves_unique :
    ¬ ∀ rows chosen kept, mostFrequent.apply rows = .ok chosen →
      unique.apply rows = .ok (.list kept) → chosen ∈ kept := by
  intro h
  have hnull : Value.null ∈ [] := h [] .null [] rfl rfl
  exact List.not_mem_nil hnull

end Aggregate
end RecordQuery
