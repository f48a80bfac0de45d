/-
The members of a list in the order in which they first appear.

Axes and block names are listed without repeats by `List.eraseDups`.  What makes
that list the right one is that it repeats nothing (`nodup_eraseDups`) and that a
member which comes before another in it has appeared before the other's first
appearance (`eraseDups_order`).  Sources are told apart by their declarations,
so the part that needs no order is shown for `List.eraseDupsBy`.  Both functions
search the rest of the list without the members found, and so the recursion is
on the length.
-/
import Mathlib.Data.List.Basic

namespace RecordQuery

/-- That the second list has the members of the first, each once, in the order in which
they first appear there. -/
structure FirstAppearances {α : Type} (xs ys : List α) : Prop where
  nodup : ys.Nodup
  mem : ∀ a, a ∈ ys ↔ a ∈ xs
  order : ys.Pairwise fun a b => ∃ before after, xs = before ++ a :: after ∧ b ∉ before

/-! ## Lists without repetitions -/

section
variable {α : Type} {r : α → α → Bool}

theorem eraseDupsBy_sublist : ∀ xs : List α, (xs.eraseDupsBy r).Sublist xs
  | [] => .slnil
  | x :: xs => by
    rw [List.eraseDupsBy_cons]
    exact ((eraseDupsBy_sublist _).trans List.filter_sublist).cons_cons x
termination_by xs => xs.length
decreasing_by exact Nat.lt_succ_of_le (List.length_filter_le _ _)

theorem pairwise_eraseDupsBy : ∀ xs : List α,
    (xs.eraseDupsBy r).Pairwise fun a b => r b a = false
  | [] => .nil
  | x :: xs => by
    rw [List.eraseDupsBy_cons, List.pairwise_cons]
    refine ⟨fun b hm => ?_, pairwise_eraseDupsBy _⟩
    exact of_decide_eq_true (List.mem_filter.mp ((eraseDupsBy_sublist _).subset hm)).2
termination_by xs => xs.length
decreasing_by exact Nat.lt_succ_of_le (List.length_filter_le _ _)

/-- What is left out repeats something that is kept. -/
theorem exists_mem_eraseDupsBy (hr : ∀ a, r a a) : ∀ (xs : List α) {a : α}, a ∈ xs →
    ∃ b ∈ xs.eraseDupsBy r, r a b
  | x :: xs, a, hm => by
    rw [List.eraseDupsBy_cons]
    by_cases hx : r a x
    · exact ⟨x, List.mem_cons_self, hx⟩
    · have hrest : a ∈ xs := by
        rcases List.mem_cons.mp hm with rfl | hm
        · exact absurd (hr a) hx
        · exact hm
      have hkept : a ∈ xs.filter fun b => decide (r b x = false) :=
        List.mem_filter.mpr ⟨hrest, decide_eq_true (Bool.eq_false_iff.mpr hx)⟩
      obtain ⟨b, hb, hab⟩ := exists_mem_eraseDupsBy hr _ hkept
      exact ⟨b, List.mem_cons_of_mem _ hb, hab⟩
termination_by xs => xs.length
decreasing_by exact Nat.lt_succ_of_le (List.length_filter_le _ _)

end

variable {α : Type} [BEq α] [LawfulBEq α]

theorem mem_filter_bne {a b : α} {xs : List α} :
    b ∈ xs.filter (fun c => !c == a) ↔ b ∈ xs ∧ b ≠ a := by
  rw [List.mem_filter, Bool.not_eq_true', beq_eq_false_iff_ne]

theorem nodup_eraseDups (xs : List α) : xs.eraseDups.Nodup := by
  refine (pairwise_eraseDupsBy (r := fun a b : α => a == b) xs).imp fun {a b} hba heq => ?_
  exact beq_eq_false_iff_ne.mp hba heq.symm

theorem eraseDups_of_nodup : ∀ {xs : List α}, xs.Nodup → xs.eraseDups = xs
  | [], _ => rfl
  | x :: xs, h => by
    obtain ⟨hx, hxs⟩ := List.nodup_cons.mp h
    have hfilter : xs.filter (fun y => !y == x) = xs := by
      refine List.filter_eq_self.mpr fun y hm => ?_
      rw [Bool.not_eq_true', beq_eq_false_iff_ne]
      exact fun heq => hx (heq ▸ hm)
    rw [List.eraseDups_cons, hfilter, eraseDups_of_nodup hxs]

/-- A member listed before another stands somewhere that the other has not yet
reached. -/
theorem eraseDups_order : ∀ xs : List α,
    xs.eraseDups.Pairwise fun a b => ∃ before after, xs = before ++ a :: after ∧ b ∉ before
  | [] => List.Pairwise.nil
  | x :: xs => by
    rw [List.eraseDups_cons, List.pairwise_cons]
    refine ⟨fun b _ => ⟨[], xs, rfl, List.not_mem_nil⟩, ?_⟩
    refine (eraseDups_order _).imp_of_mem fun {a b} _ hb h => ?_
    -- A place in the filtered list is a place in the list itself.
    obtain ⟨before, after, heq, hnb⟩ := h
    obtain ⟨front, back, rfl, rfl, hback⟩ := List.filter_eq_append_iff.mp heq
    obtain ⟨skipped, rest, rfl, hskipped, -, -⟩ := List.filter_eq_cons_iff.mp hback
    have hbx : b ≠ x := (mem_filter_bne.mp (List.mem_eraseDups.mp hb)).2
    refine ⟨x :: (front ++ skipped), rest, by simp, fun hm => ?_⟩
    rcases List.mem_cons.mp hm with h | h
    · exact hbx h
    · rcases List.mem_append.mp h with h | h
      · exact hnb (mem_filter_bne.mpr ⟨h, hbx⟩)
      · exact hskipped b h (by rwa [Bool.not_eq_true', beq_eq_false_iff_ne])
termination_by xs => xs.length
decreasing_by exact Nat.lt_succ_of_le (List.length_filter_le _ _)

theorem firstAppearances_eraseDups (xs : List α) : FirstAppearances xs xs.eraseDups :=
  ⟨nodup_eraseDups xs, fun _ => List.mem_eraseDups, eraseDups_order xs⟩

end RecordQuery
