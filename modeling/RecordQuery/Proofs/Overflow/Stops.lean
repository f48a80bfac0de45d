/-
Computations that stop at the size of a number.

A computation has overflowed if it stopped at a fault of size (`Overflowed`).  When
composed computations do follows from when their parts do: one after the other
(`Overflowed.bind_iff`), one for each item (`Overflowed.mapM_iff`), and in a fold
(`Overflowed.foldlM_iff`).
-/
import RecordQuery.Proofs.Attempts
import RecordQuery.Proofs.Causes

namespace RecordQuery

/-- The size of a number is at fault, in arithmetic or in writing it out. -/
def Fault.OfSize : Fault → Prop
  | integerTooLarge | quotientTooLarge | squareTooLarge | unwritableInteger => True
  | _ => False

theorem Fault.ofSize_of_ofNumbers (fault : Fault) (h : fault.OfNumbers) : fault.OfSize := by
  cases fault <;> first | exact h | exact h.elim

def Overflowed {α : Type} (x : Except Fault α) : Prop :=
  ∃ fault, x = .error fault ∧ fault.OfSize

namespace Overflowed

variable {α β γ : Type}

theorem error {fault : Fault} (h : fault.OfSize) : Overflowed (.error fault : Except Fault α) :=
  ⟨fault, rfl, h⟩

theorem error_iff {fault : Fault} : Overflowed (.error fault : Except Fault α) ↔ fault.OfSize := by
  constructor
  · rintro ⟨_, ⟨⟩, h⟩
    exact h
  · exact error

theorem not_ok {a : α} : ¬ Overflowed (.ok a) := by
  rintro ⟨fault, h, -⟩
  cases h

theorem map_iff {x : Except Fault α} {f : α → β} : Overflowed (x.map f) ↔ Overflowed x := by
  cases x with
  | error fault => exact error_iff.trans error_iff.symm
  | ok a => exact iff_of_false not_ok not_ok

theorem bind_iff {x : Except Fault α} {f : α → Except Fault β} :
    Overflowed (x >>= f) ↔ Overflowed x ∨ ∃ a, x = .ok a ∧ Overflowed (f a) := by
  cases x with
  | error fault =>
    constructor
    · exact fun h => .inl (error (error_iff.mp h))
    · rintro (h | ⟨a, ha, -⟩)
      · exact error (error_iff.mp h)
      · cases ha
  | ok a =>
    constructor
    · exact fun h => .inr ⟨a, rfl, h⟩
    · rintro (h | ⟨_, ⟨⟩, h⟩)
      · exact (not_ok h).elim
      · exact h

/-- What returns a value made from a result overflows with it. -/
theorem return_iff {x : Except Fault α} {f : α → β} :
    Overflowed (do return f (← x)) ↔ Overflowed x :=
  bind_iff.trans (or_iff_left fun ⟨_, _, h⟩ => not_ok h)

/-- What stops at sizes only, and does not overflow, has a result. -/
theorem exists_ok {x : Except Fault α} (h : RaisesOnly Fault.OfSize x) (hn : ¬ Overflowed x) :
    ∃ a, x = .ok a := by
  cases x with
  | error fault => exact absurd (error (h fault rfl)) hn
  | ok a => exact ⟨a, rfl⟩

/-- Of computations in a row that stop at sizes only, one overflows if any would. -/
theorem mapM_iff {f : α → Except Fault β} {xs : List α} (h : ∀ x, RaisesOnly Fault.OfSize (f x)) :
    Overflowed (xs.mapM f) ↔ ∃ x ∈ xs, Overflowed (f x) := by
  induction xs with
  | nil => exact iff_of_false not_ok (by simp)
  | cons x rest ih =>
    rw [List.mapM_cons, bind_iff]
    simp only [return_iff, ih, List.mem_cons, exists_eq_or_imp]
    constructor
    · rintro (hx | ⟨b, -, hlater⟩)
      · exact .inl hx
      · exact .inr hlater
    · intro hany
      by_cases hx : Overflowed (f x)
      · exact .inl hx
      · obtain ⟨b, hb⟩ := exists_ok (h x) hx
        exact .inr ⟨b, hb, hany.resolve_left hx⟩

/-- A fold overflows at the first item that makes it do so. -/
theorem foldlM_iff {f : β → α → Except Fault β} {xs : List α} {b : β} :
    Overflowed (xs.foldlM f b) ↔ ∃ before x after c, xs = before ++ x :: after ∧
      before.foldlM f b = .ok c ∧ Overflowed (f c x) := by
  induction xs generalizing b with
  | nil => exact iff_of_false not_ok (by simp)
  | cons x rest ih =>
    rw [List.foldlM_cons, bind_iff]
    constructor
    · rintro (hx | ⟨c, hc, hrest⟩)
      · exact ⟨[], x, rest, b, rfl, rfl, hx⟩
      · obtain ⟨before, y, after, d, rfl, hd, hy⟩ := ih.mp hrest
        refine ⟨x :: before, y, after, d, rfl, ?_, hy⟩
        rw [List.foldlM_cons, hc]
        exact hd
    · rintro ⟨before, y, after, d, heq, hd, hy⟩
      cases before with
      | nil =>
        cases hd
        obtain ⟨rfl, rfl⟩ := List.cons.inj heq
        exact .inl hy
      | cons first before =>
        obtain ⟨rfl, rfl⟩ := List.cons.inj heq
        rw [List.foldlM_cons] at hd
        cases hx : f b x with
        | error fault =>
          rw [hx] at hd
          cases hd
        | ok c =>
          rw [hx] at hd
          exact .inr ⟨c, rfl, ih.mpr ⟨before, y, after, d, rfl, hd, hy⟩⟩

/-- A fold overflows at some item, where all that it comes to keeps an invariant under
which the items alone decide. -/
theorem foldlM_iff_of_invariant {f : β → α → Except Fault β} {keeps : β → Prop} {bad : α → Prop}
    (hraises : ∀ b x, RaisesOnly Fault.OfSize (f b x))
    (hbad : ∀ b x, keeps b → (Overflowed (f b x) ↔ bad x))
    (hkeeps : ∀ b x c, f b x = .ok c → keeps c) {xs : List α} {b : β} (hb : keeps b) :
    Overflowed (xs.foldlM f b) ↔ ∃ x ∈ xs, bad x := by
  induction xs generalizing b with
  | nil => exact iff_of_false not_ok (by simp)
  | cons x rest ih =>
    rw [List.foldlM_cons, bind_iff, hbad b x hb]
    simp only [List.mem_cons, exists_eq_or_imp]
    constructor
    · rintro (hx | ⟨c, hc, hrest⟩)
      · exact .inl hx
      · exact .inr ((ih (hkeeps b x c hc)).mp hrest)
    · intro hany
      by_cases hx : bad x
      · exact .inl hx
      · obtain ⟨c, hc⟩ := exists_ok (hraises b x) fun ho => hx ((hbad b x hb).mp ho)
        exact .inr ⟨c, hc, (ih (hkeeps b x c hc)).mpr (hany.resolve_left hx)⟩

end Overflowed

end RecordQuery
