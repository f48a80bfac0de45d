/-
Computations that may stop with an error, and how they are composed.

What is mapped or continued has a result if and only if each part has one, and stops
if and only if one of the parts does.
-/
namespace RecordQuery

section
variable {ε α β : Type} {outcome : Except ε α}

section
variable {f : α → β}

theorem map_eq_ok {v : β} : outcome.map f = .ok v ↔ ∃ w, outcome = .ok w ∧ f w = v := by
  cases outcome <;> simp [Except.map]

theorem map_eq_error {stop : ε} : outcome.map f = .error stop ↔ outcome = .error stop := by
  cases outcome <;> simp [Except.map]

end

variable {f : α → Except ε β}

theorem bind_eq_ok {v : β} : (outcome >>= f) = .ok v ↔ ∃ w, outcome = .ok w ∧ f w = .ok v := by
  cases outcome <;> simp [bind, Except.bind]

theorem bind_eq_error {stop : ε} :
    (outcome >>= f) = .error stop ↔
      outcome = .error stop ∨ ∃ w, outcome = .ok w ∧ f w = .error stop := by
  cases outcome <;> simp [bind, Except.bind]

/-- What has a result for every member of a list has one for the list. -/
theorem mapM_eq_ok {g : α → β} {xs : List α} (h : ∀ x ∈ xs, f x = .ok (g x)) :
    xs.mapM f = .ok (xs.map g) := by
  induction xs with
  | nil => rfl
  | cons x rest ih =>
    obtain ⟨hx, hrest⟩ := List.forall_mem_cons.mp h
    rw [List.mapM_cons, hx, ih hrest]
    rfl

/-- What stops for a member of a list stops for the list, if it has results for all members
before. -/
theorem mapM_eq_error {g : α → β} {before after : List α} {x : α} {stop : ε}
    (h : ∀ y ∈ before, f y = .ok (g y)) (hx : f x = .error stop) :
    (before ++ x :: after).mapM f = .error stop := by
  rw [List.mapM_append, mapM_eq_ok h, List.mapM_cons, hx]
  rfl

end

end RecordQuery
