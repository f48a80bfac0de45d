/-
How the order relations and equality fit together.

Equality and order read their operands separately, but where two values are ordered they
agree: the values are equal if and only if neither comes before the other
(`Value.equal_eq_of_order?`).  So one of less, equal and greater holds, and at least is
greater or equal.

The one exception is the value that is no number.  It is ordered with every number and
numeral although it equals none, so that beside it at least and at most hold, and less,
equal and greater do not (`Comparator.holds_fit`).
-/
import Mathlib.Logic.ExistsUnique
import RecordQuery.Json.Reader
import RecordQuery.Value.Comparison

namespace RecordQuery

/-! ## Numbers and texts -/

namespace Number

variable {m n : Number}

theorem place_isSome (h : n ≠ .double .nan) : n.place.isSome := by
  cases n with
  | int n => rfl
  | double x =>
    cases x with
    | nan => exact absurd rfl h
    | infinite s => rfl
    | finite s magnitude => rfl

/-- A numeral denotes an integer or a finite double. -/
theorem ne_nan_of_ofText? {s : String} (h : ofText? s = some n) : n ≠ .double .nan := by
  have hdecimal : ∀ {x : Double}, (if x.isFinite then some (Number.double x) else none) = some n →
      n ≠ .double .nan := by
    rintro x hx rfl
    split at hx
    · next hfinite =>
      rw [Number.double.inj (Option.some.inj hx)] at hfinite
      exact Bool.false_ne_true hfinite
    · exact Option.some_ne_none _ hx.symm
  simp only [ofText?] at h
  split at h
  · exact absurd h (Option.some_ne_none n).symm
  · split at h
    · next integer count hi =>
      split at h
      · rw [← Option.some.inj h]
        exact Number.noConfusion
      · split at h
        · exact hdecimal h
        · exact absurd h (Option.some_ne_none n).symm
    · split at h
      · exact hdecimal h
      · exact absurd h (Option.some_ne_none n).symm

/-- Numbers that lie somewhere are equal if and only if neither is below the other. -/
theorem equal_eq_orderNumbers (hm : m ≠ .double .nan) (hn : n ≠ .double .nan) :
    m.equal n = (Value.orderNumbers m n == .eq) := by
  obtain ⟨p, hp⟩ := Option.isSome_iff_exists.mp (place_isSome hm)
  obtain ⟨q, hq⟩ := Option.isSome_iff_exists.mp (place_isSome hn)
  obtain ⟨above, units⟩ := p
  obtain ⟨above', units'⟩ := q
  simp only [Value.orderNumbers, equal, less, hp, hq]
  grind

theorem orderNumbers_nan (h : m = .double .nan ∨ n = .double .nan) :
    Value.orderNumbers m n = .eq ∧ m.equal n = false := by
  rcases h with rfl | rfl
  · simp [Value.orderNumbers, equal, less, place]
  · simp [Value.orderNumbers, equal, less, place]

end Number

namespace Value

theorem beq_eq_orderTexts (s t : String) : (s == t) = (orderTexts s t == .eq) := by
  unfold orderTexts
  split
  · next h =>
    have hne : s ≠ t := fun heq => String.lt_irrefl t (heq ▸ h)
    simp [hne]
  · next h =>
    split
    · next h' =>
      have hne : s ≠ t := fun heq => String.lt_irrefl t (heq ▸ h')
      simp [hne]
    · next h' =>
      have heq : s = t := String.le_antisymm h h'
      simp [heq]

/-! ## Values -/

/-- One of two values is the value that is no number, and the other is a number or a
numeral. -/
def Unordered (a b : Value) : Prop :=
  a = .double .nan ∧ b.ordered?.isSome ∨ b = .double .nan ∧ a.ordered?.isSome

/-- Two texts are ordered, and two values of which one is a number if both are numbers or
numerals. -/
theorem order?_eq_some {a b : Value} {order : Ordering} :
    order? a b = some order ↔
      (∃ s t, a = .text s ∧ b = .text t ∧ orderTexts s t = order) ∨
        ((a.isNumber ∨ b.isNumber) ∧
          ∃ m n, a.ordered? = some m ∧ b.ordered? = some n ∧ orderNumbers m n = order) := by
  unfold order?
  split
  · next s t => simp [isNumber]
  · next hne =>
    have htexts : ¬ ∃ s t, a = .text s ∧ b = .text t ∧ orderTexts s t = order := by
      rintro ⟨s, t, rfl, rfl, -⟩
      exact hne s t rfl rfl
    rw [or_iff_right htexts]
    split
    · next hnumber =>
      rw [and_iff_right (by simpa using hnumber)]
      cases a.ordered? <;> cases b.ordered? <;> simp
    · next hnumber =>
      exact iff_of_false (Option.some_ne_none _).symm fun h => hnumber (by simpa using h.1)

theorem equal_of_ordered? {a b : Value} {m n : Number} (h : a.isNumber ∨ b.isNumber)
    (ha : a.ordered? = some m) (hb : b.ordered? = some n) : a.equal b = m.equal n := by
  cases a with
  | number own =>
    cases ha
    cases b with
    | number other =>
      cases hb
      rfl
    | text t =>
      have hdenotes : denotes t m = n.equal m := by
        rw [ordered?] at hb
        rw [denotes, hb]
      exact hdenotes.trans (n.equal_comm m)
    | _ => cases hb
  | text s =>
    cases b with
    | number other =>
      cases hb
      rw [ordered?] at ha
      rw [equal, denotes, ha]
    | _ => rcases h with h | h <;> cases h
  | _ => cases ha

theorem ordered?_eq_nan {a : Value} : a.ordered? = some (.double .nan) ↔ a = .double .nan := by
  constructor
  · intro h
    cases a with
    | number n =>
      cases h
      rfl
    | text s => exact absurd rfl (Number.ne_nan_of_ofText? h)
    | _ => cases h
  · rintro rfl
    rfl

theorem unordered_iff {a b : Value} {m n : Number} (ha : a.ordered? = some m)
    (hb : b.ordered? = some n) : Unordered a b ↔ m = .double .nan ∨ n = .double .nan := by
  rw [Unordered, ← ordered?_eq_nan, ← ordered?_eq_nan, ha, hb]
  simp

/-- Where two values are ordered, they are equal if neither comes before the other. -/
theorem equal_eq_of_order? {a b : Value} {order : Ordering} (h : order? a b = some order)
    (hu : ¬ Unordered a b) : a.equal b = (order == .eq) := by
  rcases order?_eq_some.mp h with ⟨s, t, rfl, rfl, rfl⟩ | ⟨hnumber, m, n, ha, hb, rfl⟩
  · exact beq_eq_orderTexts s t
  · rw [unordered_iff ha hb, not_or] at hu
    rw [equal_of_ordered? hnumber ha hb, Number.equal_eq_orderNumbers hu.1 hu.2]

/-- The value that is no number comes neither before nor after a number, and equals none. -/
theorem Unordered.order? {a b : Value} (h : Unordered a b) :
    order? a b = some .eq ∧ a.equal b = false := by
  have hboth : (∃ m, a.ordered? = some m) ∧ ∃ n, b.ordered? = some n := by
    rcases h with ⟨rfl, hb⟩ | ⟨rfl, ha⟩
    · exact ⟨⟨_, rfl⟩, Option.isSome_iff_exists.mp hb⟩
    · exact ⟨Option.isSome_iff_exists.mp ha, ⟨_, rfl⟩⟩
  obtain ⟨⟨m, ha⟩, n, hb⟩ := hboth
  have hnumber : a.isNumber ∨ b.isNumber := by
    rcases h with ⟨rfl, -⟩ | ⟨rfl, -⟩
    · exact .inl rfl
    · exact .inr rfl
  obtain ⟨horder, hequal⟩ := Number.orderNumbers_nan ((unordered_iff ha hb).mp h)
  exact ⟨order?_eq_some.mpr (.inr ⟨hnumber, m, n, ha, hb, horder⟩),
    (equal_of_ordered? hnumber ha hb).trans hequal⟩

end Value

namespace Comparator

open Value

/-- The relations that consult the order of two values. -/
def ordering : List Comparator :=
  [greater, less, atLeast, atMost]

/-- Values that are not ordered satisfy no order relation. -/
theorem holds_eq {relation : Comparator} (hr : relation ∈ ordering) (a b : Value) :
    relation.holds a b = .ok ((order? a b).any relation.admits) := by
  simp only [ordering, List.mem_cons, List.not_mem_nil, or_false] at hr
  rcases hr with rfl | rfl | rfl | rfl <;>
    · simp only [holds]
      cases order? a b <;> rfl

theorem holds_of_order? {relation : Comparator} (hr : relation ∈ ordering) {a b : Value}
    {order : Ordering} (h : order? a b = some order) :
    relation.holds a b = .ok true ↔ relation.admits order := by
  rw [holds_eq hr, h]
  simp

/-- The relation of a value to another that an order states. -/
def ofOrder : Ordering → Comparator
  | .lt => less
  | .eq => equal
  | .gt => greater

/-- Of less, equal and greater, the one that the order states holds, unless one of the values
is the value that is no number. -/
theorem holds_iff_ofOrder {a b : Value} {order : Ordering} (h : order? a b = some order)
    (hu : ¬ Unordered a b) {relation : Comparator} (hr : relation ∈ [less, equal, greater]) :
    relation.holds a b = .ok true ↔ relation = ofOrder order := by
  simp only [List.mem_cons, List.not_mem_nil, or_false] at hr
  rcases hr with rfl | rfl | rfl
  · rw [holds_of_order? (by decide) h]
    cases order <;> decide
  · rw [holds, equal_eq_of_order? h hu, Except.ok.injEq]
    cases order <;> decide
  · rw [holds_of_order? (by decide) h]
    cases order <;> decide

theorem existsUnique_holds {a b : Value} {order : Ordering} (h : order? a b = some order)
    (hu : ¬ Unordered a b) :
    ∃! relation, relation ∈ [less, equal, greater] ∧ relation.holds a b = .ok true := by
  have hm : ofOrder order ∈ [less, equal, greater] := by cases order <;> decide
  exact ⟨ofOrder order, ⟨hm, (holds_iff_ofOrder h hu hm).mpr rfl⟩,
    fun relation hrelation => (holds_iff_ofOrder h hu hrelation.1).mp hrelation.2⟩

/-- At least is greater or equal, and at most is less or equal, between ordered values. -/
theorem holds_weak {a b : Value} {order : Ordering} (h : order? a b = some order)
    (hu : ¬ Unordered a b) :
    (atLeast.holds a b = .ok true ↔ greater.holds a b = .ok true ∨ equal.holds a b = .ok true) ∧
    (atMost.holds a b = .ok true ↔ less.holds a b = .ok true ∨ equal.holds a b = .ok true) := by
  have hleast := holds_of_order? (by decide : atLeast ∈ ordering) h
  have hmost := holds_of_order? (by decide : atMost ∈ ordering) h
  rw [hleast, hmost, holds_iff_ofOrder h hu (by decide), holds_iff_ofOrder h hu (by decide),
    holds_iff_ofOrder h hu (by decide)]
  cases order <;> decide

/-- Beside the value that is no number, at least and at most hold, and neither less nor equal
nor greater. -/
theorem holds_of_unordered {a b : Value} (hu : Unordered a b) :
    atLeast.holds a b = .ok true ∧ atMost.holds a b = .ok true ∧
      ∀ relation ∈ [less, equal, greater], relation.holds a b = .ok false := by
  obtain ⟨horder, hequal⟩ := hu.order?
  refine ⟨(holds_of_order? (by decide) horder).mpr rfl,
    (holds_of_order? (by decide) horder).mpr rfl, ?_⟩
  simp only [List.forall_mem_cons, holds, horder, hequal]
  simp [admits]

/-- Of two values, at least holds only if greater or equal does, and at most only if less or
equal does, and if they are ordered just one of less, equal and greater holds: all this
unless one of them is the value that is no number and the other a number or a numeral.  If
so, all of it fails. -/
theorem holds_fit (a b : Value) :
    (∀ relation ∈ [less, equal, greater, atLeast, atMost],
      ∃ truth, relation.holds a b = .ok truth) ∧
    ((atLeast.holds a b = .ok true →
        greater.holds a b = .ok true ∨ equal.holds a b = .ok true) ↔ ¬ Unordered a b) ∧
    ((atMost.holds a b = .ok true →
        less.holds a b = .ok true ∨ equal.holds a b = .ok true) ↔ ¬ Unordered a b) ∧
    (((order? a b).isSome →
        ∃! relation, relation ∈ [less, equal, greater] ∧ relation.holds a b = .ok true) ↔
      ¬ Unordered a b) := by
  have htotal : ∀ relation ∈ [less, equal, greater, atLeast, atMost],
      ∃ truth, relation.holds a b = .ok truth := by
    simp only [List.forall_mem_cons]
    exact ⟨⟨_, holds_eq (by decide) a b⟩, ⟨_, rfl⟩, ⟨_, holds_eq (by decide) a b⟩,
      ⟨_, holds_eq (by decide) a b⟩, ⟨_, holds_eq (by decide) a b⟩, by simp⟩
  refine ⟨htotal, ?_⟩
  by_cases hu : Unordered a b
  · obtain ⟨hleast, hmost, hnone⟩ := holds_of_unordered hu
    obtain ⟨horder, -⟩ := hu.order?
    have hfalse : ∀ relation ∈ [less, equal, greater], relation.holds a b ≠ .ok true :=
      fun relation hm => by simp [hnone relation hm]
    refine ⟨iff_of_false (fun h => ?_) (not_not_intro hu),
      iff_of_false (fun h => ?_) (not_not_intro hu),
      iff_of_false (fun h => ?_) (not_not_intro hu)⟩
    · exact (h hleast).elim (hfalse _ (by decide)) (hfalse _ (by decide))
    · exact (h hmost).elim (hfalse _ (by decide)) (hfalse _ (by decide))
    · obtain ⟨relation, ⟨hm, hholds⟩, -⟩ := h (by rw [horder]; rfl)
      exact hfalse relation hm hholds
  · cases horder : order? a b with
    | some order =>
      exact ⟨iff_of_true (holds_weak horder hu).1.mp hu, iff_of_true (holds_weak horder hu).2.mp hu,
        iff_of_true (fun _ => existsUnique_holds horder hu) hu⟩
    | none =>
      have hnone : ∀ relation ∈ ordering, relation.holds a b ≠ .ok true :=
        fun relation hm => by simp [holds_eq hm, horder]
      exact ⟨iff_of_true (fun h => absurd h (hnone _ (by decide))) hu,
        iff_of_true (fun h => absurd h (hnone _ (by decide))) hu,
        iff_of_true (fun h => Bool.noConfusion h) hu⟩

/-- A value that was read can be at least another without being greater or equal. -/
theorem holds_atLeast_alone :
    ¬ ∀ text other a b, Json.read text = .ok a → Json.read other = .ok b →
      atLeast.holds a b = .ok true →
        greater.holds a b = .ok true ∨ equal.holds a b = .ok true := by
  intro h
  have hnan : Json.read "NaN" = .ok (.double .nan) := rfl
  have hone : Json.read "1" = .ok (.int 1) := rfl
  obtain ⟨hleast, -, hnone⟩ := holds_of_unordered (a := .double .nan) (b := .int 1)
    (.inl ⟨rfl, rfl⟩)
  rcases h _ _ _ _ hnan hone hleast with hgreater | hequal
  · cases hgreater.symm.trans (hnone greater (by decide))
  · cases hequal.symm.trans (hnone equal (by decide))

end Comparator
end RecordQuery
