/-
Which faults an evaluation can stop with.

`RaisesOnly p x` says that `x`, should it stop, stops with a fault that satisfies
`p`.  It passes through every way in which computations are composed, so each
function of the evaluator needs one lemma, which names the faults of its own and
takes the rest from what it calls.  Numbers, aggregates and conditions each have
their own faults.  None of these is that of an unassigned variable, which only
the look-ups of variables raise.
-/
import RecordQuery.Execution

namespace RecordQuery

/-- If the computation stops, the fault is one of those that `p` allows. -/
def RaisesOnly {α : Type} (p : Fault → Prop) (x : Except Fault α) : Prop :=
  ∀ fault, x = .error fault → p fault

namespace RaisesOnly

variable {α β : Type} {p q : Fault → Prop}

theorem ok (a : α) : RaisesOnly p (.ok a) := by
  intro fault h
  cases h

theorem error {fault : Fault} (h : p fault) : RaisesOnly p (.error fault : Except Fault α) := by
  intro other heq
  cases heq
  exact h

theorem mono {x : Except Fault α} (hx : RaisesOnly p x) (hpq : ∀ fault, p fault → q fault) :
    RaisesOnly q x :=
  fun fault h => hpq fault (hx fault h)

theorem bind {x : Except Fault α} {f : α → Except Fault β} (hx : RaisesOnly p x)
    (hf : ∀ a, RaisesOnly p (f a)) : RaisesOnly p (x >>= f) := by
  cases x with
  | error fault => exact error (hx fault rfl)
  | ok a => exact hf a

theorem map {x : Except Fault α} (f : α → β) (hx : RaisesOnly p x) :
    RaisesOnly p (x.map f) := by
  cases x with
  | error fault => exact error (hx fault rfl)
  | ok a => exact ok (f a)

theorem mapM {f : α → Except Fault β} (hf : ∀ a, RaisesOnly p (f a)) (xs : List α) :
    RaisesOnly p (xs.mapM f) := by
  induction xs with
  | nil => exact ok []
  | cons x rest ih =>
    rw [List.mapM_cons]
    exact bind (hf x) fun y => bind ih fun ys => ok (y :: ys)

theorem foldlM {f : β → α → Except Fault β} (hf : ∀ b a, RaisesOnly p (f b a)) (xs : List α) :
    ∀ b, RaisesOnly p (xs.foldlM f b) := by
  induction xs with
  | nil => exact fun b => ok b
  | cons x rest ih =>
    intro b
    rw [List.foldlM_cons]
    exact bind (hf b x) ih

theorem anyM {f : α → Except Fault Bool} (hf : ∀ a, RaisesOnly p (f a)) (xs : List α) :
    RaisesOnly p (xs.anyM f) := by
  induction xs with
  | nil => exact ok false
  | cons x rest ih =>
    rw [List.anyM_cons]
    refine bind (hf x) fun found => ?_
    cases found with
    | true => exact ok true
    | false => exact ih

end RaisesOnly

namespace Fault

/-- The size of a number is at fault. -/
def OfNumbers : Fault → Prop
  | integerTooLarge | quotientTooLarge | squareTooLarge => True
  | _ => False

/-- The rows of an aggregate are at fault, or their numbers. -/
def OfAggregates : Fault → Prop
  | ambiguousRow _ => True
  | fault => fault.OfNumbers

theorem ofAggregates_of_ofNumbers (fault : Fault) (h : fault.OfNumbers) : fault.OfAggregates := by
  cases fault <;> first | exact h | exact h.elim

end Fault

open Fault RaisesOnly

/-! ## Numbers -/

namespace Number

theorem toDouble_raises (n : Number) : RaisesOnly OfNumbers n.toDouble := by
  unfold toDouble
  split
  · split
    · exact ok _
    · exact error trivial
  · exact ok _

theorem combine_raises (exact_ : Int → Int → Int) (rounded : Double → Double → Double)
    (a b : Number) : RaisesOnly OfNumbers (combine exact_ rounded a b) := by
  have mixed : RaisesOnly OfNumbers (do
      return Number.double (rounded (← a.toDouble) (← b.toDouble)) : Except Fault Number) :=
    (toDouble_raises a).bind fun x => (toDouble_raises b).bind fun y => ok _
  cases a with
  | int m =>
    cases b with
    | int n => exact RaisesOnly.ok (Number.int (exact_ m n))
    | double y => exact mixed
  | double x => cases b <;> exact mixed

theorem quotientOfInts_raises (m n : Int) : RaisesOnly OfNumbers (quotientOfInts m n) := by
  unfold quotientOfInts
  split
  · exact ok _
  · exact error trivial

theorem div_raises (a b : Number) : RaisesOnly OfNumbers (a.div b) := by
  have mixed : RaisesOnly OfNumbers (do
      return (← a.toDouble).div (← b.toDouble) : Except Fault Double) :=
    (toDouble_raises a).bind fun x => (toDouble_raises b).bind fun y => ok _
  cases a with
  | int m =>
    cases b with
    | int n => exact quotientOfInts_raises m n
    | double y => exact mixed
  | double x => cases b <;> exact mixed

end Number

theorem Value.toNumber_raises (value : Value) : RaisesOnly OfNumbers value.toNumber := by
  cases value with
  | number n =>
    cases n with
    | int m => exact (Number.toDouble_raises (.int m)).map _
    | double x => exact ok _
  | _ => exact ok _

namespace Arithmetic

theorem apply_raises (operator : Arithmetic) (a b : Value) :
    RaisesOnly OfNumbers (operator.apply a b) := by
  refine (Value.toNumber_raises a).bind fun m => (Value.toNumber_raises b).bind fun n => ?_
  refine RaisesOnly.bind ?_ fun result => ok _
  cases operator with
  | divide =>
    simp only [onNumbers]
    split
    · exact ok _
    · exact (Number.div_raises m n).map _
  | multiply => exact Number.combine_raises _ _ m n
  | subtract => exact Number.combine_raises _ _ m n

theorem percentage_raises (part whole : Nat) : RaisesOnly OfNumbers (percentage part whole) := by
  unfold percentage
  split
  · exact ok _
  · exact (Number.quotientOfInts_raises _ _).map _

end Arithmetic

/-! ## Aggregates -/

namespace Aggregate

theorem element_raises (row : Value) : RaisesOnly OfAggregates (element row) := by
  unfold element
  split
  · exact ok _
  · exact ok _
  · exact error trivial
  · exact ok _

theorem elements_raises (rows : List Value) : RaisesOnly OfAggregates (elements rows) :=
  mapM element_raises rows

theorem total_raises (ns : List Number) : RaisesOnly OfNumbers (total ns) :=
  foldlM (fun a b => Number.combine_raises _ _ a b) ns _

theorem mean_raises (ns : List Number) : RaisesOnly OfNumbers (mean ns) :=
  (total_raises ns).bind fun sum => Number.div_raises sum _

theorem middle_raises (ns : List Number) : RaisesOnly OfNumbers (middle ns) := by
  simp only [middle]
  split
  · exact ok _
  · exact (Number.combine_raises _ _ _ _).bind fun sum =>
      (Number.div_raises sum _).bind fun half => ok _

theorem square_raises (x : Double) : RaisesOnly OfNumbers (square x) := by
  simp only [square]
  split
  · exact error trivial
  · exact ok _

theorem sampleVariance_raises (ns : List Number) : RaisesOnly OfNumbers (sampleVariance ns) := by
  unfold sampleVariance
  split
  · exact ok _
  · refine (mean_raises ns).bind fun m => RaisesOnly.bind ?_ fun squares =>
      (Number.div_raises squares _).bind fun quotient => ok _
    refine foldlM (fun sum n => ?_) ns _
    exact (Number.combine_raises _ _ n _).bind fun d => (Number.toDouble_raises d).bind fun x =>
      (square_raises x).bind fun s => Number.combine_raises _ _ sum _

/-- That an aggregate takes the elements of all rows before it does anything else, which then
concerns numbers only. -/
def ReducesElements (function : Aggregate) : Prop :=
  ∃ reduce : List Value → Except Fault Value,
    (∀ values, RaisesOnly OfNumbers (reduce values)) ∧
    ∀ rows, function.apply rows = elements rows >>= reduce

section
variable {function : Aggregate}

theorem reducesElements_of_numbers {f : List Number → Except Fault Value}
    (hf : ∀ ns, RaisesOnly OfNumbers (f ns))
    (h : ∀ rows, function.apply rows = numbers rows >>= f) : function.ReducesElements := by
  refine ⟨fun values => values.mapM Value.toNumber >>= f,
    fun values => (mapM Value.toNumber_raises values).bind hf, fun rows => ?_⟩
  rw [h, numbers]
  cases elements rows <;> rfl

theorem reducesElements_of_present {f : List Value → Value}
    (h : ∀ rows, function.apply rows = do return f (← present rows)) :
    function.ReducesElements := by
  refine ⟨fun values => .ok (f (values.filter (!·.isNull))), fun values => ok _, fun rows => ?_⟩
  rw [h, present]
  cases elements rows <;> rfl

theorem reducesElements (function : Aggregate) : function.ReducesElements := by
  cases function with
  | sum =>
    exact reducesElements_of_numbers (fun ns => (total_raises ns).bind fun _ => ok _) fun _ => rfl
  | average =>
    refine reducesElements_of_numbers (fun ns => ?_) fun _ => rfl
    split
    · exact ok _
    · exact (mean_raises ns).bind fun _ => ok _
  | median =>
    refine reducesElements_of_numbers (fun ns => ?_) fun _ => rfl
    split
    · exact ok _
    · exact (middle_raises ns).bind fun _ => ok _
  | min => exact reducesElements_of_numbers (fun ns => ok _) fun _ => rfl
  | max => exact reducesElements_of_numbers (fun ns => ok _) fun _ => rfl
  | range =>
    exact reducesElements_of_numbers
      (fun ns => (Number.combine_raises _ _ _ _).bind fun _ => ok _) fun _ => rfl
  | variance =>
    exact reducesElements_of_numbers
      (fun ns => (sampleVariance_raises ns).bind fun _ => ok _) fun _ => rfl
  | standardDeviation =>
    exact reducesElements_of_numbers
      (fun ns => (sampleVariance_raises ns).bind fun v => (Value.toNumber_raises _).bind fun n =>
        (Number.toDouble_raises n).bind fun _ => ok _) fun _ => rfl
  | unique => exact reducesElements_of_present fun _ => rfl
  | mostFrequent => exact reducesElements_of_present fun _ => rfl
  | leastFrequent => exact reducesElements_of_present fun _ => rfl

end

/-- An aggregate stops at a row that has no single value, or at a number. -/
theorem apply_raises (function : Aggregate) (rows : List Value) :
    RaisesOnly OfAggregates (function.apply rows) := by
  obtain ⟨reduce, hreduce, happly⟩ := function.reducesElements
  rw [happly]
  exact (elements_raises rows).bind fun values =>
    (hreduce values).mono ofAggregates_of_ofNumbers

end Aggregate

/-! ## Comparisons -/

theorem Value.sourceText_raises (value : Value) :
    RaisesOnly (· = .unwritableInteger) value.sourceText := by
  have nested : RaisesOnly (· = .unwritableInteger) (Json.write? .compact value) := by
    unfold Json.write?
    split
    · exact ok _
    · exact error rfl
  cases value with
  | number n =>
    cases n with
    | int m =>
      simp only [sourceText]
      split
      · exact ok _
      · exact error rfl
    | double x =>
      simp only [sourceText]
      split <;> exact ok _
  | list items => exact nested
  | record fields => exact nested
  | _ => exact ok _

theorem Value.contains_raises (actual expected : Value) :
    RaisesOnly (· = .unwritableInteger) (actual.contains expected) := by
  cases actual with
  | list items =>
    exact expected.sourceText_raises.bind fun wanted =>
      anyM (fun item => item.sourceText_raises.bind fun text => ok _) items
  | _ => exact ok _

/-- A comparison stops only where a number would have to be written out that is
too long. -/
theorem Comparator.holds_raises (relation : Comparator) (actual expected : Value) :
    RaisesOnly (· = .unwritableInteger) (relation.holds actual expected) := by
  cases relation with
  | equal => exact ok _
  | notEqual => exact ok _
  | contains => exact Value.contains_raises actual expected
  | lacks => exact (Value.contains_raises actual expected).map _
  | greater | less | atLeast | atMost =>
    simp only [holds]
    split <;> exact ok _

end RecordQuery
