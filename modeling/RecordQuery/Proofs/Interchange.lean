/-
Integers and their texts.

An integer that is short enough to be written out is read back from its text, whatever
blanks are around it (`Number.ofText?_padded`).  So nothing tells it from its text: not
equality and order, which read numerals beside a number, nor membership, which compares
texts, nor the aggregates, which read every row as a number.
-/
import RecordQuery.Proofs.Comparison.Trichotomy
import RecordQuery.Proofs.Overflow.Numbers
import RecordQuery.Proofs.Statistics
import RecordQuery.Proofs.Writing

namespace RecordQuery

/-! ## The text of an integer -/

namespace Numeral

open Json Text

theorem integer?_numberChars (n : Int) :
    integer? (numberChars (.int n)) = some (n, (Nat.toDigits 10 n.natAbs).length) := by
  cases n with
  | ofNat n =>
    exact (congrArg integer? (numberChars_ofNat n)).trans (integer?_toDigits n)
  | negSucc n =>
    exact (congrArg integer? (numberChars_negSucc n)).trans (integer?_neg_toDigits (n + 1))

theorem mem_numberChars {n : Int} {c : Char} (h : c ∈ numberChars (.int n)) :
    isBlank c = false ∧ c ≠ '_' := by
  have hsigned : c = '-' ∨ c.isDigit := by
    cases n with
    | ofNat n =>
      exact .inr (isDigit_of_mem_toDigits (numberChars_ofNat n ▸ h))
    | negSucc n =>
      rw [numberChars_negSucc] at h
      exact (List.mem_cons.mp h).imp id isDigit_of_mem_toDigits
  rcases hsigned with rfl | hdigit
  · decide
  · have hdecimal := isDecimalDigit_of_isDigit hdigit
    exact ⟨isBlank_of_isDecimalDigit hdecimal, ne_of_isDecimalDigit hdecimal (by decide)⟩

end Numeral

/-- An integer with no more digits than can be read is read back from its text, with or
without blanks around it. -/
theorem Number.ofText?_padded {n : Int} (hn : (Nat.toDigits 10 n.natAbs).length ≤ digitLimit)
    {before after : String} (hb : ∀ c ∈ before.toList, Text.isBlank c)
    (ha : ∀ c ∈ after.toList, Text.isBlank c) :
    ofText? (before ++ toString n ++ after) = some (.int n) := by
  have htrim : Text.trim (before ++ toString n ++ after).toList = Json.numberChars (.int n) := by
    rw [String.toList_append, String.toList_append]
    exact Text.trim_surrounded hb ha fun c hc => (Numeral.mem_numberChars hc).1
  have hnone : (Json.numberChars (.int n)).contains '_' = false := by
    rw [List.contains_eq_mem, decide_eq_false_iff_not]
    exact fun hm => (Numeral.mem_numberChars hm).2 rfl
  simp only [ofText?, htrim, hnone, Numeral.integer?_numberChars, hn, if_true]
  rfl

namespace Value

theorem sourceText_int {n : Int} {s : String} : (int n).sourceText = .ok s ↔
    (Nat.toDigits 10 n.natAbs).length ≤ digitLimit ∧ s = toString n := by
  have hshort : n.natAbs < firstUnwritable ↔
      (Nat.toDigits 10 n.natAbs).length ≤ digitLimit := by
    constructor
    · exact Numeral.length_toDigits_le_digitLimit
    · exact Numeral.lt_firstUnwritable ((Nat.length_toDigits_le_iff (by decide)
        Nat.length_toDigits_pos).mp (Nat.le_refl _))
  rw [int, sourceText, ← hshort]
  by_cases h : n.natAbs < firstUnwritable
  · rw [if_pos h, and_iff_right h, Except.ok.injEq, eq_comm]
  · rw [if_neg h]
    exact iff_of_false (fun hs => by cases hs) fun hs => h hs.1

/-- Different integers have different texts. -/
theorem sourceText_int_inj {m n : Int} {s t : String} (hs : (int m).sourceText = .ok s)
    (ht : (int n).sourceText = .ok t) : s = t ↔ m = n := by
  constructor
  · intro heq
    subst heq
    have hempty : Json.Digitless [] := fun _ hm => nomatch hm
    have hchars : Json.numberChars (.int m) ++ [] = Json.numberChars (.int n) ++ [] :=
      congrArg (·.toList ++ []) ((sourceText_int.mp hs).2.symm.trans (sourceText_int.mp ht).2)
    exact (Json.numberChars_append_inj hempty hempty hchars).1
  · intro heq
    subst heq
    exact Except.ok.inj (hs.symm.trans ht)

/-- The ways to give an integer: as a number, or as its text with blanks around it. -/
inductive Spells (n : Int) : Value → Prop
  | number : Spells n (.int n)
  | text {before s after : String} : (∀ c ∈ before.toList, Text.isBlank c) →
      (int n).sourceText = .ok s → (∀ c ∈ after.toList, Text.isBlank c) →
      Spells n (.text (before ++ s ++ after))

section
variable {n : Int} {value : Value} (h : Spells n value)

include h

/-- However an integer is given, it takes part in an order as itself. -/
theorem Spells.ordered? : value.ordered? = some (.int n) := by
  cases h with
  | number => rfl
  | text hb hs ha =>
    obtain ⟨hn, rfl⟩ := sourceText_int.mp hs
    rw [Value.ordered?, Number.ofText?_padded hn hb ha]

/-- However an integer is given, it counts as itself, if there is a double near it. -/
theorem Spells.toNumber (hn : (Number.int n).Fits) : value.toNumber = .ok (.int n) := by
  cases h with
  | number =>
    obtain ⟨x, hx⟩ := Number.toDouble_ok hn
    show (Number.int n).toDouble.map _ = _
    rw [hx]
    rfl
  | text hb hs ha =>
    obtain ⟨hn, rfl⟩ := sourceText_int.mp hs
    show Except.ok ((Number.ofText? _).getD .zero) = _
    rw [Number.ofText?_padded hn hb ha, Option.getD_some]

end

end Value

/-! ## Comparisons -/

namespace Comparator

open Value

/-- Beside a number, only the numbers that two operands take part in an order with count. -/
theorem holds_of_ordered? {a b : Value} {m n : Number} (h : a.isNumber ∨ b.isNumber)
    (ha : a.ordered? = some m) (hb : b.ordered? = some n) {relation : Comparator}
    (hr : relation ∈ [equal, notEqual, less, greater, atMost, atLeast]) :
    relation.holds a b = relation.holds (.number m) (.number n) := by
  have hequal : a.equal b = m.equal n := equal_of_ordered? h ha hb
  have horder : order? a b = order? (.number m) (.number n) :=
    (order?_eq_some.mpr (.inr ⟨h, m, n, ha, hb, rfl⟩)).trans
      (order?_eq_some.mpr (.inr ⟨.inl rfl, m, n, rfl, rfl, rfl⟩)).symm
  simp only [List.mem_cons, List.not_mem_nil, or_false] at hr
  rcases hr with rfl | rfl | rfl | rfl | rfl | rfl
  · exact congrArg Except.ok hequal
  · exact congrArg (fun truth => Except.ok (!truth)) hequal
  all_goals simp only [holds, horder]

/-- A list of one item contains what reads like the item. -/
theorem holds_contains_single {a b : Value} {s t : String} (ha : a.sourceText = .ok s)
    (hb : b.sourceText = .ok t) : contains.holds (.list [a]) b = .ok (decide (s = t)) := by
  have hitem : (do return (← a.sourceText) == t : Except Fault Bool) = .ok (decide (s = t)) :=
    bind_eq_ok.mpr ⟨s, ha, rfl⟩
  refine bind_eq_ok.mpr ⟨t, hb, ?_⟩
  rw [List.anyM_cons, hitem]
  cases decide (s = t) <;> rfl

end Comparator

/-! ## Aggregates -/

namespace Aggregate

/-- That what a row contributes gives an integer. -/
def Gives (row : Value) (n : Int) : Prop :=
  ∃ value, element row = .ok value ∧ value.Spells n

theorem counts_of_gives {rows : List Value} {ints : List Int}
    (h : List.Forall₂ Gives rows ints) (hfits : ∀ n ∈ ints, (Number.int n).Fits) :
    List.Forall₂ CountsAs rows ints := by
  induction h with
  | nil => exact .nil
  | cons hrow _ ih =>
    obtain ⟨value, helement, hspells⟩ := hrow
    obtain ⟨hn, hfits⟩ := List.forall_mem_cons.mp hfits
    exact .cons (bind_eq_ok.mpr ⟨value, helement, hspells.toNumber hn⟩) (ih hfits)

end Aggregate

/-- An integer that is short enough to be written out and its text are interchangeable.  The
text, with any blanks around it, is read back as the integer.  Equality and order beside a
number are the same for both, and a list of the one contains the other and no other integer.
Sums, extremes, ranges and medians do not depend on how integers are given, as long as there
are doubles near them. -/
theorem Value.spells_interchangeable :
    (∀ n, (Nat.toDigits 10 n.natAbs).length ≤ digitLimit →
      ∃ s, (Value.int n).sourceText = .ok s ∧ ∀ before after : String,
        (∀ c ∈ before.toList, Text.isBlank c) → (∀ c ∈ after.toList, Text.isBlank c) →
        Number.ofText? (before ++ s ++ after) = some (.int n)) ∧
    (∀ m n a b, Value.Spells m a → Value.Spells n b → a.isNumber ∨ b.isNumber →
      ∀ relation ∈ [Comparator.equal, .notEqual, .less, .greater, .atMost, .atLeast],
        relation.holds a b = relation.holds (.int m) (.int n)) ∧
    (∀ m n s t, (Value.int m).sourceText = .ok s → (Value.int n).sourceText = .ok t →
      ∀ a ∈ [Value.int m, .text s], ∀ b ∈ [Value.int n, .text t],
        Comparator.contains.holds (.list [a]) b = .ok (decide (m = n))) ∧
    ∀ ints : List Int, (∀ n ∈ ints, (Number.int n).Fits) → ∀ rows others,
      List.Forall₂ Aggregate.Gives rows ints → List.Forall₂ Aggregate.Gives others ints →
      ∀ function ∈ [Aggregate.sum, .min, .max, .range, .median],
        function.apply rows = function.apply others := by
  refine ⟨?_, ?_, ?_, ?_⟩
  · intro n hn
    refine ⟨toString n, Value.sourceText_int.mpr ⟨hn, rfl⟩, ?_⟩
    exact fun before after hb ha => Number.ofText?_padded hn hb ha
  · intro m n a b ha hb hnumber relation hr
    exact Comparator.holds_of_ordered? hnumber ha.ordered? hb.ordered? hr
  · intro m n s t hs ht a ha b hb
    have hreads {n : Int} {s : String} (hs : (Value.int n).sourceText = .ok s) :
        ∀ a ∈ [Value.int n, .text s], a.sourceText = .ok s :=
      List.forall_mem_cons.mpr ⟨hs, List.forall_mem_singleton.mpr rfl⟩
    rw [Comparator.holds_contains_single (hreads hs a ha) (hreads ht b hb)]
    simp only [Value.sourceText_int_inj hs ht]
  · intro ints hfits rows others hrows hothers function hf
    exact Aggregate.apply_perm hf (Aggregate.counts_of_gives hrows hfits)
      (Aggregate.counts_of_gives hothers hfits) (List.Perm.refl ints)

theorem Value.spells_interchangeable_signed :
    (∃ s, (Value.int (-7)).sourceText = .ok s ∧
      Number.ofText? ("\t" ++ s ++ " ") = some (.int (-7))) ∧
    (∀ relation ∈ [Comparator.equal, .notEqual, .less, .greater, .atMost, .atLeast],
      relation.holds (.text "\t-7 ") (.int 12) = relation.holds (.int (-7)) (.int 12)) ∧
    Comparator.contains.holds (.list [.int (-7)]) (.text "-7") = .ok true ∧
    ∀ function ∈ [Aggregate.sum, .min, .max, .range, .median],
      function.apply [.text "\t-7 ", .record [("v", .text "12")]] =
        function.apply [.int (-7), .int 12] := by
  obtain ⟨hread, hcompare, hcontains, happly⟩ := Value.spells_interchangeable
  have hseven : (Value.int (-7)).sourceText = .ok "-7" :=
    Value.sourceText_int.mpr ⟨by decide +kernel, by decide +kernel⟩
  have htwelve : (Value.int 12).sourceText = .ok "12" :=
    Value.sourceText_int.mpr ⟨by decide +kernel, by decide +kernel⟩
  have htab : ∀ c ∈ "\t".toList, Text.isBlank c := by simp [Text.isBlank]
  have hspace : ∀ c ∈ " ".toList, Text.isBlank c := by simp [Text.isBlank]
  have hnone : ∀ c ∈ "".toList, Text.isBlank c := fun _ hc => absurd hc List.not_mem_nil
  have hpadded : Value.Spells (-7) (.text "\t-7 ") := .text htab hseven hspace
  have hbare : Value.Spells 12 (.text "12") := .text hnone htwelve hnone
  obtain ⟨s, hs, hpads⟩ := hread (-7) (by decide +kernel)
  refine ⟨⟨s, hs, hpads "\t" " " htab hspace⟩, hcompare _ _ _ _ hpadded .number (.inr rfl),
    hcontains _ _ _ _ hseven hseven _ (.head _) _ (.tail _ (.head _)), ?_⟩
  have hfits : ∀ n ∈ [-7, 12], (Number.int n).Fits := by
    have hbound : ∀ n ∈ [(-7 : Int), 12], n.natAbs < Double.bound := by
      unfold Double.bound
      decide +kernel
    exact hbound
  refine happly [-7, 12] hfits _ _ ?_ ?_
  · exact .cons ⟨_, rfl, hpadded⟩ (.cons ⟨_, rfl, hbare⟩ .nil)
  · exact .cons ⟨_, rfl, .number⟩ (.cons ⟨_, rfl, .number⟩ .nil)

end RecordQuery
