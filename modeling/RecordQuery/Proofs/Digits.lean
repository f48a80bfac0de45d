/-
Decimal digits and the integers they denote.

A digit, of whatever script, is no blank and no letter with a lower case of its own.
The digits of a natural number are read back as that number
(`integer?_toDigits`), and a numeral that begins with no sign denotes a number
that is not negative and has no more digits than were read.
-/
import Mathlib.Algebra.Group.Nat.Defs
import Mathlib.Data.List.TakeWhile
import RecordQuery.Number.Numeral
import RecordQuery.Value

namespace RecordQuery
namespace Text

/-- Below the digits of the other scripts there are the ten of ASCII. -/
theorem digitValue?_ascii {c : Char} (h : c.toNat < 0x660) :
    digitValue? c =
      if 0x30 ≤ c.toNat ∧ c.toNat < 0x3a then some (c.toNat - 0x30) else none := by
  have hothers : ∀ first ∈ zeroDigits.tail, 0x660 ≤ first := by decide
  have hnone : (zeroDigits.tail.find? fun first =>
      first ≤ c.toNat && c.toNat < first + 10) = none := by
    refine List.find?_eq_none.mpr fun first hf => ?_
    have := hothers first hf
    simp only [Bool.and_eq_true, decide_eq_true_eq]
    omega
  have hlist : zeroDigits = 0x30 :: zeroDigits.tail := rfl
  rw [digitValue?, hlist, List.find?_cons, hnone]
  by_cases hd : 0x30 ≤ c.toNat ∧ c.toNat < 0x3a
  · simp [hd]
  · rw [if_neg hd]
    have : (decide (0x30 ≤ c.toNat) && decide (c.toNat < 0x30 + 10)) = false := by
      simp only [Bool.and_eq_false_iff, decide_eq_false_iff_not]
      omega
    rw [this]
    rfl

theorem toNat_of_isDigit {c : Char} (h : c.isDigit) : 0x30 ≤ c.toNat ∧ c.toNat < 0x3a := by
  have : 48 ≤ c.toNat ∧ c.toNat ≤ 57 := by
    simpa [Char.isDigit, UInt32.le_iff_toNat_le] using h
  omega

theorem digitValue?_of_isDigit {c : Char} (h : c.isDigit) :
    digitValue? c = some (c.toNat - '0'.toNat) := by
  obtain ⟨h₁, h₂⟩ := toNat_of_isDigit h
  rw [digitValue?_ascii (by omega), if_pos ⟨h₁, h₂⟩]
  rfl

theorem isDecimalDigit_of_isDigit {c : Char} (h : c.isDigit) : isDecimalDigit c := by
  simp [isDecimalDigit, digitValue?_of_isDigit h]

section
variable {c : Char} (h : isDecimalDigit c)
include h

theorem isBlank_of_isDecimalDigit : isBlank c = false := by
  have hzeros : ∀ first ∈ zeroDigits, ∀ k < 10, isBlank (Char.ofNat (first + k)) = false := by
    decide +kernel
  obtain ⟨d, hd⟩ := Option.isSome_iff_exists.mp h
  obtain ⟨first, hz, -⟩ := Option.map_eq_some_iff.mp hd
  have hin := List.find?_some hz
  simp only [Bool.and_eq_true, decide_eq_true_eq] at hin
  have hc : Char.ofNat (first + (c.toNat - first)) = c := by
    rw [Nat.add_sub_cancel' hin.1, Char.ofNat_toNat]
  rw [← hc]
  exact hzeros first (List.mem_of_find?_eq_some hz) _ (by omega)

theorem ne_of_isDecimalDigit {d : Char} (hd : isDecimalDigit d = false) : c ≠ d := by
  rintro rfl
  simp [h] at hd

theorem toLower_of_isDecimalDigit : c.toLower = c := by
  have hupper : ¬ (65 ≤ c.toNat ∧ c.toNat ≤ 90) := by
    rintro ⟨h₁, h₂⟩
    rw [isDecimalDigit, digitValue?_ascii (by omega), if_neg (by omega)] at h
    simp at h
  exact dif_neg (by simpa [UInt32.le_iff_toNat_le] using hupper)

end

/-- Blanks around a text without blanks are what is trimmed. -/
theorem trim_surrounded {before cs after : List Char} (hb : ∀ c ∈ before, isBlank c)
    (ha : ∀ c ∈ after, isBlank c) (h : ∀ c ∈ cs, isBlank c = false) :
    trim (before ++ cs ++ after) = cs := by
  have hdrop : ∀ {ds : List Char}, (∀ d ∈ ds, isBlank d = false) → ds.dropWhile isBlank = ds := by
    intro ds hds
    cases ds with
    | nil => rfl
    | cons d ds => simp [hds d (by simp)]
  rw [trim, List.append_assoc, List.dropWhile_append_of_pos hb]
  cases cs with
  | nil =>
    rw [List.nil_append, List.dropWhile_eq_nil_iff.mpr ha]
    rfl
  | cons c cs =>
    rw [List.cons_append, List.dropWhile_cons_of_neg (by simp [h c List.mem_cons_self]),
      ← List.cons_append, List.reverse_append,
      List.dropWhile_append_of_pos fun c hc => ha c (List.mem_reverse.mp hc),
      hdrop fun c hc => h c (List.mem_reverse.mp hc), List.reverse_reverse]

theorem trim_of_not_blank {cs : List Char} (h : ∀ c ∈ cs, isBlank c = false) : trim cs = cs := by
  have hnone : ∀ c ∈ [], isBlank c := fun _ hc => absurd hc List.not_mem_nil
  simpa using trim_surrounded hnone hnone h

end Text

namespace Numeral

open Text

theorem digitsFrom_isDigit {digits : Digits} {cs : List Char} (h : ∀ c ∈ cs, c.isDigit) :
    digitsFrom digits cs =
      (⟨Nat.ofDigitChars 10 cs digits.value, digits.count + cs.length⟩, []) := by
  induction cs generalizing digits with
  | nil => simp [digitsFrom]
  | cons c cs ih =>
    have hc := h c (by simp)
    have hne : c ≠ '_' := by
      rintro rfl
      simp at hc
    rw [digitsFrom.eq_def]
    split
    · next heq => simp at heq
    · next heq => exact absurd (List.cons.inj heq).1 hne
    · next d ds _ heq =>
      obtain ⟨rfl, rfl⟩ := List.cons.inj heq
      rw [digitValue?_of_isDigit hc]
      dsimp only
      rw [ih fun d hd => h d (by simp [hd]), Nat.ofDigitChars_cons, Digits.push]
      simp only [List.length_cons, Nat.mul_comm 10, Nat.add_assoc, Nat.add_comm 1]

theorem isDigit_of_mem_toDigits {n : Nat} {c : Char} (h : c ∈ Nat.toDigits 10 n) : c.isDigit :=
  Nat.isDigit_of_mem_toDigits (by decide) (Nat.le_refl 10) h

theorem digitsFrom_toDigits (n : Nat) :
    digitsFrom .none (Nat.toDigits 10 n) = (⟨n, (Nat.toDigits 10 n).length⟩, []) := by
  simp [digitsFrom_isDigit fun _ => isDigit_of_mem_toDigits, Digits.none]

theorem isBlank_toDigits {n : Nat} {c : Char} (h : c ∈ Nat.toDigits 10 n) : isBlank c = false :=
  isBlank_of_isDecimalDigit (isDecimalDigit_of_isDigit (isDigit_of_mem_toDigits h))

/-- The digits of a number are a numeral for it. -/
theorem integer?_toDigits (n : Nat) :
    integer? (Nat.toDigits 10 n) = some ((n : Int), (Nat.toDigits 10 n).length) := by
  have hsign : sign (Nat.toDigits 10 n) = (false, Nat.toDigits 10 n) := by
    unfold sign
    split
    · next h => exact absurd (@isDigit_of_mem_toDigits n '-' (by simp [h])) (by decide)
    · next h => exact absurd (@isDigit_of_mem_toDigits n '+' (by simp [h])) (by decide)
    · rfl
  simp [integer?, trim_of_not_blank fun _ => isBlank_toDigits, hsign, digitsFrom_toDigits]

theorem integer?_neg_toDigits (n : Nat) :
    integer? ('-' :: Nat.toDigits 10 n) = some (-(n : Int), (Nat.toDigits 10 n).length) := by
  have htrim : trim ('-' :: Nat.toDigits 10 n) = '-' :: Nat.toDigits 10 n :=
    trim_of_not_blank (List.forall_mem_cons.mpr ⟨by decide, fun _ => isBlank_toDigits⟩)
  simp [integer?, htrim, sign, digitsFrom_toDigits]

theorem length_toDigits_le {n count : Nat} (hc : 0 < count) (h : n < Nat.pow 10 count) :
    (Nat.toDigits 10 n).length ≤ count :=
  (Nat.length_toDigits_le_iff (by omega) hc).mpr h

/-- Integers that can be written out have no more digits than can be read. -/
theorem length_toDigits_le_digitLimit {n : Nat} (h : n < Value.firstUnwritable) :
    (Nat.toDigits 10 n).length ≤ digitLimit := by
  have hlt : ∀ {limit : Nat}, 0 < limit → n < Nat.pow 10 limit →
      (Nat.toDigits 10 n).length ≤ limit := length_toDigits_le
  unfold Value.firstUnwritable at h
  exact hlt (by decide) h

theorem lt_firstUnwritable {n count : Nat} (h : n < 10 ^ count) (hc : count ≤ digitLimit) :
    n < Value.firstUnwritable := by
  have hlt : ∀ {limit : Nat}, count ≤ limit → n < Nat.pow 10 limit :=
    fun hle => Nat.lt_of_lt_of_le h (Nat.pow_le_pow_right (by omega) hle)
  unfold Value.firstUnwritable
  exact hlt hc

theorem digitsFrom_lt {digits : Digits} {cs : List Char}
    (h : digits.value < 10 ^ digits.count) :
    (digitsFrom digits cs).1.value < 10 ^ (digitsFrom digits cs).1.count := by
  have hpush : ∀ {digits : Digits} {d : Nat}, digits.value < 10 ^ digits.count → d < 10 →
      (digits.push d).value < 10 ^ (digits.push d).count := by
    intro digits d h hd
    simp only [Digits.push, Nat.pow_succ]
    omega
  fun_induction digitsFrom digits cs with
  | case1 => exact h
  | case2 => exact h
  | case3 _ c rest d hd _ ih => exact ih (hpush h (digitValue?_lt hd))
  | case4 => exact h
  | case5 _ c rest d hd _ ih => exact ih (hpush h (digitValue?_lt ‹_›))
  | case6 => exact h

/-- What an integer numeral denotes has no more digits than the numeral. -/
theorem natAbs_lt_of_integer? {cs : List Char} {n : Int} {count : Nat}
    (h : integer? cs = some (n, count)) : n.natAbs < 10 ^ count := by
  simp only [integer?] at h
  split at h
  · next digits hd =>
    split at h
    · simp at h
    · simp only [Option.some.injEq, Prod.mk.injEq] at h
      obtain ⟨rfl, rfl⟩ := h
      have hlt := @digitsFrom_lt .none (sign (trim cs)).2 (by simp [Digits.none])
      rw [hd] at hlt
      split <;> simpa using hlt
  · simp at h

theorem nonneg_of_integer? {cs : List Char} {n : Int} {count : Nat} (hs : '-' ∉ cs)
    (h : integer? cs = some (n, count)) : 0 ≤ n := by
  have htrim : '-' ∉ trim cs := by
    intro hm
    refine hs ((List.dropWhile_sublist isBlank).subset ?_)
    have := (List.dropWhile_sublist isBlank).subset (List.mem_reverse.mp hm)
    simpa using this
  have hsign : (sign (trim cs)).1 = false := by
    unfold sign
    split
    · next heq => exact absurd (by simp [heq]) htrim
    · rfl
    · rfl
  simp only [integer?, hsign] at h
  split at h
  · split at h
    · simp at h
    · simp only [Option.some.injEq, Prod.mk.injEq] at h
      simp [← h.1]
  · simp at h

end Numeral
end RecordQuery
