/-
The numerals of a query text.

A number token is digits, of any script, and perhaps a point with more digits
after it.  Such a lexeme denotes a number, whatever its length when it has a point
and up to the limit when it has none (`Scanned.numeral`).  The reader of numerals
takes much more than that, signs and blanks and names, and none of it is in the
way: a digit is no blank, no sign and no letter.
-/
import RecordQuery.Proofs.Digits
import RecordQuery.Program.Grammar

namespace RecordQuery
namespace Numeral

open Text

/-- Digits at the head of a text are read, and what is read after them starts with
a value and with as many digits more. -/
theorem digitsFrom_append {digits : Digits} {cs rest : List Char}
    (h : ∀ c ∈ cs, isDecimalDigit c) :
    ∃ value, digitsFrom digits (cs ++ rest) =
      digitsFrom ⟨value, digits.count + cs.length⟩ rest := by
  induction cs generalizing digits with
  | nil => exact ⟨digits.value, rfl⟩
  | cons c cs ih =>
    have hc := h c (by simp)
    have hne : c ≠ '_' := ne_of_isDecimalDigit hc (by decide)
    obtain ⟨d, hd⟩ := Option.isSome_iff_exists.mp hc
    obtain ⟨value, hv⟩ := @ih (digits.push d) fun c hm => h c (by simp [hm])
    refine ⟨value, ?_⟩
    rw [List.cons_append, digitsFrom.eq_def]
    split
    · next heq => simp at heq
    · next heq => exact absurd (List.cons.inj heq).1 hne
    · next heq =>
      obtain ⟨rfl, rfl⟩ := List.cons.inj heq
      rw [hd]
      dsimp only
      rw [hv, Digits.push, List.length_cons, Nat.add_assoc, Nat.add_comm 1]

/-- The form of the numbers of a query text. -/
inductive Scanned : List Char → Prop
  | whole {cs : List Char} : cs ≠ [] → (∀ c ∈ cs, isDecimalDigit c) → Scanned cs
  | decimal {cs ds : List Char} :
      cs ≠ [] → (∀ c ∈ cs, isDecimalDigit c) → ds ≠ [] → (∀ d ∈ ds, isDecimalDigit d) →
      Scanned (cs ++ '.' :: ds)

/-- How many digits a lexeme has. -/
def digitCount (lexeme : String) : Nat :=
  lexeme.toList.countP isDecimalDigit

section
variable {cs : List Char}

theorem Scanned.mem (h : Scanned cs) : ∀ c ∈ cs, c = '.' ∨ isDecimalDigit c := by
  cases h with
  | whole _ hc => exact fun c hm => .inr (hc c hm)
  | decimal _ hc _ hd =>
    intro c hm
    rcases List.mem_append.mp hm with hm | hm
    · exact .inr (hc c hm)
    rcases List.mem_cons.mp hm with rfl | hm
    · exact .inl rfl
    · exact .inr (hd c hm)

theorem Scanned.head (h : Scanned cs) : ∃ c ds, cs = c :: ds ∧ isDecimalDigit c := by
  cases h with
  | whole hne hc | decimal hne hc =>
    obtain ⟨c, ds, rfl⟩ := List.exists_cons_of_ne_nil hne
    exact ⟨c, _, rfl, hc c (by simp)⟩

theorem Scanned.trim (h : Scanned cs) : Text.trim cs = cs := by
  refine trim_of_not_blank fun c hm => ?_
  rcases h.mem c hm with rfl | hc
  · decide
  · exact isBlank_of_isDecimalDigit hc

theorem Scanned.sign (h : Scanned cs) : Numeral.sign cs = (false, cs) := by
  obtain ⟨c, ds, rfl, hc⟩ := h.head
  unfold Numeral.sign
  split
  · next heq => exact absurd (List.cons.inj heq).1 (ne_of_isDecimalDigit hc (by decide))
  · next heq => exact absurd (List.cons.inj heq).1 (ne_of_isDecimalDigit hc (by decide))
  · rfl

theorem integer?_of_digits (hne : cs ≠ []) (h : ∀ c ∈ cs, isDecimalDigit c) :
    ∃ n, integer? cs = some (n, cs.length) := by
  obtain ⟨value, hv⟩ := @digitsFrom_append .none cs [] h
  rw [List.append_nil, digitsFrom, show Digits.none.count = 0 from rfl, Nat.zero_add] at hv
  have hlen : cs.length ≠ 0 := by simpa using hne
  have hs := Scanned.whole hne h
  exact ⟨value, by simp [integer?, hs.trim, hs.sign, hv, hlen]⟩

theorem Scanned.lowercase_ne (h : Scanned cs) {d : Char} {ds : List Char}
    (hd : isDecimalDigit d = false) : lowercase cs ≠ String.ofList (d :: ds) := by
  obtain ⟨c, cs, rfl, hc⟩ := h.head
  intro heq
  have := congrArg String.toList heq
  simp only [lowercase, List.map_cons, String.toList_ofList, toLower_of_isDecimalDigit hc,
    List.cons.injEq] at this
  exact ne_of_isDecimalDigit hc hd this.1

theorem decimal?_of_digits {ds : List Char} (hne : cs ≠ [])
    (hc : ∀ c ∈ cs, isDecimalDigit c) (hds : ds ≠ []) (hd : ∀ d ∈ ds, isDecimalDigit d) :
    ∃ x, decimal? (cs ++ '.' :: ds) = some x := by
  have hs := Scanned.decimal hne hc hds hd
  obtain ⟨whole, hw⟩ := @digitsFrom_append .none cs ('.' :: ds) hc
  have hpoint : ∀ digits, digitsFrom digits ('.' :: ds) = (digits, '.' :: ds) := fun digits => by
    rw [digitsFrom]
    · have : digitValue? '.' = none := by decide
      simp [this]
    · simp
  obtain ⟨all, ha⟩ := @digitsFrom_append ⟨whole, 0⟩ ds [] hd
  rw [hpoint, show Digits.none.count = 0 from rfl, Nat.zero_add] at hw
  rw [List.append_nil, digitsFrom, Nat.zero_add] at ha
  have hlen : cs.length ≠ 0 := by simpa using hne
  have hfound : unsigned? false (cs ++ '.' :: ds) =
      some (.ofDecimal false all (0 - ds.length)) := by
    simp [unsigned?, hw, ha, hlen, exponent?]
  have hinf : ¬ (lowercase (cs ++ '.' :: ds) = "inf" ∨ lowercase (cs ++ '.' :: ds) = "infinity") :=
    not_or.mpr ⟨hs.lowercase_ne (show isDecimalDigit 'i' = false by decide),
      hs.lowercase_ne (show isDecimalDigit 'i' = false by decide)⟩
  have hnan : lowercase (cs ++ '.' :: ds) ≠ "nan" :=
    hs.lowercase_ne (show isDecimalDigit 'n' = false by decide)
  refine ⟨.ofDecimal false all (0 - ds.length), ?_⟩
  simp only [decimal?, hs.trim, hs.sign, if_neg hinf, if_neg hnan]
  exact hfound

end

end Numeral

namespace Grammar

open Numeral

/-- A scanned number denotes a number, or else it is an integer that is too long. -/
theorem numeral_scanned {lexeme : String} (h : Scanned lexeme.toList) :
    (∃ n, numeral lexeme = .ok n) ∨
      digitLimit < digitCount lexeme ∧
        numeral lexeme = .error (.badNumeral (.tooLong (digitCount lexeme))) := by
  generalize hl : lexeme.toList = cs at h
  cases h with
  | whole hne hc =>
    have hpoint : cs.contains '.' = false := by
      simp only [List.contains_eq_mem, decide_eq_false_iff_not]
      exact fun hm => absurd (hc _ hm) (by decide)
    have hcount : digitCount lexeme = cs.length := by
      rw [digitCount, hl, List.countP_eq_length.mpr hc]
    obtain ⟨n, hn⟩ := integer?_of_digits hne hc
    simp only [numeral, hl, hpoint, hn, hcount]
    by_cases hlen : cs.length ≤ digitLimit
    · exact .inl ⟨_, if_pos hlen⟩
    · exact .inr ⟨by omega, if_neg hlen⟩
  | decimal hne hc hds hd =>
    obtain ⟨x, hx⟩ := decimal?_of_digits hne hc hds hd
    exact .inl ⟨.double x, by simp [numeral, hl, hx]⟩

end Grammar
end RecordQuery
