/-
What a token is cut from.

`Cut c cs kind tail` says by what a token is how far it reaches: the token that
begins with `c` has the kind `kind`, and of the characters `cs` after `c` the first
`tail` belong to it.  This is what `measure` computes (`Cut.measure_eq`).

A cut looks one character beyond its token at most, and never beyond white space.
So it is the same when the text ends with the token (`Cut.take`) and when white
space comes after the text (`Cut.append`); only an unclosed quote reaches as far as
the text does, and only a comment goes on over white space up to the line's end.
-/
import Mathlib.Data.List.TakeWhile
import RecordQuery.Proofs.Numerals
import RecordQuery.Token.Lexer

namespace RecordQuery
namespace Token

/-! ## Runs of characters -/

section
variable {test : Char → Bool} {cs rest : List Char}

theorem run_append (h : ∀ c ∈ cs, test c) (hr : ∀ c ∈ rest.head?, test c = false) :
    run test (cs ++ rest) = cs.length := by
  have hrest : rest.takeWhile test = [] := by
    cases rest with
    | nil => rfl
    | cons c rest => simp [hr c rfl]
  rw [run, List.takeWhile_append_of_pos h, hrest, List.append_nil]

theorem run_of_forall (h : ∀ c ∈ cs, test c) : run test cs = cs.length := by
  rw [run, List.takeWhile_eq_self_iff.mpr h]

/-- A character that fails the test ends a run, whatever comes after it. -/
theorem takeWhile_append_stop {d : Char} (hd : test d = false) :
    (cs ++ d :: rest).takeWhile test = cs.takeWhile test := by
  induction cs with
  | nil => simp [hd]
  | cons c cs ih => simp only [List.cons_append, List.takeWhile_cons, ih]

theorem run_append_stop {d : Char} (hd : test d = false) :
    run test (cs ++ d :: rest) = run test cs := by
  rw [run, run, takeWhile_append_stop hd]

/-- A run that ends within a text does not look beyond it. -/
theorem run_append_of_lt (h : run test cs < cs.length) :
    run test (cs ++ rest) = run test cs := by
  rw [run, run, List.takeWhile_append, if_neg]
  exact Nat.ne_of_lt h

theorem run_le_length (test : Char → Bool) (cs : List Char) : run test cs ≤ cs.length :=
  (List.takeWhile_prefix test).length_le

theorem take_run (test : Char → Bool) (cs : List Char) :
    cs.take (run test cs) = cs.takeWhile test :=
  (List.prefix_iff_eq_take.mp (List.takeWhile_prefix test)).symm

theorem run_take {n : Nat} (h : run test cs ≤ n) : run test (cs.take n) = run test cs := by
  rw [run, ← List.take_takeWhile, List.length_take]
  exact Nat.min_eq_right h

theorem mem_take_run {c : Char} (h : c ∈ cs.take (run test cs)) : test c := by
  rw [take_run] at h
  exact List.all_eq_true.mp List.all_takeWhile c h

/-- The character after a run that ends at a given character. -/
theorem take_run_succ {q : Char} (h : run (· ≠ q) cs < cs.length) :
    cs.take (run (· ≠ q) cs + 1) = cs.take (run (· ≠ q) cs) ++ [q] := by
  induction cs with
  | nil => simp at h
  | cons c cs ih =>
    by_cases hc : c = q
    · simp [run, hc]
    · have hrun : run (· ≠ q) (c :: cs) = run (· ≠ q) cs + 1 := by simp [run, hc]
      rw [hrun] at h ⊢
      rw [List.take_succ_cons, List.take_succ_cons, ih (Nat.lt_of_succ_lt_succ h),
        List.cons_append]

end

/-! ## Characters of names -/

theorem toNat_of_isAlpha {c : Char} (h : c.isAlpha) :
    (65 ≤ c.toNat ∧ c.toNat ≤ 90) ∨ (97 ≤ c.toNat ∧ c.toNat ≤ 122) := by
  have hor : (c.isUpper || c.isLower) = true := h
  rcases Bool.or_eq_true_iff.mp hor with h | h
  · obtain ⟨h₁, h₂⟩ : 65 ≤ c.val ∧ c.val ≤ 90 := of_decide_eq_true h
    exact .inl ⟨UInt32.le_iff_toNat_le.mp h₁, UInt32.le_iff_toNat_le.mp h₂⟩
  · obtain ⟨h₁, h₂⟩ := Bool.and_eq_true_iff.mp h
    exact .inr ⟨UInt32.le_iff_toNat_le.mp (of_decide_eq_true h₁),
      UInt32.le_iff_toNat_le.mp (of_decide_eq_true h₂)⟩

theorem isDecimalDigit_of_isNameStart {c : Char} (h : isNameStart c) :
    Text.isDecimalDigit c = false := by
  have hc : (65 ≤ c.toNat ∧ c.toNat ≤ 90) ∨ (97 ≤ c.toNat ∧ c.toNat ≤ 122) ∨ c.toNat = 95 := by
    simp only [isNameStart, Bool.or_eq_true, decide_eq_true_eq] at h
    rcases h with h | rfl
    · rcases toNat_of_isAlpha h with h | h
      · exact .inl h
      · exact .inr (.inl h)
    · exact .inr (.inr rfl)
  rw [Text.isDecimalDigit, Text.digitValue?_ascii (by omega), if_neg (by omega)]
  rfl

theorem ne_of_isNameStart {c d : Char} (h : isNameStart c) (hd : isNameStart d = false) :
    c ≠ d := by
  rintro rfl
  simp [h] at hd

theorem isLayout_cases {c : Char} (h : isLayout c) :
    c = ' ' ∨ c = '\t' ∨ c = '\r' ∨ c = '\n' := by
  simpa [isLayout, or_assoc] using h

/-! ## Numbers -/

/-- How far a number extends over a point. -/
def pointTail : List Char → Nat
  | '.' :: d :: more => if Text.isDecimalDigit d then 2 + run Text.isDecimalDigit more else 0
  | _ => 0

/-- The digits of a number, and what extends it over a point. -/
theorem numeralTail_eq (cs : List Char) :
    numeralTail cs =
      run Text.isDecimalDigit cs + pointTail (cs.drop (run Text.isDecimalDigit cs)) := by
  unfold numeralTail
  dsimp only
  split
  · next d more hdrop =>
    rw [hdrop, pointTail]
    split
    · rw [Nat.add_assoc]
    · rfl
  · next hdrop =>
    rw [pointTail]
    · rfl
    · exact hdrop

theorem pointTail_cases (cs : List Char) :
    pointTail cs = 0 ∨ ∃ d more, cs = '.' :: d :: more ∧ Text.isDecimalDigit d ∧
      pointTail cs = 2 + run Text.isDecimalDigit more := by
  unfold pointTail
  split
  · next d more =>
    split
    · next hd => exact .inr ⟨d, more, rfl, hd, rfl⟩
    · exact .inl rfl
  · exact .inl rfl

theorem pointTail_le_length (cs : List Char) : pointTail cs ≤ cs.length := by
  rcases pointTail_cases cs with h | ⟨d, more, rfl, -, h⟩
  · omega
  · have := run_le_length Text.isDecimalDigit more
    simp only [List.length_cons]
    omega

theorem pointTail_take (cs : List Char) : pointTail (cs.take (pointTail cs)) = pointTail cs := by
  rcases pointTail_cases cs with h | ⟨d, more, rfl, hd, h⟩
  · rw [h, List.take_zero]
    rfl
  · rw [h, Nat.add_comm, List.take_succ_cons, List.take_succ_cons]
    simp only [pointTail, hd, if_true, run_take (Nat.le_refl _)]
    omega

theorem pointTail_append {cs rest : List Char} {d : Char} (hd : Text.isDecimalDigit d = false)
    (hp : d ≠ '.') : pointTail (cs ++ d :: rest) = pointTail cs := by
  cases cs with
  | nil =>
    unfold pointTail
    split
    · next h => exact absurd (List.cons.inj h).1 hp
    · rfl
  | cons c cs =>
    by_cases hc : c = '.'
    · subst hc
      cases cs with
      | nil => simp [pointTail, hd]
      | cons e cs => simp only [List.cons_append, pointTail, run_append_stop hd]
    · have hnone : ∀ ds : List Char, pointTail (c :: ds) = 0 := fun ds => by
        unfold pointTail
        split
        · next h => exact absurd (List.cons.inj h).1 hc
        · rfl
      rw [List.cons_append, hnone, hnone]

theorem numeralTail_le_length (cs : List Char) : numeralTail cs ≤ cs.length := by
  have h₁ := run_le_length Text.isDecimalDigit cs
  have h₂ := pointTail_le_length (cs.drop (run Text.isDecimalDigit cs))
  rw [List.length_drop] at h₂
  rw [numeralTail_eq]
  omega

theorem numeralTail_take (cs : List Char) :
    numeralTail (cs.take (numeralTail cs)) = numeralTail cs := by
  have hle : run Text.isDecimalDigit cs ≤ numeralTail cs := by
    rw [numeralTail_eq]
    omega
  have hrest : numeralTail cs - run Text.isDecimalDigit cs =
      pointTail (cs.drop (run Text.isDecimalDigit cs)) := by
    rw [numeralTail_eq]
    omega
  rw [numeralTail_eq (cs.take _), run_take hle, List.drop_take, hrest, pointTail_take,
    ← numeralTail_eq]

theorem numeralTail_append {cs rest : List Char} {d : Char}
    (hd : Text.isDecimalDigit d = false) (hp : d ≠ '.') :
    numeralTail (cs ++ d :: rest) = numeralTail cs := by
  rw [numeralTail_eq, numeralTail_eq, run_append_stop hd,
    List.drop_append_of_le_length (run_le_length _ cs), pointTail_append hd hp]

/-- Numbers have the form that denotes a number. -/
theorem scanned_take_numeralTail {c : Char} {cs : List Char} (hc : Text.isDecimalDigit c) :
    Numeral.Scanned (c :: cs.take (numeralTail cs)) := by
  have hwhole : ∀ d ∈ c :: cs.takeWhile Text.isDecimalDigit, Text.isDecimalDigit d :=
    List.forall_mem_cons.mpr ⟨hc, List.all_eq_true.mp List.all_takeWhile⟩
  rw [numeralTail_eq, List.take_add, take_run]
  rcases pointTail_cases (cs.drop (run Text.isDecimalDigit cs)) with h | ⟨d, more, hdrop, hd, h⟩
  · rw [h, List.take_zero, List.append_nil]
    exact .whole (List.cons_ne_nil c _) hwhole
  · rw [h, hdrop, Nat.add_comm, List.take_succ_cons, List.take_succ_cons, take_run,
      ← List.cons_append]
    exact .decimal (List.cons_ne_nil c _) hwhole (List.cons_ne_nil d _)
      (List.forall_mem_cons.mpr ⟨hd, List.all_eq_true.mp List.all_takeWhile⟩)

/-! ## Operators and punctuation -/

/-- The kinds of words. -/
def Kind.words : List Kind :=
  keywords ++ [boolean, null, identifier]

theorem Kind.ofWord_mem (word : String) : Kind.ofWord word ∈ Kind.words := by
  unfold Kind.ofWord
  split
  · next kind hf => exact List.mem_append_left _ (List.mem_of_find?_eq_some hf)
  · split
    · decide
    · split <;> decide

/-- The kinds of operators and punctuation. -/
def Kind.signs : List Kind :=
  [comparator .equal, comparator .notEqual, comparator .greater, comparator .less,
    comparator .atLeast, comparator .atMost, leftParen, rightParen, leftBracket, rightBracket,
    comma, dot, asterisk, ampersand, pipe, not, unknown]

theorem symbol_mem (c : Char) (next : Option Char) : (symbol c next).1 ∈ Kind.signs := by
  unfold symbol
  split <;> decide

/-- Only an equals sign makes an operator longer. -/
theorem symbol_of_ne {c : Char} {next : Option Char} (h : next ≠ some '=') :
    symbol c next = symbol c none := by
  unfold symbol
  split <;> simp_all

theorem symbol_none (c : Char) : (symbol c none).2 = 0 := by
  unfold symbol
  split <;> simp_all

theorem symbol_unknown {c : Char} {next : Option Char} (h : (symbol c next).1 = .unknown) :
    (symbol c next).2 = 0 := by
  unfold symbol at h ⊢
  split at h <;> simp_all

theorem symbol_cases (c : Char) (next : Option Char) :
    symbol c next = symbol c none ∨ next = some '=' ∧ (symbol c next).2 = 1 := by
  by_cases hn : next = some '='
  · subst hn
    unfold symbol
    split <;> simp_all
  · exact .inl (symbol_of_ne hn)

/-! ## Cuts -/

/-- Characters that are no white space and begin no text, number, variable or word. -/
def isSign (c : Char) : Bool :=
  !isLayout c && c ≠ '"' && c ≠ '\'' && !Text.isDecimalDigit c && c ≠ '$' && !isNameStart c

/-- The kind of the token that begins with a character and how many of the characters
after it belong to it, by what the token is. -/
inductive Cut (c : Char) (cs : List Char) : Kind → Nat → Prop
  | comment : c = '/' → cs.head? = some '/' → Cut c cs .comment (run (· ≠ '\n') cs)
  | string : c = '"' ∨ c = '\'' → run (· ≠ c) cs < cs.length →
      Cut c cs .string (run (· ≠ c) cs + 1)
  | unclosed : c = '"' ∨ c = '\'' → ¬ run (· ≠ c) cs < cs.length →
      Cut c cs .unknown (run (· ≠ c) cs)
  | number : Text.isDecimalDigit c → Cut c cs .number (numeralTail cs)
  | reference : c = '$' → Cut c cs .reference (run isNameChar cs)
  | word : isNameStart c →
      Cut c cs (Kind.ofWord (String.ofList (c :: cs.takeWhile isNameChar))) (run isNameChar cs)
  | sign : isSign c → ¬ (c = '/' ∧ cs.head? = some '/') →
      Cut c cs (symbol c cs.head?).1 (symbol c cs.head?).2

section
variable {c : Char} {cs : List Char} {kind : Kind} {tail : Nat}

/-- Every character is white space or begins a token. -/
theorem isLayout_or_cut (c : Char) (cs : List Char) :
    isLayout c ∨ ∃ kind tail, Cut c cs kind tail := by
  by_cases hl : isLayout c
  · exact .inl hl
  right
  by_cases hs : c = '/' ∧ cs.head? = some '/'
  · exact ⟨_, _, .comment hs.1 hs.2⟩
  by_cases hq : c = '"' ∨ c = '\''
  · by_cases hlt : run (· ≠ c) cs < cs.length
    · exact ⟨_, _, .string hq hlt⟩
    · exact ⟨_, _, .unclosed hq hlt⟩
  by_cases hd : Text.isDecimalDigit c
  · exact ⟨_, _, .number hd⟩
  by_cases hr : c = '$'
  · exact ⟨_, _, .reference hr⟩
  by_cases hn : isNameStart c
  · exact ⟨_, _, .word hn⟩
  rw [not_or] at hq
  exact ⟨_, _, .sign (by simp [isSign, hl, hq, hd, hr, hn]) hs⟩

/-- No character begins two kinds of token, so `measure` finds the one it begins. -/
theorem Cut.measure_eq (h : Cut c cs kind tail) : measure c cs = (some kind, tail) := by
  cases h with
  | comment hc hh =>
    have hl : isLayout '/' = false := by decide
    simp [measure, hl, hc, hh]
  | string hq hlt =>
    have hl : isLayout c = false := by rcases hq with rfl | rfl <;> decide
    have hs : c ≠ '/' := by rcases hq with rfl | rfl <;> decide
    simp only [measure, hl, hs, hq, hlt]
    simp
  | unclosed hq hlt =>
    have hl : isLayout c = false := by rcases hq with rfl | rfl <;> decide
    have hs : c ≠ '/' := by rcases hq with rfl | rfl <;> decide
    simp only [measure, hl, hs, hq, hlt]
    simp
  | number hd =>
    have hl : isLayout c = false := by
      by_cases h : isLayout c
      · rcases isLayout_cases h with rfl | rfl | rfl | rfl <;> exact absurd hd (by decide)
      · simpa using h
    have hne : ∀ d : Char, Text.isDecimalDigit d = false → c ≠ d :=
      fun d => Text.ne_of_isDecimalDigit hd
    simp [measure, hl, hd, hne '/' (by decide), hne '"' (by decide), hne '\'' (by decide)]
  | reference hr =>
    have hl : isLayout '$' = false := by decide
    have hd : Text.isDecimalDigit '$' = false := by decide
    simp [measure, hl, hr, hd]
  | word hn =>
    have hl : isLayout c = false := by
      by_cases h : isLayout c
      · rcases isLayout_cases h with rfl | rfl | rfl | rfl <;> exact absurd hn (by decide)
      · simpa using h
    have hne : ∀ d : Char, isNameStart d = false → c ≠ d := fun d => ne_of_isNameStart hn
    simp [measure, hl, hn, isDecimalDigit_of_isNameStart hn, hne '/' (by decide),
      hne '"' (by decide), hne '\'' (by decide), hne '$' (by decide)]
  | sign hc hs =>
    simp only [isSign, Bool.and_eq_true, Bool.not_eq_eq_eq_not, Bool.not_true, ne_eq,
      decide_eq_true_eq] at hc
    obtain ⟨⟨⟨⟨⟨hl, hq⟩, hq'⟩, hd⟩, hr⟩, hn⟩ := hc
    simp [measure, hl, hs, hq, hq', hd, hr, hn]

theorem Cut.isLayout_eq_false (h : Cut c cs kind tail) : isLayout c = false := by
  by_cases hl : isLayout c
  · have hmeasure := h.measure_eq
    rw [measure, if_pos hl] at hmeasure
    cases hmeasure
  · simpa using hl

theorem Cut.tail_le_length (h : Cut c cs kind tail) : tail ≤ cs.length := by
  cases h with
  | comment | unclosed | reference | word => exact run_le_length _ cs
  | string _ hlt => exact hlt
  | number => exact numeralTail_le_length cs
  | sign =>
    obtain h | ⟨hn, h⟩ := symbol_cases c cs.head?
    · rw [h, symbol_none]
      exact Nat.zero_le _
    · have : cs ≠ [] := by
        rintro rfl
        cases hn
      have := List.length_pos_iff.mpr this
      omega

theorem Cut.kind_ne_endOfText (h : Cut c cs kind tail) : kind ≠ .endOfText := by
  cases h with
  | comment | string | unclosed | number | reference => simp
  | word =>
    intro hk
    exact absurd (hk ▸ Kind.ofWord_mem _) (by decide)
  | sign =>
    intro hk
    exact absurd (hk ▸ symbol_mem c cs.head?) (by decide)

theorem Cut.string_inv (h : Cut c cs .string tail) :
    (c = '"' ∨ c = '\'') ∧ run (· ≠ c) cs < cs.length ∧ tail = run (· ≠ c) cs + 1 := by
  generalize hk : Kind.string = kind at h
  cases h with
  | comment | unclosed | number | reference => cases hk
  | string hq hlt => exact ⟨hq, hlt, rfl⟩
  | word => exact absurd (hk ▸ Kind.ofWord_mem _) (by decide)
  | sign => exact absurd (hk ▸ symbol_mem c cs.head?) (by decide)

theorem Cut.scanned (h : Cut c cs kind tail) (hk : kind = .number) :
    Numeral.Scanned (c :: cs.take tail) := by
  cases h with
  | number hd => exact scanned_take_numeralTail hd
  | comment | string | unclosed | reference => cases hk
  | word => exact absurd (hk ▸ Kind.ofWord_mem _) (by decide)
  | sign => exact absurd (hk ▸ symbol_mem c cs.head?) (by decide)

/-- A token of no known kind is a stray character, or a quote with the whole rest of
the text. -/
theorem Cut.unknown_cases (h : Cut c cs .unknown tail) :
    ((c = '"' ∨ c = '\'') ∧ tail = cs.length ∧ c ∉ cs) ∨ (c ≠ '"' ∧ c ≠ '\'' ∧ tail = 0) := by
  generalize hk : Kind.unknown = kind at h
  cases h with
  | comment | string | number | reference => cases hk
  | unclosed hq hlt =>
    have hrun : run (· ≠ c) cs = cs.length :=
      Nat.le_antisymm (run_le_length _ cs) (Nat.le_of_not_lt hlt)
    refine .inl ⟨hq, hrun, fun hc => ?_⟩
    rw [← List.take_length (l := cs), ← hrun] at hc
    simpa using mem_take_run hc
  | word => exact absurd (hk ▸ Kind.ofWord_mem _) (by decide)
  | sign hc =>
    simp only [isSign, Bool.and_eq_true, decide_eq_true_eq, ne_eq] at hc
    exact .inr ⟨hc.1.1.1.1.2, hc.1.1.1.2, symbol_unknown hk.symm⟩

/-- A text between two quotes that does not contain the quote. -/
theorem Cut.quoted {q : Char} (hq : q = '"' ∨ q = '\'') (hcs : ∀ d ∈ cs, d ≠ q) :
    Cut q (cs ++ [q]) .string (cs ++ [q]).length := by
  have hrun : run (· ≠ q) (cs ++ [q]) = cs.length := run_append (by simpa using hcs) (by simp)
  have hcut := @Cut.string q (cs ++ [q]) hq (by rw [hrun, List.length_append]; simp)
  rw [hrun] at hcut
  simpa using hcut

/-- What comes after a token is not needed to cut it. -/
theorem Cut.take (h : Cut c cs kind tail) : Cut c (cs.take tail) kind tail := by
  cases h with
  | comment hc hh =>
    obtain ⟨ds, rfl⟩ := List.head?_eq_some_iff.mp hh
    have hcut := @Cut.comment c (('/' :: ds).take (run (· ≠ '\n') ('/' :: ds))) hc (by simp [run])
    rwa [run_take (Nat.le_refl _)] at hcut
  | string hq hlt =>
    have hrun : run (· ≠ c) (cs.take (run (· ≠ c) cs + 1)) = run (· ≠ c) cs :=
      run_take (Nat.le_succ _)
    have hcut := @Cut.string c (cs.take (run (· ≠ c) cs + 1)) hq (by
      rw [hrun, List.length_take]
      omega)
    rwa [hrun] at hcut
  | unclosed hq hlt =>
    rw [List.take_of_length_le (Nat.le_of_not_lt hlt)]
    exact .unclosed hq hlt
  | number hd =>
    have hcut := @Cut.number c (cs.take (numeralTail cs)) hd
    rwa [numeralTail_take] at hcut
  | reference hr =>
    have hcut := @Cut.reference c (cs.take (run isNameChar cs)) hr
    rwa [run_take (Nat.le_refl _)] at hcut
  | word hn =>
    have hcut := @Cut.word c (cs.take (run isNameChar cs)) hn
    rwa [run_take (Nat.le_refl _), ← List.take_takeWhile, run, List.take_length] at hcut
  | sign hc hs =>
    obtain h | ⟨hn, h⟩ := symbol_cases c cs.head?
    · have hcut := @Cut.sign c [] hc (by simp)
      rw [h, symbol_none, List.take_zero]
      rwa [List.head?_nil, symbol_none] at hcut
    · obtain ⟨ds, rfl⟩ := List.head?_eq_some_iff.mp hn
      have hcut := @Cut.sign c ['='] hc (by simp)
      rw [h, List.take_succ_cons, List.take_zero]
      rw [List.head?_cons] at h
      rwa [List.head?_cons, h] at hcut

/-- A token that is cut from a text is cut from it also where white space comes after
the text. -/
theorem Cut.append {separator : Char} {rest : List Char} (hs : isLayout separator)
    (h : Cut c cs kind tail) (hcomment : kind = .comment → separator = '\n')
    (hclosed : kind = .unknown → c ≠ '"' ∧ c ≠ '\'') :
    Cut c (cs ++ separator :: rest) kind tail := by
  have hname : isNameChar separator = false := by
    rcases isLayout_cases hs with rfl | rfl | rfl | rfl <;> decide
  have hdigit : Text.isDecimalDigit separator = false := by
    rcases isLayout_cases hs with rfl | rfl | rfl | rfl <;> decide
  have hne : separator ≠ '.' ∧ separator ≠ '/' ∧ separator ≠ '=' := by
    rcases isLayout_cases hs with rfl | rfl | rfl | rfl <;> decide
  have hhead : ∀ d, d ≠ separator → (cs ++ separator :: rest).head? = some d →
      cs.head? = some d := by
    intro d hd h
    cases cs with
    | nil => exact absurd (Option.some.inj h).symm hd
    | cons => exact h
  cases h with
  | comment hc hh =>
    obtain rfl := hcomment rfl
    have hcut := @Cut.comment c (cs ++ '\n' :: rest) hc (by rw [List.head?_append, hh]; rfl)
    rwa [run_append_stop (by simp)] at hcut
  | string hq hlt =>
    have hrun : run (· ≠ c) (cs ++ separator :: rest) = run (· ≠ c) cs := run_append_of_lt hlt
    have hcut := @Cut.string c (cs ++ separator :: rest) hq (by
      rw [hrun, List.length_append]
      omega)
    rwa [hrun] at hcut
  | unclosed hq =>
    obtain ⟨h₁, h₂⟩ := hclosed rfl
    exact absurd hq (not_or.mpr ⟨h₁, h₂⟩)
  | number hd =>
    have hcut := @Cut.number c (cs ++ separator :: rest) hd
    rwa [numeralTail_append hdigit hne.1] at hcut
  | reference hr =>
    have hcut := @Cut.reference c (cs ++ separator :: rest) hr
    rwa [run_append_stop hname] at hcut
  | word hn =>
    have hcut := @Cut.word c (cs ++ separator :: rest) hn
    rwa [run_append_stop hname, takeWhile_append_stop hname] at hcut
  | sign hc hsl =>
    have hcut := @Cut.sign c (cs ++ separator :: rest) hc fun h =>
      hsl ⟨h.1, hhead '/' (Ne.symm hne.2.1) h.2⟩
    have hsym : symbol c (cs ++ separator :: rest).head? = symbol c cs.head? := by
      cases cs with
      | nil => exact symbol_of_ne (by simpa using hne.2.2)
      | cons => rfl
    rwa [hsym] at hcut

end

end Token
end RecordQuery
