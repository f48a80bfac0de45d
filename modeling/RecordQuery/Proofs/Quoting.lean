/-
Quoted texts lose nothing.

What stands between quotes for a character is read back as that character, whatever follows
(`Text.unescape?_escapeQuoted`), and never begins with the quote in use.  So a quoted text
ends where it seems to end, and different texts have different quoted forms
(`Text.quotedChars_append_inj`).  No character of a quoted text breaks a line.
-/
import Mathlib.Algebra.Group.Nat.Defs
import RecordQuery.Text.Lines
import RecordQuery.Text.Quoted

namespace RecordQuery
namespace Text

/-! ## Numerals -/

/-- The number that hexadecimal digits denote. -/
def ofHexadecimal (digits : List Char) : Nat :=
  digits.foldl (fun n c => 16 * n + (hexadecimalValue? c).getD 0) 0

theorem ofHexadecimal_hexadecimal (width n : Nat) :
    ofHexadecimal (hexadecimal width n) = n % 16 ^ width := by
  have hvalue : ∀ d < 16, hexadecimalValue? (Nat.digitChar d) = some d := by decide
  induction width generalizing n with
  | zero => rw [Nat.pow_zero, Nat.mod_one]; rfl
  | succ width ih =>
    rw [hexadecimal, ofHexadecimal, List.foldl_append, ← ofHexadecimal, ih, List.foldl_cons,
      List.foldl_nil, hvalue _ (Nat.mod_lt n (by decide)), Option.getD_some, Nat.pow_succ',
      Nat.mod_mul, Nat.add_comm]

/-- The character with a code point in so many digits, and what follows. -/
def codePoint (width : Nat) (cs : List Char) : Char × List Char :=
  (Char.ofNat (ofHexadecimal (cs.take width)), cs.drop width)

theorem codePoint_hexadecimal (width : Nat) {c : Char} (h : c.toNat < 16 ^ width)
    (rest : List Char) : codePoint width (hexadecimal width c.toNat ++ rest) = (c, rest) := by
  have hlength := length_hexadecimal width c.toNat
  rw [codePoint, List.take_left' hlength, List.drop_left' hlength, ofHexadecimal_hexadecimal,
    Nat.mod_eq_of_lt h, Char.ofNat_toNat]

/-! ## Characters between quotes -/

variable {q c d : Char} {cs ds rest other : List Char}

/-- The character for which a text between quotes stands at its beginning, and what
follows. -/
def unescape? : List Char → Option (Char × List Char)
  | '\\' :: 'n' :: rest => some ('\n', rest)
  | '\\' :: 'r' :: rest => some ('\r', rest)
  | '\\' :: 't' :: rest => some ('\t', rest)
  | '\\' :: 'x' :: rest => some (codePoint 2 rest)
  | '\\' :: 'u' :: rest => some (codePoint 4 rest)
  | '\\' :: 'U' :: rest => some (codePoint 8 rest)
  | '\\' :: c :: rest => some (c, rest)
  | c :: rest => some (c, rest)
  | [] => none

theorem unescape?_plain (h : c ≠ '\\') (rest : List Char) :
    unescape? (c :: rest) = some (c, rest) := by
  rw [unescape?.eq_def]
  split <;> simp_all

/-- The quotes there are. -/
def IsQuote (q : Char) : Prop :=
  q = '\'' ∨ q = '"'

theorem isQuote_quoteFor (cs : List Char) : IsQuote (quoteFor cs) := by
  unfold quoteFor
  split
  · exact .inr rfl
  · exact .inl rfl

theorem unescape?_escapeQuoted (hq : IsQuote q) (c : Char) (rest : List Char) :
    unescape? (escapeQuoted q c ++ rest) = some (c, rest) := by
  have hbound : c.toNat < 16 ^ 8 := by
    have hvalid : c.toNat < 0xd800 ∨ 0xdfff < c.toNat ∧ c.toNat < 0x110000 := c.valid
    omega
  unfold escapeQuoted
  split
  · next h =>
    rcases h with rfl | rfl
    · rcases hq with rfl | rfl <;> rfl
    · rfl
  split
  · next h => exact h ▸ rfl
  split
  · next h => exact h ▸ rfl
  split
  · next h => exact h ▸ rfl
  split
  · next h _ _ _ _ => exact unescape?_plain (fun hs => h (.inr hs)) rest
  split
  · next h => exact congrArg some (codePoint_hexadecimal 2 h rest)
  split
  · next h => exact congrArg some (codePoint_hexadecimal 4 h rest)
  · exact congrArg some (codePoint_hexadecimal 8 hbound rest)

theorem escapeQuoted_append_inj (hq : IsQuote q) :
    escapeQuoted q c ++ rest = escapeQuoted q d ++ other ↔ c = d ∧ rest = other := by
  refine ⟨fun h => ?_, by rintro ⟨rfl, rfl⟩; rfl⟩
  have hread := congrArg unescape? h
  rw [unescape?_escapeQuoted hq, unescape?_escapeQuoted hq] at hread
  exact Prod.mk.inj (Option.some.inj hread)

/-- What stands for a character does not begin with the quote. -/
theorem escapeQuoted_append_ne (hq : IsQuote q) (c : Char) (rest other : List Char) :
    escapeQuoted q c ++ rest ≠ q :: other := by
  have hslash : q ≠ '\\' := by rcases hq with rfl | rfl <;> decide
  intro h
  have hread := congrArg unescape? h
  rw [unescape?_escapeQuoted hq, unescape?_plain hslash] at hread
  obtain ⟨rfl, -⟩ := Prod.mk.inj (Option.some.inj hread)
  rw [escapeQuoted, if_pos (.inl rfl)] at h
  exact hslash (List.cons.inj h).1.symm

/-! ## Quoted texts -/

theorem flatMap_escapeQuoted_append_inj (hq : IsQuote q) :
    cs.flatMap (escapeQuoted q) ++ q :: rest = ds.flatMap (escapeQuoted q) ++ q :: other ↔
      cs = ds ∧ rest = other := by
  induction cs generalizing ds with
  | nil =>
    cases ds with
    | nil => simp
    | cons d ds =>
      rw [List.flatMap_cons, List.append_assoc]
      exact iff_of_false (fun h => escapeQuoted_append_ne hq d _ _ h.symm) (by simp)
  | cons c cs ih =>
    rw [List.flatMap_cons, List.append_assoc]
    cases ds with
    | nil => exact iff_of_false (escapeQuoted_append_ne hq c _ _) (by simp)
    | cons d ds =>
      rw [List.flatMap_cons, List.append_assoc, escapeQuoted_append_inj hq, ih, List.cons.injEq,
        and_assoc]

/-- No quoted text is the beginning of another. -/
theorem quotedChars_append_inj :
    quotedChars cs ++ rest = quotedChars ds ++ other ↔ cs = ds ∧ rest = other := by
  refine ⟨fun h => ?_, by rintro ⟨rfl, rfl⟩; rfl⟩
  simp only [quotedChars, List.cons_append, List.append_assoc, List.nil_append,
    List.cons.injEq] at h
  obtain ⟨hquote, h⟩ := h
  rw [← hquote] at h
  exact (flatMap_escapeQuoted_append_inj (isQuote_quoteFor cs)).mp h

/-! ## Lines -/

/-- The code points of the characters that break a line. -/
def breaks : List Nat :=
  [0x0a, 0x0b, 0x0c, 0x0d, 0x1c, 0x1d, 0x1e, 0x85, 0x2028, 0x2029]

/-- Characters of a class to which none of those belongs break no line. -/
theorem isLineBreak_of_class {test : Char → Bool}
    (htest : ∀ n ∈ breaks, test (Char.ofNat n) = false) (h : test c) : isLineBreak c = false := by
  rw [← Bool.not_eq_true]
  intro hbreak
  have hmem : c.toNat ∈ breaks := by
    simp only [isLineBreak, Bool.or_eq_true, Bool.and_eq_true, decide_eq_true_eq,
      beq_iff_eq] at hbreak
    simp only [breaks, List.mem_cons, List.not_mem_nil, or_false]
    omega
  have hfalse := htest _ hmem
  rw [Char.ofNat_toNat, h] at hfalse
  exact Bool.noConfusion hfalse

theorem isLineBreak_of_isPrintable (h : isPrintable c) : isLineBreak c = false :=
  isLineBreak_of_class (by decide +kernel) h

theorem isLineBreak_of_mem_hexadecimal {width n : Nat} (h : c ∈ hexadecimal width n) :
    isLineBreak c = false := by
  induction width generalizing n with
  | zero => exact absurd h List.not_mem_nil
  | succ width ih =>
    have hdigit : ∀ d < 16, isLineBreak (Nat.digitChar d) = false := by decide
    rcases List.mem_append.mp h with h | h
    · exact ih h
    · rw [List.mem_singleton.mp h]
      exact hdigit _ (Nat.mod_lt n (by decide))

theorem isLineBreak_of_mem_escapeQuoted (hq : IsQuote q) (h : d ∈ escapeQuoted q c) :
    isLineBreak d = false := by
  have hslash : isLineBreak '\\' = false := by decide
  have hquote : isLineBreak q = false := by rcases hq with rfl | rfl <;> decide
  have hescape : ∀ e width, isLineBreak e = false →
      d ∈ '\\' :: e :: hexadecimal width c.toNat → isLineBreak d = false := by
    intro e width he hm
    simp only [List.mem_cons] at hm
    rcases hm with rfl | rfl | hm
    · exact hslash
    · exact he
    · exact isLineBreak_of_mem_hexadecimal hm
  unfold escapeQuoted at h
  split at h
  · next hc =>
    refine hescape c 0 ?_ h
    rcases hc with rfl | rfl
    · exact hquote
    · exact hslash
  split at h
  · exact hescape 'n' 0 (by decide) h
  split at h
  · exact hescape 'r' 0 (by decide) h
  split at h
  · exact hescape 't' 0 (by decide) h
  split at h
  · next hprint =>
    rw [List.mem_singleton.mp h]
    exact isLineBreak_of_isPrintable hprint
  split at h
  · exact hescape 'x' 2 (by decide) h
  split at h
  · exact hescape 'u' 4 (by decide) h
  · exact hescape 'U' 8 (by decide) h

/-- Nothing in a quoted text breaks a line. -/
theorem isLineBreak_of_mem_quotedChars (h : c ∈ quotedChars cs) : isLineBreak c = false := by
  have hq := isQuote_quoteFor cs
  have hquote : isLineBreak (quoteFor cs) = false := by
    rcases hq with hq | hq <;> rw [hq] <;> decide
  simp only [quotedChars, List.cons_append, List.mem_cons, List.mem_append, List.mem_flatMap,
    List.not_mem_nil, or_false] at h
  rcases h with rfl | ⟨d, -, hd⟩ | rfl
  · exact hquote
  · exact isLineBreak_of_mem_escapeQuoted hq hd
  · exact hquote

end Text
end RecordQuery
