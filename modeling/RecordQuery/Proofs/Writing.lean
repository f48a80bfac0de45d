/-
The text that is written for a value.

A text in quotes, whatever it escapes, is read back as it was (`Json.string_textChars`).
Values whose numbers are integers are told apart by what is written for them: no written
text is the beginning of another, unless a digit follows it (`Json.chars_append_inj`), and
so different values never have one text (`Json.chars_inj`), in whatever style they are
written.

The argument follows the value.  The first character of a text tells the kind of the value
(`Json.first_chars`), and between the parts of a list or record stands a mark that can
neither prolong a part nor be taken for the end.
-/
import RecordQuery.Json.Reader
import RecordQuery.Json.Writer
import RecordQuery.Proofs.Digits
import RecordQuery.Proofs.Nesting

namespace RecordQuery
namespace Json

open Text

/-! ## Escapes -/

/-- No character is half of a surrogate pair. -/
theorem charOf_toNat (c : Char) : isHighSurrogate c.toNat = false ∧ charOf c.toNat = c := by
  have hvalid : c.toNat < 0xd800 ∨ 0xdfff < c.toNat ∧ c.toNat < 0x110000 := c.valid
  have hhigh : isHighSurrogate c.toNat = false := by
    simp only [isHighSurrogate, Bool.and_eq_false_iff, decide_eq_false_iff_not]
    omega
  have hlow : isLowSurrogate c.toNat = false := by
    simp only [isLowSurrogate, Bool.and_eq_false_iff, decide_eq_false_iff_not]
    omega
  refine ⟨hhigh, ?_⟩
  rw [charOf, hhigh, hlow]
  exact Char.ofNat_toNat c

/-- A code point beyond sixteen bits is what its two surrogates denote. -/
theorem surrogates_of_lt {offset : Nat} (h : offset < 0x100000) :
    isHighSurrogate (0xd800 + offset / 0x400) ∧ isLowSurrogate (0xdc00 + offset % 0x400) ∧
      0x10000 + (0xd800 + offset / 0x400 - 0xd800) * 0x400 +
        (0xdc00 + offset % 0x400 - 0xdc00) = 0x10000 + offset := by
  simp only [isHighSurrogate, isLowSurrogate, Bool.and_eq_true, decide_eq_true_eq]
  omega

theorem drop_hexadecimal (n : Nat) (rest : List Char) : (hexadecimal 4 n ++ rest).drop 4 = rest :=
  List.drop_left' (length_hexadecimal 4 n)

section
variable {rest : List Char} (hr : rest ≠ [])

include hr

theorem codeUnit?_hexadecimal {n : Nat} (h : n < 0x10000) :
    codeUnit? (hexadecimal 4 n ++ rest) = some n := by
  have hvalue : ∀ d < 16, hexadecimalValue? (Nat.digitChar d) = some d := by decide
  cases rest with
  | nil => exact absurd rfl hr
  | cons c cs =>
    let digits := [n / 16 / 16 / 16 % 16, n / 16 / 16 % 16, n / 16 % 16, n % 16]
    have hread : (digits.map Nat.digitChar).mapM hexadecimalValue? = some digits := by
      simp [digits, hvalue, Nat.mod_lt]
    show ((digits.map Nat.digitChar).mapM hexadecimalValue?).bind _ = _
    rw [hread]
    show some ((((0 * 16 + n / 16 / 16 / 16 % 16) * 16 + n / 16 / 16 % 16) * 16 +
      n / 16 % 16) * 16 + n % 16) = some n
    congr 1
    omega

theorem codePointEscape_single {n : Nat} (h : n < 0x10000) (hs : isHighSurrogate n = false) :
    codePointEscape (hexadecimal 4 n ++ rest) = .ok (charOf n, 5) := by
  rw [codePointEscape, codeUnit?_hexadecimal hr h]
  dsimp only
  rw [hs]

theorem codePointEscape_pair {high low : Nat} (hh : isHighSurrogate high)
    (hl : isLowSurrogate low) :
    codePointEscape (hexadecimal 4 high ++ '\\' :: 'u' :: (hexadecimal 4 low ++ rest)) =
      .ok (Char.ofNat (0x10000 + (high - 0xd800) * 0x400 + (low - 0xdc00)), 11) := by
  have hhigh : 0xd800 ≤ high ∧ high < 0xdc00 := by simpa [isHighSurrogate] using hh
  have hlow : 0xdc00 ≤ low ∧ low < 0xe000 := by simpa [isLowSurrogate] using hl
  have hlength : ¬ (hexadecimal 4 low ++ rest).length < 5 := by
    have := List.length_pos_iff.mpr hr
    rw [List.length_append, length_hexadecimal]
    omega
  rw [codePointEscape, codeUnit?_hexadecimal (List.cons_ne_nil _ _) (by omega)]
  dsimp only
  rw [hh, drop_hexadecimal]
  show (if _ then _ else _) = _
  rw [if_neg hlength, codeUnit?_hexadecimal hr (by omega)]
  exact if_pos hl

/-- The escape of a code point is read as the character that has it. -/
theorem escape_escapeCodePoint (opening : List Char) (c : Char) :
    ∃ body length, escapeCodePoint c.toNat ++ rest = '\\' :: body ∧
      escape opening body = .ok (c, length) ∧ body.drop length = rest := by
  unfold escapeCodePoint
  by_cases hn : c.toNat < 0x10000
  · obtain ⟨hhigh, hchar⟩ := charOf_toNat c
    rw [if_pos hn]
    refine ⟨'u' :: (hexadecimal 4 c.toNat ++ rest), 5, rfl, ?_, drop_hexadecimal c.toNat rest⟩
    show codePointEscape _ = _
    rw [codePointEscape_single hr hn hhigh, hchar]
  · obtain ⟨offset, hoffset, hbound⟩ :
        ∃ offset, c.toNat = 0x10000 + offset ∧ offset < 0x100000 := by
      have hvalid : c.toNat < 0xd800 ∨ 0xdfff < c.toNat ∧ c.toNat < 0x110000 := c.valid
      exact ⟨c.toNat - 0x10000, by omega, by omega⟩
    obtain ⟨hhigh, hlow, hpoint⟩ := surrogates_of_lt hbound
    let second := 'u' :: (hexadecimal 4 (0xdc00 + offset % 0x400) ++ rest)
    rw [if_neg hn]
    refine ⟨'u' :: (hexadecimal 4 (0xd800 + offset / 0x400) ++ '\\' :: second), 11, ?_, ?_, ?_⟩
    · simp [hoffset, second]
    · show codePointEscape _ = _
      rw [codePointEscape_pair hr hhigh hlow, hpoint, ← hoffset, Char.ofNat_toNat]
    · simp [second, List.drop_append, length_hexadecimal]

/-- What is written for a character is an escape that is read as that character, or the
character itself where no escape is needed. -/
theorem escapeChar_append (ascii : Bool) (opening : List Char) (c : Char) :
    (∃ body length, escapeChar ascii c ++ rest = '\\' :: body ∧
      escape opening body = .ok (c, length) ∧ body.drop length = rest) ∨
    escapeChar ascii c = [c] ∧ c ≠ '"' ∧ c ≠ '\\' ∧ ¬ c.toNat < 0x20 := by
  have short {c d : Char} (he : escape opening (d :: rest) = .ok (c, 1)) :
      ∃ body length, ['\\', d] ++ rest = '\\' :: body ∧
        escape opening body = .ok (c, length) ∧ body.drop length = rest :=
    ⟨d :: rest, 1, rfl, he, rfl⟩
  unfold escapeChar
  iterate 7
    split
    · next h =>
      subst h
      exact .inl (short rfl)
  split
  · exact .inl (escape_escapeCodePoint hr opening c)
  · next hquote hbackslash _ _ _ _ _ hcontrol =>
    exact .inr ⟨rfl, hquote, hbackslash, fun h => hcontrol (.inl h)⟩

theorem stringFrom_escapeChar (ascii : Bool) (opening read : List Char) (c : Char) :
    stringFrom opening read (escapeChar ascii c ++ rest) = stringFrom opening (c :: read) rest := by
  rcases escapeChar_append hr ascii opening c with ⟨body, length, hbody, he, hd⟩ | ⟨hc, h⟩
  · rw [hbody, stringFrom, he]
    dsimp only
    rw [hd]
  · obtain ⟨hquote, hbackslash, hcontrol⟩ := h
    rw [hc, List.singleton_append, stringFrom.eq_def]
    simp [hcontrol]

end

/-- A text in quotes is read back as it was written. -/
theorem string_textChars (ascii : Bool) (s : String) (rest : List Char) :
    string (s.toList.flatMap (escapeChar ascii) ++ '"' :: rest) = .ok (s, rest) := by
  suffices ∀ opening read cs,
      stringFrom opening read (cs.flatMap (escapeChar ascii) ++ '"' :: rest) =
        .ok (String.ofList (read.reverse ++ cs), rest) from by
    rw [string, this]
    simp
  intro opening read cs
  induction cs generalizing read with
  | nil =>
    rw [List.flatMap_nil, List.nil_append, stringFrom, List.append_nil]
  | cons c cs ih =>
    rw [List.flatMap_cons, List.append_assoc, stringFrom_escapeChar (by simp), ih]
    simp

/-- No text in quotes is the beginning of another. -/
theorem textChars_append_inj {ascii : Bool} {s t : String} {rest other : List Char}
    (h : textChars ascii s ++ rest = textChars ascii t ++ other) : s = t ∧ rest = other := by
  have hread (s : String) (rest : List Char) :
      string ((textChars ascii s ++ rest).tail) = .ok (s, rest) := by
    rw [← string_textChars ascii s rest]
    simp [textChars]
  have heq := hread s rest
  rw [h, hread] at heq
  cases heq
  exact ⟨rfl, rfl⟩

/-! ## Integers -/

/-- That a text does not go on with a digit. -/
def Digitless (cs : List Char) : Prop :=
  ∀ c ∈ cs.head?, c.isDigit = false

theorem digitless_cons {c : Char} {cs : List Char} (h : c.isDigit = false) :
    Digitless (c :: cs) :=
  fun _ hd => Option.some.inj hd ▸ h

theorem takeWhile_toDigits (n : Nat) {rest : List Char} (h : Digitless rest) :
    (Nat.toDigits 10 n ++ rest).takeWhile Char.isDigit = Nat.toDigits 10 n := by
  rw [List.takeWhile_append_of_pos fun c => Numeral.isDigit_of_mem_toDigits]
  cases rest with
  | nil => exact List.append_nil _
  | cons c cs => rw [List.takeWhile_cons_of_neg (by simp [h c rfl]), List.append_nil]

theorem toDigits_append_inj {m n : Nat} {rest other : List Char} (hr : Digitless rest)
    (ho : Digitless other) (h : Nat.toDigits 10 m ++ rest = Nat.toDigits 10 n ++ other) :
    m = n ∧ rest = other := by
  have hdigits : Nat.toDigits 10 m = Nat.toDigits 10 n := by
    rw [← takeWhile_toDigits m hr, h, takeWhile_toDigits n ho]
  have hvalue := congrArg (Nat.ofDigitChars 10 · 0) hdigits
  simp only [Nat.ofDigitChars_toDigits (Nat.lt_of_sub_eq_succ rfl) (Nat.le_refl 10)] at hvalue
  rw [hdigits] at h
  exact ⟨hvalue, List.append_cancel_left h⟩

theorem numberChars_ofNat (n : Nat) : numberChars (.int n) = Nat.toDigits 10 n :=
  Nat.toList_repr

theorem numberChars_negSucc (n : Nat) :
    numberChars (.int (Int.negSucc n)) = '-' :: Nat.toDigits 10 (n + 1) := by
  show ("-" ++ (n + 1).repr).toList = _
  rw [String.toList_append, Nat.toList_repr]
  rfl

theorem exists_cons_toDigits (n : Nat) :
    ∃ c cs, Nat.toDigits 10 n = c :: cs ∧ c.isDigit ∧ c ≠ '-' := by
  obtain ⟨c, cs, hc⟩ := List.exists_cons_of_ne_nil (Nat.toDigits_ne_nil (n := n) (b := 10))
  have hdigit : c.isDigit := Numeral.isDigit_of_mem_toDigits (n := n) (hc ▸ List.mem_cons_self)
  refine ⟨c, cs, hc, hdigit, fun heq => ?_⟩
  rw [heq] at hdigit
  exact absurd hdigit (by decide)

theorem numberChars_append_inj {m n : Int} {rest other : List Char} (hr : Digitless rest)
    (ho : Digitless other)
    (h : numberChars (.int m) ++ rest = numberChars (.int n) ++ other) :
    m = n ∧ rest = other := by
  have hminus (n : Nat) {cs others : List Char} : Nat.toDigits 10 n ++ cs ≠ '-' :: others := by
    obtain ⟨c, digits, hc, -, hne⟩ := exists_cons_toDigits n
    rw [hc]
    exact fun heq => hne (List.cons.inj heq).1
  cases m with
  | ofNat m =>
    cases n with
    | ofNat n =>
      obtain ⟨heq, hrest⟩ := toDigits_append_inj hr ho (by simpa [numberChars_ofNat] using h)
      exact ⟨congrArg Int.ofNat heq, hrest⟩
    | negSucc n =>
      rw [numberChars_negSucc] at h
      exact absurd (numberChars_ofNat m ▸ h) (hminus m)
  | negSucc m =>
    rw [numberChars_negSucc] at h
    cases n with
    | ofNat n => exact absurd (numberChars_ofNat n ▸ h.symm) (hminus n)
    | negSucc n =>
      rw [numberChars_negSucc] at h
      obtain ⟨heq, hrest⟩ := toDigits_append_inj hr ho (List.cons.inj h).2
      exact ⟨congrArg Int.negSucc (Nat.succ.inj heq), hrest⟩

end Json

namespace Value

/-- That a value is no double. -/
def undoubled : Value → Bool
  | number (.double _) => false
  | _ => true

/-- All numbers in a value are integers. -/
def integral (value : Value) : Bool :=
  value.everywhere undoubled

theorem integral_list {items : List Value} :
    (list items).integral ↔ ∀ item ∈ items, item.integral :=
  everywhere_list.trans (and_iff_right rfl)

theorem integral_record {fields : List (String × Value)} :
    (record fields).integral ↔ ∀ pair ∈ fields, pair.2.integral :=
  everywhere_record.trans (and_iff_right rfl)

end Value

namespace Json

/-! ## The kind of a value -/

/-- The character that begins the text of a value, if it is no number. -/
def initial : Value → Option Char
  | .null => some 'n'
  | .bool true => some 't'
  | .bool false => some 'f'
  | .number _ => none
  | .text _ => some '"'
  | .list _ => some '['
  | .record _ => some '\x7b'

/-- The first character of a text tells the kind of the value that is written. -/
theorem first_chars {value : Value} (h : value.integral) (style : Style) (depth : Nat) :
    ∃ c cs, chars style depth value = c :: cs ∧
      initial value = if c = '-' ∨ c.isDigit then none else some c := by
  cases value with
  | number n =>
    cases n with
    | double => cases h
    | int n =>
      cases n with
      | ofNat n =>
        obtain ⟨c, cs, hc, hdigit, -⟩ := exists_cons_toDigits n
        exact ⟨c, cs, (numberChars_ofNat n).trans hc, (if_pos (.inr hdigit)).symm⟩
      | negSucc n => exact ⟨'-', _, numberChars_negSucc n, rfl⟩
  | bool truth => cases truth <;> exact ⟨_, _, rfl, rfl⟩
  | list items =>
    unfold chars enclosed
    split <;> exact ⟨'[', _, rfl, rfl⟩
  | record fields =>
    unfold chars enclosed
    split <;> exact ⟨'\x7b', _, rfl, rfl⟩
  | _ => exact ⟨_, _, rfl, rfl⟩

theorem first_chars_ne {value : Value} (h : value.integral) (style : Style) (depth : Nat) :
    ∃ c cs, chars style depth value = c :: cs ∧ c ≠ ']' := by
  obtain ⟨c, cs, hc, hinitial⟩ := first_chars h style depth
  refine ⟨c, cs, hc, fun heq => ?_⟩
  rw [heq, if_neg (by decide)] at hinitial
  unfold initial at hinitial
  split at hinitial <;> cases hinitial

/-- That the texts of two values begin as those of one kind. -/
inductive Alike : Value → Value → Prop
  | null : Alike .null .null
  | bool {truth : Bool} : Alike (.bool truth) (.bool truth)
  | number {m n : Number} : Alike (.number m) (.number n)
  | text {s t : String} : Alike (.text s) (.text t)
  | list {items others : List Value} : Alike (.list items) (.list others)
  | record {fields others : List (String × Value)} : Alike (.record fields) (.record others)

theorem alike_of_initial {u v : Value} (h : initial u = initial v) : Alike u v := by
  unfold initial at h
  split at h <;> split at h <;> first
    | constructor
    | cases h

/-- Texts of values of different kinds differ in their first character. -/
theorem alike_of_chars {style : Style} {depth : Nat} {u v : Value} (hu : u.integral)
    (hv : v.integral) {rest other : List Char}
    (h : chars style depth u ++ rest = chars style depth v ++ other) : Alike u v := by
  obtain ⟨c, cs, hc, hinitial⟩ := first_chars hu style depth
  obtain ⟨d, ds, hd, hother⟩ := first_chars hv style depth
  refine alike_of_initial ?_
  rw [hc, hd] at h
  rw [hinitial, hother, (List.cons.inj h).1]

/-! ## Lists and records -/

theorem intercalate_cons {mark part : List Char} {parts : List (List Char)} :
    mark.intercalate (part :: parts) = part ++ parts.flatMap (mark ++ ·) := by
  induction parts generalizing part with
  | nil => simp
  | cons next parts ih => simp [ih]

theorem enclosed_cons {style : Style} {mark : List Char} (hmark : style.itemMark = ',' :: mark)
    (depth : Nat) (left right : Char) (part : List Char) (parts : List (List Char))
    (rest : List Char) :
    enclosed style depth left right (part :: parts) ++ rest =
      left :: (style.newline (depth + 1) ++ (part ++
        (parts.flatMap (',' :: mark ++ style.newline (depth + 1) ++ ·) ++
          (style.newline depth ++ right :: rest)))) := by
  show left :: style.newline (depth + 1) ++ _ ++ style.newline depth ++ [right] ++ rest = _
  rw [intercalate_cons, hmark]
  simp

theorem exists_cons_newline (style : Style) (depth : Nat) (d : Char) (rest : List Char) :
    ∃ c cs, style.newline depth ++ d :: rest = c :: cs ∧ (c = '\n' ∨ c = d) := by
  unfold Style.newline
  split
  · exact ⟨d, rest, rfl, .inr rfl⟩
  · exact ⟨'\n', _, rfl, .inl rfl⟩

/-- That a text goes on neither with a digit nor with a comma. -/
def Final (cs : List Char) : Prop :=
  ∀ c ∈ cs.head?, c.isDigit = false ∧ c ≠ ','

theorem final_newline (style : Style) (depth : Nat) {right : Char} (h : right ∈ [']', '\x7d'])
    (rest : List Char) : Final (style.newline depth ++ right :: rest) := by
  have hright : right.isDigit = false ∧ right ≠ ',' := by
    rcases List.mem_pair.mp h with heq | heq <;> exact heq ▸ by decide
  obtain ⟨c, cs, heq, hc⟩ := exists_cons_newline style depth right rest
  rw [heq]
  intro d hd
  cases hd
  rcases hc with rfl | rfl
  · decide
  · exact hright

section
variable {α : Type} {part : α → List Char} {as bs : List α}
  (hinj : ∀ a ∈ as, ∀ b ∈ bs, ∀ {rest other}, Digitless rest → Digitless other →
    part a ++ rest = part b ++ other → a = b ∧ rest = other)

include hinj

/-- Where each part can be told apart, so can parts with a comma before each of them. -/
theorem flatMap_append_inj {mark rest other : List Char} (hr : Final rest) (ho : Final other)
    (h : (as.map part).flatMap (',' :: mark ++ ·) ++ rest =
      (bs.map part).flatMap (',' :: mark ++ ·) ++ other) : as = bs ∧ rest = other := by
  have hdigitless {parts : List (List Char)} {cs : List Char} (hc : Final cs) :
      Digitless (parts.flatMap (',' :: mark ++ ·) ++ cs) := by
    cases parts with
    | nil => exact fun c hm => (hc c hm).1
    | cons => exact digitless_cons (by decide)
  have hcomma {cs others : List Char} (hc : Final cs) : cs ≠ ',' :: others := by
    intro heq
    exact (hc ',' (heq ▸ rfl)).2 rfl
  induction as generalizing bs with
  | nil =>
    cases bs with
    | nil => exact ⟨rfl, h⟩
    | cons b bs => exact absurd h (hcomma hr)
  | cons a as ih =>
    cases bs with
    | nil => exact absurd h.symm (hcomma ho)
    | cons b bs =>
      simp only [List.map_cons, List.flatMap_cons, List.append_assoc, List.cons_append,
        List.cons.injEq, true_and, List.append_cancel_left_eq] at h
      obtain ⟨hpart, hothers⟩ := hinj a List.mem_cons_self b List.mem_cons_self (hdigitless hr)
        (hdigitless ho) h
      obtain ⟨hparts, hrest⟩ := ih (fun a ha b hb => hinj a (List.mem_cons_of_mem _ ha) b
        (List.mem_cons_of_mem _ hb)) hothers
      exact ⟨congrArg₂ List.cons hpart hparts, hrest⟩

/-- Parts between brackets can be told apart if each of them can and none begins with the
closing bracket. -/
theorem enclosed_append_inj {style : Style} {mark : List Char}
    (hmark : style.itemMark = ',' :: mark) {depth : Nat} {left right : Char}
    (hright : right ∈ [']', '\x7d'])
    (hfirst : ∀ a, a ∈ as ∨ a ∈ bs → ∃ c cs, part a = c :: cs ∧ c ≠ right)
    {rest other : List Char}
    (h : enclosed style depth left right (as.map part) ++ rest =
      enclosed style depth left right (bs.map part) ++ other) : as = bs ∧ rest = other := by
  have hempty (a : α) (ha : a ∈ as ∨ a ∈ bs) {cs others : List Char} :
      style.newline (depth + 1) ++ (part a ++ cs) ≠ right :: others := by
    obtain ⟨c, tail, hc, hne⟩ := hfirst a ha
    obtain ⟨d, ds, hd, hor⟩ := exists_cons_newline style (depth + 1) c (tail ++ cs)
    rw [hc, List.cons_append, hd]
    intro heq
    rcases hor with rfl | rfl
    · rw [← (List.cons.inj heq).1] at hright
      exact absurd hright (by decide)
    · exact hne (List.cons.inj heq).1
  cases as with
  | nil =>
    cases bs with
    | nil => exact ⟨rfl, (List.cons.inj (List.cons.inj h).2).2⟩
    | cons b bs =>
      rw [List.map_cons, enclosed_cons hmark] at h
      exact absurd (List.cons.inj h).2.symm (hempty b (.inr List.mem_cons_self))
  | cons a as =>
    cases bs with
    | nil =>
      rw [List.map_cons, enclosed_cons hmark] at h
      exact absurd (List.cons.inj h).2 (hempty a (.inl List.mem_cons_self))
    | cons b bs =>
      rw [List.map_cons, List.map_cons, enclosed_cons hmark, enclosed_cons hmark] at h
      have hparts := List.append_cancel_left (List.cons.inj h).2
      -- With a mark put before the first part, too, all parts are alike.
      have hmarked : ((a :: as).map part).flatMap
            (',' :: (mark ++ style.newline (depth + 1)) ++ ·) ++
          (style.newline depth ++ right :: rest) =
          ((b :: bs).map part).flatMap (',' :: (mark ++ style.newline (depth + 1)) ++ ·) ++
          (style.newline depth ++ right :: other) := by
        simpa using hparts
      obtain ⟨heq, hrest⟩ := flatMap_append_inj hinj (final_newline style depth hright rest)
        (final_newline style depth hright other) hmarked
      exact ⟨heq, (List.cons.inj (List.append_cancel_left hrest)).2⟩

end

/-! ## Values -/

theorem itemChars_eq_map (style : Style) (depth : Nat) (items : List Value) :
    itemChars style depth items = items.map (chars style depth) := by
  induction items with
  | nil => rfl
  | cons item rest ih => rw [itemChars, ih, List.map_cons]

/-- The text of a field. -/
def namedChars (style : Style) (depth : Nat) (pair : String × Value) : List Char :=
  textChars style.ascii pair.1 ++ style.fieldMark ++ chars style depth pair.2

theorem fieldChars_eq_map (style : Style) (depth : Nat) (fields : List (String × Value)) :
    fieldChars style depth fields = fields.map (namedChars style depth) := by
  induction fields with
  | nil => rfl
  | cons pair rest ih =>
    obtain ⟨name, value⟩ := pair
    rw [fieldChars, ih, List.map_cons]
    rfl

/-- No text of a value with integers only is the beginning of the text of another, where no
digit follows it. -/
theorem chars_append_inj {style : Style} {mark : List Char} (hmark : style.itemMark = ',' :: mark)
    {u v : Value} (hu : u.integral) (hv : v.integral) {depth : Nat} {rest other : List Char}
    (hr : Digitless rest) (ho : Digitless other)
    (h : chars style depth u ++ rest = chars style depth v ++ other) : u = v ∧ rest = other := by
  have halike := alike_of_chars hu hv h
  -- What follows is kept general: within a list or record it is the next mark or the end.
  induction u using Value.inductOn generalizing v depth rest other with
  | scalar u hscalar =>
    cases halike with
    | null | bool => exact ⟨rfl, List.append_cancel_left h⟩
    | @number m n =>
      cases m with
      | double => cases hu
      | int m =>
        cases n with
        | double => cases hv
        | int n =>
          obtain ⟨rfl, hrest⟩ := numberChars_append_inj hr ho h
          exact ⟨rfl, hrest⟩
    | text =>
      obtain ⟨rfl, hrest⟩ := textChars_append_inj h
      exact ⟨rfl, hrest⟩
    | list | record => cases hscalar
  | list items ih =>
    cases halike with
    | @list _ others =>
      have hitems := Value.integral_list.mp hu
      have hothers := Value.integral_list.mp hv
      simp only [chars, itemChars_eq_map] at h
      refine (enclosed_append_inj ?_ hmark (by decide) ?_ h).imp_left (congrArg Value.list)
      · intro a ha b hb rest other hr ho heq
        have hb := hothers b hb
        exact ih a ha (hitems a ha) hb hr ho heq (alike_of_chars (hitems a ha) hb heq)
      · intro a ha
        exact first_chars_ne (ha.elim (hitems a) (hothers a)) style _
  | record fields ih =>
    cases halike with
    | @record _ others =>
      have hfields := Value.integral_record.mp hu
      have hothers := Value.integral_record.mp hv
      simp only [chars, fieldChars_eq_map] at h
      refine (enclosed_append_inj ?_ hmark (by decide) ?_ h).imp_left (congrArg Value.record)
      · intro a ha b hb rest other hr ho heq
        have hb := hothers b hb
        simp only [namedChars, List.append_assoc] at heq
        obtain ⟨hname, hvalue⟩ := textChars_append_inj heq
        have hvalue := List.append_cancel_left hvalue
        obtain ⟨hvalue, hrest⟩ := ih a ha (hfields a ha) hb hr ho hvalue
          (alike_of_chars (hfields a ha) hb hvalue)
        exact ⟨Prod.ext hname hvalue, hrest⟩
      · exact fun a _ => ⟨'"', _, rfl, by decide⟩

/-- Different values with integers only have different texts. -/
theorem chars_inj {style : Style} {mark : List Char} (hmark : style.itemMark = ',' :: mark)
    {u v : Value} (hu : u.integral) (hv : v.integral) {depth : Nat}
    (h : chars style depth u = chars style depth v) : u = v := by
  have hempty : Digitless [] := fun _ hm => nomatch hm
  exact (chars_append_inj hmark hu hv hempty hempty (congrArg (· ++ []) h)).1

end Json
end RecordQuery
