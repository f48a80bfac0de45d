/-
Which bytes are a text.

Decoding takes a first byte, finds from it how many more belong to the character and where
the next of them has to lie, and puts their bits together.  The head of some bytes is read
in this way exactly if it is how a character is written (`Utf8.exists_char_of_reads`,
`Utf8.reads_of_char`), so decoding
succeeds exactly on what encoding some text gives, with that text (`Utf8.decode_eq_ok`).
-/
import Mathlib.Data.List.Basic
import RecordQuery.Text.Utf8

namespace RecordQuery
namespace Text
namespace Utf8

/-- The bytes that encode a text. -/
def encode (cs : List Char) : List UInt8 :=
  cs.flatMap String.utf8EncodeChar

theorem encode_cons (c : Char) (cs : List Char) :
    encode (c :: cs) = String.utf8EncodeChar c ++ encode cs :=
  List.flatMap_cons

/-! ## The bytes after the first -/

/-- Bytes that continue the bits of a code point to the whole code point, the first of them
within a range. -/
inductive Continues : Nat → Nat → Nat → List UInt8 → Nat → Prop
  | done {low high code : Nat} : Continues low high code [] code
  | more {low high code result : Nat} {b : UInt8} {bytes : List UInt8} :
      low ≤ b.toNat → b.toNat ≤ high →
      Continues 0x80 0xbf (code * 64 + b.toNat % 64) bytes result →
      Continues low high code (b :: bytes) result

theorem continues_nil {low high code result : Nat} :
    Continues low high code [] result ↔ result = code := by
  constructor
  · rintro ⟨⟩
    rfl
  · rintro rfl
    exact .done

theorem continues_cons {low high code result : Nat} {b : UInt8} {bytes : List UInt8} :
    Continues low high code (b :: bytes) result ↔ low ≤ b.toNat ∧ b.toNat ≤ high ∧
      Continues 0x80 0xbf (code * 64 + b.toNat % 64) bytes result := by
  constructor
  · rintro (_ | ⟨hlow, hhigh, hrest⟩)
    exact ⟨hlow, hhigh, hrest⟩
  · rintro ⟨hlow, hhigh, hrest⟩
    exact .more hlow hhigh hrest

theorem complete?_of_continues {low high code result : Nat} {own : List UInt8}
    (h : Continues low high code own result) (read : Nat) (bytes : List UInt8) :
    complete? own.length low high code read (own ++ bytes) = .ok result := by
  induction h generalizing read with
  | done => rfl
  | more hlow hhigh _ ih =>
    rw [List.length_cons, List.cons_append, complete?, if_pos ⟨hlow, hhigh⟩]
    exact ih (read + 1)

theorem exists_continues {more low high code read result : Nat} {bytes : List UInt8}
    (h : complete? more low high code read bytes = .ok result) :
    ∃ own rest, bytes = own ++ rest ∧ own.length = more ∧ Continues low high code own result := by
  induction more generalizing low high code read bytes with
  | zero =>
    cases h
    exact ⟨[], bytes, rfl, rfl, .done⟩
  | succ more ih =>
    cases bytes with
    | nil => cases h
    | cons b bytes =>
      rw [complete?] at h
      split at h
      · next hb =>
        obtain ⟨own, rest, rfl, hlength, hown⟩ := ih h
        exact ⟨b :: own, rest, rfl, congrArg Nat.succ hlength, .more hb.1 hb.2 hown⟩
      · cases h

/-! ## The first byte -/

/-- How many bytes follow a first byte, and where the second has to lie, by the number of
bytes. -/
inductive Leads (first : Nat) : Nat → Nat → Nat → Prop
  | one : first < 0x80 → Leads first 0 0 0
  | two : 0xc2 ≤ first → first < 0xe0 → Leads first 1 0x80 0xbf
  | three {low high : Nat} : 0xe0 ≤ first → first < 0xf0 →
      low = (if first = 0xe0 then 0xa0 else 0x80) → high = (if first = 0xed then 0x9f else 0xbf) →
      Leads first 2 low high
  | four {low high : Nat} : 0xf0 ≤ first → first < 0xf5 →
      low = (if first = 0xf0 then 0x90 else 0x80) → high = (if first = 0xf4 then 0x8f else 0xbf) →
      Leads first 3 low high

theorem shape?_of_leads {first more low high : Nat} (h : Leads first more low high) :
    shape? first = some (more, low, high) := by
  cases h with
  | one h => exact if_pos h
  | two h h' =>
    rw [shape?, if_neg (by omega), if_neg (by omega), if_pos h']
  | three h h' hlow hhigh =>
    rw [shape?, if_neg (by omega), if_neg (by omega), if_neg (by omega), hlow, hhigh]
    by_cases he0 : first = 0xe0
    · simp [he0]
    · by_cases hed : first = 0xed
      · simp [hed]
      · simp [he0, hed, h']
  | four h h' hlow hhigh =>
    rw [shape?, if_neg (by omega), if_neg (by omega), if_neg (by omega), if_neg (by omega),
      if_neg (by omega), if_neg (by omega), hlow, hhigh]
    by_cases hf0 : first = 0xf0
    · simp [hf0]
    · by_cases hf4 : first = 0xf4
      · simp [hf4]
      · have hlt : first < 0xf4 := by omega
        simp [hf0, hf4, hlt]

theorem leads_of_shape? {first more low high : Nat} (h : shape? first = some (more, low, high)) :
    Leads first more low high := by
  have hlt : first < 0xf5 := by
    refine Nat.lt_of_not_le fun hle => ?_
    rw [shape?, if_neg (by omega), if_neg (by omega), if_neg (by omega), if_neg (by omega),
      if_neg (by omega), if_neg (by omega), if_neg (by omega), if_neg (by omega),
      if_neg (by omega)] at h
    cases h
  -- Any first byte that leads somewhere leads there only.
  have heq : ∀ {more' low' high' : Nat},
      Leads first more' low' high' → Leads first more low high := by
    intro more' low' high' hleads
    have hsome := (shape?_of_leads hleads).symm.trans h
    cases hsome
    exact hleads
  by_cases hone : first < 0x80
  · exact heq (.one hone)
  · by_cases hnone : first < 0xc2
    · rw [shape?, if_neg hone, if_pos hnone] at h
      cases h
    · by_cases htwo : first < 0xe0
      · exact heq (.two (by omega) htwo)
      · by_cases hthree : first < 0xf0
        · exact heq (.three (by omega) hthree rfl rfl)
        · exact heq (.four (by omega) hlt rfl rfl)

/-- The bytes of one character. -/
def Reads (first : UInt8) (own : List UInt8) (code : Nat) : Prop :=
  ∃ low high, Leads first.toNat own.length low high ∧
    Continues low high (leadBits first.toNat own.length) own code

theorem eq_ofNat {b : UInt8} {n : Nat} (h : b.toNat = n) : b = UInt8.ofNat n := by
  rw [← h, UInt8.ofNat_toNat]

theorem exists_char {code : Nat} (h : code.isValidChar) : ∃ c : Char, c.toNat = code :=
  ⟨Char.ofNatAux code h, rfl⟩

section Lengths

variable {c : Char}

theorem encodeChar_one (h : c.toNat < 0x80) :
    String.utf8EncodeChar c = [UInt8.ofNat c.toNat] :=
  if_pos (Nat.le_of_lt_succ h)

theorem encodeChar_two (h : 0x80 ≤ c.toNat) (h' : c.toNat < 0x800) :
    String.utf8EncodeChar c =
      [UInt8.ofNat (c.toNat / 64 % 32 + 192), UInt8.ofNat (c.toNat % 64 + 128)] :=
  (if_neg (Nat.not_le.mpr h)).trans (if_pos (Nat.le_of_lt_succ h'))

theorem encodeChar_three (h : 0x800 ≤ c.toNat) (h' : c.toNat < 0x10000) :
    String.utf8EncodeChar c =
      [UInt8.ofNat (c.toNat / 4096 % 16 + 224), UInt8.ofNat (c.toNat / 64 % 64 + 128),
        UInt8.ofNat (c.toNat % 64 + 128)] :=
  (if_neg (Nat.not_le.mpr (Nat.lt_of_lt_of_le (by decide) h))).trans
    ((if_neg (Nat.not_le.mpr h)).trans (if_pos (Nat.le_of_lt_succ h')))

theorem encodeChar_four (h : 0x10000 ≤ c.toNat) :
    String.utf8EncodeChar c =
      [UInt8.ofNat (c.toNat / 262144 % 8 + 240), UInt8.ofNat (c.toNat / 4096 % 64 + 128),
        UInt8.ofNat (c.toNat / 64 % 64 + 128), UInt8.ofNat (c.toNat % 64 + 128)] :=
  (if_neg (Nat.not_le.mpr (Nat.lt_of_lt_of_le (by decide) h))).trans
    ((if_neg (Nat.not_le.mpr (Nat.lt_of_lt_of_le (by decide) h))).trans
      (if_neg (Nat.not_le.mpr h)))

end Lengths

/-- What is read is a code point, and its own encoding. -/
theorem exists_char_of_reads {first : UInt8} {own : List UInt8} {code : Nat}
    (h : Reads first own code) :
    ∃ c : Char, c.toNat = code ∧ first :: own = String.utf8EncodeChar c := by
  obtain ⟨low, high, hleads, hown⟩ := h
  generalize hlength : own.length = more at hleads hown
  cases hleads with
  | one hlt =>
    obtain rfl := List.length_eq_zero_iff.mp hlength
    obtain rfl := continues_nil.mp hown
    have hlead : leadBits first.toNat 0 = first.toNat := rfl
    obtain ⟨c, hc⟩ := exists_char (.inl (by omega) : (leadBits first.toNat 0).isValidChar)
    refine ⟨c, hc, ?_⟩
    rw [encodeChar_one (by omega), ← eq_ofNat (by omega : first.toNat = c.toNat)]
  | two hge hlt =>
    obtain ⟨b, rfl⟩ := List.length_eq_one_iff.mp hlength
    simp only [continues_cons, continues_nil] at hown
    obtain ⟨hb, hb', rfl⟩ := hown
    have hlead : leadBits first.toNat 1 = first.toNat % 32 := rfl
    obtain ⟨c, hc⟩ := exists_char
      (.inl (by omega) : (leadBits first.toNat 1 * 64 + b.toNat % 64).isValidChar)
    refine ⟨c, hc, ?_⟩
    rw [encodeChar_two (by omega) (by omega),
      ← eq_ofNat (by omega : first.toNat = c.toNat / 64 % 32 + 192),
      ← eq_ofNat (by omega : b.toNat = c.toNat % 64 + 128)]
  | three hge hlt hlow hhigh =>
    obtain ⟨b₁, b₂, rfl⟩ := List.length_eq_two.mp hlength
    simp only [continues_cons, continues_nil] at hown
    obtain ⟨hb₁, hb₁', hb₂, hb₂', rfl⟩ := hown
    have hlead : leadBits first.toNat 2 = first.toNat % 16 := rfl
    -- The second byte keeps the code point long enough and out of the surrogates.
    have hsecond : 0x80 ≤ b₁.toNat ∧ b₁.toNat ≤ 0xbf ∧
        (first.toNat = 0xe0 → 0xa0 ≤ b₁.toNat) ∧ (first.toNat = 0xed → b₁.toNat ≤ 0x9f) := by
      split at hlow <;> split at hhigh <;> omega
    have hvalid : ((leadBits first.toNat 2 * 64 + b₁.toNat % 64) * 64 +
        b₂.toNat % 64).isValidChar := by
      unfold Nat.isValidChar
      omega
    obtain ⟨c, hc⟩ := exists_char hvalid
    refine ⟨c, hc, ?_⟩
    rw [encodeChar_three (by omega) (by omega),
      ← eq_ofNat (by omega : first.toNat = c.toNat / 4096 % 16 + 224),
      ← eq_ofNat (by omega : b₁.toNat = c.toNat / 64 % 64 + 128),
      ← eq_ofNat (by omega : b₂.toNat = c.toNat % 64 + 128)]
  | four hge hlt hlow hhigh =>
    obtain ⟨b₁, b₂, b₃, rfl⟩ := List.length_eq_three.mp hlength
    simp only [continues_cons, continues_nil] at hown
    obtain ⟨hb₁, hb₁', hb₂, hb₂', hb₃, hb₃', rfl⟩ := hown
    have hlead : leadBits first.toNat 3 = first.toNat % 8 := rfl
    -- The second byte keeps the code point long enough and within the last one.
    have hsecond : 0x80 ≤ b₁.toNat ∧ b₁.toNat ≤ 0xbf ∧
        (first.toNat = 0xf0 → 0x90 ≤ b₁.toNat) ∧ (first.toNat = 0xf4 → b₁.toNat ≤ 0x8f) := by
      split at hlow <;> split at hhigh <;> omega
    have hvalid : (((leadBits first.toNat 3 * 64 + b₁.toNat % 64) * 64 +
        b₂.toNat % 64) * 64 + b₃.toNat % 64).isValidChar := by
      unfold Nat.isValidChar
      omega
    obtain ⟨c, hc⟩ := exists_char hvalid
    refine ⟨c, hc, ?_⟩
    rw [encodeChar_four (by omega),
      ← eq_ofNat (by omega : first.toNat = c.toNat / 262144 % 8 + 240),
      ← eq_ofNat (by omega : b₁.toNat = c.toNat / 4096 % 64 + 128),
      ← eq_ofNat (by omega : b₂.toNat = c.toNat / 64 % 64 + 128),
      ← eq_ofNat (by omega : b₃.toNat = c.toNat % 64 + 128)]

theorem toNat_ofNat {n : Nat} (h : n < 256) : (UInt8.ofNat n).toNat = n :=
  UInt8.toNat_ofNat_of_lt' h

/-- The encoding of a character is read as its code point. -/
theorem reads_of_char (c : Char) {first : UInt8} {own : List UInt8}
    (h : String.utf8EncodeChar c = first :: own) : Reads first own c.toNat := by
  have hvalid : c.toNat < 0xd800 ∨ 0xdfff < c.toNat ∧ c.toNat < 0x110000 := c.valid
  rcases Nat.lt_or_ge c.toNat 0x80 with hone | hone
  · rw [encodeChar_one hone] at h
    cases h
    have hfirst := toNat_ofNat (by omega : c.toNat < 256)
    refine ⟨_, _, .one (by omega), continues_nil.mpr ?_⟩
    rw [hfirst]
    rfl
  rcases Nat.lt_or_ge c.toNat 0x800 with htwo | htwo
  · rw [encodeChar_two hone htwo] at h
    cases h
    have hfirst := toNat_ofNat (by omega : c.toNat / 64 % 32 + 192 < 256)
    have hb := toNat_ofNat (by omega : c.toNat % 64 + 128 < 256)
    refine ⟨_, _, .two (by omega) (by omega), ?_⟩
    show Continues _ _ ((UInt8.ofNat _).toNat % 32) _ _
    simp only [continues_cons, continues_nil, hfirst, hb]
    omega
  rcases Nat.lt_or_ge c.toNat 0x10000 with hthree | hthree
  · rw [encodeChar_three htwo hthree] at h
    cases h
    have hfirst := toNat_ofNat (by omega : c.toNat / 4096 % 16 + 224 < 256)
    have hb₁ := toNat_ofNat (by omega : c.toNat / 64 % 64 + 128 < 256)
    have hb₂ := toNat_ofNat (by omega : c.toNat % 64 + 128 < 256)
    refine ⟨_, _, .three (by omega) (by omega) rfl rfl, ?_⟩
    show Continues _ _ ((UInt8.ofNat _).toNat % 16) _ _
    simp only [continues_cons, continues_nil, hfirst, hb₁, hb₂]
    split <;> split <;> omega
  · rw [encodeChar_four hthree] at h
    cases h
    have hfirst := toNat_ofNat (by omega : c.toNat / 262144 % 8 + 240 < 256)
    have hb₁ := toNat_ofNat (by omega : c.toNat / 4096 % 64 + 128 < 256)
    have hb₂ := toNat_ofNat (by omega : c.toNat / 64 % 64 + 128 < 256)
    have hb₃ := toNat_ofNat (by omega : c.toNat % 64 + 128 < 256)
    refine ⟨_, _, .four (by omega) (by omega) rfl rfl, ?_⟩
    show Continues _ _ ((UInt8.ofNat _).toNat % 8) _ _
    simp only [continues_cons, continues_nil, hfirst, hb₁, hb₂, hb₃]
    split <;> split <;> omega

/-! ## Whole texts -/

theorem decodeFrom_of_reads {first : UInt8} {own : List UInt8} {code : Nat}
    (h : Reads first own code) (offset : Nat) (read : List Char) (bytes : List UInt8) :
    decodeFrom offset read (first :: (own ++ bytes)) =
      decodeFrom (offset + 1 + own.length) (Char.ofNat code :: read) bytes := by
  obtain ⟨low, high, hleads, hown⟩ := h
  rw [decodeFrom, shape?_of_leads hleads]
  simp only [complete?_of_continues hown, List.drop_left]

theorem decodeFrom_encode (cs : List Char) (offset : Nat) (read : List Char) :
    decodeFrom offset read (encode cs) = .ok (read.reverse ++ cs) := by
  induction cs generalizing offset read with
  | nil => simp [encode, decodeFrom]
  | cons c rest ih =>
    cases hc : String.utf8EncodeChar c with
    | nil => exact absurd hc (by simp)
    | cons first own =>
      have hreads : Reads first own c.toNat := reads_of_char c hc
      have hencode : encode (c :: rest) = first :: (own ++ encode rest) := by
        rw [encode_cons, hc, List.cons_append]
      rw [hencode, decodeFrom_of_reads hreads, ih, Char.ofNat_toNat]
      simp

theorem encode_of_decodeFrom {bytes : List UInt8} {offset : Nat} {read cs : List Char}
    (h : decodeFrom offset read bytes = .ok cs) :
    ∃ rest, cs = read.reverse ++ rest ∧ bytes = encode rest := by
  fun_induction decodeFrom offset read bytes with
  | case1 offset read =>
    cases h
    exact ⟨[], (List.append_nil _).symm, rfl⟩
  | case2 => cases h
  | case3 => cases h
  | case4 offset read first bytes more low high hshape code hcode ih =>
    obtain ⟨own, rest, rfl, rfl, hown⟩ := exists_continues hcode
    obtain ⟨c, rfl, hc⟩ := exists_char_of_reads ⟨low, high, leads_of_shape? hshape, hown⟩
    rw [List.drop_left] at h ih
    obtain ⟨others, rfl, rfl⟩ := ih h
    exact ⟨c :: others, by simp, by rw [encode_cons, ← hc, List.cons_append]⟩

/-- Decoding gives a text exactly if the bytes are its encoding. -/
theorem decode_eq_ok {bytes : List UInt8} {cs : List Char} :
    decode bytes = .ok cs ↔ bytes = encode cs := by
  constructor
  · intro h
    obtain ⟨rest, rfl, hrest⟩ := encode_of_decodeFrom h
    exact hrest
  · rintro rfl
    exact decodeFrom_encode cs 0 []

theorem decode_eq_error {bytes : List UInt8} :
    (∃ error, decode bytes = .error error) ↔ ∀ cs, bytes ≠ encode cs := by
  simp only [ne_eq, ← decode_eq_ok]
  cases decode bytes <;> simp

end Utf8

/-! ## Line ends -/

theorem unifyFrom_of_not_mem {read cs : List Char} (h : '\r' ∉ cs) :
    unifyFrom read cs = read.reverse ++ cs := by
  fun_induction unifyFrom read cs with
  | case1 read => exact (List.append_nil _).symm
  | case2 | case3 => exact absurd List.mem_cons_self h
  | case4 read c rest _ _ ih =>
    rw [ih (fun hrest => h (List.mem_cons_of_mem c hrest)), List.reverse_cons,
      List.append_assoc, List.singleton_append]

/-- A text without carriage returns is left as it is. -/
theorem unifyLineEnds_of_not_mem {cs : List Char} (h : '\r' ∉ cs) : unifyLineEnds cs = cs :=
  unifyFrom_of_not_mem h

end Text
end RecordQuery
