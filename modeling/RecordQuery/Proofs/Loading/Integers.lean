/-
Where reading JSON comes to an integer that is too long.

Reading a JSON text goes from value to value: into the parts of a list or a record, one
after the other, each once those before it are read.  `Comes` is that walk, stated without
the bounds on depth and count with which the reader recurses, and `Overlong` is what the
reader refuses a numeral for, stated on the numeral's digits and on what follows them.  Of
all the causes to refuse a text only this one passes through lists, records and the whole
text unchanged and arises nowhere but at a number, so a text is refused for it exactly if
the walk comes to such a numeral (`readChars_eq_tooLong`, `read_eq_unreadable`).

The bounds do no harm: what is left after a part is a suffix of the part
(`value_suffix`), so a text that is read at some depth is read at every depth from its own
length on (`value_of_le`), and each reader below is given at least that much.
-/
import RecordQuery.Json.Reader
import RecordQuery.Proofs.Attempts

namespace RecordQuery
namespace Json

/-! ## What is left -/

theorem skip_suffix (cs : List Char) : skip cs <:+ cs :=
  List.dropWhile_suffix isSpace

/-- The parts behind a comma take less of the text. -/
theorem length_skip_lt {left more cs : List Char} (hleft : left <:+ cs)
    (hmore : skip left = ',' :: more) : (skip more).length < cs.length := by
  have hle := ((skip_suffix left).trans hleft).length_le
  rw [hmore, List.length_cons] at hle
  exact Nat.lt_of_le_of_lt (skip_suffix more).length_le hle

theorem stringFrom_suffix {opening read cs rest : List Char} {s : String}
    (h : stringFrom opening read cs = .ok (s, rest)) : rest <:+ cs := by
  fun_induction stringFrom opening read cs with
  | case1 => cases h
  | case2 read rest' =>
    cases h
    exact List.suffix_cons _ _
  | case3 read others c length hescape ih =>
    exact ((ih h).trans (List.drop_suffix _ _)).trans (List.suffix_cons _ _)
  | case4 => cases h
  | case5 => cases h
  | case6 read c others _ _ _ ih => exact (ih h).trans (List.suffix_cons _ _)

theorem fraction_suffix (cs : List Char) : (fraction cs).2 <:+ cs := by
  unfold fraction
  split
  · split
    · exact (List.dropWhile_suffix _).trans ((List.suffix_cons _ _).trans (List.suffix_cons _ _))
    · exact List.suffix_rfl
  · exact List.suffix_rfl

theorem exponent?_suffix {cs rest : List Char} {e : Int} (h : exponent? cs = some (e, rest)) :
    rest <:+ cs := by
  unfold exponent? at h
  split at h
  · next c others =>
    split at h
    · split at h
      next negative digits hsign =>
      have hdigits : digits <:+ others := by
        split at hsign <;> cases hsign
        · exact List.suffix_cons _ _
        · exact List.suffix_cons _ _
        · exact List.suffix_rfl
      split at h
      · cases h
      · cases h
        exact (List.dropWhile_suffix _).trans (hdigits.trans (List.suffix_cons _ _))
    · cases h
  · cases h

theorem scale_suffix (cs : List Char) : ((exponent? cs).getD (0, cs)).2 <:+ cs := by
  cases h : exponent? cs with
  | none => exact List.suffix_rfl
  | some found => exact exponent?_suffix h

theorem decimals_suffix (cs : List Char) (count : Nat) : (fraction (cs.drop count)).2 <:+ cs :=
  (fraction_suffix _).trans (List.drop_suffix _ _)

theorem number_suffix {cs rest : List Char} {v : Value} (h : number cs = .ok (v, rest)) :
    rest <:+ cs := by
  unfold number at h
  split at h
  next negative unsigned hsign =>
  have hunsigned : unsigned <:+ cs := by
    split at hsign <;> cases hsign
    · exact List.suffix_cons _ _
    · exact List.suffix_rfl
  dsimp only at h
  split at h
  all_goals
    split at h
    · cases h
    · split at h
      · split at h
        · cases h
        · cases h
          exact (decimals_suffix _ _).trans hunsigned
      · cases h
        exact (scale_suffix _).trans ((decimals_suffix _ _).trans hunsigned)

theorem atom_suffix {cs rest : List Char} {v : Value} (h : atom cs = .ok (v, rest)) :
    rest <:+ cs := by
  unfold atom at h
  split at h
  · cases h
    exact List.drop_suffix _ _
  · exact number_suffix h

/-! ## Lists and records, one part at a time -/

/-- A field begins with its name and a colon, then comes its value. -/
def FieldStart (cs : List Char) (name : String) (inner : List Char) : Prop :=
  ∃ own left rest, cs = '"' :: own ∧ string own = .ok (name, left) ∧ skip left = ':' :: rest ∧
    inner = skip rest

theorem FieldStart.suffix {cs inner : List Char} {name : String} (h : FieldStart cs name inner) :
    inner <:+ cs := by
  obtain ⟨own, left, rest, rfl, hname, hcolon, rfl⟩ := h
  have hrest : rest <:+ left := (hcolon ▸ List.suffix_cons _ _).trans (skip_suffix left)
  exact (skip_suffix rest).trans (hrest.trans ((stringFrom_suffix hname).trans
    (List.suffix_cons _ _)))

/-- The value of a field begins behind its name. -/
def FieldValue (cs inner : List Char) : Prop :=
  ∃ name, FieldStart cs name inner

theorem FieldValue.suffix {cs inner : List Char} (h : FieldValue cs inner) : inner <:+ cs :=
  h.elim fun _ => FieldStart.suffix

section Parts

variable {element : List Char → Reading Value} {count : Nat} {cs rest : List Char}

theorem items_succ {vs : List Value} :
    items element (count + 1) cs = .ok (vs, rest) ↔
      ∃ v left, element cs = .ok (v, left) ∧
        (skip left = ']' :: rest ∧ vs = [v] ∨
          ∃ more others, skip left = ',' :: more ∧
            items element count (skip more) = .ok (others, rest) ∧ vs = v :: others) := by
  constructor
  · intro h
    obtain ⟨⟨v, left⟩, hv, h⟩ := bind_eq_ok.mp h
    refine ⟨v, left, hv, ?_⟩
    dsimp only at h
    split at h
    · next heq =>
      cases h
      exact .inl ⟨heq, rfl⟩
    · next more heq =>
      obtain ⟨⟨others, last⟩, ho, h⟩ := bind_eq_ok.mp h
      cases h
      exact .inr ⟨more, others, heq, ho, rfl⟩
    · cases h
  · rintro ⟨v, left, hv, ⟨heq, rfl⟩ | ⟨more, others, heq, ho, rfl⟩⟩
    · refine bind_eq_ok.mpr ⟨(v, left), hv, ?_⟩
      simp only [heq]
    · refine bind_eq_ok.mpr ⟨(v, left), hv, ?_⟩
      simp only [heq]
      exact bind_eq_ok.mpr ⟨_, ho, rfl⟩

theorem fields_succ {pairs : List (String × Value)} :
    fields element (count + 1) cs = .ok (pairs, rest) ↔
      ∃ name inner v left, FieldStart cs name inner ∧ element inner = .ok (v, left) ∧
        (skip left = '\x7d' :: rest ∧ pairs = [(name, v)] ∨
          ∃ more others, skip left = ',' :: more ∧
            fields element count (skip more) = .ok (others, rest) ∧
            pairs = (name, v) :: others) := by
  constructor
  · intro h
    rw [fields.eq_def] at h
    dsimp only at h
    split at h
    · cases h
    · next hcount =>
      cases hcount
      obtain ⟨⟨name, left⟩, hname, h⟩ := bind_eq_ok.mp h
      dsimp only at h
      split at h
      · next after hcolon =>
        obtain ⟨⟨v, last⟩, hv, h⟩ := bind_eq_ok.mp h
        refine ⟨name, _, v, last, ⟨_, left, after, rfl, hname, hcolon, rfl⟩, hv, ?_⟩
        dsimp only at h
        split at h
        · next heq =>
          cases h
          exact .inl ⟨heq, rfl⟩
        · next more heq =>
          obtain ⟨⟨others, _⟩, ho, h⟩ := bind_eq_ok.mp h
          cases h
          exact .inr ⟨more, others, heq, ho, rfl⟩
        · cases h
      · cases h
    · cases h
  · rintro ⟨name, inner, v, left, ⟨own, after, body, rfl, hname, hcolon, rfl⟩, hv, h⟩
    rw [fields]
    refine bind_eq_ok.mpr ⟨(name, after), hname, ?_⟩
    simp only [hcolon]
    refine bind_eq_ok.mpr ⟨(v, left), hv, ?_⟩
    obtain ⟨heq, rfl⟩ | ⟨more, others, heq, ho, rfl⟩ := h
    · simp only [heq]
    · simp only [heq]
      exact bind_eq_ok.mpr ⟨_, ho, rfl⟩

/-- A list passes on what stops one of its items. -/
theorem items_error {n : Nat} :
    items element (count + 1) cs = .error ⟨.integerTooLong n, rest⟩ ↔
      element cs = .error ⟨.integerTooLong n, rest⟩ ∨
        ∃ v left more, element cs = .ok (v, left) ∧ skip left = ',' :: more ∧
          items element count (skip more) = .error ⟨.integerTooLong n, rest⟩ := by
  rw [items, bind_eq_error]
  refine or_congr_right ⟨?_, ?_⟩
  · rintro ⟨⟨v, left⟩, hv, h⟩
    dsimp only at h
    split at h
    · cases h
    · next more heq =>
      refine ⟨v, left, more, hv, heq, ?_⟩
      obtain h | ⟨_, -, h⟩ := bind_eq_error.mp h
      · exact h
      · cases h
    · cases h
  · rintro ⟨v, left, more, hv, heq, h⟩
    refine ⟨(v, left), hv, ?_⟩
    simp only [heq]
    exact bind_eq_error.mpr (.inl h)

theorem escape_error {opening : List Char} {refusal : Refusal}
    (h : escape opening cs = .error refusal) (n : Nat) : refusal.cause ≠ .integerTooLong n := by
  unfold escape at h
  split at h <;> first
    | cases h <;> exact nofun
    | skip
  unfold codePointEscape at h
  split at h
  · cases h
    exact nofun
  · split at h
    · split at h
      · cases h
      · split at h
        · cases h
          exact nofun
        · split at h <;> cases h
    · cases h

theorem stringFrom_error {opening read : List Char} {refusal : Refusal}
    (h : stringFrom opening read cs = .error refusal) (n : Nat) :
    refusal.cause ≠ .integerTooLong n := by
  fun_induction stringFrom opening read cs with
  | case1 | case5 =>
    cases h
    exact nofun
  | case2 => cases h
  | case3 _ _ _ _ _ ih => exact ih h
  | case4 _ _ _ hescape =>
    cases h
    exact escape_error hescape n
  | case6 _ _ _ _ _ _ ih => exact ih h

/-- A record passes on what stops the value of one of its fields. -/
theorem fields_error {n : Nat} :
    fields element (count + 1) cs = .error ⟨.integerTooLong n, rest⟩ ↔
      ∃ name inner, FieldStart cs name inner ∧
        (element inner = .error ⟨.integerTooLong n, rest⟩ ∨
          ∃ v left more, element inner = .ok (v, left) ∧ skip left = ',' :: more ∧
            fields element count (skip more) = .error ⟨.integerTooLong n, rest⟩) := by
  constructor
  · intro h
    rw [fields.eq_def] at h
    dsimp only at h
    split at h
    · cases h
    · next hcount =>
      cases hcount
      obtain h | ⟨⟨name, left⟩, hname, h⟩ := bind_eq_error.mp h
      · exact absurd rfl (stringFrom_error h n)
      · dsimp only at h
        split at h
        · next after hcolon =>
          refine ⟨name, _, ⟨_, left, after, rfl, hname, hcolon, rfl⟩, ?_⟩
          obtain h | ⟨⟨v, last⟩, hv, h⟩ := bind_eq_error.mp h
          · exact .inl h
          · dsimp only at h
            split at h
            · cases h
            · next more heq =>
              refine .inr ⟨v, last, more, hv, heq, ?_⟩
              obtain h | ⟨_, -, h⟩ := bind_eq_error.mp h
              · exact h
              · cases h
            · cases h
        · cases h
    · cases h
  · rintro ⟨name, inner, ⟨own, after, body, rfl, hname, hcolon, rfl⟩, h⟩
    rw [fields]
    refine bind_eq_error.mpr (.inr ⟨(name, after), hname, ?_⟩)
    simp only [hcolon]
    obtain h | ⟨v, left, more, hv, heq, h⟩ := h
    · exact bind_eq_error.mpr (.inl h)
    · refine bind_eq_error.mpr (.inr ⟨(v, left), hv, ?_⟩)
      simp only [heq]
      exact bind_eq_error.mpr (.inl h)

end Parts

/-! ## Values -/

section Value

variable {depth : Nat} {c : Char} {cs rest : List Char}

theorem value_string : value (depth + 1) ('"' :: cs) =
    (string cs).map fun (s, rest) => (.text s, rest) := by
  rw [value, if_pos rfl]

theorem value_list_nil (h : skip cs = ']' :: rest) :
    value (depth + 1) ('[' :: cs) = .ok (.list [], rest) := by
  rw [value, if_neg (by decide), if_pos rfl, h]
  rfl

theorem value_list (h : ∀ rest, skip cs ≠ ']' :: rest) : value (depth + 1) ('[' :: cs) =
    (items (value depth) (skip cs).length.succ (skip cs)).map
      fun (vs, rest) => (.list vs, rest) := by
  rw [value, if_neg (by decide), if_pos rfl]
  split
  · next rest heq => exact absurd heq (h rest)
  · rfl

theorem value_record_nil (h : skip cs = '\x7d' :: rest) :
    value (depth + 1) ('\x7b' :: cs) = .ok (.record [], rest) := by
  rw [value, if_neg (by decide), if_neg (by decide), if_pos rfl, h]
  rfl

theorem value_record (h : ∀ rest, skip cs ≠ '\x7d' :: rest) : value (depth + 1) ('\x7b' :: cs) =
    (fields (value depth) (skip cs).length.succ (skip cs)).map
      fun (pairs, rest) => (.record (Table.ofPairs pairs), rest) := by
  rw [value, if_neg (by decide), if_neg (by decide), if_pos rfl]
  split
  · next rest heq => exact absurd heq (h rest)
  · rfl

theorem value_atom (h : c ≠ '"') (h' : c ≠ '[') (h'' : c ≠ '\x7b') :
    value (depth + 1) (c :: cs) = atom (c :: cs) := by
  rw [value, if_neg h, if_neg h', if_neg h'']

end Value

/-- How a value begins. -/
inductive Opening : Char → List Char → Prop
  | string {cs : List Char} : Opening '"' cs
  | emptyList {cs rest : List Char} : skip cs = ']' :: rest → Opening '[' cs
  | list {cs : List Char} : (∀ rest, skip cs ≠ ']' :: rest) → Opening '[' cs
  | emptyRecord {cs rest : List Char} : skip cs = '\x7d' :: rest → Opening '\x7b' cs
  | record {cs : List Char} : (∀ rest, skip cs ≠ '\x7d' :: rest) → Opening '\x7b' cs
  | atom {c : Char} {cs : List Char} : c ≠ '"' → c ≠ '[' → c ≠ '\x7b' → Opening c cs

theorem opening (c : Char) (cs : List Char) : Opening c cs := by
  by_cases hstring : c = '"'
  · exact hstring ▸ .string
  by_cases hlist : c = '['
  · subst hlist
    by_cases hempty : ∃ rest, skip cs = ']' :: rest
    · exact hempty.elim fun _ => .emptyList
    · exact .list (not_exists.mp hempty)
  by_cases hrecord : c = '\x7b'
  · subst hrecord
    by_cases hempty : ∃ rest, skip cs = '\x7d' :: rest
    · exact hempty.elim fun _ => .emptyRecord
    · exact .record (not_exists.mp hempty)
  · exact .atom hstring hlist hrecord

/-! ## Parts that are read -/

section Parts

variable {element : List Char → Reading Value}
  (hs : ∀ cs v rest, element cs = .ok (v, rest) → rest <:+ cs)
include hs

theorem items_suffix {count : Nat} {cs rest : List Char} {vs : List Value}
    (h : items element count cs = .ok (vs, rest)) : rest <:+ cs := by
  induction count generalizing cs rest vs with
  | zero => cases h
  | succ count ih =>
    obtain ⟨v, left, hv, h⟩ := items_succ.mp h
    have hleft : skip left <:+ cs := (skip_suffix left).trans (hs _ _ _ hv)
    obtain ⟨heq, -⟩ | ⟨more, others, heq, ho, -⟩ := h
    · exact (heq ▸ List.suffix_cons _ _).trans hleft
    · exact ((ih ho).trans (skip_suffix more)).trans ((heq ▸ List.suffix_cons _ _).trans hleft)

theorem fields_suffix {count : Nat} {cs rest : List Char} {pairs : List (String × Value)}
    (h : fields element count cs = .ok (pairs, rest)) : rest <:+ cs := by
  induction count generalizing cs rest pairs with
  | zero => cases h
  | succ count ih =>
    obtain ⟨name, inner, v, left, hstart, hv, h⟩ := fields_succ.mp h
    have hleft : skip left <:+ cs := (skip_suffix left).trans ((hs _ _ _ hv).trans hstart.suffix)
    obtain ⟨heq, -⟩ | ⟨more, others, heq, ho, -⟩ := h
    · exact (heq ▸ List.suffix_cons _ _).trans hleft
    · exact ((ih ho).trans (skip_suffix more)).trans ((heq ▸ List.suffix_cons _ _).trans hleft)

variable {other : List Char → Reading Value} {limit : Nat}
  (hle : ∀ cs v rest, cs.length ≤ limit → element cs = .ok (v, rest) → other cs = .ok (v, rest))
include hle

/-- Whatever reads the items of a list as well reads the list as well. -/
theorem items_of_le {count : Nat} {cs rest : List Char} {vs : List Value}
    (hcs : cs.length ≤ limit) (h : items element count cs = .ok (vs, rest)) :
    items other count cs = .ok (vs, rest) := by
  induction count generalizing cs rest vs with
  | zero => cases h
  | succ count ih =>
    obtain ⟨v, left, hv, h⟩ := items_succ.mp h
    refine items_succ.mpr ⟨v, left, hle _ _ _ hcs hv, h.imp_right ?_⟩
    rintro ⟨more, others, heq, ho, rfl⟩
    have hmore := length_skip_lt (hs _ _ _ hv) heq
    exact ⟨more, others, heq, ih (Nat.le_trans (Nat.le_of_lt hmore) hcs) ho, rfl⟩

theorem fields_of_le {count : Nat} {cs rest : List Char} {pairs : List (String × Value)}
    (hcs : cs.length ≤ limit) (h : fields element count cs = .ok (pairs, rest)) :
    fields other count cs = .ok (pairs, rest) := by
  induction count generalizing cs rest pairs with
  | zero => cases h
  | succ count ih =>
    obtain ⟨name, inner, v, left, hstart, hv, h⟩ := fields_succ.mp h
    have hinner : inner.length ≤ limit := Nat.le_trans hstart.suffix.length_le hcs
    refine fields_succ.mpr ⟨name, inner, v, left, hstart, hle _ _ _ hinner hv, h.imp_right ?_⟩
    rintro ⟨more, others, heq, ho, rfl⟩
    have hmore := length_skip_lt ((hs _ _ _ hv).trans hstart.suffix) heq
    exact ⟨more, others, heq, ih (Nat.le_trans (Nat.le_of_lt hmore) hcs) ho, rfl⟩

end Parts

theorem value_suffix {depth : Nat} {cs rest : List Char} {v : Value}
    (h : value depth cs = .ok (v, rest)) : rest <:+ cs := by
  induction depth generalizing cs rest v with
  | zero => cases cs <;> cases h
  | succ depth ih =>
    cases cs with
    | nil => cases h
    | cons c cs =>
      have hskip : skip cs <:+ c :: cs := (skip_suffix cs).trans (List.suffix_cons c cs)
      cases opening c cs with
      | string =>
        rw [value_string] at h
        obtain ⟨⟨s, left⟩, hs, ⟨⟩⟩ := map_eq_ok.mp h
        exact (stringFrom_suffix hs).trans (List.suffix_cons _ _)
      | emptyList hempty =>
        cases (value_list_nil hempty).symm.trans h
        exact (hempty ▸ List.suffix_cons _ _).trans hskip
      | list hsome =>
        rw [value_list hsome] at h
        obtain ⟨⟨vs, left⟩, hr, ⟨⟩⟩ := map_eq_ok.mp h
        exact (items_suffix (fun _ _ _ => ih) hr).trans hskip
      | emptyRecord hempty =>
        cases (value_record_nil hempty).symm.trans h
        exact (hempty ▸ List.suffix_cons _ _).trans hskip
      | record hsome =>
        rw [value_record hsome] at h
        obtain ⟨⟨pairs, left⟩, hr, ⟨⟩⟩ := map_eq_ok.mp h
        exact (fields_suffix (fun _ _ _ => ih) hr).trans hskip
      | atom hstring hlist hrecord =>
        rw [value_atom hstring hlist hrecord] at h
        exact atom_suffix h

/-- What is read at some depth is read at every depth from the length of the text on. -/
theorem value_of_le {depth deeper : Nat} {cs rest : List Char} {v : Value}
    (h : value depth cs = .ok (v, rest)) (hd : cs.length ≤ deeper) :
    value deeper cs = .ok (v, rest) := by
  induction depth generalizing deeper cs rest v with
  | zero => cases cs <;> cases h
  | succ depth ih =>
    cases cs with
    | nil => cases h
    | cons c cs =>
      obtain ⟨deeper, rfl⟩ := Nat.exists_eq_add_of_le' (Nat.le_trans (Nat.succ_pos _) hd)
      have hskip : (skip cs).length ≤ deeper :=
        Nat.le_trans (skip_suffix cs).length_le (Nat.le_of_succ_le_succ hd)
      cases opening c cs with
      | string =>
        rw [value_string] at h ⊢
        exact h
      | emptyList hempty =>
        rw [value_list_nil hempty] at h ⊢
        exact h
      | list hsome =>
        rw [value_list hsome] at h ⊢
        obtain ⟨⟨vs, left⟩, hr, ⟨⟩⟩ := map_eq_ok.mp h
        exact map_eq_ok.mpr ⟨_, items_of_le (fun _ _ _ => value_suffix)
          (fun _ _ _ hl hv => ih hv hl) hskip hr, rfl⟩
      | emptyRecord hempty =>
        rw [value_record_nil hempty] at h ⊢
        exact h
      | record hsome =>
        rw [value_record hsome] at h ⊢
        obtain ⟨⟨pairs, left⟩, hr, ⟨⟩⟩ := map_eq_ok.mp h
        exact map_eq_ok.mpr ⟨_, fields_of_le (fun _ _ _ => value_suffix)
          (fun _ _ _ hl hv => ih hv hl) hskip hr, rfl⟩
      | atom hstring hlist hrecord =>
        rw [value_atom hstring hlist hrecord] at h ⊢
        exact h

/-! ## Integers that are too long -/

/-- A text that goes on with a numeral: with a digit, a fraction or an exponent. -/
inductive Prolongs : List Char → Prop
  | digit {d : Char} {rest : List Char} : d.isDigit → Prolongs (d :: rest)
  | fraction {d : Char} {rest : List Char} : d.isDigit → Prolongs ('.' :: d :: rest)
  | exponent {e d : Char} {rest : List Char} :
      e = 'e' ∨ e = 'E' → d.isDigit → Prolongs (e :: d :: rest)
  | signedExponent {e sign d : Char} {rest : List Char} :
      e = 'e' ∨ e = 'E' → sign = '-' ∨ sign = '+' → d.isDigit → Prolongs (e :: sign :: d :: rest)

/-- An integer numeral of so many digits stands at the head of a text, and it is too long
to be read. -/
def Overlong (cs : List Char) (n : Nat) : Prop :=
  ∃ digits rest, (cs = digits ++ rest ∨ cs = '-' :: (digits ++ rest)) ∧
    (∀ c ∈ digits, c.isDigit) ∧ digits.head? ≠ some '0' ∧ ¬ Prolongs rest ∧
    digits.length = n ∧ digitLimit < n

theorem Overlong.exists_cons {cs : List Char} {n : Nat} (h : Overlong cs n) :
    ∃ c rest, cs = c :: rest ∧ (c.isDigit ∨ c = '-') := by
  obtain ⟨digits, rest, hcs, hdigits, -, -, rfl, hl⟩ := h
  obtain ⟨d, others, rfl⟩ : ∃ d others, digits = d :: others :=
    List.exists_cons_of_length_pos (Nat.zero_lt_of_lt hl)
  rcases hcs with rfl | rfl
  · exact ⟨d, _, rfl, .inl (hdigits d List.mem_cons_self)⟩
  · exact ⟨_, _, rfl, .inr rfl⟩

theorem fraction_of_not_prolongs {cs : List Char} (h : ¬ Prolongs cs) : fraction cs = ([], cs) := by
  unfold fraction
  split
  · split
    · next hd => exact absurd (.fraction hd) h
    · rfl
  · rfl

theorem exponent?_of_not_prolongs {cs : List Char} (h : ¬ Prolongs cs) : exponent? cs = none := by
  unfold exponent?
  split
  · next c rest =>
    split
    · next hc =>
      split
      next negative unsigned hsign =>
      split
      · rfl
      · next digits hdigits =>
        -- A digit stands behind the letter and the sign.
        cases unsigned with
        | nil => exact absurd rfl hdigits
        | cons d others =>
          have hd : d.isDigit := by
            refine Decidable.by_contra fun hd => hdigits ?_
            exact List.takeWhile_cons_of_neg hd
          refine absurd ?_ h
          split at hsign <;> cases hsign
          · exact .signedExponent hc (.inl rfl) hd
          · exact .signedExponent hc (.inr rfl) hd
          · exact .exponent hc hd
    · rfl
  · rfl

theorem exponent?_unsigned {e d : Char} (he : e = 'e' ∨ e = 'E') (hd : d.isDigit)
    (rest : List Char) : exponent? (e :: d :: rest) ≠ none := by
  unfold exponent?
  dsimp only
  rw [if_pos he]
  split
  · next hnone =>
    split at hnone
    · next heq =>
      cases heq
      exact absurd hd (by decide)
    · next heq =>
      cases heq
      exact absurd hd (by decide)
    · simp [List.takeWhile_cons_of_pos hd] at hnone
  · exact Option.some_ne_none _

theorem exponent?_signed {e sign d : Char} (he : e = 'e' ∨ e = 'E') (hs : sign = '-' ∨ sign = '+')
    (hd : d.isDigit) (rest : List Char) : exponent? (e :: sign :: d :: rest) ≠ none := by
  unfold exponent?
  dsimp only
  rw [if_pos he]
  split
  · next hnone =>
    rcases hs with rfl | rfl <;> simp [List.takeWhile_cons_of_pos hd] at hnone
  · exact Option.some_ne_none _

/-- After all digits, what goes on with the numeral is read as a fraction or an exponent. -/
theorem exponent?_ne_none {cs : List Char} (h : Prolongs cs) (hd : ∀ c ∈ cs.head?, ¬ c.isDigit)
    (hf : (fraction cs).1 = []) : exponent? (fraction cs).2 ≠ none := by
  cases h with
  | digit hdigit => exact absurd hdigit (hd _ rfl)
  | fraction hdigit => simp [fraction, hdigit] at hf
  | exponent he hdigit =>
    rcases he with rfl | rfl
    · exact exponent?_unsigned (.inl rfl) hdigit _
    · exact exponent?_unsigned (.inr rfl) hdigit _
  | signedExponent he hsign hdigit =>
    rcases he with rfl | rfl
    · exact exponent?_signed (.inl rfl) hsign hdigit _
    · exact exponent?_signed (.inr rfl) hsign hdigit _

theorem drop_digits (cs : List Char) :
    cs.drop (cs.takeWhile Char.isDigit).length = cs.dropWhile Char.isDigit := by
  have hsplit : cs.takeWhile Char.isDigit ++ cs.dropWhile Char.isDigit = cs :=
    List.takeWhile_append_dropWhile
  have hdrop := congrArg (List.drop (cs.takeWhile Char.isDigit).length) hsplit
  rwa [List.drop_left, eq_comm] at hdrop

theorem not_isDigit_dropWhile {cs : List Char} :
    ∀ c ∈ (cs.dropWhile Char.isDigit).head?, ¬ c.isDigit := by
  intro c hc
  have hhead := List.head?_dropWhile_not Char.isDigit cs
  rw [Option.mem_def.mp hc] at hhead
  simpa using hhead

theorem overlong_of_number {cs left : List Char} {n : Nat}
    (h : number cs = .error ⟨.integerTooLong n, left⟩) : left = cs ∧ Overlong cs n := by
  unfold number at h
  split at h
  next negative unsigned hsign =>
  have hcs : cs = unsigned ∨ cs = '-' :: unsigned := by
    split at hsign <;> cases hsign
    · exact .inr rfl
    · exact .inl rfl
  dsimp only at h
  split at h
  · -- A leading zero is the only digit.
    split at h
    · cases h
    · split at h
      · split at h
        · next hl => exact absurd hl (by decide)
        · cases h
      · cases h
  · next hzero =>
    split at h
    · cases h
    · split at h
      · next hdecimals hexponent =>
        split at h
        · next hl =>
          cases h
          refine ⟨rfl, unsigned.takeWhile Char.isDigit, unsigned.dropWhile Char.isDigit, ?_, ?_,
            ?_, ?_, rfl, hl⟩
          · rwa [List.takeWhile_append_dropWhile]
          · exact fun c hc => List.all_eq_true.mp List.all_takeWhile c hc
          · intro hhead
            obtain ⟨tail, rfl⟩ : ∃ tail, unsigned = '0' :: tail := by
              rw [List.head?_takeWhile] at hhead
              exact List.head?_eq_some_iff.mp (Option.filter_eq_some_iff.mp hhead).1
            exact hzero tail rfl
          · rw [drop_digits] at hdecimals hexponent
            exact fun hp => exponent?_ne_none hp not_isDigit_dropWhile hdecimals hexponent
        · cases h
      · cases h

theorem number_of_overlong {cs : List Char} {n : Nat} (h : Overlong cs n) :
    number cs = .error ⟨.integerTooLong n, cs⟩ := by
  obtain ⟨digits, rest, hcs, hdigits, hzero, hend, rfl, hl⟩ := h
  have hwhole : (digits ++ rest).takeWhile Char.isDigit = digits := by
    have hstop : rest.takeWhile Char.isDigit = [] := by
      cases rest with
      | nil => rfl
      | cons c others => exact List.takeWhile_cons_of_neg fun hd => hend (.digit hd)
    rw [List.takeWhile_append_of_pos hdigits, hstop, List.append_nil]
  have hrest : (digits ++ rest).drop digits.length = rest := List.drop_left
  obtain ⟨d, others, rfl⟩ : ∃ d others, digits = d :: others :=
    List.exists_cons_of_length_pos (Nat.zero_lt_of_lt hl)
  have hd := hdigits d List.mem_cons_self
  unfold number
  split
  next negative unsigned hsign =>
  obtain rfl : unsigned = d :: others ++ rest := by
    split at hsign
    · rcases hcs with heq | heq
      · cases heq
        exact absurd hd (by decide)
      · cases heq
        cases hsign
        rfl
    · next hminus =>
      cases hsign
      exact hcs.resolve_right (hminus _)
  dsimp only
  split
  · next heq =>
    cases heq
    exact absurd rfl hzero
  · rw [hwhole, hrest, fraction_of_not_prolongs hend, exponent?_of_not_prolongs hend]
    exact if_pos hl

/-- A numeral is none of the words. -/
theorem atom_of_overlong {cs : List Char} {n : Nat} (h : Overlong cs n) :
    atom cs = .error ⟨.integerTooLong n, cs⟩ := by
  have hnumber := number_of_overlong h
  obtain ⟨digits, rest, hcs, hdigits, -, -, rfl, hl⟩ := h
  obtain ⟨d, others, rfl⟩ : ∃ d others, digits = d :: others :=
    List.exists_cons_of_length_pos (Nat.zero_lt_of_lt hl)
  have hd := hdigits d List.mem_cons_self
  have hletter : ∀ c : Char, c.isDigit = false → c ≠ d := by
    rintro c hc rfl
    exact absurd hd (Bool.eq_false_iff.mp hc)
  have hwords : words.find? (fun word => word.1.isPrefixOf cs) = none := by
    refine List.find?_eq_none.mpr fun word hm => ?_
    simp only [words, List.mem_cons, List.not_mem_nil, or_false] at hm
    rcases hm with rfl | rfl | rfl | rfl | rfl | rfl <;> rcases hcs with rfl | rfl <;>
      simp [hletter 'n' rfl, hletter 't' rfl, hletter 'f' rfl, hletter 'N' rfl, hletter 'I' rfl,
        hletter '-' rfl]
  rw [atom, hwords]
  exact hnumber

theorem overlong_of_atom {cs left : List Char} {n : Nat}
    (h : atom cs = .error ⟨.integerTooLong n, left⟩) : left = cs ∧ Overlong cs n := by
  unfold atom at h
  split at h
  · cases h
  · exact overlong_of_number h

/-! ## What reading comes to -/

/-- A value is read at the head of a text. -/
def Reads (cs : List Char) (v : Value) (rest : List Char) : Prop :=
  ∃ depth, value depth cs = .ok (v, rest)

theorem Reads.suffix {cs rest : List Char} {v : Value} (h : Reads cs v rest) : rest <:+ cs :=
  h.elim fun _ => value_suffix

/-- Where the values of the parts of a list or a record begin: the first part at the head,
and each later one behind a part that is read and a comma. -/
inductive PartAt (start : List Char → List Char → Prop) : List Char → List Char → Prop
  | first {cs inner : List Char} : start cs inner → PartAt start cs inner
  | later {cs inner left more place : List Char} {v : Value} :
      start cs inner → Reads inner v left → skip left = ',' :: more →
      PartAt start (skip more) place → PartAt start cs place

/-- Reading the value at the head of a text comes to a place in it where a value begins:
that value itself, or one within a part of it. -/
inductive Comes : List Char → List Char → Prop
  | here {cs : List Char} : Comes cs cs
  | item {cs inner place : List Char} :
      PartAt Eq (skip cs) inner → Comes inner place → Comes ('[' :: cs) place
  | field {cs inner place : List Char} :
      PartAt FieldValue (skip cs) inner → Comes inner place → Comes ('\x7b' :: cs) place

section Stops

variable {element : List Char → Reading Value} {n : Nat} {place : List Char}

theorem exists_item_of_error (he : ∀ cs v left, element cs = .ok (v, left) → Reads cs v left)
    {count : Nat} {cs : List Char}
    (h : items element count cs = .error ⟨.integerTooLong n, place⟩) :
    ∃ inner, PartAt Eq cs inner ∧ element inner = .error ⟨.integerTooLong n, place⟩ := by
  induction count generalizing cs with
  | zero => cases h
  | succ count ih =>
    obtain h | ⟨v, left, more, hv, hmore, h⟩ := items_error.mp h
    · exact ⟨cs, .first rfl, h⟩
    · obtain ⟨inner, hpart, hinner⟩ := ih h
      exact ⟨inner, .later rfl (he _ _ _ hv) hmore hpart, hinner⟩

theorem exists_field_of_error (he : ∀ cs v left, element cs = .ok (v, left) → Reads cs v left)
    {count : Nat} {cs : List Char}
    (h : fields element count cs = .error ⟨.integerTooLong n, place⟩) :
    ∃ inner, PartAt FieldValue cs inner ∧ element inner = .error ⟨.integerTooLong n, place⟩ := by
  induction count generalizing cs with
  | zero => cases h
  | succ count ih =>
    obtain ⟨name, first, hstart, h⟩ := fields_error.mp h
    obtain h | ⟨v, left, more, hv, hmore, h⟩ := h
    · exact ⟨first, .first ⟨name, hstart⟩, h⟩
    · obtain ⟨inner, hpart, hinner⟩ := ih h
      exact ⟨inner, .later ⟨name, hstart⟩ (he _ _ _ hv) hmore hpart, hinner⟩

/-- A list stops where one of its items does, if the items before are read. -/
theorem items_of_part {limit : Nat}
    (he : ∀ cs v left, cs.length ≤ limit → Reads cs v left → element cs = .ok (v, left))
    {cs inner : List Char} (hpart : PartAt Eq cs inner)
    (hinner : element inner = .error ⟨.integerTooLong n, place⟩) (hcs : cs.length ≤ limit)
    {count : Nat} (hc : cs.length < count) :
    items element count cs = .error ⟨.integerTooLong n, place⟩ := by
  induction hpart generalizing count with
  | first hstart =>
    obtain ⟨count, rfl⟩ := Nat.exists_eq_add_of_le' (Nat.zero_lt_of_lt hc)
    exact items_error.mpr (.inl (hstart ▸ hinner))
  | later hstart hv hmore _ ih =>
    obtain ⟨count, rfl⟩ := Nat.exists_eq_add_of_le' (Nat.zero_lt_of_lt hc)
    subst hstart
    have hlt := length_skip_lt hv.suffix hmore
    exact items_error.mpr (.inr ⟨_, _, _, he _ _ _ hcs hv, hmore,
      ih hinner (by omega) (by omega)⟩)

theorem fields_of_part {limit : Nat}
    (he : ∀ cs v left, cs.length ≤ limit → Reads cs v left → element cs = .ok (v, left))
    {cs inner : List Char} (hpart : PartAt FieldValue cs inner)
    (hinner : element inner = .error ⟨.integerTooLong n, place⟩) (hcs : cs.length ≤ limit)
    {count : Nat} (hc : cs.length < count) :
    fields element count cs = .error ⟨.integerTooLong n, place⟩ := by
  induction hpart generalizing count with
  | first hstart =>
    obtain ⟨count, rfl⟩ := Nat.exists_eq_add_of_le' (Nat.zero_lt_of_lt hc)
    obtain ⟨name, hstart⟩ := hstart
    exact fields_error.mpr ⟨name, _, hstart, .inl hinner⟩
  | later hstart hv hmore _ ih =>
    obtain ⟨count, rfl⟩ := Nat.exists_eq_add_of_le' (Nat.zero_lt_of_lt hc)
    obtain ⟨name, hstart⟩ := hstart
    have hlt := length_skip_lt (hv.suffix.trans hstart.suffix) hmore
    have hle := hstart.suffix.length_le
    exact fields_error.mpr ⟨name, _, hstart, .inr ⟨_, _, _, he _ _ _ (by omega) hv, hmore,
      ih hinner (by omega) (by omega)⟩⟩

end Stops

theorem PartAt.suffix {start : List Char → List Char → Prop} {cs place : List Char}
    (hs : ∀ cs inner, start cs inner → inner <:+ cs) (h : PartAt start cs place) :
    place <:+ cs := by
  induction h with
  | first hstart => exact hs _ _ hstart
  | later hstart hv hmore _ ih =>
    have hmore := (hmore ▸ List.suffix_cons _ _).trans (skip_suffix _)
    exact (ih.trans (skip_suffix _)).trans (hmore.trans (hv.suffix.trans (hs _ _ hstart)))

theorem PartAt.exists_start {start : List Char → List Char → Prop} {cs place : List Char}
    (h : PartAt start cs place) : ∃ inner, start cs inner := by
  cases h with
  | first hstart => exact ⟨_, hstart⟩
  | later hstart => exact ⟨_, hstart⟩

/-- A closing bracket begins no value. -/
theorem value_bracket (depth : Nat) (rest : List Char) :
    value depth (']' :: rest) = .error ⟨.value, ']' :: rest⟩ := by
  cases depth with
  | zero => rfl
  | succ depth =>
    rw [value_atom (by decide) (by decide) (by decide)]
    rfl

/-- Reading that stops at an integer has come to it. -/
theorem comes_of_value {depth : Nat} {cs place : List Char} {n : Nat}
    (h : value depth cs = .error ⟨.integerTooLong n, place⟩) :
    Comes cs place ∧ Overlong place n := by
  induction depth generalizing cs with
  | zero => cases cs <;> cases h
  | succ depth ih =>
    cases cs with
    | nil => cases h
    | cons c cs =>
      cases opening c cs with
      | string =>
        rw [value_string] at h
        exact absurd rfl (stringFrom_error (map_eq_error.mp h) n)
      | emptyList hempty =>
        rw [value_list_nil hempty] at h
        cases h
      | list hsome =>
        rw [value_list hsome] at h
        obtain ⟨inner, hpart, hinner⟩ :=
          exists_item_of_error (fun _ _ _ hv => ⟨depth, hv⟩) (map_eq_error.mp h)
        exact (ih hinner).imp_left (.item hpart)
      | emptyRecord hempty =>
        rw [value_record_nil hempty] at h
        cases h
      | record hsome =>
        rw [value_record hsome] at h
        obtain ⟨inner, hpart, hinner⟩ :=
          exists_field_of_error (fun _ _ _ hv => ⟨depth, hv⟩) (map_eq_error.mp h)
        exact (ih hinner).imp_left (.field hpart)
      | atom hstring hlist hrecord =>
        rw [value_atom hstring hlist hrecord] at h
        obtain ⟨rfl, ho⟩ := overlong_of_atom h
        exact ⟨.here, ho⟩

/-- Reading that comes to an integer which is too long stops there. -/
theorem value_of_comes {cs place : List Char} {n : Nat} (h : Comes cs place)
    (ho : Overlong place n) {depth : Nat} (hd : cs.length ≤ depth) :
    value depth cs = .error ⟨.integerTooLong n, place⟩ := by
  have he : ∀ limit cs v left, cs.length ≤ limit → Reads cs v left →
      value limit cs = .ok (v, left) := fun limit cs v left hl hv =>
    hv.elim fun _ hv => value_of_le hv hl
  induction h generalizing depth with
  | here =>
    obtain ⟨c, rest, rfl, hc⟩ := ho.exists_cons
    obtain ⟨depth, rfl⟩ := Nat.exists_eq_add_of_le' (Nat.le_trans (Nat.succ_pos _) hd)
    have hatom := atom_of_overlong ho
    rcases hc with hdigit | rfl
    · rwa [value_atom] <;>
        · rintro rfl
          exact absurd hdigit (by decide)
    · rwa [value_atom (by decide) (by decide) (by decide)]
  | @item cs inner place hpart hcomes ih =>
    obtain ⟨depth, rfl⟩ := Nat.exists_eq_add_of_le' (Nat.le_trans (Nat.succ_pos _) hd)
    have hskip : (skip cs).length ≤ depth :=
      Nat.le_trans (skip_suffix cs).length_le (Nat.le_of_succ_le_succ hd)
    have hstart : ∀ cs inner : List Char, cs = inner → inner <:+ cs :=
      fun _ _ heq => heq ▸ List.suffix_rfl
    have hinner := hpart.suffix hstart
    have hvalue := ih ho (Nat.le_trans hinner.length_le hskip)
    have hsome : ∀ rest, skip cs ≠ ']' :: rest := by
      intro rest hempty
      rw [hempty] at hpart
      cases hpart with
      | first hstart =>
        rw [← hstart, value_bracket] at hvalue
        cases hvalue
      | later hstart hv =>
        obtain ⟨_, hv⟩ := hv
        rw [← hstart, value_bracket] at hv
        cases hv
    rw [value_list hsome, items_of_part (he depth) hpart hvalue hskip (Nat.lt_succ_self _)]
    rfl
  | @field cs inner place hpart hcomes ih =>
    obtain ⟨depth, rfl⟩ := Nat.exists_eq_add_of_le' (Nat.le_trans (Nat.succ_pos _) hd)
    have hskip : (skip cs).length ≤ depth :=
      Nat.le_trans (skip_suffix cs).length_le (Nat.le_of_succ_le_succ hd)
    have hinner : inner <:+ skip cs :=
      hpart.suffix fun _ _ => FieldValue.suffix
    have hvalue := ih ho (Nat.le_trans hinner.length_le hskip)
    have hsome : ∀ rest, skip cs ≠ '\x7d' :: rest := by
      intro rest hempty
      rw [hempty] at hpart
      obtain ⟨_, name, own, left, after, heq, -⟩ := hpart.exists_start
      exact absurd (List.cons.inj heq).1 (by decide)
    rw [value_record hsome, fields_of_part (he depth) hpart hvalue hskip (Nat.lt_succ_self _)]
    rfl

/-- A text is refused for an integer that is too long exactly if reading comes to one. -/
theorem readChars_eq_tooLong {cs place : List Char} {n : Nat} :
    readChars cs = .error ⟨.integerTooLong n, place⟩ ↔
      Comes (skip cs) place ∧ Overlong place n := by
  constructor
  · intro h
    unfold readChars at h
    split at h
    · cases h
    · obtain h | ⟨⟨v, rest⟩, -, h⟩ := bind_eq_error.mp h
      · exact comes_of_value h
      · dsimp only at h
        split at h <;> cases h
  · rintro ⟨hcomes, ho⟩
    have hmark : cs.head? ≠ some '\ufeff' := by
      intro hmark
      obtain ⟨tail, rfl⟩ := List.head?_eq_some_iff.mp hmark
      have hskip : skip ('\ufeff' :: tail) = '\ufeff' :: tail :=
        List.dropWhile_cons_of_neg (by decide)
      rw [hskip] at hcomes
      cases hcomes with
      | here =>
        obtain ⟨c, rest, heq, hc⟩ := ho.exists_cons
        cases heq
        exact absurd hc (by decide)
    rw [readChars, if_neg hmark]
    refine bind_eq_error.mpr (.inl (value_of_comes hcomes ho ?_))
    exact Nat.le_succ_of_le (skip_suffix cs).length_le

/-- Reading a text comes to an integer of so many digits, which are too many. -/
def MeetsOverlong (cs : List Char) (n : Nat) : Prop :=
  ∃ place, Comes (skip cs) place ∧ Overlong place n

theorem read_eq_unreadable {cs : List Char} {fault : Fault} :
    read (String.ofList cs) = .error (.unreadable fault) ↔
      ∃ n, MeetsOverlong cs n ∧ fault = .unreadableInteger n := by
  rw [read, String.toList_ofList]
  constructor
  · intro h
    split at h
    · cases h
    · next refusal hrefusal =>
      obtain ⟨cause, place⟩ := refusal
      split at h
      · next n hcause =>
        obtain rfl : cause = .integerTooLong n := hcause
        cases h
        exact ⟨n, ⟨place, readChars_eq_tooLong.mp hrefusal⟩, rfl⟩
      · cases h
  · rintro ⟨n, ⟨place, hplace⟩, rfl⟩
    rw [readChars_eq_tooLong.mpr hplace]

end Json
end RecordQuery
