/-
What is read from a text in a style.

Escaping doubles the backslashes before a tag and adds one, and reading halves them again,
so all of a text but the backslashes it ends in is read back (`read_escapeTags`).  Those
meet the closing tag: a single one is doubled first, but of several only half are shown,
and where their number is odd the closing tag is shown, too.  So a styled text is read as
its style, exactly the text, and the closing tag if and only if it does not end in two
backslashes (`read_styled_iff`).  A terminal also drops a backslash before a bracket that
opens no tag (`read_styled_terminal_iff`).
-/
import RecordQuery.Proofs.Markup.Reading

namespace RecordQuery
namespace Markup

variable {bare : Nat → Nat} {met : Nat} {cs tail : List Char}

/-! ## Escaped tags are tags -/

def isBracket (c : Char) : Bool :=
  c = '[' || c = ']'

def startsTag : List Char → Bool
  | [] => false
  | c :: _ => beginsTag c

@[simp] theorem startsTag_nil : startsTag [] = false := rfl

@[simp] theorem startsTag_cons (c : Char) (cs : List Char) :
    startsTag (c :: cs) = beginsTag c := rfl

/-- A tag begins with a character that can begin one, and the first bracket ends it. -/
theorem isSome_tag? : (tag? cs).isSome ↔ startsTag cs ∧ cs.find? isBracket = some ']' := by
  constructor
  · intro h
    obtain ⟨⟨name, later⟩, htag⟩ := Option.isSome_iff_exists.mp h
    obtain ⟨⟨c, name, rfl, hc, hname⟩, rfl⟩ := tag?_eq_some.mp htag
    refine ⟨hc, List.find?_eq_some_iff_append.mpr ⟨rfl, c :: name, later, rfl, ?_⟩⟩
    have hfirst : ¬ c = '[' ∧ ¬ c = ']' := (ne_of_beginsTag hc).2
    simpa [isBracket] using ⟨hfirst, hname⟩
  · rintro ⟨hc, hfind⟩
    obtain ⟨-, name, later, rfl, hname⟩ := List.find?_eq_some_iff_append.mp hfind
    cases name with
    | nil => exact absurd hc (by decide : ¬ beginsTag ']')
    | cons c name =>
      refine Option.isSome_iff_exists.mpr ⟨_, tag?_eq_some.mpr ⟨⟨c, name, rfl, hc, ?_⟩, rfl⟩⟩
      simpa [isBracket] using (List.forall_mem_cons.mp hname).2

/-- Backslashes with a bracket behind them.  What stands before them ends there. -/
def Fenced (tail : List Char) : Prop :=
  ∃ n after, tail = backslashes n ++ '[' :: after

theorem find?_backslashes (n : Nat) (cs : List Char) :
    (backslashes n ++ cs).find? isBracket = cs.find? isBracket := by
  simp [backslashes, List.find?_append, isBracket]

theorem startsTag_backslashes (n : Nat) (cs : List Char) :
    startsTag (backslashes n ++ cs) = (n == 0 && startsTag cs) := by
  cases n <;> rfl

theorem find?_escapeTags (met : Nat) (cs : List Char) :
    (escapeTags met cs).find? isBracket = cs.find? isBracket := by
  fun_induction escapeTags met cs with
  | case1 met => simpa using find?_backslashes met []
  | case2 met rest ih => exact ih
  | case3 | case4 => rw [find?_backslashes]; rfl
  | case5 met c rest _ _ ih => rw [find?_backslashes, List.find?_cons, List.find?_cons, ih]

theorem startsTag_escapeTags (h : Fenced tail) :
    startsTag (escapeTags met cs ++ tail) = (met == 0 && startsTag cs) := by
  have hbracket : beginsTag '[' = false := rfl
  have hslash : beginsTag '\\' = false := rfl
  fun_induction escapeTags met cs with
  | case1 met =>
    obtain ⟨n, after, rfl⟩ := h
    simp [startsTag_backslashes, hbracket]
  | case2 met rest ih => simp [ih, hslash]
  | case3 | case4 => simp [startsTag_backslashes, hbracket]
  | case5 met c rest _ _ ih => simp [startsTag_backslashes]

/-- Escaping keeps the tags of a text, and a fence adds none. -/
theorem isSome_tag?_escapeTags (h : Fenced tail) :
    (tag? (escapeTags 0 cs ++ tail)).isSome = (tag? cs).isSome := by
  have hfence : tail.find? isBracket = some '[' := by
    obtain ⟨n, after, rfl⟩ := h
    exact find?_backslashes n ('[' :: after)
  rw [Bool.eq_iff_iff, isSome_tag?, isSome_tag?, startsTag_escapeTags h, List.find?_append,
    find?_escapeTags, hfence]
  cases cs.find? isBracket <;> simp

/-! ## What is read of a text -/

/-- What is shown of a text, less the backslashes it ends in. -/
def body (bare : Nat → Nat) : Nat → List Char → List Char
  | _, [] => []
  | met, '\\' :: rest => body bare (met + 1) rest
  | met, '[' :: rest =>
    backslashes (if (tag? rest).isSome then met else bare met) ++ '[' :: body bare 0 rest
  | met, c :: rest => backslashes met ++ c :: body bare 0 rest

/-- How many backslashes a text ends in. -/
def trailing : Nat → List Char → Nat
  | met, [] => met
  | met, '\\' :: rest => trailing (met + 1) rest
  | _, _ :: rest => trailing 0 rest

theorem trailing_cons {c : Char} (hs : c ≠ '\\') (rest : List Char) :
    trailing met (c :: rest) = trailing 0 rest := by
  rw [trailing]
  exact hs

theorem body_cons {c : Char} (hs : c ≠ '\\') (hb : c ≠ '[') (rest : List Char) :
    body bare met (c :: rest) = backslashes met ++ c :: body bare 0 rest := by
  rw [body]
  · exact hs
  · exact hb

theorem body_trailing (met : Nat) (cs : List Char) :
    body id met cs ++ backslashes (trailing met cs) = backslashes met ++ cs := by
  fun_induction body id met cs with
  | case1 met => simp [trailing]
  | case2 met rest ih => rw [trailing, ih, backslashes_succ]
  | case3 met rest ih =>
    rw [trailing_cons (by decide), List.append_assoc, List.cons_append, ih]
    simp [backslashes]
  | case4 met c rest hs hb ih =>
    rw [trailing_cons hs, List.append_assoc, List.cons_append, ih]
    simp [backslashes]

/-- All of a text but the backslashes it ends in is read back. -/
theorem read_escapeTags (h : Fenced tail) : read bare 0 (escapeTags met cs ++ tail) =
    shownAll (body bare met cs) ++ read bare (trailing met cs) tail := by
  -- What escaping has met and not written yet is what reading meets before the next character.
  fun_induction escapeTags met cs with
  | case1 met => rw [read_backslashes, Nat.zero_add, body, trailing]; rfl
  | case2 met rest ih => rw [ih, body, trailing]
  | case3 met rest htag ih =>
    have hkept : (tag? (escapeTags 0 rest ++ tail)).isSome := by
      rw [isSome_tag?_escapeTags h, htag]
    have hhalf : (2 * met + 1) / 2 = met := by omega
    rw [List.append_assoc, List.cons_append, read_backslashes, Nat.zero_add,
      read_kept hkept (by omega), ih, body, if_pos htag, trailing_cons (by decide), hhalf]
    simp
  | case4 met rest htag ih =>
    have hnone : tag? (escapeTags 0 rest ++ tail) = none := by
      rw [← Option.not_isSome_iff_eq_none, isSome_tag?_escapeTags h]
      exact htag
    rw [List.append_assoc, List.cons_append, read_backslashes, Nat.zero_add,
      read_untagged hnone, ih, body, if_neg htag, trailing_cons (by decide)]
    simp
  | case5 met c rest hs hb ih =>
    rw [List.append_assoc, List.cons_append, read_backslashes, Nat.zero_add,
      read_plain hs hb, ih, body_cons hs hb, trailing_cons hs]
    simp

/-! ## Ends of texts -/

/-- A text that does not end in a backslash. -/
def Solid (cs : List Char) : Prop :=
  cs.getLast? ≠ some '\\'

theorem Solid.after {c : Char} {ds : List Char} (h : Solid ds) (hs : c ≠ '\\')
    (cs : List Char) : Solid (cs ++ c :: ds) := by
  unfold Solid at h ⊢
  rw [List.getLast?_append, List.getLast?_cons]
  cases hlast : ds.getLast? with
  | none => simpa using hs
  | some d => simpa [hlast] using h

theorem solid_body (met : Nat) (cs : List Char) : Solid (body bare met cs) := by
  fun_induction body bare met cs with
  | case1 met => simp [Solid]
  | case2 met rest ih => exact ih
  | case3 met rest ih => exact ih.after (by decide) _
  | case4 met c rest hs _ ih => exact ih.after hs _

theorem exists_escapeTags (met : Nat) (cs : List Char) :
    ∃ init, Solid init ∧ escapeTags met cs = init ++ backslashes (trailing met cs) := by
  have hbracket : '[' ≠ '\\' := by decide
  fun_induction escapeTags met cs with
  | case1 met => exact ⟨[], by simp [Solid], rfl⟩
  | case2 met rest ih => exact ih
  | case3 met rest _ ih =>
    obtain ⟨init, hsolid, heq⟩ := ih
    refine ⟨_, hsolid.after hbracket (backslashes (2 * met + 1)), ?_⟩
    rw [heq, trailing_cons hbracket, List.append_assoc, List.cons_append]
  | case4 met rest _ ih =>
    obtain ⟨init, hsolid, heq⟩ := ih
    refine ⟨_, hsolid.after hbracket (backslashes met), ?_⟩
    rw [heq, trailing_cons hbracket, List.append_assoc, List.cons_append]
  | case5 met c rest hs _ ih =>
    obtain ⟨init, hsolid, heq⟩ := ih
    refine ⟨_, hsolid.after hs (backslashes met), ?_⟩
    rw [heq, trailing_cons hs, List.append_assoc, List.cons_append]

theorem backslashes_concat (n : Nat) : backslashes (n + 1) = backslashes n ++ ['\\'] :=
  List.replicate_succ'

/-- A text is known by how many backslashes it ends in and by what is before them. -/
theorem append_backslashes_inj {ds : List Char} {m n : Nat} (hc : Solid cs) (hd : Solid ds) :
    cs ++ backslashes m = ds ++ backslashes n ↔ cs = ds ∧ m = n := by
  refine ⟨fun h => ?_, by rintro ⟨rfl, rfl⟩; rfl⟩
  induction m generalizing n with
  | zero =>
    cases n with
    | zero => exact ⟨by simpa [backslashes] using h, rfl⟩
    | succ n =>
      rw [backslashes_concat, ← List.append_assoc, backslashes, List.replicate_zero,
        List.append_nil] at h
      exact absurd (h ▸ List.getLast?_concat) hc
  | succ m ih =>
    cases n with
    | zero =>
      rw [backslashes_concat, ← List.append_assoc, backslashes.eq_1 0, List.replicate_zero,
        List.append_nil] at h
      exact absurd (h ▸ List.getLast?_concat) hd
    | succ n =>
      rw [backslashes_concat, backslashes_concat, ← List.append_assoc, ← List.append_assoc,
        List.append_left_inj] at h
      obtain ⟨heq, hn⟩ := ih h
      exact ⟨heq, congrArg (· + 1) hn⟩

theorem endsInBackslash_append {n : Nat} (h : Solid cs) :
    endsInBackslash (cs ++ backslashes n) = (n == 1) := by
  have hreverse : (cs ++ backslashes n).reverse = backslashes n ++ cs.reverse := by
    simp [backslashes]
  have hhead : cs.reverse.head? ≠ some '\\' := by simpa [Solid] using h
  unfold endsInBackslash
  rw [hreverse]
  rcases n with _ | _ | n
  · split
    · next heq => exact absurd (congrArg List.head? heq) hhead
    · next heq => exact absurd (congrArg List.head? heq) hhead
    · rfl
  · split
    · next heq => exact absurd (congrArg List.head? (List.cons.inj heq).2) hhead
    · rfl
    · next hnone => exact (hnone _ rfl).elim
  · rfl

theorem doubled_iff : ['\\', '\\'] <:+ cs ↔ 2 ≤ trailing 0 cs := by
  constructor
  · rintro ⟨init, rfl⟩
    have hmore : body id 0 (init ++ backslashes 2) ++
        backslashes (trailing 0 (init ++ backslashes 2)) =
          body id 0 init ++ backslashes (trailing 0 init + 2) := by
      rw [body_trailing, backslashes_add, ← List.append_assoc, ← List.append_assoc, body_trailing]
    have hcount := ((append_backslashes_inj (solid_body _ _) (solid_body _ _)).mp hmore).2
    exact hcount ▸ Nat.le_add_left 2 _
  · intro h
    obtain ⟨n, hn⟩ := Nat.exists_eq_add_of_le' h
    have hcs := body_trailing 0 cs
    rw [hn, backslashes_add, ← List.append_assoc] at hcs
    exact ⟨_, hcs⟩

/-! ## Styled texts -/

/-- How many backslashes stand before the closing tag of a text that ends in so many. -/
def beforeClosing (count : Nat) : Nat :=
  if count = 1 then 2 else count

theorem exists_escape (cs : List Char) : ∃ added,
    escape cs = escapeTags 0 cs ++ backslashes added ∧
      trailing 0 cs + added = beforeClosing (trailing 0 cs) := by
  obtain ⟨init, hsolid, heq⟩ := exists_escapeTags 0 cs
  have hends : endsInBackslash (escapeTags 0 cs) = (trailing 0 cs == 1) :=
    heq ▸ endsInBackslash_append hsolid
  simp only [escape, beforeClosing, hends, beq_iff_eq]
  split
  · exact ⟨1, rfl, by omega⟩
  · exact ⟨0, (List.append_nil _).symm, rfl⟩

/-- What is read of the backslashes a text ends in and of the closing tag behind them. -/
def closing (count : Nat) : List Piece :=
  shownAll (backslashes (beforeClosing count / 2)) ++
    if beforeClosing count % 2 = 0 then [.tag ['/']] else shownAll ['[', '/', ']']

theorem isTagName_tag (style : Style) : IsTagName style.tag.toList := by
  have hread : tag? (style.tag.toList ++ [']']) = some (style.tag.toList, []) := by
    cases style <;> rfl
  exact (tag?_eq_some.mp hread).1

theorem toList_styled (style : Style) (text : String) : (styled style text).toList =
    '[' :: (style.tag.toList ++ ']' :: (escape text.toList ++ ['[', '/', ']'])) := by
  simp [styled]

theorem read_escape (cs tail : List Char) :
    read bare 0 (escape cs ++ '[' :: '/' :: ']' :: tail) =
      shownAll (body bare 0 cs) ++ closing (trailing 0 cs) ++ read bare 0 tail := by
  have hclose : tag? ('/' :: ']' :: tail) = some (['/'], tail) :=
    tag?_eq_some.mpr ⟨⟨'/', [], rfl, by decide, by simp⟩, rfl⟩
  obtain ⟨added, hadded, hmet⟩ := exists_escape cs
  have hfence : Fenced (backslashes added ++ '[' :: '/' :: ']' :: tail) := ⟨added, _, rfl⟩
  rw [hadded, List.append_assoc, read_escapeTags hfence, read_backslashes, hmet,
    read_tagged hclose]
  simp [closing]

/-- What is read of a text in a style, with anything behind it. -/
theorem read_styled (style : Style) (text : String) (tail : List Char) :
    read bare 0 ((styled style text).toList ++ tail) =
      .tag style.tag.toList :: (shownAll (body bare 0 text.toList) ++
        closing (trailing 0 text.toList) ++ read bare 0 tail) := by
  have htext : (styled style text).toList ++ tail = '[' :: (style.tag.toList ++ ']' ::
      (escape text.toList ++ '[' :: '/' :: ']' :: tail)) := by
    rw [toList_styled]
    simp
  rw [htext, read_tagged (tag?_eq_some.mpr ⟨isTagName_tag style, rfl⟩), read_escape]
  rfl

theorem shownAll_closing_inj {ds : List Char} {count : Nat} (hc : Solid cs) (hd : Solid ds) :
    shownAll cs ++ closing count = shownAll (ds ++ backslashes count) ++ [.tag ['/']] ↔
      cs = ds ∧ count ≤ 1 := by
  have hfew : count ≤ 1 ↔ beforeClosing count / 2 = count ∧ beforeClosing count % 2 = 0 := by
    unfold beforeClosing
    split <;> omega
  rw [closing, hfew]
  split
  · next heven =>
    rw [← List.append_assoc, ← shownAll_append, List.append_left_inj, shownAll_inj,
      append_backslashes_inj hc hd, and_iff_left heven]
  · next hodd =>
    refine iff_of_false (fun h => ?_) fun h => hodd h.2.2
    have hlast := congrArg List.getLast? h
    simp [List.getLast?_append] at hlast

/-- A text in a style is read as the style, exactly the text and the closing tag, if and only
if it does not end in two backslashes, and no other backslash gets lost. -/
theorem read_styled_iff (style : Style) (text : String) :
    read bare 0 (styled style text).toList =
      .tag style.tag.toList :: shownAll text.toList ++ [.tag ['/']] ↔
    body bare 0 text.toList = body id 0 text.toList ∧ ¬ ['\\', '\\'] <:+ text.toList := by
  have hread := @read_styled bare style text []
  have htext : shownAll text.toList =
      shownAll (body id 0 text.toList ++ backslashes (trailing 0 text.toList)) :=
    congrArg shownAll (body_trailing 0 text.toList).symm
  rw [List.append_nil] at hread
  rw [hread, read_nil, htext, List.cons_append, List.cons_inj_right, doubled_iff, Nat.not_le,
    Nat.lt_succ_iff, ← shownAll_closing_inj (solid_body _ _) (solid_body _ _)]
  simp [backslashes]

/-! ## Backslashes that a terminal drops -/

/-- That a backslash stands right before a bracket that opens no tag. -/
inductive Dangling : List Char → Prop
  | here {after : List Char} (h : tag? after = none) : Dangling ('\\' :: '[' :: after)
  | later {c : Char} {cs : List Char} (h : Dangling cs) : Dangling (c :: cs)

theorem dangling_cons {c : Char} (hs : c ≠ '\\') : Dangling (c :: cs) ↔ Dangling cs := by
  refine ⟨fun h => ?_, .later⟩
  cases h with
  | here => exact absurd rfl hs
  | later h => exact h

theorem dangling_slash : Dangling ('\\' :: cs) ↔
    (∃ after, cs = '[' :: after ∧ tag? after = none) ∨ Dangling cs := by
  constructor
  · intro h
    cases h with
    | here h => exact .inl ⟨_, rfl, h⟩
    | later h => exact .inr h
  · rintro (⟨after, rfl, h⟩ | h)
    · exact .here h
    · exact .later h

theorem not_dangling_backslashes (n : Nat) : ¬ Dangling (backslashes n) := by
  induction n with
  | zero => rintro ⟨⟩
  | succ n ih =>
    rw [backslashes, List.replicate_succ, dangling_slash, ← backslashes]
    rintro (⟨after, heq, -⟩ | h)
    · have hm : '[' ∈ backslashes n := heq ▸ List.mem_cons_self
      exact absurd (List.eq_of_mem_replicate hm) (by decide)
    · exact ih h

theorem dangling_backslashes {c : Char} (hs : c ≠ '\\') (n : Nat) :
    Dangling (backslashes n ++ c :: cs) ↔
      (n ≠ 0 ∧ c = '[' ∧ tag? cs = none) ∨ Dangling cs := by
  induction n with
  | zero => exact (dangling_cons hs).trans (by simp)
  | succ n ih =>
    rw [backslashes, List.replicate_succ, List.cons_append, dangling_slash, ← backslashes, ih]
    cases n with
    | zero => simp [backslashes, and_assoc]
    | succ n => simp [backslashes, List.replicate_succ]

/-- A terminal drops a backslash from a text just where one dangles. -/
theorem body_pred_iff (met : Nat) (cs : List Char) :
    body Nat.pred met cs = body id met cs ↔ ¬ Dangling (backslashes met ++ cs) := by
  fun_induction body id met cs with
  | case1 met => simpa [body] using not_dangling_backslashes met
  | case2 met rest ih => rw [body, ih, backslashes_succ]
  | case3 met rest ih =>
    rw [body, dangling_backslashes (by decide)]
    by_cases htag : (tag? rest).isSome
    · simp [htag, ih, backslashes, Option.isSome_iff_ne_none.mp htag]
    · have hnone : tag? rest = none := by simpa using htag
      cases met with
      | zero => simp [hnone, ih, backslashes]
      | succ met =>
        have hne : backslashes met ++ '[' :: body Nat.pred 0 rest ≠
            backslashes (met + 1) ++ '[' :: body id 0 rest := by
          rw [backslashes_succ]
          simp
        simpa [hnone] using hne
  | case4 met c rest hs hb ih =>
    have hbracket : c ≠ '[' := hb
    rw [body_cons hs hb, dangling_backslashes hs]
    simp [ih, hbracket, backslashes]

/-- A terminal reads a text in a style as it is if and only if it does not end in two
backslashes and no backslash in it dangles. -/
theorem read_styled_terminal_iff (style : Style) (text : String) :
    read Nat.pred 0 (styled style text).toList =
      .tag style.tag.toList :: shownAll text.toList ++ [.tag ['/']] ↔
    ¬ Dangling text.toList ∧ ¬ ['\\', '\\'] <:+ text.toList := by
  rw [read_styled_iff, body_pred_iff]
  rfl

end Markup
end RecordQuery
