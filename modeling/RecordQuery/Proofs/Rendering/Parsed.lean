/-
What the parser returns has a text.

The lexemes of a scanned text have the forms that rendering writes (`Legible`):
names are words, variables are a sigil and a word's characters, texts lack the
quote they stood in, and numbers are digits with a point at most.  So every tree
that such tokens spell is well formed, provided no number has a point, and
rendering what was parsed and parsing it again changes nothing.
-/
import RecordQuery.Proofs.Rendering.Reading

namespace RecordQuery

/-! ## Lexemes -/

namespace Token

/-- That a lexeme has the form that belongs to its kind. -/
structure Legible (kind : Kind) (lexeme : String) : Prop where
  name : kind = .identifier → IsName lexeme
  reference : kind = .reference →
    ∃ name, lexeme.toList = '$' :: name ∧ ∀ c ∈ name, isNameChar c
  string : kind = .string → '"' ∉ lexeme.toList ∨ '\'' ∉ lexeme.toList
  number : kind = .number → ∀ c ∈ lexeme.toList, c = '.' ∨ Text.isDecimalDigit c

theorem Cut.legible {c : Char} {cs : List Char} {kind : Kind} {tail : Nat}
    (h : Cut c cs kind tail) : Legible kind (lexemeOf kind (c :: cs.take tail)) := by
  cases h with
  | comment | unclosed => constructor <;> simp
  | string hq hlt =>
    have hc : c ∉ (cs.take (run (· ≠ c) cs + 1)).dropLast := by
      rw [take_run_succ hlt, List.dropLast_concat]
      intro hm
      simpa using mem_take_run hm
    refine ⟨by simp, by simp, fun _ => ?_, by simp⟩
    rw [lexemeOf, if_pos rfl, String.toList_ofList, List.tail_cons]
    rcases hq with rfl | rfl
    · exact .inl hc
    · exact .inr hc
  | number hd =>
    refine ⟨by simp, by simp, by simp, fun _ d hm => ?_⟩
    have hm : d ∈ c :: cs.take (numeralTail cs) := by simpa [lexemeOf] using hm
    exact (scanned_take_numeralTail hd).mem d hm
  | reference hr =>
    subst hr
    refine ⟨by simp, fun _ => ?_, by simp, by simp⟩
    exact ⟨cs.take (run isNameChar cs), by simp [lexemeOf], fun d hd => mem_take_run hd⟩
  | word hc =>
    have hword := Kind.ofWord_mem (String.ofList (c :: cs.takeWhile isNameChar))
    refine ⟨fun hk => ?_, fun hk => ?_, fun hk => ?_, fun hk => ?_⟩
    · rw [hk, lexemeOf, if_neg (by decide)]
      refine ⟨c, _, String.toList_ofList, hc, fun d hd => mem_take_run hd, ?_⟩
      rwa [take_run]
    all_goals
      rw [hk] at hword
      exact absurd hword (by decide)
  | sign =>
    have hsign := symbol_mem c cs.head?
    constructor
    all_goals
      intro hk
      rw [hk] at hsign
      exact absurd hsign (by decide)

theorem legible_of_mem_scan {p : Position} {cs : List Char} {t : Token} (h : t ∈ scan p cs) :
    Legible t.kind t.lexeme := by
  obtain hk | ⟨c, ds, tail, hcut, hl⟩ := (scans p cs).mem h
  · rw [hk]
    constructor <;> simp
  · rw [hl]
    exact hcut.legible

end Token

/-! ## Spelled trees are well formed -/

namespace Grammar

/-- Tokens whose lexemes are legible. -/
def AllLegible (ts : List Token) : Prop :=
  ∀ t ∈ ts, Token.Legible t.kind t.lexeme

@[simp] theorem allLegible_cons {t : Token} {ts : List Token} :
    AllLegible (t :: ts) ↔ Token.Legible t.kind t.lexeme ∧ AllLegible ts := by
  simp [AllLegible]

@[simp] theorem allLegible_append {xs ys : List Token} :
    AllLegible (xs ++ ys) ↔ AllLegible xs ∧ AllLegible ys :=
  List.forall_mem_append

/-- Tokens that rendering could have written: their lexemes are legible, and no
number has a point. -/
def Plain (ts : List Token) : Prop :=
  ∀ t ∈ ts, Token.Legible t.kind t.lexeme ∧ (t.kind = .number → '.' ∉ t.lexeme.toList)

@[simp] theorem plain_cons {t : Token} {ts : List Token} :
    Plain (t :: ts) ↔ (Token.Legible t.kind t.lexeme ∧
      (t.kind = .number → '.' ∉ t.lexeme.toList)) ∧ Plain ts := by
  simp [Plain]

@[simp] theorem plain_append {xs ys : List Token} :
    Plain (xs ++ ys) ↔ Plain xs ∧ Plain ys :=
  List.forall_mem_append

theorem Plain.subset {xs ts : List Token} (h : Plain ts) (hs : xs ⊆ ts) : Plain xs :=
  fun t ht => h t (hs ht)

theorem Plain.legible {ts : List Token} (h : Plain ts) : AllLegible ts :=
  fun t ht => (h t ht).1

theorem isName_of_legible {t : Token} {ts : List Token} (h : AllLegible (t :: ts))
    (hk : t.kind = .identifier) : IsName t.lexeme :=
  (h t (by simp)).name hk

theorem isVariable_of_plain {t : Token} {ts : List Token} {name : String}
    (h : Plain (t :: ts)) (hk : t.kind = .reference) (hn : variableName t = .ok name) :
    IsVariable name := by
  obtain ⟨chars, hl, hchars⟩ := (h t (by simp)).1.reference hk
  simp only [variableName, hl] at hn
  split at hn
  · cases hn
  · next hne =>
    cases hn
    exact ⟨by simpa using hne, by simpa using hchars⟩

theorem isLiteral_of_numeral {t : Token} {ts : List Token} {n : Number} (h : Plain (t :: ts))
    (hk : t.kind = .number) (hn : numeral t.lexeme = .ok n) : (Value.number n).IsLiteral := by
  obtain ⟨hl, hp⟩ := h t (by simp)
  have hpoint : t.lexeme.toList.contains '.' = false := by simpa using hp hk
  have hminus : '-' ∉ t.lexeme.toList := fun hm =>
    (hl.number hk _ hm).elim (by decide) (by decide)
  simp only [numeral, hpoint, Bool.false_eq_true, if_false] at hn
  split at hn
  · next value count hi =>
    split at hn
    · next hle =>
      cases hn
      refine ⟨Numeral.nonneg_of_integer? hminus hi, ?_⟩
      exact Numeral.lt_firstUnwritable (Numeral.natAbs_lt_of_integer? hi) hle
    · cases hn
  · cases hn

theorem operand_wellFormed {t : Token} {ts : List Token} {value : Operand}
    (h : Plain (t :: ts)) (ho : operand t = .ok value) : value.WellFormed := by
  unfold operand at ho
  split at ho
  · next hk =>
    cases ho
    exact (h t (by simp)).1.string hk
  · next hk =>
    obtain ⟨n, hn, rfl⟩ := map_eq_ok.mp ho
    exact isLiteral_of_numeral h hk hn
  · cases ho
    exact trivial
  · cases ho
    exact trivial
  · next hk =>
    obtain ⟨name, hn, rfl⟩ := map_eq_ok.mp ho
    exact isVariable_of_plain h hk hn
  · cases ho

theorem SpellsOthers.wellFormed {xs : List Token} {names : List String}
    (h : SpellsOthers xs names) (hp : AllLegible xs) : ∀ name ∈ names, IsName name := by
  induction h with
  | close => simp
  | name _ hn _ ih =>
    rw [allLegible_cons] at hp
    refine List.forall_mem_cons.mpr ⟨isName_of_legible hp.2 hn, ih ?_⟩
    exact (allLegible_cons.mp hp.2).2

theorem SpellsNames.wellFormed {xs : List Token} {names : Names} (h : SpellsNames xs names)
    (hp : AllLegible xs) : names.WellFormed := by
  cases h with
  | list hn hx =>
    exact List.forall_mem_cons.mpr
      ⟨isName_of_legible hp hn, hx.wellFormed (allLegible_cons.mp hp).2⟩

theorem SpellsSegment.wellFormed {xs : List Token} {found : Names × Bool}
    (h : SpellsSegment xs found) (hp : AllLegible xs) : found.1.WellFormed := by
  cases h with
  | name hn => exact List.forall_mem_cons.mpr ⟨isName_of_legible hp hn, by simp⟩
  | list _ hx => exact hx.wellFormed (allLegible_cons.mp hp).2

theorem SpellsSegments.wellFormed {bracketed : Bool} {xs : List Token}
    {found : List Names × Bool} (h : SpellsSegments bracketed xs found) (hp : AllLegible xs) :
    ∀ segment ∈ found.1, segment.WellFormed := by
  induction h with
  | none => simp
  | dotted _ hx _ ih =>
    simp only [allLegible_cons, allLegible_append] at hp
    exact List.forall_mem_cons.mpr ⟨hx.wellFormed hp.2.1, ih hp.2.2⟩

/-- Only a segment in brackets has several names. -/
theorem SpellsSegments.last_single {bracketed : Bool} {xs : List Token}
    {found : List Names × Bool} (h : SpellsSegments bracketed xs found) (hf : found.2 = false) :
    ∀ segment ∈ found.1.getLast?, segment.others = [] := by
  induction h with
  | none => simp
  | @dotted _ next tail _ _ _ names others _ hx hy ih =>
    cases others with
    | nil =>
      cases hy
      cases hx with
      | name => simp
      | list => cases hf
    | cons segment others =>
      intro last hl
      rw [List.getLast?_cons_cons] at hl
      exact ih hf last hl

theorem pathOf_wellFormed {first : Names} {others : List Names} {bracketed : Bool}
    (hf : first.WellFormed) (ho : ∀ segment ∈ others, segment.WellFormed)
    (hl : bracketed = false → ∀ segment ∈ others.getLast?, segment.others = []) :
    (pathOf first others bracketed).WellFormed := by
  cases bracketed with
  | false => exact ⟨List.forall_mem_cons.mpr ⟨hf, ho⟩, by simp [pathOf], fun _ => hl rfl⟩
  | true =>
    cases hm : others.getLast? with
    | none =>
      have hpath : pathOf first others true = ⟨first, others, none⟩ := by
        simp [pathOf, hm]
      rw [hpath]
      exact ⟨List.forall_mem_cons.mpr ⟨hf, ho⟩, by simp, by simp [hm]⟩
    | some fields =>
      have hpath : pathOf first others true = ⟨first, others.dropLast, some fields⟩ := by
        simp [pathOf, hm]
      have hlast : fields ∈ others := List.mem_of_getLast? hm
      rw [hpath]
      refine ⟨?_, by simpa using ho fields hlast, by simp⟩
      exact List.forall_mem_cons.mpr
        ⟨hf, fun segment hs => ho segment (List.dropLast_subset others hs)⟩

theorem SpellsPath.wellFormed {xs : List Token} {path : UsePath} {more : List Token.Kind}
    (h : SpellsPath xs path more) (hp : AllLegible xs) : path.WellFormed := by
  cases h with
  | dotted hx hy =>
    rw [allLegible_append] at hp
    exact pathOf_wellFormed (hx.wellFormed hp.1) (hy.wellFormed hp.2) hy.last_single

theorem SpellsCondition.wellFormed {tier : Tier} {xs : List Token} {c : Condition}
    (h : SpellsCondition tier xs c) (hp : Plain xs) : c.WellFormed := by
  induction h with
  | compare hf _ ho =>
    refine ⟨isName_of_legible hp.legible hf, ?_⟩
    exact operand_wellFormed (plain_cons.mp (plain_cons.mp hp).2).2 ho
  | paren _ _ _ ih =>
    simp only [plain_cons, plain_append] at hp
    exact ih hp.2.1
  | not _ _ ih => exact ih (plain_cons.mp hp).2
  | and _ _ _ ihl ihr | or _ _ _ ihl ihr =>
    simp only [plain_cons, plain_append] at hp
    exact ⟨ihl hp.1, ihr hp.2.2⟩
  | primary _ ih | negation _ ih | conjunction _ ih => exact ih hp

theorem SpellsSelect.wellFormed {xs : List Token} {selection : Select}
    {more : List Token.Kind} (h : SpellsSelect xs selection more) (hp : Plain xs) :
    selection.WellFormed := by
  cases h with
  | @clauses xs ys zs _ fields condition _ _ _ _ hy hz =>
    simp only [plain_append] at hp
    obtain ⟨_, hys, hzs⟩ := hp
    refine ⟨?_, ?_⟩
    · show ∀ name ∈ fields.names, IsName name
      cases hy with
      | omitted | all => simp [Fields.names]
      | name hn => exact List.forall_mem_cons.mpr ⟨isName_of_legible hys.legible hn, by simp⟩
      | list _ hx => exact hx.wellFormed (plain_cons.mp hys).2.legible
    · show ∀ c ∈ condition, c.WellFormed
      cases hz with
      | omitted => simp
      | given _ _ hc _ =>
        simp only [plain_cons, plain_append] at hzs
        rintro _ ⟨⟩
        exact hc.wellFormed hzs.2.2.1

theorem everything_wellFormed : Select.everything.WellFormed :=
  ⟨by simp [Select.everything, Fields.names], by simp [Select.everything]⟩

theorem SpellsInner.wellFormed {xs : List Token} {selection : Select}
    {more : List Token.Kind} (h : SpellsInner xs selection more) (hp : Plain xs) :
    selection.WellFormed := by
  cases h with
  | marked _ hy => exact hy.wellFormed (plain_append.mp hp).2

theorem SpellsWhole.wellFormed {xs : List Token} {selection : Select}
    {more : List Token.Kind} (h : SpellsWhole xs selection more) (hp : Plain xs) :
    selection.WellFormed := by
  cases h with
  | omitted => exact everything_wellFormed
  | given _ hx => exact hx.wellFormed (plain_cons.mp hp).2

theorem SpellsOperation.wellFormed {kind : Token.Kind} {xs : List Token} {found : Operation}
    {more : List Token.Kind} (h : SpellsOperation kind xs found more) (hp : Plain xs) :
    found.WellFormed := by
  cases h with
  | select hx => exact hx.wellFormed hp
  | count hx => exact hx.wellFormed hp
  | percentOf hx =>
    cases hx with
    | operands hx _ hz =>
      simp only [plain_append] at hp
      exact ⟨hx.wellFormed hp.1, hz.wellFormed hp.2.2⟩
  | aggregate => exact trivial
  | arithmetic hl hr hln hrn =>
    exact ⟨isVariable_of_plain hp hl hln, isVariable_of_plain (plain_cons.mp hp).2 hr hrn⟩

theorem SpellsStatement.wellFormed {t : Token} {xs : List Token} {found : Statement}
    {more : List Token.Kind} (h : SpellsStatement t xs found more) (hp : Plain (t :: xs)) :
    found.WellFormed := by
  cases h with
  | plain hx => exact ⟨by simp, hx.wellFormed (plain_cons.mp hp).2⟩
  | assigned ht hn hx =>
    refine ⟨?_, hx.wellFormed (plain_cons.mp (plain_cons.mp hp).2).2⟩
    rintro _ ⟨⟩
    exact isVariable_of_plain hp ht hn

theorem SpellsStatements.wellFormed {r : Token} {xs : List Token} {found : List Statement}
    (h : SpellsStatements r xs found) (hp : Plain xs) :
    ∀ statement ∈ found, statement.WellFormed := by
  induction h with
  | none => simp
  | passed _ _ _ ih => exact ih (plain_cons.mp hp).2
  | @read t xs ys first others more hx _ _ ih =>
    have hfirst : Plain (t :: xs) := hp.subset (by simp)
    have hothers : Plain ys := (plain_append.mp (plain_cons.mp hp).2).2
    exact List.forall_mem_cons.mpr ⟨hx.wellFormed hfirst, ih hothers⟩

theorem SpellsBlock.wellFormed {xs : List Token} {found : Block} (h : SpellsBlock xs found)
    (hp : Plain xs) : found.WellFormed := by
  cases h with
  | named hn hx _ =>
    obtain ⟨hname, hrest⟩ := plain_cons.mp hp
    exact ⟨hname.1.name hn, hx.wellFormed (plain_append.mp hrest).1⟩

/-- Paths need only legible names. -/
theorem SpellsProgram.paths_wellFormed {xs : List Token} {found : Program}
    (h : SpellsProgram xs found) (hp : AllLegible xs) :
    ∀ path ∈ found.paths, path.WellFormed := by
  induction h with
  | ends => simp [Program.empty]
  | passed _ _ _ _ ih => exact ih (allLegible_cons.mp hp).2
  | path _ hx _ _ ih =>
    obtain ⟨hfirst, hothers⟩ := allLegible_append.mp (allLegible_cons.mp hp).2
    exact List.forall_mem_cons.mpr ⟨hx.wellFormed hfirst, ih hothers⟩
  | block _ _ _ ih => exact ih (allLegible_append.mp (allLegible_cons.mp hp).2).2

/-- Blocks, too, are named by what is legible. -/
theorem SpellsProgram.isName {xs : List Token} {found : Program} (h : SpellsProgram xs found)
    (hp : AllLegible xs) : ∀ block ∈ found.blocks, IsName block.name := by
  induction h with
  | ends => simp [Program.empty]
  | passed _ _ _ _ ih => exact ih (allLegible_cons.mp hp).2
  | path _ _ _ _ ih => exact ih (allLegible_append.mp (allLegible_cons.mp hp).2).2
  | block _ hx _ ih =>
    obtain ⟨hfirst, hothers⟩ := allLegible_append.mp (allLegible_cons.mp hp).2
    cases hx with
    | named hn _ _ => exact List.forall_mem_cons.mpr ⟨isName_of_legible hfirst hn, ih hothers⟩

theorem SpellsProgram.blocks_wellFormed {xs : List Token} {found : Program}
    (h : SpellsProgram xs found) (hp : Plain xs) : ∀ block ∈ found.blocks, block.WellFormed := by
  induction h with
  | ends => simp [Program.empty]
  | passed _ _ _ _ ih => exact ih (plain_cons.mp hp).2
  | path _ _ _ _ ih => exact ih (plain_append.mp (plain_cons.mp hp).2).2
  | block _ hx _ ih =>
    obtain ⟨hfirst, hothers⟩ := plain_append.mp (plain_cons.mp hp).2
    exact List.forall_mem_cons.mpr ⟨hx.wellFormed hfirst, ih hothers⟩

theorem SpellsProgram.wellFormed {xs : List Token} {found : Program}
    (h : SpellsProgram xs found) (hp : Plain xs) : found.WellFormed :=
  ⟨h.paths_wellFormed hp.legible, h.blocks_wellFormed hp⟩

end Grammar

/-! ## Rendering and parsing -/

namespace Program

/-- Well-formed programs are read back from their texts, and all programs that are
read from texts without decimals are well formed. -/
theorem ofText_render :
    (∀ program : Program, program.WellFormed → ofText program.render = .ok program) ∧
    ∀ text program,
      (∀ t ∈ Token.ofText text, t.kind = .number → '.' ∉ t.lexeme.toList) →
      ofText text = .ok program →
      program.WellFormed ∧ ofText program.render = .ok program := by
  refine ⟨fun program hw => hw.read_back, fun text program hpoint h => ?_⟩
  have hplain : Grammar.Plain (Token.ofText text) := fun t ht =>
    ⟨Token.legible_of_mem_scan ht, hpoint t ht⟩
  have hread := ofTokens_eq_ok.mp (ofText_eq_ok.mp h)
  have hw : program.WellFormed :=
    (Grammar.program_spelled (Token.closed_ofText text) hread).wellFormed hplain
  exact ⟨hw, hw.read_back⟩

/-- A program with a choice of names before its fields, a negated disjunction to the
right of `&`, and a text with a quote in it. -/
def sample : Program :=
  let left : Condition := .compare "a" .equal (.literal (.number (.int 1)))
  let right : Condition := .or (.compare "b" .contains (.literal (.text "\"")))
    (.compare "c" .atMost (.reference "x"))
  ⟨[⟨⟨"a", []⟩, [⟨"b", ["c"]⟩], some ⟨"a", []⟩⟩],
    [⟨"q", [⟨some "y", .count ⟨.all, some (.and left (.not right)), true⟩⟩]⟩]⟩

example : sample.render = "USE a . [ b , c ] . [ a ] QUERY q $y COUNT SELECT EACH * WHERE " ++
    "( a = 1 & ! ( b CONTAINS '\"' | c <= $x ) ) RETURN" := by
  decide

theorem ofText_render_sample :
    sample.WellFormed ∧ ofText sample.render = .ok sample := by
  have hname : ∀ c : Char, Token.isNameStart c → Token.Kind.ofWord (String.ofList [c]) =
      .identifier → IsName (String.ofList [c]) := fun c hc hk =>
    ⟨c, [], String.toList_ofList, hc, by simp, hk⟩
  have ha : IsName "a" := hname 'a' (by decide) (by decide)
  have hb : IsName "b" := hname 'b' (by decide) (by decide)
  have hc : IsName "c" := hname 'c' (by decide) (by decide)
  have hq : IsName "q" := hname 'q' (by decide) (by decide)
  have hx : IsVariable "x" := ⟨by decide, List.all_eq_true.mp (by decide)⟩
  have hy : IsVariable "y" := ⟨by decide, List.all_eq_true.mp (by decide)⟩
  have hone : (Value.number (.int 1)).IsLiteral :=
    ⟨by decide, Numeral.lt_firstUnwritable (show 1 < 10 ^ 1 by decide) (by decide)⟩
  have hquote : (Value.text "\"").IsLiteral := .inr (by decide)
  have hw : sample.WellFormed := by
    refine ⟨List.forall_mem_singleton.mpr ⟨?_, ?_, by simp⟩,
      List.forall_mem_singleton.mpr ⟨hq, List.forall_mem_singleton.mpr ⟨?_, ?_, ?_⟩⟩⟩
    · simp [UsePath.segments, Names.WellFormed, Names.toList, ha, hb, hc]
    · simp [Names.WellFormed, Names.toList, ha]
    · simp [hy]
    · simp [Fields.names]
    · rintro _ ⟨⟩
      exact ⟨⟨ha, hone⟩, ⟨hb, hquote⟩, hc, hx⟩
  exact ⟨hw, ofText_render.1 sample hw⟩

end Program
end RecordQuery
