/-
Rendered programs are read back.

The tokens of a rendered program are those that its pieces were meant as
(`Piece.lays_joined`), and they spell the program: each clause is rendered with a
token at its end that nothing rendered after it continues, and each condition
with the parentheses that its place requires.
-/
import RecordQuery.Proofs.Grammar.Loops
import RecordQuery.Proofs.Rendering.Words

namespace RecordQuery

open Token (Piece)
open Token.Piece (mark)
open Grammar

/-- That tokens are those that some pieces are meant as. -/
def Written (pieces : List Piece) (ts : List Token) : Prop :=
  List.Forall₂ Piece.Is pieces ts

theorem Written.cons_inv {piece : Piece} {pieces : List Piece} {ts : List Token}
    (h : Written (piece :: pieces) ts) : ∃ t us, ts = t :: us ∧ piece.Is t ∧ Written pieces us := by
  cases h with
  | cons ht hts => exact ⟨_, _, rfl, ht, hts⟩

theorem Written.nil_inv {ts : List Token} (h : Written [] ts) : ts = [] := by
  cases h
  rfl

theorem Written.append_inv {xs ys : List Piece} {ts : List Token} (h : Written (xs ++ ys) ts) :
    ∃ us vs, ts = us ++ vs ∧ Written xs us ∧ Written ys vs := by
  induction xs generalizing ts with
  | nil => exact ⟨[], ts, rfl, .nil, h⟩
  | cons x xs ih =>
    obtain ⟨t, us, rfl, ht, hus⟩ := h.cons_inv
    obtain ⟨us, vs, rfl, hu, hv⟩ := ih hus
    exact ⟨t :: us, vs, rfl, .cons ht hu, hv⟩

/-! ## Single tokens -/

theorem Token.Piece.Is.mark_kind {kind : Token.Kind} {t : Token} (h : (mark kind).Is t) :
    t.kind = kind :=
  h.1

theorem Token.Piece.Is.name {name : String} {t : Token} (h : (Piece.name name).Is t) :
    t.kind = .identifier ∧ t.lexeme = name := by
  refine ⟨h.1, ?_⟩
  rw [h.2]
  simp [Token.lexemeOf, Piece.name]

theorem Token.Piece.Is.reference {name : String} {t : Token} (hn : IsVariable name)
    (h : (Piece.reference name).Is t) : t.kind = .reference ∧ variableName t = .ok name := by
  refine ⟨h.1, ?_⟩
  have hl : t.lexeme.toList = '$' :: name.toList := by
    rw [h.2]
    simp [Token.lexemeOf, Piece.reference]
  have hne : name.toList.isEmpty = false := by simpa using hn.1
  simp [variableName, hl, hne]

theorem numeral_toDigits {n : Int} (h₀ : 0 ≤ n) (h : n.natAbs < Value.firstUnwritable) :
    numeral (String.ofList (Nat.toDigits 10 n.natAbs)) = .ok (.int n) := by
  have hpoint : (Nat.toDigits 10 n.natAbs).contains '.' = false := by
    rw [List.contains_eq_mem, decide_eq_false_iff_not]
    intro hm
    exact absurd (Numeral.isDigit_of_mem_toDigits hm) (by decide)
  have hlen := Numeral.length_toDigits_le_digitLimit h
  have hn : (n.natAbs : Int) = n := Int.natAbs_of_nonneg h₀
  simp only [numeral, String.toList_ofList, hpoint, Numeral.integer?_toDigits, hlen, hn]
  simp

theorem Token.Piece.Is.operand {value : Operand} {t : Token} (hw : value.WellFormed)
    (h : value.piece.Is t) : operand t = .ok value := by
  cases value with
  | reference name =>
    obtain ⟨hk, hv⟩ := Token.Piece.Is.reference hw h
    simp [Grammar.operand, hk, hv, Except.map]
  | literal value =>
    obtain ⟨hpiece, hl⟩ := h
    cases value with
    | null =>
      have hk : t.kind = .null := hpiece
      simp [Grammar.operand, hk]
    | bool truth =>
      have hk : t.kind = .boolean := hpiece
      have hlex : t.lexeme = if truth then "true" else "false" := by
        rw [hl]
        cases truth <;> decide
      cases truth <;> simp [Grammar.operand, hk, hlex]
    | number n =>
      cases n with
      | int n =>
        have hk : t.kind = .number := hpiece
        have hlex : t.lexeme = String.ofList (Nat.toDigits 10 n.natAbs) := hl
        simp [Grammar.operand, hk, hlex, numeral_toDigits hw.1 hw.2, Except.map]
      | double x => exact hw.elim
    | text chars =>
      have hk : t.kind = .string := hpiece
      have hlex : t.lexeme = chars := by
        rw [hl]
        simp [Token.lexemeOf, Operand.piece, Piece.quoted]
      simp [Grammar.operand, hk, hlex]
    | list items => exact hw.elim
    | record fields => exact hw.elim

/-! ## Names and paths -/

theorem spells_others {others : List String} {ts : List Token}
    (h : Written (others.flatMap (fun name => [mark .comma, Piece.name name]) ++
      [mark .rightBracket]) ts) : SpellsOthers ts others := by
  induction others generalizing ts with
  | nil =>
    obtain ⟨t, us, rfl, ht, hus⟩ := h.cons_inv
    obtain rfl := hus.nil_inv
    exact .close ht.mark_kind
  | cons name others ih =>
    simp only [List.flatMap_cons, List.cons_append, List.nil_append] at h
    obtain ⟨c, us, rfl, hc, hus⟩ := h.cons_inv
    obtain ⟨n, vs, rfl, hn, hvs⟩ := hus.cons_inv
    obtain ⟨hk, rfl⟩ := hn.name
    exact .name hc.mark_kind hk (ih hvs)

theorem spells_names {names : Names} {ts : List Token} (h : Written names.pieces ts) :
    ∃ b xs, ts = b :: xs ∧ b.kind = .leftBracket ∧ SpellsNames xs names := by
  obtain ⟨b, us, rfl, hb, hus⟩ := h.cons_inv
  obtain ⟨n, us, rfl, hn, hus⟩ := hus.cons_inv
  obtain ⟨hk, hl⟩ := hn.name
  obtain ⟨first, others⟩ := names
  subst hl
  exact ⟨b, n :: us, rfl, hb.mark_kind, .list hk (spells_others hus)⟩

/-- Whether a segment is written in brackets. -/
def bracketed (segment : Names) : Bool :=
  decide (segment.others ≠ [])

theorem spells_segment {segment : Names} {ts : List Token}
    (h : Written (UsePath.segmentPieces segment) ts) :
    SpellsSegment ts (segment, bracketed segment) := by
  unfold UsePath.segmentPieces at h
  split at h
  · next ho =>
    obtain ⟨n, us, rfl, hn, hus⟩ := h.cons_inv
    obtain rfl := hus.nil_inv
    obtain ⟨hk, hl⟩ := hn.name
    obtain ⟨first, others⟩ := segment
    subst ho
    subst hl
    exact .name hk
  · next ho =>
    obtain ⟨b, xs, rfl, hb, hx⟩ := spells_names h
    have hs : bracketed segment = true := by simpa [bracketed] using ho
    rw [hs]
    exact .list hb hx

theorem spells_segments {others : List Names} {bracket : Bool} {ts : List Token}
    (h : Written
      (others.flatMap fun segment => mark .dot :: UsePath.segmentPieces segment) ts) :
    SpellsSegments bracket ts (others, (others.getLast?.map bracketed).getD bracket) := by
  induction others generalizing bracket ts with
  | nil =>
    obtain rfl := h.nil_inv
    exact .none
  | cons segment others ih =>
    obtain ⟨us, vs, rfl, hu, hv⟩ := Written.append_inv h
    obtain ⟨d, us, rfl, hd, hus⟩ := hu.cons_inv
    have hrest := @ih (bracketed segment) vs hv
    have hlast : ((segment :: others).getLast?.map bracketed).getD bracket =
        (others.getLast?.map bracketed).getD (bracketed segment) := by
      cases others with
      | nil => rfl
      | cons next others => simp [List.getLast?_cons]
    rw [hlast]
    exact .dotted hd.mark_kind (spells_segment hus) hrest

theorem Grammar.SpellsSegments.append {bracket mid tail : Bool} {xs ys : List Token}
    {others more : List Names} (hx : SpellsSegments bracket xs (others, mid))
    (hy : SpellsSegments mid ys (more, tail)) :
    SpellsSegments bracket (xs ++ ys) (others ++ more, tail) := by
  generalize hf : (others, mid) = found at hx
  induction hx generalizing others mid with
  | none =>
    cases hf
    exact hy
  | @dotted _ _ _ d us vs names others' hd hs _ ih =>
    cases hf
    show SpellsSegments _ (d :: ((us ++ vs) ++ ys)) (names :: (others' ++ more), tail)
    rw [List.append_assoc]
    exact .dotted hd hs (ih hy rfl)

/-- The tokens of a rendered path after its keyword. -/
theorem spells_path {path : UsePath} {ts : List Token} (hw : path.WellFormed)
    (h : Written path.pieces ts) :
    ∃ u xs, ts = u :: xs ∧ u.kind = .use ∧ SpellsPath xs path [.dot] := by
  obtain ⟨u, us, rfl, hu, hus⟩ := h.cons_inv
  refine ⟨u, us, rfl, hu.mark_kind, ?_⟩
  obtain ⟨xs, us, rfl, hx, hus⟩ := hus.append_inv
  obtain ⟨ys, zs, rfl, hy, hz⟩ := hus.append_inv
  have hfirst := spells_segment hx
  have hothers := @spells_segments _ (bracketed path.first) _ hy
  obtain ⟨first, others, fields⟩ := path
  cases fields with
  | none =>
    obtain rfl := hz.nil_inv
    have hpath : pathOf first others ((others.getLast?.map bracketed).getD (bracketed first)) =
        ⟨first, others, none⟩ := by
      cases hl : others.getLast? with
      | none => simp [pathOf, hl]
      | some last =>
        -- A last segment in brackets would be read as the fields of the path.
        have hlast : last.others = [] := hw.ends rfl last (by simp [hl])
        simp [pathOf, bracketed, hlast]
    rw [List.append_nil, ← hpath]
    exact .dotted hfirst hothers
  | some fields =>
    obtain ⟨d, vs, rfl, hd, hvs⟩ := hz.cons_inv
    obtain ⟨b, ws, rfl, hb, hf⟩ := spells_names (by simpa using hvs)
    have htail : ∀ bracket, SpellsSegments bracket (d :: (b :: ws ++ [])) ([fields], true) :=
      fun _ => .dotted hd.mark_kind (.list hb hf) .none
    have hpath : pathOf first (others ++ [fields]) true = ⟨first, others, some fields⟩ := by
      simp [pathOf]
    rw [← hpath]
    exact .dotted hfirst (by simpa using hothers.append (htail _))

/-! ## Conditions -/

/-- The tier at which a condition is spelled without parentheses. -/
def Condition.tier : Condition → Tier
  | or _ _ => .disjunction
  | and _ _ => .conjunction
  | not _ => .negation
  | compare _ _ _ => .primary

theorem spells_disjunction {c : Condition} {ts : List Token}
    (h : SpellsCondition c.tier ts c) : SpellsCondition .disjunction ts c := by
  cases c with
  | compare => exact .conjunction (.negation (.primary h))
  | not => exact .conjunction (.negation h)
  | and => exact .conjunction h
  | or => exact h

theorem spells_grouped {c : Condition} {pieces : List Piece} {ts : List Token}
    (h : ∀ {us}, Written pieces us → SpellsCondition .disjunction us c)
    (hts : Written (Piece.grouped pieces) ts) : SpellsCondition .primary ts c := by
  obtain ⟨l, us, rfl, hl, hus⟩ := hts.cons_inv
  obtain ⟨xs, vs, rfl, hx, hv⟩ := hus.append_inv
  obtain ⟨r, ws, rfl, hr, hws⟩ := hv.cons_inv
  obtain rfl := hws.nil_inv
  exact .paren hl.mark_kind (h hx) hr.mark_kind

section
variable {c : Condition} {pieces : List Piece} {ts : List Token}
variable (h : ∀ {us}, Written pieces us → SpellsCondition c.tier us c)
include h

theorem spells_placed_one (hts : Written (Condition.placed 1 c pieces) ts) :
    SpellsCondition .conjunction ts c := by
  have hgroup : ∀ {us}, Written (Piece.grouped pieces) us → SpellsCondition .conjunction us c :=
    fun hus => .negation (.primary (spells_grouped (fun hu => spells_disjunction (h hu)) hus))
  unfold Condition.placed at hts
  cases c with
  | compare => exact .negation (.primary (h hts))
  | not => exact .negation (h hts)
  | and => exact h hts
  | or => exact hgroup hts

theorem spells_placed_two (hts : Written (Condition.placed 2 c pieces) ts) :
    SpellsCondition .negation ts c := by
  have hgroup : ∀ {us}, Written (Piece.grouped pieces) us → SpellsCondition .negation us c :=
    fun hus => .primary (spells_grouped (fun hu => spells_disjunction (h hu)) hus)
  unfold Condition.placed at hts
  cases c with
  | compare => exact .primary (h hts)
  | not => exact h hts
  | and => exact hgroup hts
  | or => exact hgroup hts

end

/-- A rendered condition is spelled at its own tier. -/
theorem spells_condition {c : Condition} {ts : List Token} (hw : c.WellFormed)
    (h : Written c.pieces ts) : SpellsCondition c.tier ts c := by
  induction c generalizing ts with
  | compare field relation value =>
    obtain ⟨f, us, rfl, hf, hus⟩ := h.cons_inv
    obtain ⟨r, us, rfl, hr, hus⟩ := hus.cons_inv
    obtain ⟨o, us, rfl, ho, hus⟩ := hus.cons_inv
    obtain rfl := hus.nil_inv
    obtain ⟨hk, rfl⟩ := hf.name
    exact .compare hk hr.mark_kind (ho.operand hw.2)
  | not inner ih =>
    obtain ⟨n, us, rfl, hn, hus⟩ := h.cons_inv
    exact .not hn.mark_kind (spells_placed_two (ih hw) hus)
  | and left right ihl ihr =>
    obtain ⟨us, vs, rfl, hu, hv⟩ := Written.append_inv h
    obtain ⟨m, vs, rfl, hm, hvs⟩ := hv.cons_inv
    exact .and (spells_placed_one (ihl hw.1) hu) hm.mark_kind (spells_placed_two (ihr hw.2) hvs)
  | or left right ihl ihr =>
    obtain ⟨us, vs, rfl, hu, hv⟩ := Written.append_inv h
    obtain ⟨m, vs, rfl, hm, hvs⟩ := hv.cons_inv
    exact .or (spells_disjunction (ihl hw.1 hu)) hm.mark_kind
      (spells_placed_one (ihr hw.2) hvs)

/-! ## Operations

What is rendered last in an operation is continued by `WHERE` at most. -/

theorem following_nil (second : List Token.Kind) (ys : List Token) :
    following [] second ys = second := by
  unfold following
  split <;> simp

theorem following_of_ne_nil {first second : List Token.Kind} {ys : List Token} (h : ys ≠ []) :
    following first second ys = second :=
  if_neg h

theorem spells_fields {fields : Fields} {ts : List Token} (h : Written fields.pieces ts) :
    SpellsFields ts fields [] ∧ ts ≠ [] ∧ Apart [.each] ts := by
  cases fields with
  | all =>
    obtain ⟨a, us, rfl, ha, hus⟩ := h.cons_inv
    obtain rfl := hus.nil_inv
    exact ⟨.all ha.mark_kind, by simp, by simp [ha.mark_kind]⟩
  | named names =>
    have hs : SpellsSegment ts (names, bracketed names) := spells_segment h
    generalize hf : (names, bracketed names) = found at hs
    cases hs with
    | name hn =>
      obtain ⟨rfl, _⟩ := Prod.mk.inj hf
      exact ⟨.name hn, by simp, by simp [hn]⟩
    | list hb hx =>
      obtain ⟨rfl, _⟩ := Prod.mk.inj hf
      exact ⟨.list hb hx, by simp, by simp [hb]⟩

theorem spells_where {condition : Option Condition} {ts : List Token}
    (hw : ∀ c ∈ condition, c.WellFormed)
    (h : Written (condition.toList.flatMap fun c => mark .where_ :: Piece.grouped c.pieces) ts) :
    ∃ more, SpellsWhere ts condition more ∧ more ⊆ [.where_] := by
  cases condition with
  | none =>
    obtain rfl := h.nil_inv
    exact ⟨_, .omitted, List.Subset.refl _⟩
  | some c =>
    have h' : Written (mark .where_ :: Piece.grouped c.pieces) ts := by simpa using h
    obtain ⟨w, us, rfl, hk, hus⟩ := h'.cons_inv
    obtain ⟨l, us, rfl, hl, hus⟩ := hus.cons_inv
    obtain ⟨xs, vs, rfl, hx, hv⟩ := hus.append_inv
    obtain ⟨r, ws, rfl, hr, hws⟩ := hv.cons_inv
    obtain rfl := hws.nil_inv
    have hc := spells_disjunction (spells_condition (hw c rfl) hx)
    exact ⟨_, .given hk.mark_kind hl.mark_kind hc hr.mark_kind, List.nil_subset _⟩

theorem spells_select {selection : Select} {ts : List Token} (hw : selection.WellFormed)
    (h : Written selection.pieces ts) :
    ∃ s xs more, ts = s :: xs ∧ s.kind = .select ∧ SpellsSelect xs selection more ∧
      more ⊆ [.where_] := by
  obtain ⟨s, us, rfl, hs, hus⟩ := h.cons_inv
  obtain ⟨xs, us, rfl, hx, hus⟩ := hus.append_inv
  obtain ⟨ys, zs, rfl, hy, hz⟩ := hus.append_inv
  obtain ⟨hfields, hne, hapart⟩ := spells_fields hy
  obtain ⟨o₃, hwhere, hsub⟩ := spells_where hw.condition hz
  have ha : Apart [.each] (ys ++ zs) := by
    cases ys with
    | nil => exact absurd rfl hne
    | cons y ys => simpa using hapart
  obtain ⟨o₁, heach, hsub₁⟩ : ∃ o₁, SpellsMark .each xs selection.each o₁ ∧ o₁ ⊆ [.each] := by
    cases he : selection.each with
    | true =>
      rw [he] at hx
      obtain ⟨e, vs, rfl, he, hvs⟩ := hx.cons_inv
      obtain rfl := hvs.nil_inv
      exact ⟨_, .given he.mark_kind, List.nil_subset _⟩
    | false =>
      rw [he] at hx
      obtain rfl := hx.nil_inv
      exact ⟨_, .omitted, List.Subset.refl _⟩
  refine ⟨s, _, _, rfl, hs.mark_kind, .clauses heach hfields hwhere ?_ (apart_of_no_kinds zs), ?_⟩
  · exact fun t ht hk => ha t ht (hsub₁ hk)
  · rw [following_of_ne_nil (by simp [hne]), following_nil]
    exact hsub

theorem spells_operation {operation : Operation} {ts : List Token} (hw : operation.WellFormed)
    (h : Written operation.pieces ts) :
    ∃ k xs more, ts = k :: xs ∧ SpellsOperation k.kind xs operation more ∧
      more ⊆ [.where_] := by
  cases operation with
  | select selection =>
    obtain ⟨s, xs, more, rfl, hs, hx, hsub⟩ := spells_select hw h
    exact ⟨s, xs, more, rfl, hs ▸ .select hx, hsub⟩
  | count selection =>
    obtain ⟨k, us, rfl, hk, hus⟩ := h.cons_inv
    obtain ⟨s, xs, more, rfl, hs, hx, hsub⟩ := spells_select hw hus
    have hinner := SpellsInner.marked (.given hs) hx (apart_of_no_kinds xs)
    rw [following_nil] at hinner
    exact ⟨k, s :: xs, more, rfl, hk.mark_kind ▸ .count hinner, hsub⟩
  | aggregate function =>
    obtain ⟨k, us, rfl, hk, hus⟩ := h.cons_inv
    obtain rfl := hus.nil_inv
    exact ⟨k, [], [], rfl, hk.mark_kind ▸ .aggregate, List.nil_subset _⟩
  | arithmetic operator left right =>
    obtain ⟨k, us, rfl, hk, hus⟩ := h.cons_inv
    obtain ⟨l, us, rfl, hl, hus⟩ := hus.cons_inv
    obtain ⟨r, us, rfl, hr, hus⟩ := hus.cons_inv
    obtain rfl := hus.nil_inv
    obtain ⟨hlk, hln⟩ := hl.reference hw.1
    obtain ⟨hrk, hrn⟩ := hr.reference hw.2
    exact ⟨k, [l, r], [], rfl, hk.mark_kind ▸ .arithmetic hlk hrk hln hrn, List.nil_subset _⟩
  | percentOf part whole =>
    obtain ⟨k, us, rfl, hk, hus⟩ := h.cons_inv
    obtain ⟨us, vs, rfl, hu, hv⟩ := hus.append_inv
    obtain ⟨c, vs, rfl, hc, hvs⟩ := hv.cons_inv
    obtain ⟨s, xs, more₁, rfl, hs, hx, hsub₁⟩ := spells_select hw.1 hu
    obtain ⟨s', ys, more₂, rfl, hs', hy, hsub₂⟩ := spells_select hw.2 hvs
    have hinner := SpellsInner.marked (.given hs) hx (apart_of_no_kinds xs)
    rw [following_nil] at hinner
    have ha : Apart more₁ ([c] ++ s' :: ys) := by
      rw [List.singleton_append, apart_cons, hc.mark_kind]
      intro hm
      simpa using hsub₁ hm
    have hop := SpellsPercentage.operands hinner (.given hc.mark_kind) (.given hs' hy) ha
      (apart_of_no_kinds _)
    rw [following_of_ne_nil (by simp), following_nil] at hop
    exact ⟨k, _, more₂, rfl, hk.mark_kind ▸ .percentOf hop, hsub₂⟩

theorem spells_statement {found : Statement} {ts : List Token} (hw : found.WellFormed)
    (h : Written found.pieces ts) :
    ∃ t xs more, ts = t :: xs ∧ SpellsStatement t xs found more ∧ more ⊆ [.where_] := by
  obtain ⟨target, operation⟩ := found
  cases target with
  | none =>
    obtain ⟨k, xs, more, rfl, hx, hsub⟩ := spells_operation hw.operation h
    exact ⟨k, xs, more, rfl, .plain hx, hsub⟩
  | some name =>
    obtain ⟨t, us, rfl, ht, hus⟩ := h.cons_inv
    obtain ⟨hk, hn⟩ := ht.reference (hw.target name rfl)
    obtain ⟨k, xs, more, rfl, hx, hsub⟩ := spells_operation hw.operation hus
    exact ⟨t, k :: xs, more, rfl, .assigned hk hn hx, hsub⟩

/-! ## Blocks and programs -/

/-- The statements of a rendered block, with the token after them. -/
theorem statements_written {found : List Statement} {ts : List Token}
    (hw : ∀ statement ∈ found, statement.WellFormed)
    (h : Written (found.flatMap Statement.pieces ++ [mark .return_]) ts) :
    Apart [.where_] ts ∧
      ∃ xs r, ts = xs ++ [r] ∧ r.kind = .return_ ∧ SpellsStatements r xs found := by
  induction found generalizing ts with
  | nil =>
    obtain ⟨r, us, rfl, hr, hus⟩ := h.cons_inv
    obtain rfl := hus.nil_inv
    have hr : r.kind = .return_ := hr.mark_kind
    exact ⟨by simp [hr], [], r, rfl, hr, .none⟩
  | cons first others ih =>
    rw [List.flatMap_cons, List.append_assoc] at h
    obtain ⟨xs, ys, rfl, hx, hy⟩ := h.append_inv
    obtain ⟨t, us, more, rfl, hspell, hsub⟩ := spells_statement (hw first (by simp)) hx
    obtain ⟨hwhere, vs, r, rfl, hr, hothers⟩ := ih (fun s hs => hw s (by simp [hs])) hy
    obtain ⟨parse, hp⟩ := hspell.reader
    have ht : t.kind ≠ .where_ := by
      intro ht
      simp [statement, ht, operation] at hp
    have ha : Apart more (vs ++ [r]) := fun u hu hm => hwhere u hu (hsub hm)
    exact ⟨by simp [ht], t :: (us ++ vs), r, by simp, hr, .read hspell ha hothers⟩

theorem block_written {found : Block} {ts : List Token} (hw : found.WellFormed)
    (h : Written found.pieces ts) :
    ∃ q us, ts = q :: us ∧ q.kind = .query ∧ SpellsBlock us found := by
  obtain ⟨q, us, rfl, hq, hus⟩ := h.cons_inv
  obtain ⟨n, us, rfl, hn, hus⟩ := hus.cons_inv
  obtain ⟨hk, hl⟩ := hn.name
  obtain ⟨-, xs, r, rfl, hr, hx⟩ := statements_written hw.statements hus
  have hblock := SpellsBlock.named hk hx hr
  rw [hl] at hblock
  exact ⟨q, _, rfl, hq.mark_kind, hblock⟩

/-- The blocks of a rendered program; the first of them continues no path. -/
theorem blocks_written {found : List Block} {ts : List Token} {ends : Token}
    (hw : ∀ block ∈ found, block.WellFormed) (he : ends.kind = .endOfText)
    (h : Written (found.flatMap Block.pieces) ts) :
    Apart [.dot] (ts ++ [ends]) ∧ SpellsProgram (ts ++ [ends]) ⟨[], found⟩ := by
  induction found generalizing ts with
  | nil =>
    obtain rfl := h.nil_inv
    exact ⟨by simp [he], .ends he⟩
  | cons first others ih =>
    obtain ⟨xs, ys, rfl, hx, hy⟩ := Written.append_inv h
    obtain ⟨q, us, rfl, hq, hblock⟩ := block_written (hw first (by simp)) hx
    obtain ⟨-, hothers⟩ := ih (fun b hb => hw b (by simp [hb])) hy
    refine ⟨by simp [hq], ?_⟩
    rw [List.append_assoc, List.cons_append]
    exact .block hq hblock hothers

/-- The paths of a rendered program, with what follows them. -/
theorem paths_written {found : List UsePath} {blocks : List Block} {ts rest : List Token}
    (hw : ∀ path ∈ found, path.WellFormed) (h : Written (found.flatMap UsePath.pieces) ts)
    (ha : Apart [.dot] rest) (hrest : SpellsProgram rest ⟨[], blocks⟩) :
    Apart [.dot] (ts ++ rest) ∧ SpellsProgram (ts ++ rest) ⟨found, blocks⟩ := by
  induction found generalizing ts with
  | nil =>
    obtain rfl := h.nil_inv
    exact ⟨ha, hrest⟩
  | cons first others ih =>
    obtain ⟨xs, ys, rfl, hx, hy⟩ := Written.append_inv h
    obtain ⟨u, us, rfl, hu, hspell⟩ := spells_path (hw first (by simp)) hx
    obtain ⟨ha', hothers⟩ := ih (fun p hp => hw p (by simp [hp])) hy
    refine ⟨by simp [hu], ?_⟩
    rw [List.append_assoc, List.cons_append]
    exact .path hu hspell ha' hothers

/-- A text whose tokens are those that a program is written with is read as the program. -/
theorem Program.WellFormed.ofText_eq {program : Program} (hw : program.WellFormed)
    {text : String} {ts : List Token} {p : Token.Position}
    (htext : Token.ofText text = ts ++ [Token.ending p]) (hts : Written program.pieces ts) :
    Program.ofText text = .ok program := by
  obtain ⟨xs, ys, rfl, hx, hy⟩ := Written.append_inv hts
  have hends : (Token.ending p).kind = .endOfText := rfl
  obtain ⟨ha, hblocks⟩ := blocks_written hw.blocks hends hy
  obtain ⟨-, hprogram⟩ := paths_written hw.paths hx ha hblocks
  rwa [Program.ofText_iff_spells, htext, List.append_assoc]

/-- Rendered programs are read back. -/
theorem Program.WellFormed.read_back {program : Program} (hw : program.WellFormed) :
    Program.ofText program.render = .ok program := by
  have hlays := @Piece.lays_joined ' ' (by decide) program.pieces hw.stand
  obtain ⟨ts, p, hscan, hts⟩ := hlays.scan .start
  have htext : Token.ofText program.render = ts ++ [Token.ending p] := by
    rw [Token.ofText, Program.render, String.toList_ofList, hscan]
  exact hw.ofText_eq htext hts

end RecordQuery
