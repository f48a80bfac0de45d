/-
The parser reads what spells a tree.

Where tokens spell a tree and what comes after them does not continue it, the
functions of the grammar take exactly those tokens and return the tree
(`Recognises`).  With the soundness of the parser this makes every reading
independent of what lies beyond the next token, and so two readings of the same
tokens are one (`Recognises.unique`).
-/
import RecordQuery.Proofs.Grammar.Soundness

namespace RecordQuery
namespace Grammar

/-- Whether a parser takes the tokens of a tree off the front. -/
def Recognises {α : Type} (parse : List Token → Parsed α) (spells : Spelling α) : Prop :=
  ∀ ⦃xs v more rest⦄, spells xs v more → rest ≠ [] → Apart more rest →
    parse (xs ++ rest) = .ok (v, rest)

theorem expect_cons {kind : Token.Kind} {expected : Expected} {t : Token} {ts : List Token}
    (h : t.kind = kind) : expect kind expected (t :: ts) = .ok (t, ts) := by
  simp [expect, h]

theorem expect_ok {kind : Token.Kind} {expected : Expected} {t : Token} {ts rest : List Token}
    (h : expect kind expected ts = .ok (t, rest)) : ts = t :: rest ∧ t.kind = kind := by
  cases ts with
  | nil => simp [expect] at h
  | cons u us =>
    simp only [expect] at h
    split at h
    · next hk =>
      cases h
      exact ⟨rfl, hk⟩
    · cases h

/-! ## Names and paths -/

theorem moreNames_complete {expected : Expected} {xs rest : List Token} {names : List String}
    (h : SpellsOthers xs names) : moreNames expected (xs ++ rest) = .ok (names, rest) := by
  induction h with
  | close hb => cases rest <;> simp [moreNames, hb]
  | name hc hn _ ih => simp [moreNames, hc, hn, ih]

theorem nameList_complete {expected : Expected} {xs rest : List Token} {names : Names}
    (h : SpellsNames xs names) : nameList expected (xs ++ rest) = .ok (names, rest) := by
  cases h with
  | list hn hx => simp [nameList, expect_cons hn, moreNames_complete hx]

theorem segment_complete {xs rest : List Token} {found : Names × Bool}
    (h : SpellsSegment xs found) : segment (xs ++ rest) = .ok (found, rest) := by
  cases h with
  | name hn => simp [segment, hn]
  | list hb hx => simp [segment, hb, nameList_complete hx]

theorem moreSegments_complete {bracketed : Bool} {xs rest : List Token}
    {found : List Names × Bool} (h : SpellsSegments bracketed xs found) (ha : Apart [.dot] rest) :
    moreSegments bracketed (xs ++ rest) = .ok (found, rest) := by
  induction h with
  | none =>
    cases rest with
    | nil => simp [moreSegments]
    | cons t rest =>
      have ht : t.kind ≠ .dot := by simpa using ha
      simp [moreSegments, ht]
  | dotted hd hx _ ih =>
    rw [List.cons_append, List.append_assoc, moreSegments, if_pos hd]
    split
    · next h => simp [segment_complete hx] at h
    · next h =>
      rw [segment_complete hx] at h
      simp only [Except.ok.injEq, Prod.mk.injEq] at h
      obtain ⟨⟨rfl, rfl⟩, rfl⟩ := h
      simp [ih]

theorem path_complete : Recognises path SpellsPath := by
  intro xs v more rest h _ ha
  cases h with
  | dotted hx hy =>
    simp [path, List.append_assoc, segment_complete hx, moreSegments_complete hy ha]

/-! ## Conditions -/

/-- That a condition is read by the function of its tier, with parentheses less
than `depth` deep.  A chain may go on after its tokens. -/
def Tier.Reads (depth : Nat) : Tier → List Token → Condition → Prop
  | primary, xs, c =>
    ∀ rest, Grammar.primary (conditionWithin depth) (xs ++ rest) = .ok (c, rest)
  | negation, xs, c =>
    ∀ rest, unary (conditionWithin depth) (xs ++ rest) = .ok (c, rest)
  | conjunction, xs, c =>
    ∀ rest, ∃ count, rest.length ≤ count ∧
      chained .ampersand .and (unary (conditionWithin depth)) (xs ++ rest) =
        chain .ampersand .and (unary (conditionWithin depth)) count c rest
  | disjunction, xs, c =>
    ∀ rest, Apart [.ampersand] rest → ∃ count, rest.length ≤ count ∧
      conditionWithin depth.succ (xs ++ rest) =
        chain .pipe .or (chained .ampersand .and (unary (conditionWithin depth))) count c rest

theorem chain_apart {mark : Token.Kind} {join : Condition → Condition → Condition}
    {term : List Token → Parsed Condition} {count : Nat} {left : Condition} {rest : List Token}
    (h : Apart [mark] rest) : chain mark join term count left rest = .ok (left, rest) := by
  cases count with
  | zero => rfl
  | succ count =>
    cases rest with
    | nil => rfl
    | cons t rest =>
      have ht : t.kind ≠ mark := by simpa using h
      simp [chain, ht]

theorem chain_step {mark : Token.Kind} {join : Condition → Condition → Condition}
    {term : List Token → Parsed Condition} {count : Nat} {left right : Condition} {m : Token}
    {ys rest : List Token} (hm : m.kind = mark) (ht : term (ys ++ rest) = .ok (right, rest))
    (hcount : (m :: (ys ++ rest)).length ≤ count) :
    ∃ left', rest.length ≤ left' ∧
      chain mark join term count left (m :: (ys ++ rest)) =
        chain mark join term left' (join left right) rest := by
  cases count with
  | zero => simp at hcount
  | succ count =>
    refine ⟨count, ?_, ?_⟩
    · simp only [List.length_cons, List.length_append] at hcount
      omega
    · simp [chain, hm, ht]

theorem tier_reads {tier : Tier} {xs : List Token} {c : Condition}
    (h : SpellsCondition tier xs c) {depth : Nat} (hn : xs.length ≤ depth) :
    tier.Reads depth xs c := by
  -- Along the spelling; each pair of parentheses uses up one level of the depth.
  induction h generalizing depth with
  | compare hf hr ho =>
    intro rest
    simp [Grammar.primary, comparison, expect_cons hf, hf, hr, ho]
  | @paren l r xs c hl hx hr ih =>
    intro rest
    cases depth with
    | zero => simp at hn
    | succ depth =>
      have hn' : xs.length ≤ depth := by
        simp only [List.length_cons, List.length_append] at hn
        omega
      obtain ⟨count, _, hcount⟩ := ih hn' (r :: rest) (by simp [hr])
      rw [chain_apart (by simp [hr])] at hcount
      simp [Grammar.primary, hl, hcount, expect_cons hr]
  | @primary xs c hx ih =>
    intro rest
    have := ih hn rest
    cases hx with
    | compare hf hr ho => simpa [unary, hf] using this
    | paren hl _ _ => simpa [unary, hl] using this
  | not hk _ ih =>
    intro rest
    simp [unary, hk, ih (Nat.le_of_succ_le hn) rest]
  | negation _ ih =>
    intro rest
    exact ⟨rest.length, Nat.le_refl _, by simp [chained, ih hn rest]⟩
  | @and m xs ys left right _ hm _ ihl ihr =>
    intro rest
    obtain ⟨hxs, hys⟩ : xs.length ≤ depth ∧ ys.length ≤ depth := by
      simp only [List.length_append, List.length_cons] at hn
      omega
    obtain ⟨count, hcount, hl⟩ := ihl hxs (m :: (ys ++ rest))
    obtain ⟨count', hcount', hr⟩ := chain_step hm (ihr hys rest) hcount
    exact ⟨count', hcount', by rw [List.append_assoc, List.cons_append, hl, hr]⟩
  | @conjunction xs c _ ih =>
    intro rest ha
    obtain ⟨count, _, h⟩ := ih hn rest
    rw [chain_apart ha] at h
    exact ⟨rest.length, Nat.le_refl _, by simp [conditionWithin, chained.eq_1 .pipe, h]⟩
  | @or m xs ys left right _ hm _ ihl ihr =>
    intro rest ha
    obtain ⟨hxs, hys⟩ : xs.length ≤ depth ∧ ys.length ≤ depth := by
      simp only [List.length_append, List.length_cons] at hn
      omega
    obtain ⟨count, hcount, hl⟩ := ihl hxs (m :: (ys ++ rest)) (by simp [hm])
    obtain ⟨_, _, hterm⟩ := ihr hys rest
    rw [chain_apart ha] at hterm
    obtain ⟨count', hcount', hr⟩ := chain_step hm hterm hcount
    exact ⟨count', hcount', by rw [List.append_assoc, List.cons_append, hl, hr]⟩

theorem condition_complete {xs rest : List Token} {c : Condition}
    (h : SpellsCondition .disjunction xs c) (ha : Apart [.pipe, .ampersand] rest) :
    condition (xs ++ rest) = .ok (c, rest) := by
  have ha' : Apart [.pipe] rest ∧ Apart [.ampersand] rest :=
    apart_append_kinds.mp (by simpa using ha)
  have hn : xs.length ≤ (xs ++ rest).length := by simp
  obtain ⟨count, _, hr⟩ := tier_reads h hn rest ha'.2
  rw [condition, hr, chain_apart ha'.1]

/-! ## Operations -/

theorem mark_complete {kind : Token.Kind} :
    Recognises (fun ts => .ok (startsWith kind ts, dropKind kind ts)) (SpellsMark kind) := by
  intro xs v more rest h _ ha
  cases h with
  | omitted =>
    cases rest with
    | nil => simp [startsWith, dropKind]
    | cons t rest =>
      have ht : t.kind ≠ kind := by simpa using ha
      simp [startsWith, dropKind, ht]
  | given ht => simp [startsWith, dropKind, ht]

/-- What a mark that may be omitted leaves. -/
theorem dropKind_spelled {kind : Token.Kind} {xs rest : List Token} {given : Bool}
    {more : List Token.Kind} (h : SpellsMark kind xs given more) (hne : rest ≠ [])
    (ha : Apart more rest) :
    startsWith kind (xs ++ rest) = given ∧ dropKind kind (xs ++ rest) = rest := by
  simpa using mark_complete h hne ha

theorem fieldSpec_complete : Recognises fieldSpec SpellsFields := by
  intro xs v more rest h hne ha
  cases h with
  | omitted =>
    cases rest with
    | nil => exact absurd rfl hne
    | cons t rest =>
      simp only [apart_cons, List.mem_cons, List.not_mem_nil, or_false, not_or] at ha
      obtain ⟨h₁, h₂, h₃⟩ := ha
      simp only [List.nil_append, fieldSpec]
  | all hk => simp [fieldSpec, hk]
  | name hk => simp [fieldSpec, hk]
  | list hk hx => simp [fieldSpec, hk, nameList_complete hx]

theorem whereClause_complete : Recognises whereClause SpellsWhere := by
  intro xs v more rest h _ ha
  cases h with
  | omitted =>
    cases rest with
    | nil => simp [whereClause]
    | cons t rest =>
      have ht : t.kind ≠ .where_ := by simpa using ha
      simp [whereClause, ht]
  | @given w l r xs c hw hl hx hr =>
    have hc : condition (xs ++ r :: rest) = .ok (c, r :: rest) :=
      condition_complete hx (by simp [hr])
    simp [whereClause, hw, expect_cons hl, hc, expect_cons hr]

theorem selectBody_complete : Recognises selectBody SpellsSelect := by
  intro xs v more rest h hne ha
  cases h with
  | @clauses xs ys zs each fields condition o₁ o₂ o₃ hx hy hz h₁ h₂ =>
    rw [apart_following h₁, apart_following h₂, List.append_assoc] at ha
    obtain ⟨ha₁, ha₂, ha₃⟩ := ha
    obtain ⟨hstart, hdrop⟩ := dropKind_spelled hx (by simp [hne]) ha₁
    rw [List.append_assoc, List.append_assoc, selectBody, hstart, hdrop,
      fieldSpec_complete hy (by simp [hne]) ha₂]
    simp [whereClause_complete hz hne ha₃]

theorem innerSelect_complete : Recognises innerSelect SpellsInner := by
  intro xs v more rest h hne ha
  cases h with
  | marked hx hy h₁ =>
    rw [apart_following h₁] at ha
    rw [List.append_assoc, innerSelect, (dropKind_spelled hx (by simp [hne]) ha.1).2]
    exact selectBody_complete hy hne ha.2

theorem percentage_complete : Recognises percentage SpellsPercentage := by
  intro xs v more rest h hne ha
  cases h with
  | @operands xs ys zs part whole comma o₁ o₂ o₃ hx hy hz h₁ h₂ =>
    rw [apart_following h₁, apart_following h₂, List.append_assoc] at ha
    obtain ⟨ha₁, ha₂, ha₃⟩ := ha
    rw [List.append_assoc, List.append_assoc, percentage,
      innerSelect_complete hx (by simp [hne]) ha₁]
    simp only [(dropKind_spelled hy (by simp [hne]) ha₂).2]
    cases hz with
    | omitted =>
      cases rest with
      | nil => exact absurd rfl hne
      | cons t rest =>
        have hk : t.kind ≠ .select := by simpa using ha₃
        simp [hk]
    | given hs hw => simp [hs, selectBody_complete hw hne ha₃]

theorem operation_complete {kind : Token.Kind} {parse : List Token → Parsed Operation}
    (hp : operation kind = some parse) : Recognises parse (SpellsOperation kind) := by
  intro xs v more rest h hne ha
  cases h with
  | select hx =>
    cases hp
    simp [selectBody_complete hx hne ha, Except.map]
  | count hx =>
    cases hp
    simp [innerSelect_complete hx hne ha, Except.map]
  | percentOf hx =>
    cases hp
    exact percentage_complete hx hne ha
  | aggregate =>
    cases hp
    rfl
  | arithmetic hl hr hleft hright =>
    cases hp
    simp [operands, expect_cons hl, expect_cons hr, hleft, hright]

theorem SpellsOperation.reader {kind : Token.Kind} {xs : List Token} {found : Operation}
    {more : List Token.Kind} (h : SpellsOperation kind xs found more) :
    ∃ parse, operation kind = some parse := by
  cases h <;> exact ⟨_, rfl⟩

theorem statement_of_operation {t : Token} {parse : List Token → Parsed Operation}
    (h : operation t.kind = some parse) :
    statement t = some fun ts =>
      (parse ts).map fun (operation, rest) => (⟨none, operation⟩, rest) := by
  have ht : t.kind ≠ .reference := by
    intro ht
    simp [ht, operation] at h
  simp [statement, ht, h]

theorem SpellsStatement.reader {t : Token} {xs : List Token} {found : Statement}
    {more : List Token.Kind} (h : SpellsStatement t xs found more) :
    ∃ parse, statement t = some parse := by
  cases h with
  | plain hx =>
    obtain ⟨parse, hp⟩ := hx.reader
    exact ⟨_, statement_of_operation hp⟩
  | assigned ht => exact ⟨assignment t, by simp [statement, ht]⟩

theorem statement_complete {t : Token} {parse : List Token → Parsed Statement}
    (hp : statement t = some parse) : Recognises parse (SpellsStatement t) := by
  intro xs v more rest h hne ha
  cases h with
  | plain hx =>
    obtain ⟨inner, hk⟩ := hx.reader
    rw [statement_of_operation hk] at hp
    cases hp
    simp [operation_complete hk hx hne ha, Except.map]
  | assigned ht hn hx =>
    obtain ⟨inner, hk⟩ := hx.reader
    have hp' : parse = assignment t := by simpa [statement, ht] using hp.symm
    subst hp'
    simp [assignment, hk, operation_complete hk hx hne ha, hn]

/-! ## Readings of the same tokens -/

/-- A token that ends every tree. -/
def stopToken : Token := ⟨.endOfText, "", 1, 1⟩

theorem apart_stopToken {more : List Token.Kind} {ts : List Token} (h : more ⊆ continuing) :
    Apart more (stopToken :: ts) :=
  apart_of_not_continuing h (by decide)

/-- No tree that begins where another one does goes beyond it, when what follows
the other one does not continue it. -/
def Separates {α : Type} (spells : Spelling α) : Prop :=
  ∀ ⦃xs v more ys w more' rest rest'⦄, spells xs v more → spells ys w more' → Apart more rest →
    xs ++ rest = ys ++ rest' → ys <+: xs

section
variable {α : Type} {parse : List Token → Parsed α} {spells : Spelling α}
variable (hp : Recognises parse spells)
variable (hm : ∀ {xs v more}, spells xs v more → more ⊆ continuing)
include hp hm

theorem Recognises.separates : Separates spells := by
  intro xs v more ys w more' rest rest' hx hy ha h
  obtain ⟨zs, rfl, rfl⟩ | ⟨zs, rfl, rfl⟩ := List.append_eq_append_iff.mp h
  · have ha' : Apart more (zs ++ [stopToken]) := by
      cases zs with
      | nil => exact apart_stopToken (hm hx)
      | cons z zs => simpa using ha
    have h₁ := hp hx (by simp) ha'
    have h₂ := hp hy (List.cons_ne_nil stopToken []) (apart_stopToken (hm hy))
    rw [List.append_assoc, h₁] at h₂
    simp only [Except.ok.injEq, Prod.mk.injEq] at h₂
    have hz : zs = [] := by simpa using h₂.2
    simp [hz]
  · exact List.prefix_append ys zs

/-- The same tokens spell one tree. -/
theorem Recognises.unique {xs : List Token} {v w : α} {more more' : List Token.Kind}
    (hx : spells xs v more) (hy : spells xs w more') : v = w := by
  have h₁ := hp hx (List.cons_ne_nil stopToken []) (apart_stopToken (hm hx))
  have h₂ := hp hy (List.cons_ne_nil stopToken []) (apart_stopToken (hm hy))
  rw [h₁] at h₂
  simp only [Except.ok.injEq, Prod.mk.injEq] at h₂
  exact h₂.1

end

end Grammar
end RecordQuery
