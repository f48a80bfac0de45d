/-
The parser reads only what spells a tree.

A token list with an end-of-text token in it is never read to its end: no tree
has that token among its own.  So a function of the grammar that is given such a
list either refuses a token, or it takes the tokens of a tree off the front and
leaves tokens that do not continue the tree (`Reading`).
-/
import RecordQuery.Proofs.Attempts
import RecordQuery.Proofs.Grammar.Spelling

namespace RecordQuery
namespace Grammar

/-- Tokens among which the text ends. -/
def Closed (ts : List Token) : Prop :=
  ∃ t ∈ ts, t.kind = .endOfText

/-- Tokens none of which ends the text. -/
def Endless (ts : List Token) : Prop :=
  ∀ t ∈ ts, t.kind ≠ .endOfText

/-- Tokens of which the last one, and no other, ends the text. -/
def Ended (ts : List Token) : Prop :=
  ∃ front ends, ts = front ++ [ends] ∧ ends.kind = .endOfText ∧ Endless front

section
variable {t : Token} {xs ys ts : List Token}

theorem Endless.append (hx : Endless xs) (hy : Endless ys) : Endless (xs ++ ys) :=
  List.forall_mem_append.mpr ⟨hx, hy⟩

theorem Endless.cons (ht : t.kind ≠ .endOfText) (h : Endless ts) : Endless (t :: ts) :=
  List.forall_mem_cons.mpr ⟨ht, h⟩

theorem ne_endOfText_of_within {kind : Token.Kind} (h : endsBlock kind = false) :
    kind ≠ .endOfText := by
  rintro rfl
  cases h

theorem Content.endless (h : Content xs) : Endless xs :=
  fun x hx => ne_endOfText_of_within (h.within x hx)

theorem Closed.of_append (hx : Endless xs) (h : Closed (xs ++ ys)) : Closed ys := by
  obtain ⟨t, ht, hk⟩ := h
  rcases List.mem_append.mp ht with ht | ht
  · exact absurd hk (hx t ht)
  · exact ⟨t, ht, hk⟩

theorem Closed.tail (h : Closed (t :: ts)) (ht : t.kind ≠ .endOfText) : Closed ts :=
  h.of_append (List.forall_mem_singleton.mpr ht)

theorem Closed.tail_within (h : Closed (t :: ts)) (ht : endsBlock t.kind = false) : Closed ts :=
  h.tail (ne_endOfText_of_within ht)

theorem Closed.ne_nil (h : Closed ts) : ts ≠ [] := by
  rintro rfl
  obtain ⟨u, hu, _⟩ := h
  simp at hu

theorem Ended.prepend (hx : Endless xs) (h : Ended ys) : Ended (xs ++ ys) := by
  obtain ⟨front, ends, rfl, hends, hfront⟩ := h
  exact ⟨xs ++ front, ends, (List.append_assoc xs front [ends]).symm, hends, hx.append hfront⟩

theorem Ended.cons (ht : t.kind ≠ .endOfText) (h : Ended ts) : Ended (t :: ts) :=
  h.prepend (List.forall_mem_singleton.mpr ht)

theorem Ended.closed (h : Ended ts) : Closed ts := by
  obtain ⟨front, ends, rfl, hends, -⟩ := h
  exact ⟨ends, by simp, hends⟩

end

/-- Trees whose tokens are continued by the same kinds whatever the tree. -/
def upTo {α : Type} (more : List Token.Kind) (spells : List Token → α → Prop) : Spelling α :=
  fun xs v found => spells xs v ∧ found = more

section
variable {α β : Type} {spells : Spelling α} {ts : List Token}

/-- The outcome of reading a tree off the front of a closed token list. -/
def Reading (spells : Spelling α) (ts : List Token) : Except Stop (α × List Token) → Prop
  | .ok (v, rest) =>
    Closed rest ∧ ∃ xs more, ts = xs ++ rest ∧ spells xs v more ∧ Apart more rest
  | .error stop => stop ≠ .endOfTokens

theorem Reading.cases {outcome : Except Stop (α × List Token)} (h : Reading spells ts outcome) :
    (∃ stop, outcome = .error stop ∧ stop ≠ .endOfTokens) ∨
      ∃ v xs more rest, outcome = .ok (v, rest) ∧ ts = xs ++ rest ∧ Closed rest ∧
        spells xs v more ∧ Apart more rest := by
  cases outcome with
  | error stop => exact .inl ⟨stop, rfl, h⟩
  | ok found =>
    obtain ⟨v, rest⟩ := found
    obtain ⟨hc, xs, more, hts, hx, ha⟩ := h
    exact .inr ⟨v, xs, more, rest, rfl, hts, hc, hx, ha⟩

theorem Reading.map {outcome : Except Stop (α × List Token)} {spelled : Spelling β} (f : α → β)
    (hf : ∀ {xs v more}, spells xs v more → spelled xs (f v) more)
    (h : Reading spells ts outcome) :
    Reading spelled ts (outcome.map fun (v, rest) => (f v, rest)) := by
  obtain ⟨stop, rfl, hs⟩ | ⟨v, xs, more, rest, rfl, hts, hc, hx, ha⟩ := h.cases
  · exact hs
  · exact ⟨hc, xs, more, hts, hf hx, ha⟩

end

theorem expect_sound {kind : Token.Kind} {expected : Expected} {ts : List Token}
    (hk : kind ≠ .endOfText) (h : Closed ts) :
    Reading (upTo [] fun xs t => xs = [t] ∧ t.kind = kind) ts (expect kind expected ts) := by
  cases ts with
  | nil => exact absurd rfl h.ne_nil
  | cons t ts =>
    simp only [expect]
    split
    · next ht => exact ⟨h.tail (ht ▸ hk), [t], [], rfl, ⟨⟨rfl, ht⟩, rfl⟩, apart_of_no_kinds ts⟩
    · simp [Reading]

/-! ## Names and paths -/

theorem moreNames_sound {expected : Expected} {ts : List Token} (h : Closed ts) :
    Reading (upTo [] SpellsOthers) ts (moreNames expected ts) := by
  fun_induction moreNames expected ts with
  | case1 => exact absurd rfl h.ne_nil
  | case2 t ht => exact absurd rfl (h.tail (by simp [ht])).ne_nil
  | case3 t ht => exact absurd rfl (h.tail (by simp [ht])).ne_nil
  | case4 => simp [Reading]
  | case5 c n ts hc hn names rest heq ih =>
    have hts := (h.tail (by simp [hc])).tail (by simp [hn])
    rw [heq] at ih
    obtain ⟨hr, xs, more, rfl, ⟨hx, rfl⟩, ha⟩ := ih hts
    exact ⟨hr, c :: n :: xs, [], rfl, ⟨.name hc hn hx, rfl⟩, ha⟩
  | case6 c n ts hc hn stop heq ih =>
    have hts := (h.tail (by simp [hc])).tail (by simp [hn])
    rw [heq] at ih
    exact ih hts
  | case7 => simp [Reading]
  | case8 b n ts hb =>
    exact ⟨h.tail (by simp [hb]), [b], [], rfl, ⟨.close hb, rfl⟩, apart_of_no_kinds _⟩
  | case9 => simp [Reading]

theorem nameList_sound {expected : Expected} {ts : List Token} (h : Closed ts) :
    Reading (upTo [] SpellsNames) ts (nameList expected ts) := by
  unfold nameList
  obtain ⟨stop, h₁, hs⟩ | ⟨n, _, _, rest, h₁, rfl, hc, ⟨⟨rfl, hn⟩, rfl⟩, _⟩ :=
    (@expect_sound .identifier expected _ (by decide) h).cases
  · simp only [h₁]
    exact hs
  obtain ⟨stop, h₂, hs⟩ | ⟨names, xs, _, rest, h₂, rfl, hc, ⟨hx, rfl⟩, ha⟩ :=
    (@moreNames_sound expected _ hc).cases
  · simp only [h₁, h₂]
    exact hs
  · simp only [h₁, h₂]
    exact ⟨hc, n :: xs, [], rfl, ⟨.list hn hx, rfl⟩, ha⟩

theorem segment_sound {ts : List Token} (h : Closed ts) :
    Reading (upTo [] SpellsSegment) ts (segment ts) := by
  cases ts with
  | nil => exact absurd rfl h.ne_nil
  | cons t ts =>
    simp only [segment]
    split
    · next ht =>
      exact ⟨h.tail (by simp [ht]), [t], [], rfl, ⟨.name ht, rfl⟩, apart_of_no_kinds ts⟩
    · next ht =>
      obtain ⟨stop, h₁, hs⟩ | ⟨names, xs, _, rest, h₁, rfl, hc, ⟨hx, rfl⟩, ha⟩ :=
        (@nameList_sound .pathName ts (h.tail (by simp [ht]))).cases
      · simp only [h₁]
        exact hs
      · simp only [h₁]
        exact ⟨hc, t :: xs, [], rfl, ⟨.list ht hx, rfl⟩, ha⟩
    · simp [Reading]

theorem moreSegments_sound {bracketed : Bool} {ts : List Token} (h : Closed ts) :
    Reading (upTo [.dot] (SpellsSegments bracketed)) ts (moreSegments bracketed ts) := by
  fun_induction moreSegments bracketed ts with
  | case1 => exact absurd rfl h.ne_nil
  | case2 b t ts ht stop h₁ =>
    have hs := segment_sound (h.tail (by simp [ht]))
    rwa [h₁] at hs
  | case3 b t ts ht names next rest h₁ _ others tail rest₂ h₂ ih =>
    have hs := segment_sound (h.tail (by simp [ht]))
    rw [h₁] at hs
    obtain ⟨hc, xs, _, rfl, ⟨hx, rfl⟩, _⟩ := hs
    rw [h₂] at ih
    obtain ⟨hr, ys, more, rfl, ⟨hy, rfl⟩, ha⟩ := ih hc
    exact ⟨hr, t :: (xs ++ ys), [.dot], by simp, ⟨.dotted ht hx hy, rfl⟩, ha⟩
  | case4 b t ts ht names next rest h₁ _ stop h₂ ih =>
    have hs := segment_sound (h.tail (by simp [ht]))
    rw [h₁] at hs
    rw [h₂] at ih
    exact ih hs.1
  | case5 b t ts ht =>
    exact ⟨h, [], [.dot], rfl, ⟨.none, rfl⟩, by simpa using ht⟩

theorem path_sound {ts : List Token} (h : Closed ts) : Reading SpellsPath ts (path ts) := by
  unfold path
  obtain ⟨stop, h₁, hs⟩ | ⟨⟨first, bracketed⟩, xs, _, rest, h₁, rfl, hc, ⟨hx, rfl⟩, _⟩ :=
    (segment_sound h).cases
  · simp only [h₁]
    exact hs
  obtain ⟨stop, h₂, hs⟩ | ⟨⟨others, tail⟩, ys, _, rest, h₂, rfl, hc, ⟨hy, rfl⟩, ha⟩ :=
    (@moreSegments_sound bracketed _ hc).cases
  · simp only [h₁, h₂]
    exact hs
  · simp only [h₁, h₂]
    exact ⟨hc, xs ++ ys, [.dot], by simp, .dotted hx hy, ha⟩

/-! ## Conditions -/

theorem variableName_stop {t : Token} {stop : Stop} (h : variableName t = .error stop) :
    stop ≠ .endOfTokens := by
  simp only [variableName] at h
  split at h <;> split at h
  all_goals first
    | (injection h with h; simp [← h])
    | simp at h

theorem numeral_stop {lexeme : String} {stop : Stop} (h : numeral lexeme = .error stop) :
    stop ≠ .endOfTokens := by
  simp only [numeral] at h
  repeat' split at h
  all_goals first
    | (injection h with h; simp [← h])
    | simp at h

theorem operand_stop {t : Token} {stop : Stop} (h : operand t = .error stop) :
    stop ≠ .endOfTokens := by
  unfold operand at h
  split at h
  · simp at h
  · exact numeral_stop (map_eq_error.mp h)
  · simp at h
  · simp at h
  · exact variableName_stop (map_eq_error.mp h)
  · injection h with h
    simp [← h]

theorem comparison_sound {ts : List Token} (h : Closed ts) :
    Reading (upTo [] (SpellsCondition .primary)) ts (comparison ts) := by
  unfold comparison
  obtain ⟨stop, h₁, hs⟩ | ⟨f, _, _, rest, h₁, rfl, hc, ⟨⟨rfl, hf⟩, rfl⟩, _⟩ :=
    (@expect_sound .identifier .conditionField _ (by decide) h).cases
  · simp only [h₁]
    exact hs
  simp only [h₁]
  cases rest with
  | nil => exact absurd rfl hc.ne_nil
  | cons r rest =>
    dsimp only
    split
    · next hr _ => exact absurd rfl (hc.tail (by simp [hr])).ne_nil
    · next relation o rest hr _ =>
      cases ho : operand o with
      | error stop => exact operand_stop ho
      | ok value =>
        have ho' : o.kind ≠ .endOfText := by
          rcases operand_kind ho with hk | hk | hk | hk | hk <;> simp [hk]
        exact ⟨(hc.tail (by simp [hr])).tail ho', [f, r, o], [], rfl, ⟨.compare hf hr ho, rfl⟩,
          apart_of_no_kinds rest⟩
    · simp [Reading]

section
variable {inner : List Token → Parsed Condition} {n : Nat}
variable (hi : ∀ {ts : List Token}, ts.length < n → Closed ts →
  Reading (upTo [.pipe, .ampersand] (SpellsCondition .disjunction)) ts (inner ts))
include hi

theorem primary_sound {ts : List Token} (hn : ts.length ≤ n) (h : Closed ts) :
    Reading (upTo [] (SpellsCondition .primary)) ts (primary inner ts) := by
  cases ts with
  | nil => exact absurd rfl h.ne_nil
  | cons t ts =>
    simp only [primary]
    split
    · next ht =>
      obtain ⟨stop, h₁, hs⟩ | ⟨c, xs, _, rest, h₁, rfl, hc, ⟨hx, rfl⟩, _⟩ :=
        (hi hn (h.tail (by simp [ht]))).cases
      · simp only [h₁]
        exact hs
      obtain ⟨stop, h₂, hs⟩ | ⟨r, _, _, rest, h₂, rfl, hr, ⟨⟨rfl, hk⟩, rfl⟩, _⟩ :=
        (@expect_sound .rightParen .closingParen _ (by decide) hc).cases
      · simp only [h₁, h₂]
        exact hs
      · simp only [h₁, h₂]
        exact ⟨hr, t :: (xs ++ [r]), [], by simp, ⟨.paren ht hx hk, rfl⟩, apart_of_no_kinds rest⟩
    · exact comparison_sound h

theorem unary_sound {ts : List Token} (hn : ts.length ≤ n) (h : Closed ts) :
    Reading (upTo [] (SpellsCondition .negation)) ts (unary inner ts) := by
  induction ts with
  | nil => exact absurd rfl h.ne_nil
  | cons t ts ih =>
    simp only [unary]
    split
    · next ht =>
      obtain ⟨stop, h₁, hs⟩ | ⟨c, xs, _, rest, h₁, rfl, hc, ⟨hx, rfl⟩, ha⟩ :=
        (ih (Nat.le_of_succ_le hn) (h.tail (by simp [ht]))).cases
      · simp only [h₁]
        exact hs
      · simp only [h₁]
        exact ⟨hc, t :: xs, [], rfl, ⟨.not ht hx, rfl⟩, ha⟩
    · obtain ⟨stop, h₁, hs⟩ | ⟨c, xs, _, rest, h₁, hts, hc, ⟨hx, rfl⟩, ha⟩ :=
        (primary_sound hi hn h).cases
      · simp only [h₁]
        exact hs
      · simp only [h₁]
        exact ⟨hc, xs, [], hts, ⟨.primary hx, rfl⟩, ha⟩

end

section
variable {mark : Token.Kind} {join : Condition → Condition → Condition}
variable {term : List Token → Parsed Condition} {n : Nat} {lower upper : Tier}
variable {more : List Token.Kind}
variable (hm : mark ≠ .endOfText)
variable (hj : ∀ {m : Token} {xs ys : List Token} {left right : Condition},
  SpellsCondition upper xs left → m.kind = mark → SpellsCondition lower ys right →
  SpellsCondition upper (xs ++ m :: ys) (join left right))
variable (ht : ∀ {ts : List Token}, ts.length ≤ n → Closed ts →
  Reading (upTo more (SpellsCondition lower)) ts (term ts))
include hm hj ht

/-- What has been read, `xs`, is the left operand of all that follows. -/
theorem chain_sound {count : Nat} {left : Condition} {xs ts : List Token}
    (hn : ts.length ≤ n) (hcount : ts.length ≤ count) (h : Closed ts)
    (hx : SpellsCondition upper xs left) (ha : Apart more ts) :
    Reading (upTo (mark :: more) fun ys => SpellsCondition upper (xs ++ ys)) ts
      (chain mark join term count left ts) := by
  induction count generalizing left xs ts with
  | zero => exact absurd (List.length_eq_zero_iff.mp (Nat.le_zero.mp hcount)) h.ne_nil
  | succ count ih =>
    cases ts with
    | nil => exact absurd rfl h.ne_nil
    | cons t ts =>
      simp only [chain]
      split
      · next hk =>
        have hn' : ts.length ≤ n := Nat.le_of_succ_le hn
        obtain ⟨stop, h₁, hs⟩ | ⟨right, ys, _, rest, h₁, rfl, hc, ⟨hy, rfl⟩, hr⟩ :=
          (ht hn' (h.tail (hk ▸ hm))).cases
        · simp only [h₁]
          exact hs
        · have hlen : rest.length ≤ (ys ++ rest).length := by simp
          simp only [h₁]
          have := ih (Nat.le_trans hlen hn') (Nat.le_trans hlen (Nat.le_of_succ_le_succ hcount)) hc
            (hj hx hk hy) hr
          obtain ⟨stop, h₂, hs⟩ | ⟨v, zs, _, rest, h₂, rfl, hc', ⟨hz, rfl⟩, ha'⟩ := this.cases
          · rw [h₂]
            exact hs
          · rw [h₂]
            exact ⟨hc', t :: (ys ++ zs), _, by simp, ⟨by simpa using hz, rfl⟩, ha'⟩
      · next hk =>
        exact ⟨h, [], _, rfl, ⟨by simpa using hx, rfl⟩, by
          simpa [Apart] using ⟨hk, by simpa using ha⟩⟩

theorem chained_sound {ts : List Token}
    (hl : ∀ {xs : List Token} {c : Condition}, SpellsCondition lower xs c →
      SpellsCondition upper xs c)
    (hn : ts.length ≤ n) (h : Closed ts) :
    Reading (upTo (mark :: more) (SpellsCondition upper)) ts (chained mark join term ts) := by
  simp only [chained]
  obtain ⟨stop, h₁, hs⟩ | ⟨first, xs, _, rest, h₁, rfl, hc, ⟨hx, rfl⟩, ha⟩ := (ht hn h).cases
  · simp only [h₁]
    exact hs
  · simp only [h₁]
    have hlen : rest.length ≤ (xs ++ rest).length := by simp
    have := chain_sound hm hj ht (Nat.le_trans hlen hn) (Nat.le_refl _) hc (hl hx) ha
    obtain ⟨stop, h₂, hs⟩ | ⟨v, ys, _, rest, h₂, rfl, hc', ⟨hy, rfl⟩, ha'⟩ := this.cases
    · rw [h₂]
      exact hs
    · rw [h₂]
      exact ⟨hc', xs ++ ys, _, by simp, ⟨hy, rfl⟩, ha'⟩

end

theorem conditionWithin_sound {depth : Nat} {ts : List Token} (hn : ts.length < depth)
    (h : Closed ts) :
    Reading (upTo [.pipe, .ampersand] (SpellsCondition .disjunction)) ts
      (conditionWithin depth ts) := by
  induction depth generalizing ts with
  | zero => simp at hn
  | succ depth ih =>
    simp only [conditionWithin]
    refine chained_sound (by decide) SpellsCondition.or ?_ SpellsCondition.conjunction
      (Nat.le_of_lt_succ hn) h
    intro ts hn h
    exact chained_sound (by decide) SpellsCondition.and (unary_sound ih)
      SpellsCondition.negation hn h

theorem condition_sound {ts : List Token} (h : Closed ts) :
    Reading (upTo [.pipe, .ampersand] (SpellsCondition .disjunction)) ts (condition ts) :=
  conditionWithin_sound (Nat.lt_succ_self _) h

/-! ## Operations -/

theorem mark_sound {kind : Token.Kind} {ts : List Token} (hk : kind ≠ .endOfText)
    (h : Closed ts) :
    Reading (SpellsMark kind) ts (.ok (startsWith kind ts, dropKind kind ts)) := by
  cases ts with
  | nil => exact absurd rfl h.ne_nil
  | cons t ts =>
    by_cases ht : t.kind = kind
    · simp only [startsWith, dropKind, ht, if_pos, decide_true]
      exact ⟨h.tail (ht ▸ hk), [t], [], rfl, .given ht, apart_of_no_kinds ts⟩
    · simp only [startsWith, dropKind, ht, if_neg, decide_false, not_false_eq_true]
      exact ⟨h, [], [kind], rfl, .omitted, by simpa using ht⟩

theorem fieldSpec_sound {ts : List Token} (h : Closed ts) :
    Reading SpellsFields ts (fieldSpec ts) := by
  cases ts with
  | nil => exact absurd rfl h.ne_nil
  | cons t ts =>
    simp only [fieldSpec]
    split
    · next ht => exact ⟨h.tail (by simp [ht]), [t], [], rfl, .all ht, apart_of_no_kinds ts⟩
    · next ht =>
      obtain ⟨stop, h₁, hs⟩ | ⟨names, xs, _, rest, h₁, rfl, hc, ⟨hx, rfl⟩, ha⟩ :=
        (@nameList_sound .fieldName ts (h.tail (by simp [ht]))).cases
      · simp only [h₁]
        exact hs
      · simp only [h₁]
        exact ⟨hc, t :: xs, [], rfl, .list ht hx, ha⟩
    · next ht => exact ⟨h.tail (by simp [ht]), [t], [], rfl, .name ht, apart_of_no_kinds ts⟩
    · next h₁ h₂ h₃ => exact ⟨h, [], _, rfl, .omitted, by simpa using ⟨h₁, h₂, h₃⟩⟩

theorem whereClause_sound {ts : List Token} (h : Closed ts) :
    Reading SpellsWhere ts (whereClause ts) := by
  cases ts with
  | nil => exact absurd rfl h.ne_nil
  | cons w ts =>
    simp only [whereClause]
    split
    · next hw =>
      obtain ⟨stop, h₁, hs⟩ | ⟨l, _, _, rest, h₁, rfl, hc, ⟨⟨rfl, hl⟩, rfl⟩, _⟩ :=
        (@expect_sound .leftParen .conditionStart _ (by decide) (h.tail (by simp [hw]))).cases
      · simp only [h₁]
        exact hs
      obtain ⟨stop, h₂, hs⟩ | ⟨c, xs, _, rest, h₂, rfl, hc', ⟨hx, rfl⟩, _⟩ :=
        (condition_sound hc).cases
      · simp only [h₁, h₂]
        exact hs
      obtain ⟨stop, h₃, hs⟩ | ⟨r, _, _, rest, h₃, rfl, hr, ⟨⟨rfl, hk⟩, rfl⟩, _⟩ :=
        (@expect_sound .rightParen .conditionEnd _ (by decide) hc').cases
      · simp only [h₁, h₂, h₃]
        exact hs
      · simp only [h₁, h₂, h₃]
        exact ⟨hr, w :: l :: (xs ++ [r]), [], by simp, .given hw hl hx hk, apart_of_no_kinds rest⟩
    · next hw => exact ⟨h, [], [.where_], rfl, .omitted, by simpa using hw⟩

theorem selectBody_sound {ts : List Token} (h : Closed ts) :
    Reading SpellsSelect ts (selectBody ts) := by
  obtain ⟨hc₁, xs, o₁, hts, hx, ha⟩ := @mark_sound .each ts (by decide) h
  unfold selectBody
  obtain ⟨stop, h₁, hs⟩ | ⟨fields, ys, o₂, rest₁, h₁, hrest, hc₂, hy, hb⟩ :=
    (fieldSpec_sound hc₁).cases
  · simp only [h₁]
    exact hs
  obtain ⟨stop, h₂, hs⟩ | ⟨condition, zs, o₃, rest, h₂, rfl, hc, hz, hd⟩ :=
    (whereClause_sound hc₂).cases
  · simp only [h₁, h₂]
    exact hs
  · simp only [h₁, h₂]
    rw [hrest, ← List.append_assoc] at ha hts
    exact ⟨hc, xs ++ (ys ++ zs), _, by simp [hts],
      .clauses hx hy hz ha.of_append hb.of_append, ha.following (hb.following hd)⟩

theorem innerSelect_sound {ts : List Token} (h : Closed ts) :
    Reading SpellsInner ts (innerSelect ts) := by
  obtain ⟨hc₁, xs, o₁, hts, hx, ha⟩ := @mark_sound .select ts (by decide) h
  unfold innerSelect
  obtain ⟨stop, h₁, hs⟩ | ⟨selection, ys, o₂, rest, h₁, hrest, hc, hy, hb⟩ :=
    (selectBody_sound hc₁).cases
  · rw [h₁]
    exact hs
  · rw [h₁]
    rw [hrest] at ha hts
    exact ⟨hc, xs ++ ys, _, by rw [hts, List.append_assoc], .marked hx hy ha.of_append,
      ha.following hb⟩

theorem percentage_sound {ts : List Token} (h : Closed ts) :
    Reading SpellsPercentage ts (percentage ts) := by
  unfold percentage
  obtain ⟨stop, h₁, hs⟩ | ⟨part, xs, o₁, rest₁, h₁, rfl, hc₁, hx, ha⟩ :=
    (innerSelect_sound h).cases
  · simp only [h₁]
    exact hs
  obtain ⟨hc₂, ys, o₂, hys, hy, hb⟩ := @mark_sound .comma rest₁ (by decide) hc₁
  simp only [h₁]
  rw [hys] at ha
  cases hd : dropKind .comma rest₁ with
  | nil => exact absurd hd hc₂.ne_nil
  | cons s rest₂ =>
    rw [hd] at ha hb hys hc₂
    dsimp only
    split
    · next hk =>
      obtain ⟨stop, h₂, hs⟩ | ⟨whole, zs, o₃, rest, h₂, rfl, hc, hz, hr⟩ :=
        (selectBody_sound (hc₂.tail (by simp [hk]))).cases
      · simp only [h₂]
        exact hs
      · simp only [h₂]
        rw [← List.cons_append] at hb hys ha
        rw [← List.append_assoc] at ha
        exact ⟨hc, xs ++ (ys ++ s :: zs), _, by simp [hys],
          .operands hx hy (.given hk hz) ha.of_append hb.of_append,
          ha.following (hb.following hr)⟩
    · next hk =>
      refine ⟨hc₂, xs ++ (ys ++ []), _, by simp [hys],
        .operands hx hy .omitted (by simpa using ha.of_append) (apart_nil o₂), ?_⟩
      have hw : Apart [.select] (s :: rest₂) := by simpa using hk
      have hf : Apart (following o₂ [.select] []) (s :: rest₂) := Apart.following hb hw
      exact Apart.following (by simpa using ha) hf

theorem operands_sound {operator : Arithmetic} {ts : List Token} (h : Closed ts) :
    Reading (SpellsOperation (.arithmetic operator)) ts (operands operator ts) := by
  unfold operands
  obtain ⟨stop, h₁, hs⟩ | ⟨l, _, _, rest₁, h₁, rfl, hc₁, ⟨⟨rfl, hl⟩, rfl⟩, _⟩ :=
    (@expect_sound .reference (.leftOperand operator) _ (by decide) h).cases
  · simp only [h₁]
    exact hs
  obtain ⟨stop, h₂, hs⟩ | ⟨r, _, _, rest, h₂, rfl, hc, ⟨⟨rfl, hr⟩, rfl⟩, _⟩ :=
    (@expect_sound .reference (.rightOperand operator) _ (by decide) hc₁).cases
  · simp only [h₁, h₂]
    exact hs
  · simp only [h₁, h₂]
    split
    · next left right ha hb =>
      exact ⟨hc, [l, r], [], rfl, .arithmetic hl hr ha hb, apart_of_no_kinds rest⟩
    · next stop _ ha => exact variableName_stop ha
    · next stop hb _ => exact variableName_stop hb

theorem operation_sound {kind : Token.Kind} {parse : List Token → Parsed Operation}
    (hp : operation kind = some parse) {ts : List Token} (h : Closed ts) :
    Reading (SpellsOperation kind) ts (parse ts) := by
  unfold operation at hp
  split at hp <;> simp only [Option.some.injEq, reduceCtorEq] at hp <;> subst hp
  · exact (selectBody_sound h).map _ SpellsOperation.select
  · exact (innerSelect_sound h).map _ SpellsOperation.count
  · obtain ⟨stop, h₁, hs⟩ | ⟨v, xs, more, rest, h₁, hts, hc, hx, ha⟩ :=
      (percentage_sound h).cases
    · rw [h₁]
      exact hs
    · rw [h₁]
      exact ⟨hc, xs, more, hts, .percentOf hx, ha⟩
  · exact ⟨h, [], [], rfl, .aggregate, apart_of_no_kinds ts⟩
  · exact operands_sound h

theorem statement_sound {t : Token} {parse : List Token → Parsed Statement}
    (hp : statement t = some parse) {ts : List Token} (h : Closed ts) :
    Reading (SpellsStatement t) ts (parse ts) := by
  unfold statement at hp
  split at hp
  · next ht =>
    simp only [Option.some.injEq] at hp
    subst hp
    cases ts with
    | nil => exact absurd rfl h.ne_nil
    | cons k ts =>
      simp only [assignment]
      split
      · simp [Reading]
      · next parse hk =>
        obtain ⟨stop, h₁, hs⟩ | ⟨found, xs, more, rest, h₁, rfl, hc, hx, ha⟩ :=
          (operation_sound hk (h.tail_within (endsBlock_of_operation (by simp [hk])))).cases
        · simp only [h₁]
          exact hs
        simp only [h₁]
        cases hn : variableName t with
        | error stop => exact variableName_stop hn
        | ok name => exact ⟨hc, k :: xs, more, rfl, .assigned ht hn hx, ha⟩
  · obtain ⟨inner, hk, rfl⟩ := Option.map_eq_some_iff.mp hp
    exact (operation_sound hk h).map _ SpellsStatement.plain

end Grammar
end RecordQuery
