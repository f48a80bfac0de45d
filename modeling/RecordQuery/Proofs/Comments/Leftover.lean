/-
What is left over of a statement that is cut off.

Where a statement is cut off, what has been read is a statement of its own, with
fewer tokens.  It is the same one only if nothing but asterisks, commas and the
keyword of a selection of everything are left over (`SpellsStatement.light`).
Whatever is left over reads nothing of what comes after it (`inside_leftover`).
Of a path that stays the same nothing is left over (`SpellsPath.leftover_nil`).
-/
import RecordQuery.Proofs.Comments.Clear

namespace RecordQuery
namespace Grammar

/-! ## What can be left over of the same tree -/

/-- Tokens that can be left over of a statement that keeps its meaning. -/
def Light (ts : List Token) : Prop :=
  ∀ t ∈ ts, t.kind = .select ∨ t.kind = .asterisk ∨ t.kind = .comma

@[simp] theorem light_nil : Light [] := by
  simp [Light]

@[simp] theorem light_cons {t : Token} {ts : List Token} :
    Light (t :: ts) ↔ (t.kind = .select ∨ t.kind = .asterisk ∨ t.kind = .comma) ∧ Light ts := by
  simp [Light]

theorem separates_mark {kind : Token.Kind} (hk : kind ∈ continuing) :
    Separates (SpellsMark kind) :=
  mark_complete.separates fun h => h.more_subset hk

theorem separates_select : Separates SpellsSelect :=
  selectBody_complete.separates SpellsSelect.more_subset

theorem separates_inner : Separates SpellsInner :=
  innerSelect_complete.separates SpellsInner.more_subset

theorem SpellsFields.more_subset {xs : List Token} {fields : Fields} {more : List Token.Kind}
    (h : SpellsFields xs fields more) : more ⊆ continuing := by
  cases h <;> decide

theorem SpellsWhere.more_subset {xs : List Token} {condition : Option Condition}
    {more : List Token.Kind} (h : SpellsWhere xs condition more) : more ⊆ continuing := by
  cases h <;> decide

theorem separates_fields : Separates SpellsFields :=
  fieldSpec_complete.separates SpellsFields.more_subset

/-- Two parts in a row, and two parts of the same tokens with some more.  What is
left over of the first part or of the second part is all that is left over. -/
theorem light_of_parts {α : Type} {spells : Spelling α} (hs : Separates spells)
    {xs₁ xs₂ ys₁ ys₂ js : List Token} {v w : α} {o₁ o₂ : List Token.Kind}
    (hx₁ : spells xs₁ v o₁) (hx₂ : spells xs₂ w o₂) (h₁ : Apart o₁ ys₁) (h₂ : Apart o₂ ys₂)
    (h : xs₂ ++ ys₂ = xs₁ ++ ys₁ ++ js) (hfirst : ∀ {ds}, xs₂ = xs₁ ++ ds → Light ds)
    (hsecond : ∀ {ds}, ys₂ = ys₁ ++ ds → Light ds) : Light js := by
  rw [List.append_assoc] at h
  obtain ⟨ds, rfl⟩ := hs hx₂ hx₁ h₂ h
  have hds : ds ++ ys₂ = ys₁ ++ js := by
    rw [List.append_assoc] at h
    exact List.append_cancel_left h
  cases ys₁ with
  | nil =>
    have hjs : js = ds ++ ys₂ := hds.symm
    rw [hjs]
    exact List.forall_mem_append.mpr ⟨hfirst rfl, hsecond rfl⟩
  | cons y ys₁ =>
    have ha : Apart o₁ (y :: ys₁ ++ js) := by simpa using h₁
    have hp := (hs hx₁ hx₂ ha h.symm).length_le
    obtain rfl : ds = [] := by
      refine List.eq_nil_of_length_eq_zero ?_
      simp only [List.length_append] at hp
      omega
    exact hsecond hds

theorem SpellsMark.light {kind : Token.Kind} {xs js : List Token} {given given' : Bool}
    {more more' : List Token.Kind}
    (hk : kind = .select ∨ kind = .asterisk ∨ kind = .comma)
    (h₁ : SpellsMark kind xs given more) (h₂ : SpellsMark kind (xs ++ js) given' more') :
    Light js := by
  generalize hw : xs ++ js = ws at h₂
  cases h₂ with
  | omitted => simp [(List.append_eq_nil_iff.mp hw).2]
  | given ht =>
    cases h₁ with
    | omitted =>
      rw [List.nil_append] at hw
      simpa [hw, ht] using hk
    | given =>
      have hj : js = [] := by simpa using congrArg List.tail hw
      simp [hj]

theorem SpellsMark.leftover_nil {kind : Token.Kind} {xs js : List Token} {given : Bool}
    {more more' : List Token.Kind} (h₁ : SpellsMark kind xs given more)
    (h₂ : SpellsMark kind (xs ++ js) given more') : js = [] := by
  generalize hw : xs ++ js = ws at h₂
  cases h₁ with
  | omitted =>
    cases h₂
    exact (List.append_eq_nil_iff.mp hw).2
  | given =>
    cases h₂
    simpa using congrArg List.tail hw

theorem SpellsNames.leftover_nil {xs js : List Token} {names names' : Names}
    (h₁ : SpellsNames xs names) (h₂ : SpellsNames (xs ++ js) names') : js = [] := by
  have hr₁ := @nameList_complete .fieldName xs js names h₁
  have hr₂ := @nameList_complete .fieldName (xs ++ js) [] names' h₂
  rw [List.append_nil, hr₁] at hr₂
  simp only [Except.ok.injEq, Prod.mk.injEq] at hr₂
  exact hr₂.2

theorem SpellsFields.light {xs js : List Token} {fields : Fields} {more more' : List Token.Kind}
    (h₁ : SpellsFields xs fields more) (h₂ : SpellsFields (xs ++ js) fields more') :
    Light js := by
  generalize hw : xs ++ js = ws at h₂
  cases h₁ with
  | omitted =>
    rw [List.nil_append] at hw
    cases h₂ with
    | omitted => simp [hw]
    | all ha => simp [hw, ha]
  | all =>
    cases h₂ with
    | omitted => simp at hw
    | all =>
      have hj : js = [] := by simpa using congrArg List.tail hw
      simp [hj]
  | name hn =>
    generalize hf : Fields.named _ = found at h₂
    cases h₂ with
    | omitted => simp at hw
    | all => simp at hf
    | name =>
      have hj : js = [] := by simpa using congrArg List.tail hw
      simp [hj]
    | list hb =>
      obtain ⟨rfl, _⟩ := List.cons.inj hw
      simp [hn] at hb
  | list hb hd =>
    generalize hf : Fields.named _ = found at h₂
    cases h₂ with
    | omitted => simp at hw
    | all => simp at hf
    | name hn =>
      obtain ⟨rfl, _⟩ := List.cons.inj hw
      simp [hn] at hb
    | list hb' hd' =>
      obtain ⟨rfl, rfl⟩ := List.cons.inj hw
      simp [hd.leftover_nil hd']

theorem SpellsWhere.light {xs js : List Token} {condition : Option Condition}
    {more more' : List Token.Kind} (h₁ : SpellsWhere xs condition more)
    (h₂ : SpellsWhere (xs ++ js) condition more') : Light js := by
  cases h₁ with
  | omitted =>
    generalize hw : [] ++ js = ws at h₂
    cases h₂
    simp [show js = [] from hw]
  | @given w l r xs c hw hl hx hr =>
    have hr₁ := whereClause_complete (.given hw hl hx hr)
      (List.append_ne_nil_of_right_ne_nil js (List.cons_ne_nil stopToken []))
      (apart_of_no_kinds _)
    have hr₂ := whereClause_complete h₂ (List.cons_ne_nil stopToken [])
      (apart_stopToken h₂.more_subset)
    rw [List.append_assoc, hr₁] at hr₂
    simp only [Except.ok.injEq, Prod.mk.injEq] at hr₂
    have hj : js = [] := by simpa using hr₂.2
    simp [hj]

theorem SpellsSelect.light {xs js : List Token} {selection : Select}
    {more more' : List Token.Kind} (h₁ : SpellsSelect xs selection more)
    (h₂ : SpellsSelect (xs ++ js) selection more') : Light js := by
  generalize hw : xs ++ js = ws at h₂
  cases h₁ with
  | clauses hx hy hz ha hb =>
    cases h₂ with
    | clauses hx' hy' hz' ha' hb' =>
      refine light_of_parts (separates_mark (by decide)) hx hx' ha ha' hw.symm ?_ ?_
      · rintro ds rfl
        simp [hx.leftover_nil hx']
      · intro ds hds
        refine light_of_parts separates_fields hy hy' hb hb' hds ?_ ?_
        · rintro ds rfl
          exact hy.light hy'
        · rintro ds rfl
          exact hz.light hz'

theorem SpellsSelect.light_of_everything {xs : List Token} {more : List Token.Kind}
    (h : SpellsSelect xs .everything more) : Light xs := by
  have h₁ : SpellsSelect ([] ++ ([] ++ [])) ⟨.all, none, false⟩ _ :=
    .clauses .omitted .omitted .omitted (apart_nil _) (apart_nil _)
  exact h₁.light h

theorem SpellsInner.light {xs js : List Token} {selection : Select}
    {more more' : List Token.Kind} (h₁ : SpellsInner xs selection more)
    (h₂ : SpellsInner (xs ++ js) selection more') : Light js := by
  generalize hw : xs ++ js = ws at h₂
  cases h₁ with
  | marked hx hy ha =>
    cases h₂ with
    | marked hx' hy' ha' =>
      refine light_of_parts (separates_mark (by decide)) hx hx' ha ha' hw.symm ?_ ?_
      · rintro ds rfl
        exact hx.light (.inl rfl) hx'
      · rintro ds rfl
        exact hy.light hy'

theorem SpellsWhole.light {xs js : List Token} {selection : Select}
    {more more' : List Token.Kind} (h₁ : SpellsWhole xs selection more)
    (h₂ : SpellsWhole (xs ++ js) selection more') : Light js := by
  generalize hw : xs ++ js = ws at h₂
  cases h₁ with
  | omitted =>
    rw [List.nil_append] at hw
    generalize hs : Select.everything = selection at h₂
    cases h₂ with
    | omitted => simp [hw]
    | given hk hx => simp [hw, hk, (hs ▸ hx).light_of_everything]
  | given hk hx =>
    cases h₂ with
    | omitted => simp at hw
    | given hk' hx' =>
      obtain ⟨rfl, rfl⟩ := List.cons.inj hw
      exact hx.light hx'

theorem SpellsPercentage.light {xs js : List Token} {found : Operation}
    {more more' : List Token.Kind} (h₁ : SpellsPercentage xs found more)
    (h₂ : SpellsPercentage (xs ++ js) found more') : Light js := by
  generalize hw : xs ++ js = ws at h₂
  cases h₁ with
  | operands hx hy hz ha hb =>
    cases h₂ with
    | operands hx' hy' hz' ha' hb' =>
      refine light_of_parts separates_inner hx hx' ha ha' hw.symm ?_ ?_
      · rintro ds rfl
        exact hx.light hx'
      · intro ds hds
        refine light_of_parts (separates_mark (by decide)) hy hy' hb hb' hds ?_ ?_
        · rintro ds rfl
          exact hy.light (.inr (.inr rfl)) hy'
        · rintro ds rfl
          exact hz.light hz'

theorem SpellsOperation.light {kind : Token.Kind} {xs js : List Token} {found : Operation}
    {more more' : List Token.Kind} (h₁ : SpellsOperation kind xs found more)
    (h₂ : SpellsOperation kind (xs ++ js) found more') : Light js := by
  generalize hw : xs ++ js = ws at h₂
  cases h₁ with
  | select hx =>
    cases h₂ with
    | select hx' => exact hx.light (hw ▸ hx')
  | count hx =>
    cases h₂ with
    | count hx' => exact hx.light (hw ▸ hx')
  | percentOf hx =>
    generalize hk : Token.Kind.percentOf = kind at h₂
    cases h₂ with
    | percentOf hx' => exact hx.light (hw ▸ hx')
    | select | count | aggregate | arithmetic => simp at hk
  | aggregate =>
    cases h₂
    simp [show js = [] from hw]
  | arithmetic =>
    cases h₂
    have hj : js = [] := by simpa using congrArg (List.drop 2) hw
    simp [hj]

/-- What is left over of a statement that has been read whole. -/
theorem SpellsStatement.light {t : Token} {xs js : List Token} {found : Statement}
    {more more' : List Token.Kind} (h₁ : SpellsStatement t xs found more)
    (h₂ : SpellsStatement t (xs ++ js) found more') : Light js := by
  generalize hw : xs ++ js = ws at h₂
  cases h₁ with
  | plain hx =>
    cases h₂ with
    | plain hx' => exact hx.light (hw ▸ hx')
  | assigned _ _ hx =>
    cases h₂ with
    | assigned _ _ hx' =>
      obtain ⟨rfl, rfl⟩ := List.cons.inj hw
      exact hx.light hx'

/-! ## What is left over reads nothing beyond -/

/-- Tokens at which no block ends and of which every statement that begins among
them is read among them, whatever comes after `rest`. -/
def Inside (rest : List Token) : List Token → Prop
  | [] => True
  | t :: ts =>
    endsBlock t.kind = false ∧
      (∀ ⦃ys found more rest'⦄, SpellsStatement t ys found more → ts ++ rest = ys ++ rest' →
        ys <+: ts) ∧
      Inside rest ts

theorem Inside.append {xs ys rest : List Token} (h₁ : Inside (ys ++ rest) xs)
    (h₂ : Inside rest ys) : Inside rest (xs ++ ys) := by
  induction xs with
  | nil => exact h₂
  | cons x xs ih =>
    obtain ⟨he, hs, hx⟩ := h₁
    rw [List.cons_append]
    refine ⟨he, ?_, ih hx⟩
    intro zs found more rest' hz h
    rw [List.append_assoc] at h
    exact (hs hz h).trans (List.prefix_append xs ys)

theorem Inside.of_append {xs ys rest : List Token} (h : Inside rest (xs ++ ys)) :
    Inside rest ys := by
  induction xs with
  | nil => exact h
  | cons x xs ih => exact ih h.2.2

theorem operation_of_isPart {kind : Token.Kind} (h : isPart kind) : operation kind = none := by
  cases kind <;> simp [isPart] at h <;> rfl

theorem SpellsOperation.not_isPart {kind : Token.Kind} {xs : List Token} {found : Operation}
    {more : List Token.Kind} (h : SpellsOperation kind xs found more) : ¬ isPart kind := by
  intro hk
  obtain ⟨parse, hp⟩ := h.reader
  simp [operation_of_isPart hk] at hp

/-- Among parts no statement begins but an assignment, and that needs a keyword
after its variable. -/
theorem inside_of_parts {xs rest : List Token} (hx : Parts xs)
    (hlast : ∀ x ∈ xs.getLast?, x.kind ≠ .reference) : Inside rest xs := by
  induction xs with
  | nil => trivial
  | cons x xs ih =>
    obtain ⟨hk, hxs⟩ := parts_cons.mp hx
    refine ⟨endsBlock_of_isPart hk, ?_, ?_⟩
    · intro ys found more rest' hy h
      cases hy with
      | plain ho => exact absurd hk ho.not_isPart
      | assigned ht _ ho =>
        cases xs with
        | nil => exact absurd ht (hlast x (by simp))
        | cons y xs =>
          obtain ⟨rfl, _⟩ := List.cons.inj h
          exact absurd (parts_cons.mp hxs).1 ho.not_isPart
    · refine ih hxs fun y hy => hlast y ?_
      cases xs with
      | nil => simp at hy
      | cons z xs => simpa using hy

theorem SpellsSelect.getLast_kind {xs : List Token} {selection : Select}
    {more : List Token.Kind} (h : SpellsSelect xs selection more) :
    ∀ x ∈ xs.getLast?, x.kind ≠ .reference := by
  cases h with
  | @clauses as bs cs each fields condition o₁ o₂ o₃ hx hy hz =>
    cases hz with
    | given _ _ _ hr => simp [List.getLast?_cons, List.getLast?_append, hr]
    | omitted =>
      rw [List.append_nil]
      cases hy with
      | omitted =>
        cases hx with
        | omitted => simp
        | given ht => simp [ht]
      | all ha => simp [ha]
      | name hn => simp [hn]
      | list hb hd =>
        obtain ⟨es, r, rfl, hr⟩ := hd.last
        simp [List.getLast?_cons, List.getLast?_append, hr]

theorem inside_select {xs rest : List Token} {selection : Select} {more : List Token.Kind}
    (h : SpellsSelect xs selection more) : Inside rest xs :=
  inside_of_parts h.parts h.getLast_kind

theorem inside_keyword {s : Token} {xs rest : List Token} {selection : Select}
    {more : List Token.Kind} (hs : s.kind = .select) (h : SpellsSelect xs selection more)
    (ha : Apart more rest) : Inside rest (s :: xs) := by
  refine ⟨by simp [hs, endsBlock], ?_, inside_select h⟩
  intro ys found more' rest' hy heq
  cases hy with
  | plain ho =>
    rw [hs] at ho
    cases ho with
    | select hy => exact separates_select h hy ha heq
  | assigned ht => simp [hs] at ht

theorem inside_inner {xs rest : List Token} {selection : Select} {more : List Token.Kind}
    (h : SpellsInner xs selection more) (ha : Apart more rest) : Inside rest xs := by
  cases h with
  | marked hx hy h₁ =>
    rw [apart_following h₁] at ha
    cases hx with
    | omitted => exact inside_select hy
    | given hs => exact inside_keyword hs hy ha.2

theorem inside_percentage {xs rest : List Token} {found : Operation} {more : List Token.Kind}
    (h : SpellsPercentage xs found more) (ha : Apart more rest) : Inside rest xs := by
  cases h with
  | operands hx hy hz h₁ h₂ =>
    rw [apart_following h₁, apart_following h₂] at ha
    refine (inside_inner hx ha.1).append (Inside.append ?_ ?_)
    · cases hy with
      | omitted => trivial
      | given hc => exact inside_of_parts (by simp [hc, isPart]) (by simp [hc])
    · cases hz with
      | omitted => trivial
      | given hs hw => exact inside_keyword hs hw ha.2.2

/-- What is left over of an operation that is cut off. -/
theorem SpellsOperation.inside_leftover {kind : Token.Kind} {xs js rest : List Token}
    {found found' : Operation} {more more' : List Token.Kind}
    (h : SpellsOperation kind (xs ++ js) found more) (hc : SpellsOperation kind xs found' more')
    (ha : Apart more rest) : Inside rest js := by
  generalize hw : xs ++ js = ws at h
  cases h with
  | select hx => exact Inside.of_append (hw ▸ inside_select hx)
  | count hx => exact Inside.of_append (hw ▸ inside_inner hx ha)
  | percentOf hx => exact Inside.of_append (hw ▸ inside_percentage hx ha)
  | aggregate =>
    rw [(List.append_eq_nil_iff.mp hw).2]
    trivial
  | arithmetic =>
    cases hc
    have hj : js = [] := by simpa using congrArg (List.drop 2) hw
    rw [hj]
    trivial

/-- What is left over of a statement that is cut off. -/
theorem inside_leftover {t : Token} {xs js rest : List Token} {found found' : Statement}
    {more more' : List Token.Kind} (h : SpellsStatement t (xs ++ js) found more)
    (hc : SpellsStatement t xs found' more') (ha : Apart more rest) : Inside rest js := by
  generalize hw : xs ++ js = ws at h
  cases hc with
  | plain hx' =>
    cases h with
    | plain hx => exact (hw ▸ hx).inside_leftover hx' ha
    | assigned ht =>
      rw [ht] at hx'
      cases hx'
  | assigned ht _ hx' =>
    cases h with
    | plain hx =>
      rw [ht] at hx
      cases hx
    | assigned _ _ hx =>
      obtain ⟨rfl, rfl⟩ := List.cons.inj hw
      exact hx.inside_leftover hx' ha

/-! ## Paths -/

theorem pathOf_length {first : Names} {others : List Names} {bracketed : Bool} :
    (pathOf first others bracketed).others.length +
      (pathOf first others bracketed).fields.toList.length = others.length := by
  unfold pathOf
  split
  · next fields hl =>
    have hne : others ≠ [] := by
      rintro rfl
      simp at hl
    have := List.length_pos_iff.mpr hne
    simp only [List.length_dropLast, Option.toList_some, List.length_singleton]
    omega
  · simp

theorem SpellsNames.no_dot {xs : List Token} {names : Names} (h : SpellsNames xs names) :
    xs.countP (fun x => x.kind = .dot) = 0 := by
  have others : ∀ {xs : List Token} {names : List String}, SpellsOthers xs names →
      xs.countP (fun x => x.kind = .dot) = 0 := by
    intro xs names h
    induction h with
    | close hb => simp [hb]
    | name hc hn _ ih => simpa [List.countP_cons, hc, hn] using ih
  cases h with
  | list hn hx => simp [hn, others hx]

theorem SpellsSegment.no_dot {xs : List Token} {found : Names × Bool}
    (h : SpellsSegment xs found) : xs.countP (fun x => x.kind = .dot) = 0 := by
  cases h with
  | name hn => simp [hn]
  | list hb hx => simp [hb, hx.no_dot]

theorem SpellsSegments.dots {bracketed tail : Bool} {xs : List Token} {others : List Names}
    (h : SpellsSegments bracketed xs (others, tail)) :
    xs.countP (fun x => x.kind = .dot) = others.length := by
  generalize hf : (others, tail) = found at h
  induction h generalizing others tail with
  | none =>
    cases hf
    rfl
  | dotted hd hx _ ih =>
    cases hf
    simp [hd, hx.no_dot, ih rfl]

/-- A path has as many dots as it has further segments and fields. -/
theorem SpellsPath.dots {xs : List Token} {path : UsePath} {more : List Token.Kind}
    (h : SpellsPath xs path more) :
    xs.countP (fun x => x.kind = .dot) = path.others.length + path.fields.toList.length := by
  cases h with
  | dotted hx hy => rw [List.countP_append, hx.no_dot, hy.dots, pathOf_length, Nat.zero_add]

/-- Nothing is left over of the same path. -/
theorem SpellsPath.leftover_nil {xs js : List Token} {path : UsePath}
    {more more' : List Token.Kind} (h₁ : SpellsPath xs path more)
    (h₂ : SpellsPath (xs ++ js) path more') : js = [] := by
  have hcount := h₂.dots
  rw [List.countP_append, h₁.dots] at hcount
  have hjs : js.countP (fun x => x.kind = .dot) = 0 := by omega
  have ha : Apart more js := by
    cases h₁ with
    | dotted =>
      cases js with
      | nil => exact apart_nil _
      | cons j js =>
        have hj := List.countP_eq_zero.mp hjs j (by simp)
        simpa using hj
  have hp := (path_complete.separates SpellsPath.more_subset h₁ h₂ ha
    (List.append_nil (xs ++ js)).symm).length_le
  refine List.eq_nil_of_length_eq_zero ?_
  simp only [List.length_append] at hp
  omega

end Grammar
end RecordQuery
