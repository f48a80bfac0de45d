/-
Token lists in which comments do no harm.

Comments are passed over between the items of a program, that is before a
declaration and before a statement.  Inside an item they are tokens like any
other: a comment there is refused where a token is required, and it ends a
clause that may be omitted.  `Clear ts` says that no comment of `ts` stands
inside an item, and `program_bare` that then the comments can be left out.

A comment is also harmless where the rest of a statement is idle: an asterisk
adds nothing to a selection of everything, a comma adds nothing at the end of a
percentage, and where they are not read they are passed over.
-/
import Mathlib.Data.List.Induction
import RecordQuery.Proofs.Grammar.Loops

namespace RecordQuery
namespace Grammar

/-- Tokens without the comments. -/
def bare (ts : List Token) : List Token :=
  ts.filter fun t => t.kind ≠ .comment

def Uncommented (ts : List Token) : Prop :=
  ∀ t ∈ ts, t.kind ≠ .comment

/-- Tokens that change nothing at the end of a statement. -/
def Idle (ts : List Token) : Prop :=
  ∀ t ∈ ts, t.kind = .comment ∨ t.kind = .asterisk ∨ t.kind = .comma

section
variable {t : Token} {xs ys ts : List Token}

@[simp] theorem bare_nil : bare [] = [] := rfl

theorem bare_cons_comment (h : t.kind = .comment) : bare (t :: ts) = bare ts := by
  simp [bare, h]

theorem bare_cons (h : t.kind ≠ .comment) : bare (t :: ts) = t :: bare ts := by
  simp [bare, h]

@[simp] theorem bare_append : bare (xs ++ ys) = bare xs ++ bare ys := by
  simp [bare]

theorem bare_of_uncommented (h : Uncommented xs) : bare xs = xs := by
  exact List.filter_eq_self.mpr fun t ht => decide_eq_true (h t ht)

theorem bare_append_of_uncommented (h : Uncommented xs) : bare (xs ++ ys) = xs ++ bare ys := by
  rw [bare_append, bare_of_uncommented h]

theorem closed_bare (h : Closed ts) : Closed (bare ts) := by
  obtain ⟨t, ht, hk⟩ := h
  exact ⟨t, by simp [bare, ht, hk], hk⟩

theorem Content.uncommented (h : Content xs) : Uncommented xs := by
  intro x hx hk
  have := h x hx
  simp [hk, isPart, operation] at this

end

/-! ## Clear token lists -/

/-- That a parser refuses a token list whatever comes after these tokens. -/
def Refuses {α : Type} (parse : List Token → Parsed α) (xs : List Token) (stop : Stop) : Prop :=
  ∀ ys, parse (xs ++ ys) = .error stop

/-- Statements without comments inside them, up to the tokens at which the block
ends, or up to a statement that is refused. -/
inductive ClearStatements : List Token → Option (List Token) → Prop
  | ends {t : Token} {ts : List Token} :
      endsBlock t.kind → ClearStatements (t :: ts) (some (t :: ts))
  | passed {t : Token} {ts : List Token} {next : Option (List Token)} :
      endsBlock t.kind = false → statement t = none → ClearStatements ts next →
      ClearStatements (t :: ts) next
  | read {t : Token} {parse : List Token → Parsed Statement} {xs zs rest : List Token}
      {found : Statement} {next : Option (List Token)} :
      statement t = some parse → Uncommented xs → Idle zs →
      parse (xs ++ (bare zs ++ bare rest)) = .ok (found, bare rest) →
      ClearStatements rest next → ClearStatements (t :: (xs ++ (zs ++ rest))) next
  | refused {t : Token} {parse : List Token → Parsed Statement} {xs ys : List Token}
      {stop : Stop} :
      statement t = some parse → Uncommented xs → Refuses parse xs stop →
      ClearStatements (t :: (xs ++ ys)) none

/-- Programs without comments inside their items, up to the end of the text or up
to an item that is refused. -/
inductive Clear : List Token → Prop
  | ends {t : Token} {ts : List Token} : t.kind = .endOfText → Uncommented ts → Clear (t :: ts)
  | passed {t : Token} {ts : List Token} :
      t.kind ≠ .endOfText → t.kind ≠ .use → t.kind ≠ .query → Clear ts → Clear (t :: ts)
  | path {t : Token} {xs rest : List Token} {found : UsePath} :
      t.kind = .use → Uncommented xs → path (xs ++ bare rest) = .ok (found, bare rest) →
      Clear rest → Clear (t :: (xs ++ rest))
  | pathRefused {t : Token} {xs ys : List Token} {stop : Stop} :
      t.kind = .use → Uncommented xs → Refuses Grammar.path xs stop → Clear (t :: (xs ++ ys))
  | block {t n r : Token} {ts rest : List Token} :
      t.kind = .query → n.kind = .identifier → ClearStatements ts (some (r :: rest)) →
      r.kind = .return_ → Clear rest → Clear (t :: n :: ts)
  | blockUnnamed {t n : Token} {ts : List Token} :
      t.kind = .query → n.kind ≠ .identifier → n.kind ≠ .comment → Clear (t :: n :: ts)
  | blockUnended {t n r : Token} {ts rest : List Token} :
      t.kind = .query → n.kind = .identifier → ClearStatements ts (some (r :: rest)) →
      r.kind ≠ .return_ → Clear (t :: n :: ts)
  | blockRefused {t n : Token} {ts : List Token} :
      t.kind = .query → n.kind = .identifier → ClearStatements ts none → Clear (t :: n :: ts)

/-! ## Idle tokens at the end of a statement -/

theorem SpellsNames.last {xs : List Token} {names : Names} (h : SpellsNames xs names) :
    ∃ ys b, xs = ys ++ [b] ∧ b.kind = .rightBracket := by
  have others : ∀ {xs : List Token} {names : List String}, SpellsOthers xs names →
      ∃ ys b, xs = ys ++ [b] ∧ b.kind = .rightBracket := by
    intro xs names h
    induction h with
    | close hb => exact ⟨[], _, rfl, hb⟩
    | @name c n xs names _ _ _ ih =>
      obtain ⟨ys, b, rfl, hb⟩ := ih
      exact ⟨c :: n :: ys, b, rfl, hb⟩
  cases h with
  | @list n xs names _ hx =>
    obtain ⟨ys, b, rfl, hb⟩ := others hx
    exact ⟨n :: ys, b, rfl, hb⟩

theorem snoc_inj {xs ys : List Token} {j k : Token} (h : xs ++ [j] = ys ++ [k]) :
    xs = ys ∧ j = k := by
  obtain ⟨hxs, hjk⟩ := List.append_inj' h rfl
  exact ⟨hxs, List.singleton_inj.mp hjk⟩

section
variable {j : Token} (hj : j.kind = .asterisk ∨ j.kind = .comma)
include hj

theorem SpellsSelect.init {xs : List Token} {selection : Select} {more : List Token.Kind}
    (h : SpellsSelect (xs ++ [j]) selection more) : ∃ more', SpellsSelect xs selection more' := by
  generalize hw : xs ++ [j] = ws at h
  cases h with
  | @clauses as bs cs each fields condition o₁ o₂ o₃ hx hy hz =>
    cases hz with
    | @given w l r ds c hw' hl hc hr =>
      have : xs ++ [j] = (as ++ (bs ++ w :: l :: ds)) ++ [r] := by simpa using hw
      obtain ⟨_, rfl⟩ := snoc_inj this
      simp [hr] at hj
    | omitted =>
      rw [List.append_nil] at hw
      cases hy with
      | omitted =>
        cases hx with
        | omitted => simp at hw
        | @given t ht =>
          obtain ⟨_, rfl⟩ := @snoc_inj xs [] j t (by simpa using hw)
          simp [ht] at hj
      | @all a ha =>
        obtain ⟨rfl, _⟩ := snoc_inj hw
        have hs := SpellsSelect.clauses hx .omitted .omitted (apart_nil _) (apart_nil _)
        exact ⟨_, by simpa using hs⟩
      | @name n hn =>
        obtain ⟨_, rfl⟩ := snoc_inj hw
        simp [hn] at hj
      | @list b ds names hb hd =>
        obtain ⟨es, r, rfl, hr⟩ := hd.last
        have : xs ++ [j] = (as ++ (b :: es)) ++ [r] := by simpa using hw
        obtain ⟨_, rfl⟩ := snoc_inj this
        simp [hr] at hj

theorem SpellsInner.init {xs : List Token} {selection : Select} {more : List Token.Kind}
    (h : SpellsInner (xs ++ [j]) selection more) : ∃ more', SpellsInner xs selection more' := by
  generalize hw : xs ++ [j] = ws at h
  cases h with
  | @marked as bs keyword _ o₁ o₂ hx hy h₁ =>
    obtain rfl | ⟨cs, b, rfl⟩ := List.eq_nil_or_concat bs
    · cases hx with
      | omitted => simp at hw
      | @given t ht =>
        obtain ⟨_, rfl⟩ := @snoc_inj xs [] j t (by simpa using hw)
        simp [ht] at hj
    · rw [List.concat_eq_append, ← List.append_assoc] at hw
      obtain ⟨rfl, rfl⟩ := snoc_inj hw
      rw [List.concat_eq_append] at hy h₁
      obtain ⟨_, hy⟩ := hy.init hj
      exact ⟨_, .marked hx hy h₁.of_append⟩

theorem SpellsPercentage.init {xs : List Token} {found : Operation} {more : List Token.Kind}
    (h : SpellsPercentage (xs ++ [j]) found more) :
    ∃ more', SpellsPercentage xs found more' := by
  generalize hw : xs ++ [j] = ws at h
  cases h with
  | @operands as bs cs part whole comma o₁ o₂ o₃ hx hy hz h₁ h₂ =>
    cases hz with
    | omitted =>
      cases hy with
      | omitted =>
        simp only [List.append_nil] at hw
        rw [← hw] at hx
        obtain ⟨_, hx⟩ := hx.init hj
        have hs := SpellsPercentage.operands hx .omitted .omitted (apart_nil _) (apart_nil _)
        exact ⟨_, by simpa using hs⟩
      | given ht =>
        rw [List.append_nil] at hw
        obtain ⟨rfl, _⟩ := snoc_inj hw
        have hs := SpellsPercentage.operands hx .omitted .omitted (apart_nil _) (apart_nil _)
        exact ⟨_, by simpa using hs⟩
    | @given s ds _ _ hs hd =>
      obtain rfl | ⟨es, d, rfl⟩ := List.eq_nil_or_concat ds
      · have : xs ++ [j] = (as ++ bs) ++ [s] := by simpa using hw
        obtain ⟨_, rfl⟩ := snoc_inj this
        simp [hs] at hj
      · have : xs ++ [j] = (as ++ (bs ++ s :: es)) ++ [d] := by simpa using hw
        obtain ⟨rfl, rfl⟩ := snoc_inj this
        rw [List.concat_eq_append] at hd
        obtain ⟨_, hd⟩ := hd.init hj
        have h₁' : Apart o₁ (bs ++ s :: es) := by
          refine @Apart.of_append o₁ _ [j] ?_
          simpa using h₁
        exact ⟨_, .operands hx hy (.given hs hd) h₁' (by simpa using h₂)⟩

theorem SpellsOperation.init {kind : Token.Kind} {xs : List Token} {found : Operation}
    {more : List Token.Kind} (h : SpellsOperation kind (xs ++ [j]) found more) :
    ∃ more', SpellsOperation kind xs found more' := by
  generalize hw : xs ++ [j] = ws at h
  cases h with
  | select hx =>
    rw [← hw] at hx
    exact (hx.init hj).imp fun _ => .select
  | count hx =>
    rw [← hw] at hx
    exact (hx.init hj).imp fun _ => .count
  | percentOf hx =>
    rw [← hw] at hx
    exact (hx.init hj).imp fun _ => .percentOf
  | aggregate => simp at hw
  | @arithmetic operator l r _ _ _ hr =>
    obtain ⟨_, rfl⟩ := @snoc_inj xs [l] j r (by simpa using hw)
    simp [hr] at hj

theorem SpellsStatement.init {t : Token} {xs : List Token} {found : Statement}
    {more : List Token.Kind} (h : SpellsStatement t (xs ++ [j]) found more) :
    ∃ more', SpellsStatement t xs found more' := by
  generalize hw : xs ++ [j] = ws at h
  cases h with
  | plain hx =>
    rw [← hw] at hx
    exact (hx.init hj).imp fun _ => .plain
  | @assigned k ys _ _ _ ht hn hx =>
    cases xs with
    | nil =>
      obtain ⟨rfl, rfl⟩ : j = k ∧ ys = [] := by simpa [eq_comm] using hw
      generalize hk : j.kind = kind at hx
      cases hx <;> simp [hk] at hj
    | cons x xs =>
      obtain ⟨rfl, rfl⟩ : x = k ∧ xs ++ [j] = ys := by simpa using hw
      exact (hx.init hj).imp fun _ => .assigned ht hn

end

/-- Idle tokens at the end of a statement can be left out. -/
theorem SpellsStatement.without_idle {t : Token} {xs js : List Token} {found : Statement}
    {more : List Token.Kind} (hjs : ∀ j ∈ js, j.kind = .asterisk ∨ j.kind = .comma)
    (h : SpellsStatement t (xs ++ js) found more) : ∃ more', SpellsStatement t xs found more' := by
  induction js using List.reverseRecOn generalizing more with
  | nil => exact ⟨more, by simpa using h⟩
  | append_singleton js j ih =>
    rw [← List.append_assoc] at h
    obtain ⟨_, h⟩ := h.init (hjs j (by simp))
    exact ih (fun i hi => hjs i (by simp [hi])) h

/-! ## Reading with and without comments -/

theorem closed_of_bare {ts : List Token} (h : Closed (bare ts)) : Closed ts := by
  obtain ⟨t, ht, hk⟩ := h
  exact ⟨t, (List.mem_filter.mp ht).1, hk⟩

theorem apart_of_bare {more : List Token.Kind} {ts : List Token} (hm : more ⊆ continuing)
    (h : Apart more (bare ts)) : Apart more ts := by
  cases ts with
  | nil => exact apart_nil more
  | cons t ts =>
    by_cases ht : t.kind = .comment
    · exact apart_of_not_continuing hm (by simp [ht, continuing])
    · rw [bare_cons ht] at h
      simpa using h

/-- What stands before the first comment and what begins with it. -/
theorem exists_before_comment (zs : List Token) :
    ∃ as bs, zs = as ++ bs ∧ Uncommented as ∧ ∀ b ∈ bs.head?, b.kind = .comment := by
  induction zs with
  | nil => exact ⟨[], [], rfl, by simp [Uncommented], by simp⟩
  | cons z zs ih =>
    by_cases hz : z.kind = .comment
    · exact ⟨[], z :: zs, rfl, by simp [Uncommented], by simpa using hz⟩
    · obtain ⟨as, bs, rfl, ha, hb⟩ := ih
      exact ⟨z :: as, bs, rfl, List.forall_mem_cons.mpr ⟨hz, ha⟩, hb⟩

theorem statement_read_clear {t : Token} {parse : List Token → Parsed Statement}
    {xs zs rest : List Token} {found : Statement} (hs : statement t = some parse)
    (hz : Idle zs) (hc : Closed (xs ++ (zs ++ rest))) (hx : Uncommented xs)
    (hp : parse (xs ++ (bare zs ++ bare rest)) = .ok (found, bare rest)) :
    Closed rest ∧ ∃ ws, Idle ws ∧ parse (xs ++ (zs ++ rest)) = .ok (found, ws ++ rest) := by
  have hcb : Closed (xs ++ (bare zs ++ bare rest)) := by
    simpa [bare_of_uncommented hx] using closed_bare hc
  have hr := statement_sound hs hcb
  rw [hp] at hr
  obtain ⟨hrest, ys, more, hys, hy, ha⟩ := hr
  obtain rfl : ys = xs ++ bare zs := by
    rw [← List.append_assoc] at hys
    exact (List.append_cancel_right hys).symm
  refine ⟨closed_of_bare hrest, ?_⟩
  obtain ⟨as, bs, rfl, has, hbs⟩ := exists_before_comment zs
  refine ⟨bs, fun b hb => hz b (by simp [hb]), ?_⟩
  rw [bare_append_of_uncommented has, ← List.append_assoc] at hy
  have hidle : ∀ b ∈ bare bs, b.kind = .asterisk ∨ b.kind = .comma := by
    intro b hb
    obtain ⟨hb, hk⟩ := List.mem_filter.mp hb
    have hk' : b.kind ≠ .comment := by simpa using hk
    exact (hz b (by simp [hb])).resolve_left hk'
  have hne : bs ++ rest ≠ [] := by
    intro h
    exact (closed_of_bare hrest).ne_nil (List.append_eq_nil_iff.mp h).2
  obtain ⟨more', hy', ha'⟩ : ∃ more', SpellsStatement t (xs ++ as) found more' ∧
      Apart more' (bs ++ rest) := by
    cases bs with
    | nil =>
      refine ⟨more, by simpa using hy, ?_⟩
      simpa using apart_of_bare hy.more_subset ha
    | cons b bs =>
      obtain ⟨more', hy'⟩ := hy.without_idle hidle
      have hk : b.kind = .comment := hbs b rfl
      exact ⟨more', hy', apart_of_not_continuing hy'.more_subset (by simp [hk, continuing])⟩
  have := statement_complete hs hy' hne ha'
  simpa using this

theorem statements_idle {ws rest : List Token} (h : Idle ws) :
    statements (ws ++ rest) = statements rest := by
  induction ws with
  | nil => rfl
  | cons w ws ih =>
    have hws : Idle ws := fun x hx => h x (by simp [hx])
    have hw : endsBlock w.kind = false ∧ statement w = none := by
      rcases h w (by simp) with hk | hk | hk <;> simp [hk, endsBlock, statement, operation]
    rw [List.cons_append, statements_pass hw.1 hw.2, ih hws]

theorem statement_ne_comment {t : Token} {parse : List Token → Parsed Statement}
    (h : statement t = some parse) : t.kind ≠ .comment := by
  intro hk
  simp [statement, hk, operation] at h

/-- Two outcomes of reading statements, the first with comments and the second
without. -/
def Agree : Option (List Token) → Parsed (List Statement) → Parsed (List Statement) → Prop
  | some rest, commented, uncommented =>
    Closed rest ∧ (∀ r ∈ rest.head?, endsBlock r.kind) ∧
      ∃ found, commented = .ok (found, rest) ∧ uncommented = .ok (found, bare rest)
  | none, commented, uncommented =>
    ∃ stop, commented = .error stop ∧ uncommented = .error stop

theorem Agree.cons {next : Option (List Token)} {x y : Parsed (List Statement)}
    (h : Agree next x y) (found : Statement) :
    Agree next (x.map fun (others, rest) => (found :: others, rest))
      (y.map fun (others, rest) => (found :: others, rest)) := by
  cases next with
  | some rest =>
    obtain ⟨hc, hr, others, h₁, h₂⟩ := h
    exact ⟨hc, hr, found :: others, by simp [h₁, Except.map], by simp [h₂, Except.map]⟩
  | none =>
    obtain ⟨stop, h₁, h₂⟩ := h
    exact ⟨stop, by simp [h₁, Except.map], by simp [h₂, Except.map]⟩

theorem ne_comment_of_ends {kind : Token.Kind} (h : endsBlock kind) : kind ≠ .comment := by
  rintro rfl
  cases h

/-- Where no comment stands inside a statement, leaving the comments out leaves
the statements as they are, and refuses what was refused. -/
theorem ClearStatements.agree {ts : List Token} {next : Option (List Token)}
    (h : ClearStatements ts next) (hc : Closed ts) :
    Agree next (statements ts) (statements (bare ts)) := by
  induction h with
  | @ends t ts ht =>
    have hk := ne_comment_of_ends ht
    refine ⟨hc, by simpa using ht, [], statements_end ht, ?_⟩
    rw [bare_cons hk, statements_end ht]
  | @passed t ts next ht hs _ ih =>
    have hbare : statements (bare (t :: ts)) = statements (bare ts) := by
      by_cases hk : t.kind = .comment
      · rw [bare_cons_comment hk]
      · rw [bare_cons hk, statements_pass ht hs]
    rw [statements_pass ht hs, hbare]
    exact ih (hc.tail_within ht)
  | @read t parse xs zs rest found next hs hx hz hp _ ih =>
    have hct := hc.tail_within (endsBlock_of_statement hs)
    obtain ⟨hrest, ws, hw, hread⟩ := statement_read_clear hs hz hct hx hp
    rw [statements_read hs hread, statements_idle hw, bare_cons (statement_ne_comment hs),
      bare_append_of_uncommented hx, bare_append, statements_read hs hp]
    exact (ih hrest).cons found
  | @refused t parse xs ys stop hs hx hr =>
    refine ⟨stop, statements_refuse hs (hr ys), ?_⟩
    rw [bare_cons (statement_ne_comment hs), bare_append_of_uncommented hx]
    exact statements_refuse hs (hr (bare ys))

theorem path_read_clear {xs rest : List Token} {found : UsePath} (hc : Closed (xs ++ rest))
    (hx : Uncommented xs) (hp : path (xs ++ bare rest) = .ok (found, bare rest)) :
    Closed rest ∧ path (xs ++ rest) = .ok (found, rest) := by
  have hcb : Closed (xs ++ bare rest) := by
    simpa [bare_of_uncommented hx] using closed_bare hc
  have hr := path_sound hcb
  rw [hp] at hr
  obtain ⟨hrest, ys, more, hys, hy, ha⟩ := hr
  obtain rfl : ys = xs := (List.append_cancel_right hys).symm
  have hrest' := closed_of_bare hrest
  exact ⟨hrest', path_complete hy hrest'.ne_nil (apart_of_bare hy.more_subset ha)⟩

/-- Where no comment stands inside an item, the comments can be left out. -/
theorem program_bare {ts : List Token} (h : Clear ts) (hc : Closed ts) :
    program (bare ts) = program ts := by
  induction h with
  | @ends t ts ht hts =>
    rw [bare_cons (by simp [ht]), bare_of_uncommented hts]
  | @passed t ts he hu hq _ ih =>
    rw [program_pass he hu hq, ← ih (hc.tail he)]
    by_cases hk : t.kind = .comment
    · rw [bare_cons_comment hk]
    · rw [bare_cons hk, program_pass he hu hq]
  | @path t xs rest found ht hx hp _ ih =>
    obtain ⟨hrest, hread⟩ := path_read_clear (hc.tail (by simp [ht])) hx hp
    rw [bare_cons (by simp [ht]), bare_append_of_uncommented hx, program_use ht hp,
      program_use ht hread, ih hrest]
  | @pathRefused t xs ys stop ht hx hr =>
    rw [bare_cons (by simp [ht]), bare_append_of_uncommented hx,
      program_use_refused ht (hr ys), program_use_refused ht (hr (bare ys))]
  | @block t n r ts rest ht hn hs hr _ ih =>
    obtain ⟨hrest, hends, found, h₁, h₂⟩ := hs.agree ((hc.tail (by simp [ht])).tail (by simp [hn]))
    rw [bare_cons (by simp [hr])] at h₂
    have hb : Grammar.block (n :: ts) = .ok (⟨n.lexeme, found⟩, rest) := by
      simp [block_named hn, h₁, Except.bind, Except.map, expect_cons hr]
    have hb' : Grammar.block (n :: bare ts) = .ok (⟨n.lexeme, found⟩, bare rest) := by
      simp [block_named hn, h₂, Except.bind, Except.map, expect_cons hr]
    rw [bare_cons (by simp [ht]), bare_cons (by simp [hn]), program_query ht hb,
      program_query ht hb', ih (hrest.tail (by simp [hr]))]
  | @blockUnnamed t n ts ht hn hnc =>
    have hb : ∀ us, Grammar.block (n :: us) = .error (.refused .queryName n) := fun us => by
      simp [Grammar.block, expect, hn]
    rw [bare_cons (by simp [ht]), bare_cons hnc, program_query_refused ht (hb _),
      program_query_refused ht (hb _)]
  | @blockUnended t n r ts rest ht hn hs hr =>
    obtain ⟨hrest, hends, found, h₁, h₂⟩ := hs.agree ((hc.tail (by simp [ht])).tail (by simp [hn]))
    rw [bare_cons (ne_comment_of_ends (hends r rfl))] at h₂
    have hb : Grammar.block (n :: ts) = .error (.refused .blockEnd r) := by
      simp [block_named hn, h₁, Except.bind, Except.map, expect, hr]
    have hb' : Grammar.block (n :: bare ts) = .error (.refused .blockEnd r) := by
      simp [block_named hn, h₂, Except.bind, Except.map, expect, hr]
    rw [bare_cons (by simp [ht]), bare_cons (by simp [hn]), program_query_refused ht hb,
      program_query_refused ht hb']
  | @blockRefused t n ts ht hn hs =>
    obtain ⟨stop, h₁, h₂⟩ := hs.agree ((hc.tail (by simp [ht])).tail (by simp [hn]))
    have hb : Grammar.block (n :: ts) = .error stop := by
      simp [block_named hn, h₁, Except.bind]
    have hb' : Grammar.block (n :: bare ts) = .error stop := by
      simp [block_named hn, h₂, Except.bind]
    rw [bare_cons (by simp [ht]), bare_cons (by simp [hn]), program_query_refused ht hb,
      program_query_refused ht hb']

end Grammar
end RecordQuery
