/-
What a comment inside an item does.

A comment inside a statement cuts it off: what has been read up to there is the
statement, or there is a refusal, and the rest of its tokens stands where
statements begin.  If the statement is still the one that was meant, at most a
keyword, asterisks and commas are left over.  The keyword is then read as a
statement of its own, and no statement further on makes up for it, since what is
left over of a statement reads nothing of what comes after, and so there is one
statement too many (`more_statements_light`).

Hence a text whose comments can be left out without a change in its program has
no comment inside an item (`clear_of_same`).
-/
import RecordQuery.Program.Parser
import RecordQuery.Proofs.Comments.Leftover
import RecordQuery.Proofs.Scanning

namespace RecordQuery
namespace Grammar

/-! ## There are never fewer statements -/

/-- A statement read among comments, and its tokens. -/
theorem statement_read {t : Token} {parse : List Token → Parsed Statement} {ts rest : List Token}
    {found : Statement} (hs : statement t = some parse) (hc : Closed ts)
    (hp : parse ts = .ok (found, rest)) :
    ∃ xs more, ts = xs ++ rest ∧ bare ts = xs ++ bare rest ∧ Uncommented xs ∧ Closed rest ∧
      SpellsStatement t xs found more ∧ Apart more rest := by
  have hr := statement_sound hs hc
  rw [hp] at hr
  obtain ⟨hrest, xs, more, rfl, hx, ha⟩ := hr
  have hunc := hx.content.uncommented
  exact ⟨xs, more, rfl, bare_append_of_uncommented hunc, hunc, hrest, hx, ha⟩

theorem separates_statement {t : Token} {parse : List Token → Parsed Statement}
    (hs : statement t = some parse) : Separates (SpellsStatement t) :=
  (statement_complete hs).separates SpellsStatement.more_subset

/-- The tokens of a statement with and without its comments: with them, `ds` may be
left over. -/
theorem statement_cut {t : Token} {parse : List Token → Parsed Statement}
    {ts mid mid' : List Token} {found found' : Statement} (hs : statement t = some parse)
    (hc : Closed ts) (hp : parse (bare ts) = .ok (found, mid))
    (hp' : parse ts = .ok (found', mid')) :
    ∃ xs ds more more', ts = xs ++ mid' ∧ Uncommented xs ∧ Closed mid' ∧ bare mid' = ds ++ mid ∧
      SpellsStatement t (xs ++ ds) found more ∧ Apart more mid ∧
      SpellsStatement t xs found' more' := by
  obtain ⟨ys, more, hys, -, -, -, hy, ha⟩ := statement_read hs (closed_bare hc) hp
  obtain ⟨xs, more', hts, hbare, hunc, hcm, hx, -⟩ := statement_read hs hc hp'
  have h : ys ++ mid = xs ++ bare mid' := hys.symm.trans hbare
  obtain ⟨ds, rfl⟩ := separates_statement hs hy hx ha h
  rw [List.append_assoc] at h
  exact ⟨xs, ds, more, more', hts, hunc, hcm, (List.append_cancel_left h).symm, hy, ha, hx⟩

theorem statements_comment {t : Token} {ts : List Token} (ht : t.kind = .comment) :
    statements (t :: ts) = statements ts :=
  statements_pass (by simp [ht, endsBlock]) (by simp [statement, ht, operation])

/-- `ts` with its comments has at least as many statements as what is left of it
without comments, when what is left over before that, `js`, reads nothing of it. -/
theorem more_statements {ts js us rest rest' : List Token} {found found' : List Statement}
    (hc : Closed ts) (hts : bare ts = js ++ us) (hj : Inside us js)
    (hu : statements us = .ok (found, rest)) (ht : statements ts = .ok (found', rest')) :
    found.length ≤ found'.length := by
  -- When `js` is used up, both sides read a statement that begins with the same token;
  -- what is left over of it is the next `js`.
  induction hn : ts.length using Nat.strongRecOn generalizing ts js us found found' with
  | ind n ih =>
    subst hn
    cases ts with
    | nil => exact absurd rfl hc.ne_nil
    | cons t ts =>
      by_cases hk : t.kind = .comment
      · rw [bare_cons_comment hk] at hts
        rw [statements_comment hk] at ht
        exact ih ts.length (by simp) (hc.tail (by simp [hk])) hts hj hu ht rfl
      rw [bare_cons hk] at hts
      cases js with
      | nil =>
        rw [List.nil_append] at hts
        subst hts
        by_cases he : endsBlock t.kind
        · rw [statements_end he] at hu
          cases hu
          exact Nat.zero_le _
        have he' : endsBlock t.kind = false := by simpa using he
        have hct : Closed ts := hc.tail_within he'
        cases hs : statement t with
        | none =>
          rw [statements_pass he' hs] at hu ht
          exact ih ts.length (by simp) hct (List.nil_append _).symm hj hu ht rfl
        | some parse =>
          obtain ⟨v, mid, others, hp, hm, rfl⟩ := statements_ok_read hs hu
          obtain ⟨v', mid', others', hp', hm', rfl⟩ := statements_ok_read hs ht
          obtain ⟨xs, ds, more, more', rfl, -, hcm, hds, hx, ha, hx'⟩ := statement_cut hs hct hp hp'
          have hlen : mid'.length < (t :: (xs ++ mid')).length := by
            simp only [List.length_cons, List.length_append]
            omega
          have := ih mid'.length hlen hcm hds (inside_leftover hx hx' ha) hm hm' rfl
          exact Nat.succ_le_succ this
      | cons j js =>
        rw [List.cons_append] at hts
        obtain ⟨rfl, hbt⟩ := List.cons.inj hts
        obtain ⟨he, hread, hj⟩ := hj
        have hct : Closed ts := hc.tail_within he
        cases hs : statement t with
        | none =>
          rw [statements_pass he hs] at ht
          exact ih ts.length (by simp) hct hbt hj hu ht rfl
        | some parse =>
          obtain ⟨v', mid', others', hp', hm', rfl⟩ := statements_ok_read hs ht
          obtain ⟨xs', more', rfl, hbare, -, hcm, hx', -⟩ := statement_read hs hct hp'
          obtain ⟨ds, rfl⟩ := hread hx' (hbt.symm.trans hbare)
          have hds : bare mid' = ds ++ us := by
            rw [hbare, List.append_assoc] at hbt
            exact List.append_cancel_left hbt
          have hlen : mid'.length < (t :: (xs' ++ mid')).length := by
            simp only [List.length_cons, List.length_append]
            omega
          have := ih mid'.length hlen hcm hds hj.of_append hu hm' rfl
          exact Nat.le_succ_of_le this

/-- A keyword that is left over is a statement too many. -/
theorem more_statements_light {ts js us rest rest' : List Token} {found found' : List Statement}
    (hc : Closed ts) (hts : bare ts = js ++ us) (hj : Inside us js) (hl : Light js)
    (hsel : ∃ j ∈ js, j.kind = .select) (hu : statements us = .ok (found, rest))
    (ht : statements ts = .ok (found', rest')) : found.length < found'.length := by
  induction ts generalizing js with
  | nil => exact absurd rfl hc.ne_nil
  | cons t ts ih =>
    by_cases hk : t.kind = .comment
    · rw [bare_cons_comment hk] at hts
      rw [statements_comment hk] at ht
      exact ih (hc.tail (by simp [hk])) hts hj hl hsel ht
    rw [bare_cons hk] at hts
    cases js with
    | nil => simp at hsel
    | cons j js =>
      rw [List.cons_append] at hts
      obtain ⟨rfl, hbt⟩ := List.cons.inj hts
      obtain ⟨he, hread, hj⟩ := hj
      have hct : Closed ts := hc.tail_within he
      cases hs : statement t with
      | some parse =>
        obtain ⟨v', mid', others', hp', hm', rfl⟩ := statements_ok_read hs ht
        obtain ⟨xs', more', rfl, hbare, -, hcm, hx', -⟩ := statement_read hs hct hp'
        obtain ⟨ds, rfl⟩ := hread hx' (hbt.symm.trans hbare)
        have hds : bare mid' = ds ++ us := by
          rw [hbare, List.append_assoc] at hbt
          exact List.append_cancel_left hbt
        exact Nat.lt_succ_of_le (more_statements hcm hds hj.of_append hu hm')
      | none =>
        rw [statements_pass he hs] at ht
        have hts : t.kind ≠ .select := by
          intro ht
          simp [statement, operation, ht] at hs
        exact ih hct hbt hj (light_cons.mp hl).2 (by simpa [hts] using hsel) ht

/-! ## No change, no comment inside -/

theorem exists_split_of_bare {ts js us : List Token} (h : bare ts = js ++ us) :
    ∃ zs rest, ts = zs ++ rest ∧ bare zs = js ∧ bare rest = us := by
  obtain ⟨zs, rest, hts, hz, hr⟩ := List.filter_eq_append_iff.mp h
  exact ⟨zs, rest, hts, hz, hr⟩

/-- Where statements stay the same without the comments, none of them had a
comment inside. -/
theorem clear_statements_of_same {ts rest rest' : List Token} {found : List Statement}
    (hc : Closed ts) (hu : statements (bare ts) = .ok (found, rest))
    (ht : statements ts = .ok (found, rest')) :
    ClearStatements ts (some rest') ∧ bare rest' = rest ∧ Closed rest' := by
  induction hn : ts.length using Nat.strongRecOn generalizing ts found with
  | ind n ih =>
    subst hn
    cases ts with
    | nil => exact absurd rfl hc.ne_nil
    | cons t ts =>
      by_cases he : endsBlock t.kind
      · have hk := ne_comment_of_ends he
        rw [bare_cons hk, statements_end he] at hu
        rw [statements_end he] at ht
        cases hu
        cases ht
        exact ⟨.ends he, bare_cons hk, hc⟩
      have he' : endsBlock t.kind = false := by simpa using he
      have hct : Closed ts := hc.tail_within he'
      cases hs : statement t with
      | none =>
        rw [statements_pass he' hs] at ht
        have hu' : statements (bare ts) = .ok (found, rest) := by
          by_cases hk : t.kind = .comment
          · rwa [bare_cons_comment hk] at hu
          · rwa [bare_cons hk, statements_pass he' hs] at hu
        obtain ⟨hclear, h⟩ := ih ts.length (by simp) hct hu' ht rfl
        exact ⟨.passed he' hs hclear, h⟩
      | some parse =>
        rw [bare_cons (statement_ne_comment hs)] at hu
        obtain ⟨v, mid, others, hp, hm, rfl⟩ := statements_ok_read hs hu
        obtain ⟨v', mid', others', hp', hm', heq⟩ := statements_ok_read hs ht
        obtain ⟨rfl, rfl⟩ := List.cons.inj heq
        obtain ⟨xs, ds, more, more', rfl, hunc, hcm, hds, hx, ha, hx'⟩ :=
          statement_cut hs hct hp hp'
        have hlight : Light ds := hx'.light hx
        have hidle : ∀ d ∈ ds, d.kind ≠ .select := by
          intro d hd hk
          have := more_statements_light hcm hds (inside_leftover hx hx' ha) hlight ⟨d, hd, hk⟩
            hm hm'
          exact absurd this (Nat.lt_irrefl _)
        obtain ⟨zs, last, rfl, rfl, rfl⟩ := exists_split_of_bare hds
        have hz : Idle zs := by
          intro z hz
          by_cases hk : z.kind = .comment
          · exact .inl hk
          · have hzb : z ∈ bare zs := List.mem_filter.mpr ⟨hz, by simpa using hk⟩
            exact .inr ((hlight z hzb).resolve_left (hidle z hzb))
        rw [statements_idle hz] at hm'
        have hcl : Closed last := by
          obtain ⟨u, hu, hk⟩ := hcm
          refine ⟨u, (List.mem_append.mp hu).resolve_left fun hu => ?_, hk⟩
          rcases hz u hu with h | h | h <;> simp [hk] at h
        have hlen : last.length < (t :: (xs ++ (zs ++ last))).length := by
          simp only [List.length_cons, List.length_append]
          omega
        obtain ⟨hclear, h⟩ := ih last.length hlen hcl hm hm' rfl
        rw [bare_append_of_uncommented hunc, bare_append] at hp
        exact ⟨.read hs hunc hz hp hclear, h⟩

/-- Where a program stays the same without its comments, no comment stands inside
an item. -/
theorem clear_of_same {ts : List Token} {found : Program} (hc : Closed ts)
    (hu : program (bare ts) = .ok (found, [])) (ht : program ts = .ok (found, [])) :
    Clear ts := by
  induction hn : ts.length using Nat.strongRecOn generalizing ts found with
  | ind n ih =>
    subst hn
    cases ts with
    | nil => exact absurd rfl hc.ne_nil
    | cons t ts =>
      by_cases he : t.kind = .endOfText
      · rw [program_end he] at ht
        cases ht
        exact .ends he (by simp [Uncommented])
      have hct : Closed ts := hc.tail he
      by_cases hk : t.kind = .use
      · rw [bare_cons (by simp [hk])] at hu
        obtain ⟨v, mid, others, hp, hm, rfl⟩ := program_ok_use hk hu
        obtain ⟨v', mid', others', hp', hm', heq⟩ := program_ok_use hk ht
        obtain ⟨rfl, rfl⟩ : v = v' ∧ others = others' := by
          cases others
          cases others'
          simpa [and_assoc] using heq
        have hr := path_sound (closed_bare hct)
        have hr' := path_sound hct
        rw [hp] at hr
        rw [hp'] at hr'
        obtain ⟨-, xs, more, hxs, hx, ha⟩ := hr
        obtain ⟨hcm, xs', more', rfl, hx', -⟩ := hr'
        have hunc : Uncommented xs' := hx'.parts.clauses.content.uncommented
        rw [bare_append_of_uncommented hunc] at hxs hp
        obtain ⟨ds, rfl⟩ := path_complete.separates SpellsPath.more_subset hx hx' ha hxs.symm
        obtain rfl := hx'.leftover_nil hx
        obtain rfl : mid = bare mid' := by
          rw [List.append_nil] at hxs
          exact (List.append_cancel_left hxs).symm
        have hlen : mid'.length < (t :: (xs' ++ mid')).length := by
          simp only [List.length_cons, List.length_append]
          omega
        exact .path hk hunc hp (ih mid'.length hlen hcm hm hm' rfl)
      by_cases hq : t.kind = .query
      · rw [bare_cons (by simp [hq])] at hu
        obtain ⟨v, mid, others, hb, hm, rfl⟩ := program_ok_query hq hu
        obtain ⟨v', mid', others', hb', hm', heq⟩ := program_ok_query hq ht
        obtain ⟨rfl, rfl⟩ : v = v' ∧ others = others' := by
          cases others
          cases others'
          simpa [and_assoc, and_comm, and_left_comm] using heq
        obtain ⟨k, us, r, hus, hkk, -, hs, -⟩ := block_ok hb
        obtain ⟨k', us', r', rfl, hkk', -, hs', hr'⟩ := block_ok hb'
        rw [bare_cons (by simp [hkk'])] at hus
        obtain ⟨rfl, rfl⟩ := List.cons.inj hus
        obtain ⟨hclear, hbare, hcr⟩ :=
          clear_statements_of_same (hct.tail (by simp [hkk'])) hs hs'
        rw [bare_cons (by simp [hr'])] at hbare
        obtain ⟨rfl, rfl⟩ := List.cons.inj hbare
        have hlen : mid'.length < (t :: k' :: us').length := by
          have := (reads_statements hs').length_le
          simp only [List.length_cons] at this ⊢
          omega
        exact .block hq hkk' hclear hr' (ih mid'.length hlen (hcr.tail (by simp [hr'])) hm hm' rfl)
      · rw [program_pass he hk hq] at ht
        have hu' : program (bare ts) = .ok (found, []) := by
          by_cases hkc : t.kind = .comment
          · rwa [bare_cons_comment hkc] at hu
          · rwa [bare_cons hkc, program_pass he hk hq] at hu
        exact .passed he hk hq (ih ts.length (by simp) hct hu' ht rfl)

end Grammar

/-! ## Texts -/

namespace Program

/-- Leaving out the comments of a text changes nothing when no comment stands
inside an item.  For a text that is a program without its comments the condition
is exact. -/
theorem ofTokens_bare (text : String) :
    (Grammar.Clear (Token.ofText text) →
      ofTokens (Grammar.bare (Token.ofText text)) = ofTokens (Token.ofText text)) ∧
    ∀ program, ofTokens (Grammar.bare (Token.ofText text)) = .ok program →
      (ofTokens (Token.ofText text) = .ok program ↔ Grammar.Clear (Token.ofText text)) := by
  have hc := Token.closed_ofText text
  have hsame : Grammar.Clear (Token.ofText text) →
      ofTokens (Grammar.bare (Token.ofText text)) = ofTokens (Token.ofText text) := by
    intro h
    unfold ofTokens
    rw [Grammar.program_bare h hc]
  refine ⟨hsame, fun program hu => ⟨fun ht => ?_, fun h => ?_⟩⟩
  · exact Grammar.clear_of_same hc (ofTokens_eq_ok.mp hu) (ofTokens_eq_ok.mp ht)
  · rw [← hsame h, hu]

/-- A selection with a comment between its field and its condition. -/
def interrupted : String :=
  "QUERY q SELECT a // c\n WHERE (a = 1) RETURN"

/-- The block of that selection, with the condition that is read. -/
def interruptedBlock (condition : Option Condition) : Block :=
  ⟨"q", [⟨none, .select ⟨.named ⟨"a", []⟩, condition, false⟩⟩]⟩

/-- Not every text keeps its program: the comment ends the selection, and the
condition after it is passed over. -/
theorem ofTokens_bare_ne :
    ¬ ∀ text, (ofTokens (Grammar.bare (Token.ofText text))).mapError ParseError.message =
      (ofTokens (Token.ofText text)).mapError ParseError.message := by
  intro h
  let ends : Token := ⟨.endOfText, "", 2, 22⟩
  let condition : List Token := [⟨.where_, "WHERE", 2, 2⟩, ⟨.leftParen, "(", 2, 8⟩,
    ⟨.identifier, "a", 2, 9⟩, ⟨.comparator .equal, "=", 2, 11⟩, ⟨.number, "1", 2, 13⟩,
    ⟨.rightParen, ")", 2, 14⟩, ⟨.return_, "RETURN", 2, 16⟩, ends]
  let selection (after : List Token) : List Token := ⟨.identifier, "q", 1, 7⟩ ::
    ⟨.select, "SELECT", 1, 9⟩ :: ⟨.identifier, "a", 1, 16⟩ :: after
  have hts : Token.ofText interrupted =
      ⟨.query, "QUERY", 1, 1⟩ :: selection (⟨.comment, "// c", 1, 18⟩ :: condition) := by
    decide +kernel
  have hbare : Grammar.bare (Token.ofText interrupted) =
      ⟨.query, "QUERY", 1, 1⟩ :: selection condition := by
    rw [hts]
    rfl
  have hend : Grammar.program [ends] = .ok (.empty, []) := Grammar.program_end rfl
  have hcut : ofTokens (Token.ofText interrupted) = .ok ⟨[], [interruptedBlock none]⟩ := by
    have hb : Grammar.block (selection (⟨.comment, "// c", 1, 18⟩ :: condition)) =
        .ok (interruptedBlock none, [ends]) := by
      rw [Grammar.block_named rfl, Grammar.statements_read rfl rfl]
      iterate 7 rw [Grammar.statements_pass rfl rfl]
      rw [Grammar.statements_end rfl]
      rfl
    rw [hts, ofTokens_eq_ok, Grammar.program_query rfl hb, hend]
    rfl
  have hwhole : ofTokens (Grammar.bare (Token.ofText interrupted)) =
      .ok ⟨[], [interruptedBlock (some (.compare "a" .equal (.literal (.int 1))))]⟩ := by
    have hb : Grammar.block (selection condition) =
        .ok (interruptedBlock (some (.compare "a" .equal (.literal (.int 1)))), [ends]) := by
      rw [Grammar.block_named rfl, Grammar.statements_read rfl rfl, Grammar.statements_end rfl]
      rfl
    rw [hbare, ofTokens_eq_ok, Grammar.program_query rfl hb, hend]
    rfl
  have hne := h interrupted
  rw [hcut, hwhole] at hne
  simp [Except.mapError, interruptedBlock] at hne

end Program
end RecordQuery
