/-
The loops over statements and over declarations, one step at a time.

Both loops are defined by the length of what is left, so their equations do not
hold by unfolding.  Here is one equation for each thing that a token at the
front can be: the end, a token that is passed over, or the beginning of an item
that is read or refused.

From these, the loops are sound and complete for the relations that spell their
items, as the functions below them are.
-/
import RecordQuery.Program.Parser
import RecordQuery.Proofs.Grammar.Completeness

namespace RecordQuery
namespace Grammar

/-! ## Statements -/

theorem endsBlock_of_statement {t : Token} {parse : List Token → Parsed Statement}
    (h : statement t = some parse) : endsBlock t.kind = false := by
  cases hk : t.kind with
  | return_ | query | endOfText => simp [statement, hk, operation] at h
  | _ => rfl

section
variable {t : Token} {ts rest : List Token} {parse : List Token → Parsed Statement}

theorem statements_end (h : endsBlock t.kind) : statements (t :: ts) = .ok ([], t :: ts) := by
  rw [statements, if_pos h]

theorem statements_pass (h : endsBlock t.kind = false) (hs : statement t = none) :
    statements (t :: ts) = statements ts := by
  rw [statements, if_neg (by simp [h])]
  split
  · rfl
  · next h' => simp [hs] at h'

theorem statements_read {found : Statement} (hs : statement t = some parse)
    (hp : parse ts = .ok (found, rest)) :
    statements (t :: ts) = (statements rest).map fun (others, rest) => (found :: others, rest) := by
  rw [statements, if_neg (by simp [endsBlock_of_statement hs])]
  split
  · next h' => simp [hs] at h'
  · next h' =>
    rw [hs] at h'
    cases h'
    split
    · next h' => simp [hp] at h'
    · next h' =>
      rw [hp] at h'
      cases h'
      cases statements rest <;> rfl

theorem statements_refuse {stop : Stop} (hs : statement t = some parse)
    (hp : parse ts = .error stop) : statements (t :: ts) = .error stop := by
  rw [statements, if_neg (by simp [endsBlock_of_statement hs])]
  split
  · next h' => simp [hs] at h'
  · next h' =>
    rw [hs] at h'
    cases h'
    split
    · next h' =>
      rw [hp] at h'
      cases h'
      rfl
    · next h' => simp [hp] at h'

theorem statements_ok_read {found : List Statement} (hs : statement t = some parse)
    (h : statements (t :: ts) = .ok (found, rest)) :
    ∃ first mid others, parse ts = .ok (first, mid) ∧ statements mid = .ok (others, rest) ∧
      found = first :: others := by
  cases hp : parse ts with
  | error stop => simp [statements_refuse hs hp] at h
  | ok v =>
    obtain ⟨first, mid⟩ := v
    rw [statements_read hs hp] at h
    obtain ⟨⟨others, last⟩, hm, hv⟩ := map_eq_ok.mp h
    obtain ⟨rfl, rfl⟩ := Prod.mk.inj hv
    exact ⟨first, mid, others, rfl, hm, rfl⟩

end

/-! ## Declarations -/

section
variable {t : Token} {ts rest : List Token} {stop : Stop}

theorem program_end (h : t.kind = .endOfText) : program (t :: ts) = .ok (.empty, ts) := by
  rw [program]
  split
  · rfl
  · next h' => simp [h] at h'
  · next h' => simp [h] at h'
  · next h' _ _ => exact absurd h h'

theorem program_pass (he : t.kind ≠ .endOfText) (hu : t.kind ≠ .use) (hq : t.kind ≠ .query) :
    program (t :: ts) = program ts := by
  rw [program]
  split
  · next h => exact absurd h he
  · next h => exact absurd h hu
  · next h => exact absurd h hq
  · rfl

theorem program_use {found : UsePath} (ht : t.kind = .use) (hp : path ts = .ok (found, rest)) :
    program (t :: ts) = (program rest).map fun (others, rest) =>
      ({ others with paths := found :: others.paths }, rest) := by
  rw [program]
  split
  · next h => simp [ht] at h
  · split
    · next h => simp [hp] at h
    · next h =>
      rw [hp] at h
      cases h
      cases program rest <;> rfl
  · next h => simp [ht] at h
  · next h _ => exact absurd ht h

theorem program_use_refused (ht : t.kind = .use) (hp : path ts = .error stop) :
    program (t :: ts) = .error stop := by
  rw [program]
  split
  · next h => simp [ht] at h
  · split
    · next h =>
      rw [hp] at h
      cases h
      rfl
    · next h => simp [hp] at h
  · next h => simp [ht] at h
  · next h _ => exact absurd ht h

theorem program_query {found : Block} (ht : t.kind = .query)
    (hb : block ts = .ok (found, rest)) :
    program (t :: ts) = (program rest).map fun (others, rest) =>
      ({ others with blocks := found :: others.blocks }, rest) := by
  rw [program]
  split
  · next h => simp [ht] at h
  · next h => simp [ht] at h
  · split
    · next h => simp [hb] at h
    · next h =>
      rw [hb] at h
      cases h
      cases program rest <;> rfl
  · next h => exact absurd ht h

theorem program_query_refused (ht : t.kind = .query) (hb : block ts = .error stop) :
    program (t :: ts) = .error stop := by
  rw [program]
  split
  · next h => simp [ht] at h
  · next h => simp [ht] at h
  · split
    · next h =>
      rw [hb] at h
      cases h
      rfl
    · next h => simp [hb] at h
  · next h => exact absurd ht h

theorem program_ok_use {found : Program} (ht : t.kind = .use)
    (h : program (t :: ts) = .ok (found, rest)) :
    ∃ first mid others, path ts = .ok (first, mid) ∧ program mid = .ok (others, rest) ∧
      found = { others with paths := first :: others.paths } := by
  cases hp : path ts with
  | error stop => simp [program_use_refused ht hp] at h
  | ok v =>
    obtain ⟨first, mid⟩ := v
    rw [program_use ht hp] at h
    obtain ⟨⟨others, last⟩, hm, hv⟩ := map_eq_ok.mp h
    obtain ⟨rfl, rfl⟩ := Prod.mk.inj hv
    exact ⟨first, mid, others, rfl, hm, rfl⟩

theorem program_ok_query {found : Program} (ht : t.kind = .query)
    (h : program (t :: ts) = .ok (found, rest)) :
    ∃ first mid others, block ts = .ok (first, mid) ∧ program mid = .ok (others, rest) ∧
      found = { others with blocks := first :: others.blocks } := by
  cases hb : block ts with
  | error stop => simp [program_query_refused ht hb] at h
  | ok v =>
    obtain ⟨first, mid⟩ := v
    rw [program_query ht hb] at h
    obtain ⟨⟨others, last⟩, hm, hv⟩ := map_eq_ok.mp h
    obtain ⟨rfl, rfl⟩ := Prod.mk.inj hv
    exact ⟨first, mid, others, rfl, hm, rfl⟩

end

/-! ## Blocks -/

/-- The reading of a block whose name is there. -/
theorem block_named {n : Token} {ts : List Token} (hn : n.kind = .identifier) :
    block (n :: ts) = (statements ts).bind fun (found, rest) =>
      (expect .return_ .blockEnd rest).map fun (_, rest) => (⟨n.lexeme, found⟩, rest) := by
  simp only [block, expect_cons hn]
  cases statements ts with
  | error stop => rfl
  | ok v =>
    simp only [Except.bind]
    cases expect .return_ .blockEnd v.2 <;> rfl

theorem block_ok {ts rest : List Token} {found : Block} (h : block ts = .ok (found, rest)) :
    ∃ n us r, ts = n :: us ∧ n.kind = .identifier ∧ found.name = n.lexeme ∧
      statements us = .ok (found.statements, r :: rest) ∧ r.kind = .return_ := by
  cases ts with
  | nil => simp [block, expect] at h
  | cons n us =>
    by_cases hn : n.kind = .identifier
    · rw [block_named hn] at h
      cases hs : statements us with
      | error stop => simp [hs, Except.bind] at h
      | ok v =>
        obtain ⟨statements', after⟩ := v
        simp only [hs, Except.bind] at h
        obtain ⟨⟨r, last⟩, hr, hv⟩ := map_eq_ok.mp h
        obtain ⟨rfl, rfl⟩ := Prod.mk.inj hv
        obtain ⟨rfl, hk⟩ := expect_ok hr
        exact ⟨n, us, r, rfl, hn, rfl, hs, hk⟩
    · simp [block, expect, hn] at h

/-! ## The loops read what spells their items

The tokens that end statements and programs are never part of an item, so in a closed
list the loops come to one of them, or a token is refused. -/

/-- No token of statements ends the block. -/
theorem SpellsStatements.within {r : Token} {xs : List Token} {found : List Statement}
    (h : SpellsStatements r xs found) : ∀ x ∈ xs, endsBlock x.kind = false := by
  induction h with
  | none => simp
  | passed he _ _ ih => exact List.forall_mem_cons.mpr ⟨he, ih⟩
  | read hx _ _ ih =>
    obtain ⟨parse, hp⟩ := hx.reader
    exact List.forall_mem_cons.mpr
      ⟨endsBlock_of_statement hp, List.forall_mem_append.mpr ⟨hx.content.within, ih⟩⟩

theorem SpellsStatements.endless {r : Token} {xs : List Token} {found : List Statement}
    (h : SpellsStatements r xs found) : Endless xs :=
  fun x hx => ne_endOfText_of_within (h.within x hx)

theorem SpellsBlock.endless {xs : List Token} {found : Block} (h : SpellsBlock xs found) :
    Endless xs := by
  cases h with
  | named hn hx hr =>
    exact (hx.endless.append (.cons (by simp [hr]) (by simp [Endless]))).cons (by simp [hn])

theorem SpellsProgram.ended {xs : List Token} {found : Program} (h : SpellsProgram xs found) :
    Ended xs := by
  induction h with
  | @ends e he => exact ⟨[], e, rfl, he, by simp [Endless]⟩
  | passed he _ _ _ ih => exact ih.cons he
  | path ht hx _ _ ih => exact (ih.prepend hx.parts.clauses.content.endless).cons (by simp [ht])
  | block ht hx _ ih => exact (ih.prepend hx.endless).cons (by simp [ht])

theorem statements_sound {ts : List Token} (hc : Closed ts) :
    (∃ stop, statements ts = .error stop ∧ stop ≠ .endOfTokens) ∨
      ∃ found xs r rest, statements ts = .ok (found, r :: rest) ∧ ts = xs ++ r :: rest ∧
        endsBlock r.kind ∧ SpellsStatements r xs found := by
  induction hn : ts.length using Nat.strongRecOn generalizing ts with
  | ind n ih =>
    subst hn
    cases ts with
    | nil => exact absurd rfl hc.ne_nil
    | cons t ts =>
      by_cases he : endsBlock t.kind
      · exact .inr ⟨[], [], t, ts, statements_end he, rfl, he, .none⟩
      have he' : endsBlock t.kind = false := by simpa using he
      have hct : Closed ts := hc.tail_within he'
      cases hs : statement t with
      | none =>
        rw [statements_pass he' hs]
        obtain hstop | ⟨found, xs, r, rest, hm, rfl, hr, hx⟩ := ih ts.length (by simp) hct rfl
        · exact .inl hstop
        · exact .inr ⟨found, t :: xs, r, rest, hm, rfl, hr, .passed he' hs hx⟩
      | some parse =>
        obtain ⟨stop, hp, hstop⟩ | ⟨first, xs, more, mid, hp, rfl, hcm, hx, ha⟩ :=
          (statement_sound hs hct).cases
        · exact .inl ⟨stop, statements_refuse hs hp, hstop⟩
        have hlen : mid.length < (t :: (xs ++ mid)).length := by
          simp only [List.length_cons, List.length_append]
          omega
        rw [statements_read hs hp]
        obtain ⟨stop, hm, hstop⟩ | ⟨others, ys, r, rest, hm, rfl, hr, hy⟩ :=
          ih mid.length hlen hcm rfl
        · exact .inl ⟨stop, map_eq_error.mpr hm, hstop⟩
        · have ha' : Apart more ((ys ++ [r]) ++ rest) := by simpa using ha
          exact .inr ⟨first :: others, t :: (xs ++ ys), r, rest, by rw [hm]; rfl, by simp, hr,
            .read hx ha'.of_append hy⟩

theorem statements_complete {r : Token} {xs : List Token} {found : List Statement}
    (h : SpellsStatements r xs found) (hr : endsBlock r.kind) (rest : List Token) :
    statements (xs ++ r :: rest) = .ok (found, r :: rest) := by
  induction h with
  | none => exact statements_end hr
  | passed he hs _ ih => rw [List.cons_append, statements_pass he hs, ih]
  | @read t xs ys first others more hx ha _ ih =>
    obtain ⟨parse, hs⟩ := hx.reader
    have hrest : Apart more (ys ++ r :: rest) := by
      cases ys with
      | nil => simpa using ha
      | cons y ys => simpa using ha
    have hfirst := statement_complete hs hx (by simp) hrest
    rw [List.cons_append, List.append_assoc, statements_read hs hfirst, ih]
    rfl

theorem block_sound {ts : List Token} (hc : Closed ts) :
    Reading (upTo [] SpellsBlock) ts (block ts) := by
  cases ts with
  | nil => exact absurd rfl hc.ne_nil
  | cons n ts =>
    by_cases hn : n.kind = .identifier
    · have hct : Closed ts := hc.tail (by simp [hn])
      rw [block_named hn]
      obtain ⟨stop, hs, hstop⟩ | ⟨found, xs, r, rest, hs, rfl, -, hx⟩ := statements_sound hct
      · rw [hs]
        exact hstop
      rw [hs]
      by_cases hr : r.kind = .return_
      · have hrest : Closed rest := (hct.of_append hx.endless).tail (by simp [hr])
        simp only [Except.bind, Except.map, expect_cons hr]
        exact ⟨hrest, n :: (xs ++ [r]), [], by simp, ⟨.named hn hx hr, rfl⟩,
          apart_of_no_kinds rest⟩
      · simp [Except.bind, Except.map, expect, hr, Reading]
    · simp [block, expect, hn, Reading]

theorem block_complete {xs : List Token} {found : Block} (h : SpellsBlock xs found)
    (rest : List Token) : block (xs ++ rest) = .ok (found, rest) := by
  cases h with
  | @named n r xs found hn hx hr =>
    have hstatements := statements_complete hx (by simp [hr, endsBlock]) rest
    rw [List.cons_append, List.append_assoc, List.singleton_append, block_named hn, hstatements]
    simp [Except.bind, Except.map, expect_cons hr]

theorem program_sound {ts : List Token} (hc : Closed ts) :
    (∃ stop, program ts = .error stop ∧ stop ≠ .endOfTokens) ∨
      ∃ found xs rest, program ts = .ok (found, rest) ∧ ts = xs ++ rest ∧
        SpellsProgram xs found := by
  induction hn : ts.length using Nat.strongRecOn generalizing ts with
  | ind n ih =>
    subst hn
    cases ts with
    | nil => exact absurd rfl hc.ne_nil
    | cons t ts =>
      have hlen : ∀ xs ys : List Token, ys.length < (t :: (xs ++ ys)).length := fun xs ys => by
        simp only [List.length_cons, List.length_append]
        omega
      by_cases he : t.kind = .endOfText
      · exact .inr ⟨.empty, [t], ts, program_end he, rfl, .ends he⟩
      have hct : Closed ts := hc.tail he
      by_cases hu : t.kind = .use
      · obtain ⟨stop, hp, hstop⟩ | ⟨first, xs, more, mid, hp, rfl, hcm, hx, ha⟩ :=
          (path_sound hct).cases
        · exact .inl ⟨stop, program_use_refused hu hp, hstop⟩
        rw [program_use hu hp]
        obtain ⟨stop, hm, hstop⟩ | ⟨others, ys, rest, hm, rfl, hy⟩ :=
          ih mid.length (hlen xs mid) hcm rfl
        · exact .inl ⟨stop, map_eq_error.mpr hm, hstop⟩
        · have hy' : Apart more ys := ha.of_append
          exact .inr ⟨_, t :: (xs ++ ys), rest, by rw [hm]; rfl, by simp, .path hu hx hy' hy⟩
      by_cases hq : t.kind = .query
      · obtain ⟨stop, hb, hstop⟩ | ⟨first, xs, _, mid, hb, rfl, hcm, ⟨hx, -⟩, -⟩ :=
          (block_sound hct).cases
        · exact .inl ⟨stop, program_query_refused hq hb, hstop⟩
        rw [program_query hq hb]
        obtain ⟨stop, hm, hstop⟩ | ⟨others, ys, rest, hm, rfl, hy⟩ :=
          ih mid.length (hlen xs mid) hcm rfl
        · exact .inl ⟨stop, map_eq_error.mpr hm, hstop⟩
        · exact .inr ⟨_, t :: (xs ++ ys), rest, by rw [hm]; rfl, by simp, .block hq hx hy⟩
      · rw [program_pass he hu hq]
        obtain hstop | ⟨found, xs, rest, hm, rfl, hx⟩ := ih ts.length (by simp) hct rfl
        · exact .inl hstop
        · exact .inr ⟨found, t :: xs, rest, hm, rfl, .passed he hu hq hx⟩

theorem program_complete {xs : List Token} {found : Program} (h : SpellsProgram xs found)
    (rest : List Token) : program (xs ++ rest) = .ok (found, rest) := by
  induction h with
  | ends he => exact program_end he
  | passed he hu hq _ ih => rw [List.cons_append, program_pass he hu hq, ih]
  | @path t xs ys first others more ht hx ha hy ih =>
    have hne : ys ≠ [] := hy.ended.closed.ne_nil
    have hrest : Apart more (ys ++ rest) := by
      cases ys with
      | nil => exact absurd rfl hne
      | cons y ys => simpa using ha
    have hfirst := path_complete hx (List.append_ne_nil_of_left_ne_nil hne rest) hrest
    rw [List.cons_append, List.append_assoc, program_use ht hfirst, ih]
    rfl
  | block ht hx _ ih =>
    rw [List.cons_append, List.append_assoc, program_query ht (block_complete hx _), ih]
    rfl

/-- What is read to its end is spelled. -/
theorem program_spelled {ts : List Token} {found : Program} (hc : Closed ts)
    (h : program ts = .ok (found, [])) : SpellsProgram ts found := by
  obtain ⟨stop, hp, -⟩ | ⟨found', xs, rest, hp, rfl, hx⟩ := program_sound hc
  · simp [hp] at h
  · rw [h] at hp
    cases hp
    rwa [List.append_nil]

end Grammar

/-! ## Token sequences and texts -/

namespace Program

theorem ofTokens_eq_ok {tokens : List Token} {program : Program} :
    ofTokens tokens = .ok program ↔ Grammar.program tokens = .ok (program, []) := by
  unfold ofTokens
  split <;> simp_all

/-- Tokens among which the text ends are a program if and only if they spell it. -/
theorem ofTokens_iff_spells {tokens : List Token} {program : Program}
    (hc : Grammar.Closed tokens) :
    ofTokens tokens = .ok program ↔ Grammar.SpellsProgram tokens program := by
  rw [ofTokens_eq_ok]
  refine ⟨Grammar.program_spelled hc, fun h => ?_⟩
  rw [← List.append_nil tokens]
  exact Grammar.program_complete h []

theorem ofText_eq_ok {text : String} {program : Program} :
    ofText text = .ok program ↔ ofTokens (Token.ofText text) = .ok program := by
  unfold ofText
  split <;> simp_all

end Program
end RecordQuery
