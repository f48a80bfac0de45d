/-
Where declarations and aggregates stand among the tokens.

Tokens that begin nothing are passed over, between declarations and between statements,
and the parts of an item take every token that can belong to them.  Nothing is lost by
it.  Each `QUERY` begins a block of its own, which goes to the first `RETURN` after it;
each keyword of an aggregate in between is one operation of the block; and each `USE`
that is not in a block begins a path of its own (`Program.ofText_sections`).

A part of an item is never one of these keywords (`SpellsOperation.clauses`), so a keyword
stands where a statement or a declaration begins, or after the variable that takes the
value of an operation.
-/
import Mathlib.Data.List.Forall2
import RecordQuery.Proofs.Scanning

namespace RecordQuery

/-- The aggregate whose keyword a token is. -/
def Token.aggregate? (t : Token) : Option Aggregate :=
  match t.kind with
  | .aggregate function => some function
  | _ => none

def Operation.aggregate? : Operation → Option Aggregate
  | .aggregate function => some function
  | _ => none

/-- The aggregates that a block applies, in order. -/
def Block.aggregates (block : Block) : List Aggregate :=
  block.statements.filterMap fun statement => statement.operation.aggregate?

namespace Grammar

/-! ## Aggregates among the tokens of statements -/

theorem Clauses.no_aggregate {xs : List Token} (h : Clauses xs) :
    xs.filterMap Token.aggregate? = [] := by
  rw [List.filterMap_eq_nil_iff]
  intro x hx
  unfold Token.aggregate?
  split
  · next function hk =>
    have := h x hx
    simp [hk, isPart] at this
  · rfl

theorem SpellsOperation.aggregate? {t : Token} {xs : List Token} {found : Operation}
    {more : List Token.Kind} (h : SpellsOperation t.kind xs found more) :
    t.aggregate? = found.aggregate? := by
  unfold Token.aggregate?
  generalize t.kind = kind at h
  cases h with
  | percentOf hx => cases hx; rfl
  | select | count | aggregate | arithmetic => rfl

/-- A statement has the keyword of an aggregate among its tokens if it applies the
aggregate, and no other. -/
theorem SpellsStatement.aggregate? {t : Token} {xs : List Token} {found : Statement}
    {more : List Token.Kind} (h : SpellsStatement t xs found more) :
    (t :: xs).filterMap Token.aggregate? = found.operation.aggregate?.toList := by
  cases h with
  | plain hx =>
    rw [← hx.aggregate?, List.filterMap_cons, hx.clauses.no_aggregate]
    cases t.aggregate? <;> rfl
  | @assigned k xs name found more ht _ hx =>
    have hnone : t.aggregate? = none := by simp [Token.aggregate?, ht]
    rw [← hx.aggregate?, List.filterMap_cons_none hnone, List.filterMap_cons,
      hx.clauses.no_aggregate]
    cases k.aggregate? <;> rfl

theorem aggregate?_of_passed {t : Token} (h : statement t = none) : t.aggregate? = none := by
  unfold Token.aggregate?
  split
  · next function hk => simp [statement, hk, operation] at h
  · rfl

theorem SpellsStatements.aggregates {r : Token} {xs : List Token} {found : List Statement}
    (h : SpellsStatements r xs found) :
    xs.filterMap Token.aggregate? =
      found.filterMap fun statement => statement.operation.aggregate? := by
  induction h with
  | none => rfl
  | passed _ hs _ ih => rw [List.filterMap_cons_none (aggregate?_of_passed hs), ih]
  | @read t xs ys first others more hx _ _ ih =>
    rw [← List.cons_append, List.filterMap_append, hx.aggregate?, ih, List.filterMap_cons]
    cases first.operation.aggregate? <;> rfl

/-! ## Keywords of declarations -/

/-- What follows each `QUERY`. -/
def afterQueries : List Token → List (List Token)
  | [] => []
  | t :: ts => if t.kind = .query then ts :: afterQueries ts else afterQueries ts

/-- What follows each `USE` that is not between a `QUERY` and the first `RETURN` after
it.  The flag tells whether a `QUERY` has no `RETURN` yet. -/
def afterUses : Bool → List Token → List (List Token)
  | _, [] => []
  | within, t :: ts =>
    if t.kind = .query then afterUses true ts
    else if t.kind = .return_ then afterUses false ts
    else if t.kind = .use ∧ !within then ts :: afterUses within ts
    else afterUses within ts

theorem afterQueries_append {xs : List Token} (h : ∀ x ∈ xs, x.kind ≠ .query)
    (ys : List Token) : afterQueries (xs ++ ys) = afterQueries ys := by
  induction xs with
  | nil => rfl
  | cons x xs ih =>
    rw [List.cons_append, afterQueries, if_neg (h x List.mem_cons_self),
      ih fun y hy => h y (List.mem_cons_of_mem _ hy)]

theorem afterUses_append {within : Bool} {xs : List Token}
    (h : ∀ x ∈ xs, x.kind ≠ .query ∧ x.kind ≠ .return_ ∧ (x.kind = .use → within))
    (ys : List Token) : afterUses within (xs ++ ys) = afterUses within ys := by
  induction xs with
  | nil => rfl
  | cons x xs ih =>
    obtain ⟨hq, hr, hu⟩ := h x List.mem_cons_self
    have huse : ¬ (x.kind = .use ∧ !within) := fun ⟨hk, hw⟩ => by simp [hu hk] at hw
    rw [List.cons_append, afterUses, if_neg hq, if_neg hr, if_neg huse,
      ih fun y hy => h y (List.mem_cons_of_mem _ hy)]

/-- What a block is, going by the tokens after its keyword: it has the name that comes
first, it ends with the first `RETURN`, with no `QUERY` before it, and it applies the
aggregates whose keywords stand in between. -/
structure Spans (block : Block) (after : List Token) (name : Token) (body : List Token)
    (ending : Token) (rest : List Token) : Prop where
  tokens : after = name :: (body ++ ending :: rest)
  named : name.kind = .identifier ∧ name.lexeme = block.name
  within : ∀ t ∈ body, t.kind ≠ .return_ ∧ t.kind ≠ .query
  ended : ending.kind = .return_
  read : Grammar.block after = .ok (block, rest)
  aggregates : body.filterMap Token.aggregate? = block.aggregates

/-- That the declarations of a program are those that its tokens begin, in order and one
for each: a block for a `QUERY`, a path for a `USE` outside of the blocks. -/
structure Sections (tokens : List Token) (program : Program) : Prop where
  blocks : List.Forall₂ (fun block after => ∃ name body ending rest,
    Spans block after name body ending rest) program.blocks (afterQueries tokens)
  paths : List.Forall₂ (fun path after => ∃ rest, Grammar.path after = .ok (path, rest))
    program.paths (afterUses false tokens)

section
variable {block : Block} {after body rest : List Token} {name ending : Token}

/-- A block has no other `QUERY` in it. -/
theorem Spans.afterQueries_eq (h : Spans block after name body ending rest) :
    afterQueries after = afterQueries rest := by
  have hkinds : ∀ t ∈ name :: body, t.kind ≠ .query :=
    List.forall_mem_cons.mpr ⟨by simp [h.named.1], fun t ht => (h.within t ht).2⟩
  rw [h.tokens, ← List.cons_append, afterQueries_append hkinds, afterQueries,
    if_neg (by simp [h.ended])]

/-- No path begins in a block. -/
theorem Spans.afterUses_eq (h : Spans block after name body ending rest) :
    afterUses true after = afterUses false rest := by
  have hkinds : ∀ t ∈ name :: body,
      t.kind ≠ .query ∧ t.kind ≠ .return_ ∧ (t.kind = .use → true) := by
    refine List.forall_mem_cons.mpr ⟨by simp [h.named.1], fun t ht => ?_⟩
    exact ⟨(h.within t ht).2, (h.within t ht).1, fun _ => rfl⟩
  rw [h.tokens, ← List.cons_append, afterUses_append hkinds, afterUses,
    if_neg (by simp [h.ended]), if_pos h.ended]

end

theorem SpellsBlock.spans {xs : List Token} {found : Block} (h : SpellsBlock xs found)
    (rest : List Token) :
    ∃ name body ending, Spans found (xs ++ rest) name body ending rest := by
  have hread := block_complete h rest
  cases h with
  | @named n r xs found hn hx hr =>
    refine ⟨n, xs, r, by simp, ⟨hn, rfl⟩, fun t ht => ?_, hr, hread, hx.aggregates⟩
    have := hx.within t ht
    constructor <;> intro hk <;> simp [hk, endsBlock] at this

section
variable {xs : List Token} {path : UsePath} {more : List Token.Kind}

theorem SpellsPath.no_keyword (h : SpellsPath xs path more) :
    ∀ x ∈ xs, x.kind ≠ .query ∧ x.kind ≠ .return_ ∧ x.kind ≠ .use := by
  intro x hx
  have := h.parts x hx
  refine ⟨?_, ?_, ?_⟩ <;> intro hk <;> simp [hk, isPart] at this

theorem SpellsPath.afterQueries_eq (h : SpellsPath xs path more) (ys : List Token) :
    afterQueries (xs ++ ys) = afterQueries ys :=
  afterQueries_append (fun x hx => (h.no_keyword x hx).1) ys

theorem SpellsPath.afterUses_eq (h : SpellsPath xs path more) (ys : List Token) :
    afterUses false (xs ++ ys) = afterUses false ys := by
  refine afterUses_append (fun x hx => ?_) ys
  obtain ⟨hq, hr, hu⟩ := h.no_keyword x hx
  exact ⟨hq, hr, fun hk => absurd hk hu⟩

end

/-- What a program is read from begins its declarations: by induction over the
declarations and the tokens that are passed over between them. -/
theorem SpellsProgram.sections {xs : List Token} {found : Program}
    (h : SpellsProgram xs found) : Sections xs found := by
  induction h with
  | @ends e he =>
    refine ⟨?_, ?_⟩
    · simp [Program.empty, afterQueries, he]
    · simp [Program.empty, afterUses, he]
  | @passed t xs found _ hu hq _ ih =>
    refine ⟨?_, ?_⟩
    · rw [afterQueries, if_neg hq]
      exact ih.blocks
    · rw [afterUses, if_neg hq]
      simpa [hu] using ih.paths
  | @path t xs ys first others more ht hx ha hy ih =>
    have hread : Grammar.path (xs ++ ys) = .ok (first, ys) :=
      path_complete hx hy.ended.closed.ne_nil ha
    refine ⟨?_, ?_⟩
    · rw [afterQueries, if_neg (by simp [ht]), hx.afterQueries_eq]
      exact ih.blocks
    · rw [afterUses, if_neg (by simp [ht]), if_neg (by simp [ht]), if_pos (by simp [ht]),
        hx.afterUses_eq]
      exact .cons ⟨ys, hread⟩ ih.paths
  | @block t xs ys first others ht hx _ ih =>
    obtain ⟨name, body, ending, hspan⟩ := hx.spans ys
    refine ⟨?_, ?_⟩
    · rw [afterQueries, if_pos ht, hspan.afterQueries_eq]
      exact .cons ⟨name, body, ending, ys, hspan⟩ ih.blocks
    · rw [afterUses, if_pos ht, hspan.afterUses_eq]
      exact ih.paths

end Grammar

namespace Program

/-- In a text that is a program, each `QUERY` is followed by a name and, before another
`QUERY`, by a `RETURN`.  The blocks of the program are these stretches of tokens, and
each keyword of an aggregate there is one operation of the block.  The paths of the
program are those at the tokens `USE` outside of these stretches. -/
theorem ofText_sections {text : String} {program : Program}
    (h : ofText text = .ok program) : Grammar.Sections (Token.ofText text) program :=
  (ofText_iff_spells.mp h).sections

/-- A path between words that begin nothing, and a block with a `USE` and other tokens
around its two aggregates. -/
def scattered : String :=
  "a USE b ] QUERY q USE c $t SUM , EACH MAX RETURN"

def gathered : Program :=
  ⟨[⟨⟨"b", []⟩, [], none⟩], [⟨"q", [⟨some "t", .aggregate .sum⟩, ⟨none, .aggregate .max⟩]⟩]⟩

theorem ofText_sections_scattered :
    ofText scattered = .ok gathered ∧ Grammar.Sections (Token.ofText scattered) gathered := by
  have htokens : Token.ofText scattered = [⟨.identifier, "a", 1, 1⟩, ⟨.use, "USE", 1, 3⟩,
      ⟨.identifier, "b", 1, 7⟩, ⟨.rightBracket, "]", 1, 9⟩, ⟨.query, "QUERY", 1, 11⟩,
      ⟨.identifier, "q", 1, 17⟩, ⟨.use, "USE", 1, 19⟩, ⟨.identifier, "c", 1, 23⟩,
      ⟨.reference, "$t", 1, 25⟩, ⟨.aggregate .sum, "SUM", 1, 28⟩, ⟨.comma, ",", 1, 32⟩,
      ⟨.each, "EACH", 1, 34⟩, ⟨.aggregate .max, "MAX", 1, 39⟩, ⟨.return_, "RETURN", 1, 43⟩,
      ⟨.endOfText, "", 1, 49⟩] := by
    decide +kernel
  have hpath : ∀ ts, Grammar.path (⟨.identifier, "b", 1, 7⟩ :: ⟨.rightBracket, "]", 1, 9⟩ :: ts) =
      .ok (⟨⟨"b", []⟩, [], none⟩, ⟨.rightBracket, "]", 1, 9⟩ :: ts) := fun ts =>
    @Grammar.path_complete [⟨.identifier, "b", 1, 7⟩] _ _ _ (.dotted (.name rfl) .none)
      (by simp) (by simp)
  have hblock : ∀ ts, Grammar.block (⟨.identifier, "q", 1, 17⟩ :: ⟨.use, "USE", 1, 19⟩ ::
      ⟨.identifier, "c", 1, 23⟩ :: ⟨.reference, "$t", 1, 25⟩ :: ⟨.aggregate .sum, "SUM", 1, 28⟩ ::
      ⟨.comma, ",", 1, 32⟩ :: ⟨.each, "EACH", 1, 34⟩ :: ⟨.aggregate .max, "MAX", 1, 39⟩ ::
      ⟨.return_, "RETURN", 1, 43⟩ :: ts) =
      .ok (⟨"q", [⟨some "t", .aggregate .sum⟩, ⟨none, .aggregate .max⟩]⟩, ts) := by
    intro ts
    rw [Grammar.block_named rfl, Grammar.statements_pass rfl rfl, Grammar.statements_pass rfl rfl,
      Grammar.statements_read rfl rfl, Grammar.statements_pass rfl rfl,
      Grammar.statements_pass rfl rfl, Grammar.statements_read rfl rfl, Grammar.statements_end rfl]
    rfl
  have hread : ofText scattered = .ok gathered := by
    rw [ofText_eq_ok, ofTokens_eq_ok, htokens,
      Grammar.program_pass (by simp) (by simp) (by simp), Grammar.program_use rfl (hpath _),
      Grammar.program_pass (by simp) (by simp) (by simp), Grammar.program_query rfl (hblock _),
      Grammar.program_end rfl]
    rfl
  exact ⟨hread, ofText_sections hread⟩

end Program
end RecordQuery
