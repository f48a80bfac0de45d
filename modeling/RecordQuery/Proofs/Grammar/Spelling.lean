/-
Which tokens spell which trees.

The grammar of the language as relations between token lists and the trees they
stand for, without an order in which tokens are looked at.  An optional part may
be left out, so the tokens of a tree can be the beginning of the tokens of a
larger one.  `spells xs v more` therefore also says which kinds of token, coming
next, would belong to the same item: the tokens stand for the tree where they
are followed by something else (`Apart`).

Precedence and grouping are those of `SpellsCondition`: the left operand of `&`
and `|` may be a chain of the same operator and the right one may not.
-/
import RecordQuery.Program.Grammar

namespace RecordQuery
namespace Grammar

/-- The tokens of a tree, the tree, and the kinds that would continue it. -/
abbrev Spelling (α : Type) := List Token → α → List Token.Kind → Prop

/-- Tokens that do not begin with one of the given kinds. -/
def Apart (more : List Token.Kind) (ts : List Token) : Prop :=
  ∀ t ∈ ts.head?, t.kind ∉ more

/-- What continues one part followed by another: an omitted second part lets the
first one go on. -/
def following (first second : List Token.Kind) (ys : List Token) : List Token.Kind :=
  if ys = [] then first ++ second else second

@[simp] theorem apart_nil (more : List Token.Kind) : Apart more [] := by
  simp [Apart]

@[simp] theorem apart_cons {more : List Token.Kind} {t : Token} {ts : List Token} :
    Apart more (t :: ts) ↔ t.kind ∉ more := by
  simp [Apart]

@[simp] theorem apart_of_no_kinds (ts : List Token) : Apart [] ts := by
  simp [Apart]

theorem apart_append_kinds {first second : List Token.Kind} {ts : List Token} :
    Apart (first ++ second) ts ↔ Apart first ts ∧ Apart second ts := by
  cases ts <;> simp

theorem Apart.of_append {more : List Token.Kind} {xs ys : List Token}
    (h : Apart more (xs ++ ys)) : Apart more xs := by
  cases xs with
  | nil => exact apart_nil more
  | cons x xs => simpa using h

/-- What follows two parts in a row must continue neither. -/
theorem apart_following {first second : List Token.Kind} {ys rest : List Token}
    (h : Apart first ys) :
    Apart (following first second ys) rest ↔ Apart first (ys ++ rest) ∧ Apart second rest := by
  cases ys with
  | nil => simp [following, apart_append_kinds]
  | cons y ys => simpa [following] using fun _ => h

theorem Apart.following {first second : List Token.Kind} {ys rest : List Token}
    (h₁ : Apart first (ys ++ rest)) (h₂ : Apart second rest) :
    Apart (following first second ys) rest :=
  (apart_following h₁.of_append).mpr ⟨h₁, h₂⟩

/-! ## Names and paths -/

inductive SpellsOthers : List Token → List String → Prop
  | close {b : Token} : b.kind = .rightBracket → SpellsOthers [b] []
  | name {c n : Token} {xs : List Token} {names : List String} :
      c.kind = .comma → n.kind = .identifier → SpellsOthers xs names →
      SpellsOthers (c :: n :: xs) (n.lexeme :: names)

/-- Names after an opening bracket, up to the closing one. -/
inductive SpellsNames : List Token → Names → Prop
  | list {n : Token} {xs : List Token} {names : List String} :
      n.kind = .identifier → SpellsOthers xs names → SpellsNames (n :: xs) ⟨n.lexeme, names⟩

inductive SpellsSegment : List Token → Names × Bool → Prop
  | name {n : Token} : n.kind = .identifier → SpellsSegment [n] (⟨n.lexeme, []⟩, false)
  | list {b : Token} {xs : List Token} {names : Names} :
      b.kind = .leftBracket → SpellsNames xs names → SpellsSegment (b :: xs) (names, true)

/-- Segments after one that stands in brackets or not. -/
inductive SpellsSegments : Bool → List Token → List Names × Bool → Prop
  | none {bracketed : Bool} : SpellsSegments bracketed [] ([], bracketed)
  | dotted {bracketed next tail : Bool} {d : Token} {xs ys : List Token} {names : Names}
      {others : List Names} :
      d.kind = .dot → SpellsSegment xs (names, next) → SpellsSegments next ys (others, tail) →
      SpellsSegments bracketed (d :: (xs ++ ys)) (names :: others, tail)

inductive SpellsPath : Spelling UsePath
  | dotted {xs ys : List Token} {first : Names} {others : List Names} {bracketed tail : Bool} :
      SpellsSegment xs (first, bracketed) → SpellsSegments bracketed ys (others, tail) →
      SpellsPath (xs ++ ys) (pathOf first others tail) [.dot]

/-! ## Conditions -/

/-- How tightly a condition binds, from the loosest form to the tightest. -/
inductive Tier
  | disjunction
  | conjunction
  | negation
  | primary

inductive SpellsCondition : Tier → List Token → Condition → Prop
  | compare {f r o : Token} {relation : Comparator} {value : Operand} :
      f.kind = .identifier → r.kind = .comparator relation → operand o = .ok value →
      SpellsCondition .primary [f, r, o] (.compare f.lexeme relation value)
  | paren {l r : Token} {xs : List Token} {c : Condition} :
      l.kind = .leftParen → SpellsCondition .disjunction xs c → r.kind = .rightParen →
      SpellsCondition .primary (l :: (xs ++ [r])) c
  | primary {xs : List Token} {c : Condition} :
      SpellsCondition .primary xs c → SpellsCondition .negation xs c
  | not {n : Token} {xs : List Token} {c : Condition} :
      n.kind = .not → SpellsCondition .negation xs c →
      SpellsCondition .negation (n :: xs) (.not c)
  | negation {xs : List Token} {c : Condition} :
      SpellsCondition .negation xs c → SpellsCondition .conjunction xs c
  | and {m : Token} {xs ys : List Token} {left right : Condition} :
      SpellsCondition .conjunction xs left → m.kind = .ampersand →
      SpellsCondition .negation ys right →
      SpellsCondition .conjunction (xs ++ m :: ys) (.and left right)
  | conjunction {xs : List Token} {c : Condition} :
      SpellsCondition .conjunction xs c → SpellsCondition .disjunction xs c
  | or {m : Token} {xs ys : List Token} {left right : Condition} :
      SpellsCondition .disjunction xs left → m.kind = .pipe →
      SpellsCondition .conjunction ys right →
      SpellsCondition .disjunction (xs ++ m :: ys) (.or left right)

/-! ## Operations -/

/-- A token of the given kind, or nothing; whether it is there. -/
inductive SpellsMark (kind : Token.Kind) : Spelling Bool
  | omitted : SpellsMark kind [] false [kind]
  | given {t : Token} : t.kind = kind → SpellsMark kind [t] true []

inductive SpellsFields : Spelling Fields
  | omitted : SpellsFields [] .all [.asterisk, .leftBracket, .identifier]
  | all {a : Token} : a.kind = .asterisk → SpellsFields [a] .all []
  | name {n : Token} : n.kind = .identifier → SpellsFields [n] (.named ⟨n.lexeme, []⟩) []
  | list {b : Token} {xs : List Token} {names : Names} :
      b.kind = .leftBracket → SpellsNames xs names → SpellsFields (b :: xs) (.named names) []

inductive SpellsWhere : Spelling (Option Condition)
  | omitted : SpellsWhere [] none [.where_]
  | given {w l r : Token} {xs : List Token} {c : Condition} :
      w.kind = .where_ → l.kind = .leftParen → SpellsCondition .disjunction xs c →
      r.kind = .rightParen → SpellsWhere (w :: l :: (xs ++ [r])) (some c) []

/-- A selection after its keyword. -/
inductive SpellsSelect : Spelling Select
  | clauses {xs ys zs : List Token} {each : Bool} {fields : Fields} {condition : Option Condition}
      {o₁ o₂ o₃ : List Token.Kind} :
      SpellsMark .each xs each o₁ → SpellsFields ys fields o₂ → SpellsWhere zs condition o₃ →
      Apart o₁ (ys ++ zs) → Apart o₂ zs →
      SpellsSelect (xs ++ (ys ++ zs)) ⟨fields, condition, each⟩
        (following o₁ (following o₂ o₃ zs) (ys ++ zs))

/-- A selection with or without its keyword. -/
inductive SpellsInner : Spelling Select
  | marked {xs ys : List Token} {keyword : Bool} {selection : Select} {o₁ o₂ : List Token.Kind} :
      SpellsMark .select xs keyword o₁ → SpellsSelect ys selection o₂ → Apart o₁ ys →
      SpellsInner (xs ++ ys) selection (following o₁ o₂ ys)

/-- A selection with its keyword, or nothing, which stands for everything. -/
inductive SpellsWhole : Spelling Select
  | omitted : SpellsWhole [] .everything [.select]
  | given {s : Token} {xs : List Token} {selection : Select} {more : List Token.Kind} :
      s.kind = .select → SpellsSelect xs selection more → SpellsWhole (s :: xs) selection more

/-- The two selections of a percentage. -/
inductive SpellsPercentage : Spelling Operation
  | operands {xs ys zs : List Token} {part whole : Select} {comma : Bool}
      {o₁ o₂ o₃ : List Token.Kind} :
      SpellsInner xs part o₁ → SpellsMark .comma ys comma o₂ → SpellsWhole zs whole o₃ →
      Apart o₁ (ys ++ zs) → Apart o₂ zs →
      SpellsPercentage (xs ++ (ys ++ zs)) (.percentOf part whole)
        (following o₁ (following o₂ o₃ zs) (ys ++ zs))

/-- An operation after its keyword. -/
inductive SpellsOperation : Token.Kind → Spelling Operation
  | select {xs : List Token} {selection : Select} {more : List Token.Kind} :
      SpellsSelect xs selection more → SpellsOperation .select xs (.select selection) more
  | count {xs : List Token} {selection : Select} {more : List Token.Kind} :
      SpellsInner xs selection more → SpellsOperation .count xs (.count selection) more
  | percentOf {xs : List Token} {found : Operation} {more : List Token.Kind} :
      SpellsPercentage xs found more → SpellsOperation .percentOf xs found more
  | aggregate {function : Aggregate} :
      SpellsOperation (.aggregate function) [] (.aggregate function) []
  | arithmetic {operator : Arithmetic} {l r : Token} {left right : String} :
      l.kind = .reference → r.kind = .reference → variableName l = .ok left →
      variableName r = .ok right →
      SpellsOperation (.arithmetic operator) [l, r] (.arithmetic operator left right) []

/-- A statement after its first token. -/
inductive SpellsStatement (t : Token) : Spelling Statement
  | plain {xs : List Token} {found : Operation} {more : List Token.Kind} :
      SpellsOperation t.kind xs found more → SpellsStatement t xs ⟨none, found⟩ more
  | assigned {k : Token} {xs : List Token} {name : String} {found : Operation}
      {more : List Token.Kind} :
      t.kind = .reference → variableName t = .ok name → SpellsOperation k.kind xs found more →
      SpellsStatement t (k :: xs) ⟨some name, found⟩ more

/-! ## Blocks and programs -/

/-- Statements before a token that ends them.  Tokens between them that begin no
statement belong to none. -/
inductive SpellsStatements (r : Token) : List Token → List Statement → Prop
  | none : SpellsStatements r [] []
  | passed {t : Token} {xs : List Token} {found : List Statement} :
      endsBlock t.kind = false → statement t = none → SpellsStatements r xs found →
      SpellsStatements r (t :: xs) found
  | read {t : Token} {xs ys : List Token} {first : Statement} {others : List Statement}
      {more : List Token.Kind} :
      SpellsStatement t xs first more → Apart more (ys ++ [r]) → SpellsStatements r ys others →
      SpellsStatements r (t :: (xs ++ ys)) (first :: others)

/-- A block after its keyword. -/
inductive SpellsBlock : List Token → Block → Prop
  | named {n r : Token} {xs : List Token} {found : List Statement} :
      n.kind = .identifier → SpellsStatements r xs found → r.kind = .return_ →
      SpellsBlock (n :: (xs ++ [r])) ⟨n.lexeme, found⟩

/-- Declarations, with the end of the text.  Tokens between them that begin no
declaration belong to none. -/
inductive SpellsProgram : List Token → Program → Prop
  | ends {e : Token} : e.kind = .endOfText → SpellsProgram [e] .empty
  | passed {t : Token} {xs : List Token} {found : Program} :
      t.kind ≠ .endOfText → t.kind ≠ .use → t.kind ≠ .query → SpellsProgram xs found →
      SpellsProgram (t :: xs) found
  | path {t : Token} {xs ys : List Token} {first : UsePath} {others : Program}
      {more : List Token.Kind} :
      t.kind = .use → SpellsPath xs first more → Apart more ys → SpellsProgram ys others →
      SpellsProgram (t :: (xs ++ ys)) { others with paths := first :: others.paths }
  | block {t : Token} {xs ys : List Token} {first : Block} {others : Program} :
      t.kind = .query → SpellsBlock xs first → SpellsProgram ys others →
      SpellsProgram (t :: (xs ++ ys)) { others with blocks := first :: others.blocks }

/-! ## What trees are made of -/

/-- The kinds of which paths and the clauses of a selection are made. -/
def isPart : Token.Kind → Bool
  | .each | .where_ | .comparator _ | .leftParen | .rightParen | .leftBracket | .rightBracket
  | .comma | .dot | .asterisk | .ampersand | .pipe | .not | .string | .number | .boolean | .null
  | .reference | .identifier => true
  | _ => false

/-- Tokens all of which can be parts. -/
def Parts (xs : List Token) : Prop :=
  ∀ x ∈ xs, isPart x.kind

@[simp] theorem parts_nil : Parts [] := by
  simp [Parts]

@[simp] theorem parts_cons {x : Token} {xs : List Token} :
    Parts (x :: xs) ↔ isPart x.kind ∧ Parts xs := by
  simp [Parts]

@[simp] theorem parts_append {xs ys : List Token} :
    Parts (xs ++ ys) ↔ Parts xs ∧ Parts ys := by
  simp [Parts, or_imp, forall_and]

theorem operand_kind {t : Token} {value : Operand} (h : operand t = .ok value) :
    t.kind = .string ∨ t.kind = .number ∨ t.kind = .boolean ∨ t.kind = .null ∨
      t.kind = .reference := by
  unfold operand at h
  split at h <;> simp_all

theorem SpellsOthers.parts {xs : List Token} {names : List String} (h : SpellsOthers xs names) :
    Parts xs := by
  induction h with
  | close hb => simp [hb, isPart]
  | name hc hn _ ih => simp [hc, hn, isPart, ih]

theorem SpellsNames.parts {xs : List Token} {names : Names} (h : SpellsNames xs names) :
    Parts xs := by
  cases h with
  | list hn hx => simp [hn, isPart, hx.parts]

theorem SpellsSegment.parts {xs : List Token} {found : Names × Bool}
    (h : SpellsSegment xs found) : Parts xs := by
  cases h with
  | name hn => simp [hn, isPart]
  | list hb hx => simp [hb, isPart, hx.parts]

theorem SpellsSegments.parts {bracketed : Bool} {xs : List Token} {found : List Names × Bool}
    (h : SpellsSegments bracketed xs found) : Parts xs := by
  induction h with
  | none => simp
  | dotted hd hx _ ih => simp [hd, isPart, hx.parts, ih]

theorem SpellsPath.parts {xs : List Token} {path : UsePath} {more : List Token.Kind}
    (h : SpellsPath xs path more) : Parts xs := by
  cases h with
  | dotted hx hy => simp [hx.parts, hy.parts]

theorem SpellsCondition.parts {tier : Tier} {xs : List Token} {c : Condition}
    (h : SpellsCondition tier xs c) : Parts xs := by
  induction h with
  | compare hf hr ho => rcases operand_kind ho with h | h | h | h | h <;> simp [hf, hr, h, isPart]
  | paren hl _ hr ih => simp [hl, hr, isPart, ih]
  | not hn _ ih => simp [hn, isPart, ih]
  | and _ hm _ ihl ihr => simp [hm, isPart, ihl, ihr]
  | or _ hm _ ihl ihr => simp [hm, isPart, ihl, ihr]
  | primary _ ih | negation _ ih | conjunction _ ih => exact ih

theorem SpellsSelect.parts {xs : List Token} {selection : Select} {more : List Token.Kind}
    (h : SpellsSelect xs selection more) : Parts xs := by
  cases h with
  | @clauses xs ys zs each fields condition o₁ o₂ o₃ hx hy hz =>
    have h₁ : Parts xs := by
      cases hx with
      | omitted => simp
      | given ht => simp [ht, isPart]
    have h₂ : Parts ys := by
      cases hy with
      | omitted => simp
      | all ht => simp [ht, isPart]
      | name ht => simp [ht, isPart]
      | list hb hn => simp [hb, isPart, hn.parts]
    have h₃ : Parts zs := by
      cases hz with
      | omitted => simp
      | given hw hl hc hr => simp [hw, hl, hr, isPart, hc.parts]
    simp [h₁, h₂, h₃]

/-- Tokens all of which can stand in an operation after its keyword: parts, and the keyword
of a selection. -/
def Clauses (xs : List Token) : Prop :=
  ∀ x ∈ xs, isPart x.kind ∨ x.kind = .select

@[simp] theorem clauses_nil : Clauses [] := by
  simp [Clauses]

@[simp] theorem clauses_cons {x : Token} {xs : List Token} :
    Clauses (x :: xs) ↔ (isPart x.kind ∨ x.kind = .select) ∧ Clauses xs := by
  simp [Clauses]

@[simp] theorem clauses_append {xs ys : List Token} :
    Clauses (xs ++ ys) ↔ Clauses xs ∧ Clauses ys := by
  simp [Clauses, or_imp, forall_and]

theorem Parts.clauses {xs : List Token} (h : Parts xs) : Clauses xs :=
  fun x hx => .inl (h x hx)

theorem SpellsMark.clauses {kind : Token.Kind} {xs : List Token} {given : Bool}
    {more : List Token.Kind} (h : SpellsMark kind xs given more)
    (hk : isPart kind ∨ kind = .select) : Clauses xs := by
  cases h with
  | omitted => simp
  | given ht => simp [ht, hk]

theorem SpellsInner.clauses {xs : List Token} {selection : Select} {more : List Token.Kind}
    (h : SpellsInner xs selection more) : Clauses xs := by
  cases h with
  | marked hx hy => exact clauses_append.mpr ⟨hx.clauses (.inr rfl), hy.parts.clauses⟩

theorem SpellsWhole.clauses {xs : List Token} {selection : Select} {more : List Token.Kind}
    (h : SpellsWhole xs selection more) : Clauses xs := by
  cases h with
  | omitted => simp
  | given hs hx => exact clauses_cons.mpr ⟨.inr hs, hx.parts.clauses⟩

theorem SpellsOperation.clauses {kind : Token.Kind} {xs : List Token} {found : Operation}
    {more : List Token.Kind} (h : SpellsOperation kind xs found more) : Clauses xs := by
  cases h with
  | select hx => exact hx.parts.clauses
  | count hx => exact hx.clauses
  | percentOf hx =>
    cases hx with
    | operands hx hy hz => simp [hx.clauses, hy.clauses (.inl rfl), hz.clauses]
  | aggregate => simp
  | arithmetic hl hr => simp [hl, hr, isPart]

/-- Tokens all of which can stand in a statement after its first: parts, and the keywords
of operations. -/
def Content (xs : List Token) : Prop :=
  ∀ x ∈ xs, isPart x.kind ∨ (operation x.kind).isSome

theorem content_cons {x : Token} {xs : List Token} :
    Content (x :: xs) ↔ (isPart x.kind ∨ (operation x.kind).isSome) ∧ Content xs := by
  simp [Content]

theorem Clauses.content {xs : List Token} (h : Clauses xs) : Content xs :=
  fun x hx => (h x hx).imp_right fun hk => by rw [hk]; rfl

theorem SpellsOperation.isSome {kind : Token.Kind} {xs : List Token} {found : Operation}
    {more : List Token.Kind} (h : SpellsOperation kind xs found more) :
    (operation kind).isSome := by
  cases h with
  | select | count | percentOf | aggregate | arithmetic => rfl

theorem SpellsStatement.content {t : Token} {xs : List Token} {found : Statement}
    {more : List Token.Kind} (h : SpellsStatement t xs found more) : Content xs := by
  cases h with
  | plain hx => exact hx.clauses.content
  | assigned _ _ hx => exact content_cons.mpr ⟨.inr hx.isSome, hx.clauses.content⟩

/-! No token of an item ends the statements of a block. -/

theorem endsBlock_of_isPart {kind : Token.Kind} (h : isPart kind) : endsBlock kind = false := by
  cases kind <;> simp [isPart] at h <;> rfl

theorem endsBlock_of_operation {kind : Token.Kind} (h : (operation kind).isSome) :
    endsBlock kind = false := by
  cases kind <;> simp [operation] at h <;> rfl

theorem Content.within {xs : List Token} (h : Content xs) :
    ∀ x ∈ xs, endsBlock x.kind = false :=
  fun x hx => (h x hx).elim endsBlock_of_isPart endsBlock_of_operation

/-! ## What continues a tree

Only these kinds continue a tree, and a token of another kind ends it. -/

def continuing : List Token.Kind :=
  [.each, .asterisk, .leftBracket, .identifier, .where_, .select, .comma, .dot]

theorem following_subset {first second kinds : List Token.Kind} {ys : List Token}
    (h₁ : first ⊆ kinds) (h₂ : second ⊆ kinds) : following first second ys ⊆ kinds := by
  unfold following
  split
  · exact List.append_subset.mpr ⟨h₁, h₂⟩
  · exact h₂

theorem SpellsMark.more_subset {kind : Token.Kind} {xs : List Token} {given : Bool}
    {more : List Token.Kind} (h : SpellsMark kind xs given more) (hk : kind ∈ continuing) :
    more ⊆ continuing := by
  cases h with
  | omitted => simpa using hk
  | given => exact List.nil_subset _

theorem SpellsSelect.more_subset {xs : List Token} {selection : Select}
    {more : List Token.Kind} (h : SpellsSelect xs selection more) : more ⊆ continuing := by
  cases h with
  | clauses hx hy hz =>
    refine following_subset (hx.more_subset (by decide)) (following_subset ?_ ?_)
    · cases hy <;> decide
    · cases hz <;> decide

theorem SpellsInner.more_subset {xs : List Token} {selection : Select}
    {more : List Token.Kind} (h : SpellsInner xs selection more) : more ⊆ continuing := by
  cases h with
  | marked hx hy => exact following_subset (hx.more_subset (by decide)) hy.more_subset

theorem SpellsWhole.more_subset {xs : List Token} {selection : Select}
    {more : List Token.Kind} (h : SpellsWhole xs selection more) : more ⊆ continuing := by
  cases h with
  | omitted => decide
  | given _ hx => exact hx.more_subset

theorem SpellsOperation.more_subset {kind : Token.Kind} {xs : List Token} {found : Operation}
    {more : List Token.Kind} (h : SpellsOperation kind xs found more) : more ⊆ continuing := by
  cases h with
  | select hx => exact hx.more_subset
  | count hx => exact hx.more_subset
  | percentOf hx =>
    cases hx with
    | operands hx hy hz =>
      exact following_subset hx.more_subset
        (following_subset (hy.more_subset (by decide)) hz.more_subset)
  | aggregate => exact List.nil_subset _
  | arithmetic => exact List.nil_subset _

theorem SpellsStatement.more_subset {t : Token} {xs : List Token} {found : Statement}
    {more : List Token.Kind} (h : SpellsStatement t xs found more) : more ⊆ continuing := by
  cases h with
  | plain hx => exact hx.more_subset
  | assigned _ _ hx => exact hx.more_subset

theorem SpellsPath.more_subset {xs : List Token} {path : UsePath} {more : List Token.Kind}
    (h : SpellsPath xs path more) : more ⊆ continuing := by
  cases h with
  | dotted => decide

theorem apart_of_not_continuing {more : List Token.Kind} {t : Token} {ts : List Token}
    (h : more ⊆ continuing) (ht : t.kind ∉ continuing) : Apart more (t :: ts) :=
  apart_cons.mpr fun hk => ht (h hk)

end Grammar
end RecordQuery
