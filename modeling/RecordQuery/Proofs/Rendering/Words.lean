/-
Programs written out as texts.

A program is written as a sequence of pieces with one space between them.
Selections are always written with their keyword and with their fields, and a
percentage with both of its selections.  A condition stands in parentheses where
it binds more loosely than its place requires: the operand of `!` and the right
operand of `&` must be negations or comparisons, the left operand of `&` and the
right operand of `|` must not be disjunctions, and the left operand of `|` may be
anything.

Not every program has a text: `WellFormed` says which names and literals can be
written, and that a path without fields does not end in a choice of names, which
would be read as its fields.
-/
import RecordQuery.Program
import RecordQuery.Proofs.Scanning

namespace RecordQuery

/-! ## Programs that can be written -/

/-- Names are words that are no keywords and no literals. -/
def IsName (name : String) : Prop :=
  ∃ c cs, name.toList = c :: cs ∧ Token.isNameStart c ∧ (∀ d ∈ cs, Token.isNameChar d) ∧
    Token.Kind.ofWord name = .identifier

def IsVariable (name : String) : Prop :=
  name.toList ≠ [] ∧ ∀ c ∈ name.toList, Token.isNameChar c

def Names.WellFormed (names : Names) : Prop :=
  ∀ name ∈ names.toList, IsName name

/-- Literals that have a spelling.  A quoted text cannot contain its quote, so a
text with both quotes has none. -/
def Value.IsLiteral : Value → Prop
  | null | bool _ => True
  | number (.int n) => 0 ≤ n ∧ n.natAbs < Value.firstUnwritable
  | number (.double _) => False
  | text chars => '"' ∉ chars.toList ∨ '\'' ∉ chars.toList
  | list _ | record _ => False

def Operand.WellFormed : Operand → Prop
  | literal value => value.IsLiteral
  | reference name => IsVariable name

def Condition.WellFormed : Condition → Prop
  | compare field _ operand => IsName field ∧ operand.WellFormed
  | and left right | or left right => left.WellFormed ∧ right.WellFormed
  | not inner => inner.WellFormed

structure Select.WellFormed (selection : Select) : Prop where
  fields : ∀ name ∈ selection.fields.names, IsName name
  condition : ∀ condition ∈ selection.condition, condition.WellFormed

def Operation.WellFormed : Operation → Prop
  | select selection | count selection => selection.WellFormed
  | aggregate _ => True
  | arithmetic _ left right => IsVariable left ∧ IsVariable right
  | percentOf part whole => part.WellFormed ∧ whole.WellFormed

structure Statement.WellFormed (statement : Statement) : Prop where
  target : ∀ name ∈ statement.target, IsVariable name
  operation : statement.operation.WellFormed

structure Block.WellFormed (block : Block) : Prop where
  name : IsName block.name
  statements : ∀ statement ∈ block.statements, statement.WellFormed

structure UsePath.WellFormed (path : UsePath) : Prop where
  segments : ∀ segment ∈ path.segments, segment.WellFormed
  fields : ∀ fields ∈ path.fields, fields.WellFormed
  ends : path.fields = none → ∀ segment ∈ path.others.getLast?, segment.others = []

structure Program.WellFormed (program : Program) : Prop where
  paths : ∀ path ∈ program.paths, path.WellFormed
  blocks : ∀ block ∈ program.blocks, block.WellFormed

/-! ## Pieces -/

namespace Token

/-- How a kind with one spelling is written. -/
def Kind.written : Kind → String
  | comparator relation => relation.symbol
  | leftParen => "("
  | rightParen => ")"
  | leftBracket => "["
  | rightBracket => "]"
  | comma => ","
  | dot => "."
  | asterisk => "*"
  | ampersand => "&"
  | pipe => "|"
  | not => "!"
  | null => "null"
  | kind => kind.label

namespace Piece

def mark (kind : Kind) : Piece := ⟨kind, kind.written.toList⟩

def name (name : String) : Piece := ⟨.identifier, name.toList⟩

def reference (name : String) : Piece := ⟨.reference, '$' :: name.toList⟩

def truth (truth : Bool) : Piece := ⟨.boolean, if truth then "true".toList else "false".toList⟩

def number (n : Nat) : Piece := ⟨.number, Nat.toDigits 10 n⟩

/-- The quote around a text is the double one unless the text contains it. -/
def quoteFor (chars : List Char) : Char :=
  if '"' ∈ chars then '\'' else '"'

def quoted (chars : String) : Piece :=
  ⟨.string, quoteFor chars.toList :: (chars.toList ++ [quoteFor chars.toList])⟩

def grouped (pieces : List Piece) : List Piece :=
  mark .leftParen :: (pieces ++ [mark .rightParen])

end Piece

end Token

open Token (Piece)
open Token.Piece (mark)

/-! ## Written programs -/

/-- Names between brackets. -/
def Names.pieces (names : Names) : List Piece :=
  mark .leftBracket :: Piece.name names.first ::
    (names.others.flatMap (fun name => [mark .comma, Piece.name name]) ++ [mark .rightBracket])

def UsePath.segmentPieces (segment : Names) : List Piece :=
  if segment.others = [] then [Piece.name segment.first] else segment.pieces

def UsePath.pieces (path : UsePath) : List Piece :=
  mark .use :: (segmentPieces path.first ++
    (path.others.flatMap (fun segment => mark .dot :: segmentPieces segment) ++
      path.fields.toList.flatMap fun fields => mark .dot :: fields.pieces))

def Operand.piece : Operand → Piece
  | reference name => .reference name
  | literal (.bool truth) => .truth truth
  | literal (.number (.int n)) => .number n.natAbs
  | literal (.text chars) => .quoted chars
  | literal _ => mark .null

/-- How tightly a condition binds: a disjunction least and a comparison most. -/
def Condition.rank : Condition → Nat
  | or _ _ => 0
  | and _ _ => 1
  | not _ => 2
  | compare _ _ _ => 3

namespace Condition

/-- The pieces of a condition where it must have at least the given rank. -/
def placed (least : Nat) (condition : Condition) (pieces : List Piece) : List Piece :=
  if least ≤ condition.rank then pieces else Piece.grouped pieces

def pieces : Condition → List Piece
  | compare field relation operand =>
    [Piece.name field, mark (.comparator relation), operand.piece]
  | not inner => mark .not :: placed 2 inner inner.pieces
  | and left right =>
    placed 1 left left.pieces ++ mark .ampersand :: placed 2 right right.pieces
  | or left right => left.pieces ++ mark .pipe :: placed 1 right right.pieces

end Condition

def Fields.pieces : Fields → List Piece
  | all => [mark .asterisk]
  | named names => UsePath.segmentPieces names

def Select.pieces (selection : Select) : List Piece :=
  mark .select :: ((if selection.each then [mark .each] else []) ++ (selection.fields.pieces ++
    selection.condition.toList.flatMap fun condition =>
      mark .where_ :: Piece.grouped condition.pieces))

def Operation.pieces : Operation → List Piece
  | select selection => selection.pieces
  | count selection => mark .count :: selection.pieces
  | aggregate function => [mark (.aggregate function)]
  | arithmetic operator left right =>
    [mark (.arithmetic operator), Piece.reference left, Piece.reference right]
  | percentOf part whole =>
    mark .percentOf :: (part.pieces ++ mark .comma :: whole.pieces)

def Statement.pieces (statement : Statement) : List Piece :=
  statement.target.toList.map Piece.reference ++ statement.operation.pieces

def Block.pieces (block : Block) : List Piece :=
  mark .query :: Piece.name block.name ::
    (block.statements.flatMap Statement.pieces ++ [mark .return_])

def Program.pieces (program : Program) : List Piece :=
  program.paths.flatMap UsePath.pieces ++ program.blocks.flatMap Block.pieces

/-- The text of a program. -/
def Program.render (program : Program) : String :=
  String.ofList (Piece.joined ' ' program.pieces)

/-! ## Every piece stands alone -/

namespace Token

namespace Piece

theorem stands_sign {kind : Kind} {c : Char} (hc : isSign c) (hk : kind ≠ .comment)
    (hu : kind ≠ .unknown) (h : symbol c none = (kind, 0)) : Stands ' ' ⟨kind, [c]⟩ := by
  have hcut := @Cut.sign c [] hc (by simp)
  rw [List.head?_nil, h] at hcut
  exact stands_of_cut (by decide) hcut (fun h => absurd h hk) fun h => absurd h hu

theorem stands_sign_equals {kind : Kind} {c : Char} (hc : isSign c) (hk : kind ≠ .comment)
    (hu : kind ≠ .unknown) (h : symbol c (some '=') = (kind, 1)) :
    Stands ' ' ⟨kind, [c, '=']⟩ := by
  have hcut := @Cut.sign c ['='] hc (by simp)
  rw [List.head?_cons, h] at hcut
  exact stands_of_cut (by decide) hcut (fun h => absurd h hk) fun h => absurd h hu

theorem stands_keyword {kind : Kind} (h : kind ∈ Kind.keywords) : Stands ' ' (mark kind) := by
  have hall : ∀ k ∈ Kind.keywords, k.written = k.label ∧ Kind.ofWord k.label = k ∧
      (k.label.toList.head?.any isNameStart) ∧ k.label.toList.all isNameChar := by decide
  obtain ⟨hw, ho, hs, hc⟩ := hall kind h
  cases hl : kind.label.toList with
  | nil => simp [hl] at hs
  | cons c cs =>
    rw [hl] at hs hc
    simp only [List.all_cons, Bool.and_eq_true, List.all_eq_true] at hc
    have hst := @stands_word ' ' (by decide) c cs (by simpa using hs) hc.2
    rw [← hl, String.ofList_toList, ho] at hst
    rwa [mark, hw]

/-- The kinds that are always written the same. -/
def isWritten : Kind → Bool
  | .string | .number | .boolean | .reference | .identifier | .comment | .unknown
  | .endOfText => false
  | _ => true

theorem stands_mark {kind : Kind} (h : isWritten kind) : Stands ' ' (mark kind) := by
  cases kind with
  | use | query | select | where_ | return_ | each | count | percentOf =>
    exact stands_keyword (by decide)
  | aggregate function => cases function <;> exact stands_keyword (by decide)
  | arithmetic operator => cases operator <;> exact stands_keyword (by decide)
  | comparator relation =>
    cases relation with
    | equal | greater | less => exact stands_sign (by decide) (by decide) (by decide) rfl
    | notEqual | atLeast | atMost =>
      exact stands_sign_equals (by decide) (by decide) (by decide) rfl
    | contains | lacks => exact stands_keyword (by decide)
  | leftParen | rightParen | leftBracket | rightBracket | comma | dot | asterisk | ampersand
  | pipe | not => exact stands_sign (by decide) (by decide) (by decide) rfl
  | null =>
    exact @stands_word ' ' (by decide) 'n' ['u', 'l', 'l'] (by decide)
      (List.all_eq_true.mp (by decide))
  | string | number | boolean | reference | identifier | comment | unknown | endOfText =>
    simp [isWritten] at h

theorem stands_name {name : String} (h : IsName name) : Stands ' ' (Piece.name name) := by
  obtain ⟨c, cs, hl, hc, hcs, ho⟩ := h
  have hst := @stands_word ' ' (by decide) c cs hc hcs
  rw [← hl, String.ofList_toList, ho] at hst
  exact hst

theorem stands_variable {name : String} (h : IsVariable name) :
    Stands ' ' (Piece.reference name) :=
  stands_reference (by decide) h.2

theorem stands_digits (n : Nat) : Stands ' ' (Piece.number n) := by
  have hdigit : ∀ c ∈ Nat.toDigits 10 n, Text.isDecimalDigit c := fun c hc =>
    Text.isDecimalDigit_of_isDigit (Nat.isDigit_of_mem_toDigits (by omega) (by omega) hc)
  cases hl : Nat.toDigits 10 n with
  | nil => simp at hl
  | cons c cs =>
    rw [hl] at hdigit
    have hst := @stands_number ' ' (by decide) c cs (hdigit c (by simp))
      fun d hd => hdigit d (by simp [hd])
    rw [← hl] at hst
    exact hst

theorem stands_quoted {chars : String} (h : (Value.text chars).IsLiteral) :
    Stands ' ' (Piece.quoted chars) := by
  refine stands_string (by decide) ?_ ?_
  · unfold quoteFor
    split
    · exact .inr rfl
    · exact .inl rfl
  · rintro d hd rfl
    unfold quoteFor at hd
    split at hd
    · next hq => exact h.elim (fun h => h hq) fun h => h hd
    · next hq => exact hq hd

theorem stands_truth (truth : Bool) : Stands ' ' (Piece.truth truth) := by
  cases truth with
  | true =>
    exact @stands_word ' ' (by decide) 't' ['r', 'u', 'e'] (by decide)
      (List.all_eq_true.mp (by decide))
  | false =>
    exact @stands_word ' ' (by decide) 'f' ['a', 'l', 's', 'e'] (by decide)
      (List.all_eq_true.mp (by decide))

theorem stands_operand {operand : Operand} (h : operand.WellFormed) :
    Stands ' ' operand.piece := by
  cases operand with
  | reference name => exact stands_variable h
  | literal value =>
    cases value with
    | null => exact stands_mark rfl
    | bool truth => exact stands_truth truth
    | number n =>
      cases n with
      | int n => exact stands_digits n.natAbs
      | double x => exact h.elim
    | text chars => exact stands_quoted h
    | list items => exact h.elim
    | record fields => exact h.elim

end Piece

end Token

/-- That all pieces of a list stand alone. -/
def AllStand (pieces : List Piece) : Prop :=
  ∀ piece ∈ pieces, piece.Stands ' '

section
variable {piece : Piece} {xs ys : List Piece}

@[simp] theorem allStand_nil : AllStand [] := by
  simp [AllStand]

@[simp] theorem allStand_cons : AllStand (piece :: xs) ↔ piece.Stands ' ' ∧ AllStand xs := by
  simp [AllStand]

@[simp] theorem allStand_append : AllStand (xs ++ ys) ↔ AllStand xs ∧ AllStand ys := by
  simp [AllStand, or_imp, forall_and]

theorem allStand_flatMap {α : Type} {items : List α} {f : α → List Piece}
    (h : ∀ item ∈ items, AllStand (f item)) : AllStand (items.flatMap f) := by
  intro piece hp
  obtain ⟨item, hi, hp⟩ := List.mem_flatMap.mp hp
  exact h item hi piece hp

theorem allStand_grouped (h : AllStand xs) : AllStand (Piece.grouped xs) := by
  simp (disch := decide) [Piece.grouped, h, Token.Piece.stands_mark]

end

open Token.Piece (stands_mark stands_name stands_variable stands_operand)

theorem Names.WellFormed.stand {names : Names} (h : names.WellFormed) :
    AllStand names.pieces := by
  have hfirst : IsName names.first := h names.first (by simp [Names.toList])
  have hothers : AllStand (names.others.flatMap fun name => [mark .comma, Piece.name name]) :=
    allStand_flatMap fun name hn => by
      simp (disch := decide) [stands_mark, stands_name (h name (by simp [Names.toList, hn]))]
  simp (disch := decide) [Names.pieces, stands_mark, stands_name hfirst, hothers]

theorem Names.WellFormed.stand_segment {names : Names} (h : names.WellFormed) :
    AllStand (UsePath.segmentPieces names) := by
  unfold UsePath.segmentPieces
  split
  · simp [stands_name (h names.first (by simp [Names.toList]))]
  · exact h.stand

theorem UsePath.WellFormed.stand {path : UsePath} (h : path.WellFormed) :
    AllStand path.pieces := by
  have hsegment : ∀ segment ∈ path.segments, AllStand (UsePath.segmentPieces segment) :=
    fun segment hs => (h.segments segment hs).stand_segment
  have hothers : AllStand
      (path.others.flatMap fun segment => mark .dot :: UsePath.segmentPieces segment) :=
    allStand_flatMap fun segment hs => by
      simp (disch := decide) [stands_mark, hsegment segment (by simp [UsePath.segments, hs])]
  have hfields : AllStand
      (path.fields.toList.flatMap fun fields => mark .dot :: fields.pieces) :=
    allStand_flatMap fun fields hf => by
      simp (disch := decide) [stands_mark, (h.fields fields (by simpa using hf)).stand]
  simp (disch := decide) [UsePath.pieces, stands_mark, hothers, hfields,
    hsegment path.first (by simp [UsePath.segments])]

theorem Condition.WellFormed.stand {condition : Condition} (h : condition.WellFormed) :
    AllStand condition.pieces := by
  have hplaced : ∀ {least : Nat} {c : Condition}, AllStand c.pieces →
      AllStand (Condition.placed least c c.pieces) := by
    intro least c hc
    unfold Condition.placed
    split
    · exact hc
    · exact allStand_grouped hc
  induction condition with
  | compare field relation operand =>
    simp [Condition.pieces, stands_name h.1, @stands_mark (.comparator relation) rfl,
      stands_operand h.2]
  | not inner ih => simp (disch := decide) [Condition.pieces, stands_mark, hplaced (ih h)]
  | and left right ihl ihr =>
    simp (disch := decide) [Condition.pieces, stands_mark, hplaced (ihl h.1), hplaced (ihr h.2)]
  | or left right ihl ihr =>
    simp (disch := decide) [Condition.pieces, stands_mark, ihl h.1, hplaced (ihr h.2)]

theorem Select.WellFormed.stand {selection : Select} (h : selection.WellFormed) :
    AllStand selection.pieces := by
  have heach : AllStand (if selection.each then [mark .each] else []) := by
    split <;> simp (disch := decide) [stands_mark]
  have hfields : AllStand selection.fields.pieces := by
    have hnames := h.fields
    cases hf : selection.fields with
    | all => simp (disch := decide) [Fields.pieces, stands_mark]
    | named names =>
      rw [hf] at hnames
      exact Names.WellFormed.stand_segment hnames
  have hcondition : AllStand (selection.condition.toList.flatMap fun condition =>
      mark .where_ :: Piece.grouped condition.pieces) :=
    allStand_flatMap fun condition hc => by
      have hs := allStand_grouped (h.condition condition (by simpa using hc)).stand
      simp (disch := decide) [stands_mark, hs]
  simp (disch := decide) [Select.pieces, stands_mark, heach, hfields, hcondition]

theorem Operation.WellFormed.stand {operation : Operation} (h : operation.WellFormed) :
    AllStand operation.pieces := by
  cases operation with
  | select selection => exact Select.WellFormed.stand h
  | count selection =>
    simp (disch := decide) [Operation.pieces, stands_mark, Select.WellFormed.stand h]
  | aggregate function => simp [Operation.pieces, @stands_mark (.aggregate function) rfl]
  | arithmetic operator left right =>
    simp [Operation.pieces, @stands_mark (.arithmetic operator) rfl, stands_variable h.1,
      stands_variable h.2]
  | percentOf part whole =>
    simp (disch := decide) [Operation.pieces, stands_mark, Select.WellFormed.stand h.1,
      Select.WellFormed.stand h.2]

/-- Every piece of a well-formed program stands alone. -/
theorem Program.WellFormed.stand {program : Program} (h : program.WellFormed) :
    AllStand program.pieces := by
  have hpaths : AllStand (program.paths.flatMap UsePath.pieces) :=
    allStand_flatMap fun path hp => (h.paths path hp).stand
  have hblocks : AllStand (program.blocks.flatMap Block.pieces) := by
    refine allStand_flatMap fun block hb => ?_
    have hwell := h.blocks block hb
    have hstatements : AllStand (block.statements.flatMap Statement.pieces) := by
      refine allStand_flatMap fun statement hs => ?_
      have hs' := hwell.statements statement hs
      have htarget : AllStand (statement.target.toList.map Piece.reference) := by
        intro piece hp
        obtain ⟨name, hn, rfl⟩ := List.mem_map.mp hp
        exact stands_variable (hs'.target name (by simpa using hn))
      simp [Statement.pieces, htarget, hs'.operation.stand]
    simp (disch := decide) [Block.pieces, stands_mark, stands_name hwell.name, hstatements]
  simp [Program.pieces, hpaths, hblocks]

end RecordQuery
