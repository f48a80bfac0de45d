/-
The grammar of programs over tokens.

Every function below reads a piece of a program from the front of a token list
and returns it with the tokens that are left.  Two things can stop it: a token
that cannot stand where it stands, or the end of the list.  The difference shows
after `&` and `|`: when the list ends inside the operand, the condition is taken
to end before the operator.

What is read is always taken off the front (`Reads`), so the loops over paths,
statements and declarations come to an end.
-/
import RecordQuery.Number.Numeral
import RecordQuery.Program
import RecordQuery.Token

namespace RecordQuery
namespace Grammar

/-- What is missing where a token is refused. -/
inductive Expected
  | fieldName
  | pathName
  | closingBracket
  | pathSegment
  | conditionField
  | conditionOperator
  | conditionValue
  | closingParen
  | conditionStart
  | conditionEnd
  | leftOperand (operator : Arithmetic)
  | rightOperand (operator : Arithmetic)
  | variableName
  | assignedOperation
  | queryName
  | blockEnd
  deriving DecidableEq

/-- Why the lexeme of a number token denotes no number. -/
inductive BadNumeral
  | tooLong (digits : Nat)
  | notInteger (lexeme : String)
  | notDecimal (lexeme : String)
  deriving DecidableEq

inductive Stop
  | endOfTokens
  | refused (expected : Expected) (found : Token)
  | badNumeral (cause : BadNumeral)
  deriving DecidableEq

abbrev Parsed (α : Type) := Except Stop (α × List Token)

/-- What a parser leaves is the end of what it was given. -/
def Reads {α : Type} (parse : List Token → Parsed α) : Prop :=
  ∀ {ts v rest}, parse ts = .ok (v, rest) → rest <:+ ts

/-- The next token, of a required kind. -/
def expect (kind : Token.Kind) (expected : Expected) : List Token → Parsed Token
  | [] => .error .endOfTokens
  | t :: ts => if t.kind = kind then .ok (t, ts) else .error (.refused expected t)

/-- The tokens after one of the given kind, if it comes first. -/
def dropKind (kind : Token.Kind) : List Token → List Token
  | [] => []
  | t :: ts => if t.kind = kind then ts else t :: ts

/-! ## Names and paths -/

/-- Names after the first, up to the closing bracket. -/
def moreNames (expected : Expected) : List Token → Parsed (List String)
  | [] => .error .endOfTokens
  | [t] =>
    match t.kind with
    | .comma => .error .endOfTokens
    | .rightBracket => .ok ([], [])
    | _ => .error (.refused .closingBracket t)
  | t :: name :: ts =>
    match t.kind with
    | .comma =>
      if name.kind = .identifier then
        match moreNames expected ts with
        | .ok (names, rest) => .ok (name.lexeme :: names, rest)
        | .error stop => .error stop
      else .error (.refused expected name)
    | .rightBracket => .ok ([], name :: ts)
    | _ => .error (.refused .closingBracket t)

/-- Names between brackets, of which the first has been read. -/
def nameList (expected : Expected) (ts : List Token) : Parsed Names :=
  match expect .identifier expected ts with
  | .error stop => .error stop
  | .ok (name, rest) =>
    match moreNames expected rest with
    | .ok (names, rest) => .ok (⟨name.lexeme, names⟩, rest)
    | .error stop => .error stop

/-- A segment of a path, and whether it stands in brackets. -/
def segment : List Token → Parsed (Names × Bool)
  | [] => .error .endOfTokens
  | t :: ts =>
    match t.kind with
    | .identifier => .ok ((⟨t.lexeme, []⟩, false), ts)
    | .leftBracket =>
      match nameList .pathName ts with
      | .ok (names, rest) => .ok ((names, true), rest)
      | .error stop => .error stop
    | _ => .error (.refused .pathSegment t)

/-! ## Conditions -/

/-- The name a variable token refers to. -/
def variableName (t : Token) : Except Stop String :=
  let name := match t.lexeme.toList with
    | '$' :: name => name
    | name => name
  if name.isEmpty then .error (.refused .variableName t) else .ok (String.ofList name)

/-- The number of a number token: a decimal when it has a point. -/
def numeral (lexeme : String) : Except Stop Number :=
  let cs := lexeme.toList
  if cs.contains '.' then
    match Numeral.decimal? cs with
    | some x => .ok (.double x)
    | none => .error (.badNumeral (.notDecimal lexeme))
  else
    match Numeral.integer? cs with
    | some (n, count) =>
      if count ≤ digitLimit then .ok (.int n) else .error (.badNumeral (.tooLong count))
    | none => .error (.badNumeral (.notInteger lexeme))

/-- What a field is compared with. -/
def operand (t : Token) : Except Stop Operand :=
  match t.kind with
  | .string => .ok (.literal (.text t.lexeme))
  | .number => (numeral t.lexeme).map fun n => .literal (.number n)
  | .boolean => .ok (.literal (.bool (t.lexeme = "true")))
  | .null => .ok (.literal .null)
  | .reference => (variableName t).map .reference
  | _ => .error (.refused .conditionValue t)

/-- A field, a relation and an operand. -/
def comparison (ts : List Token) : Parsed Condition :=
  match expect .identifier .conditionField ts with
  | .error stop => .error stop
  | .ok (field, rest) =>
    match rest with
    | [] => .error .endOfTokens
    | t :: rest =>
      match t.kind, rest with
      | .comparator _, [] => .error .endOfTokens
      | .comparator relation, value :: rest =>
        match operand value with
        | .ok operand => .ok (.compare field.lexeme relation operand, rest)
        | .error stop => .error stop
      | _, _ => .error (.refused .conditionOperator t)

/-- A condition in parentheses or a comparison. -/
def primary (inner : List Token → Parsed Condition) : List Token → Parsed Condition
  | [] => .error .endOfTokens
  | t :: ts =>
    if t.kind = .leftParen then
      match inner ts with
      | .error stop => .error stop
      | .ok (condition, rest) =>
        match expect .rightParen .closingParen rest with
        | .ok (_, rest) => .ok (condition, rest)
        | .error stop => .error stop
    else comparison (t :: ts)

/-- A primary condition after any number of negations. -/
def unary (inner : List Token → Parsed Condition) : List Token → Parsed Condition
  | [] => .error .endOfTokens
  | t :: ts =>
    if t.kind = .not then
      match unary inner ts with
      | .ok (condition, rest) => .ok (.not condition, rest)
      | .error stop => .error stop
    else primary inner (t :: ts)

/-- Further operands of an operator that groups to the left, at most `count` of
them.  An operand cut off by the end of the tokens is left unread, together with
its operator. -/
def chain (mark : Token.Kind) (join : Condition → Condition → Condition)
    (term : List Token → Parsed Condition) : Nat → Condition → List Token → Parsed Condition
  | count + 1, left, t :: ts =>
    if t.kind = mark then
      match term ts with
      | .ok (right, rest) => chain mark join term count (join left right) rest
      | .error .endOfTokens => .ok (left, t :: ts)
      | .error stop => .error stop
    else .ok (left, t :: ts)
  | _, left, ts => .ok (left, ts)

/-- Operands joined by an operator that groups to the left. -/
def chained (mark : Token.Kind) (join : Condition → Condition → Condition)
    (term : List Token → Parsed Condition) (ts : List Token) : Parsed Condition :=
  match term ts with
  | .ok (first, rest) => chain mark join term rest.length first rest
  | .error stop => .error stop

/-- A condition in which parentheses nest less than `depth` deep. -/
def conditionWithin : Nat → List Token → Parsed Condition
  | 0, _ => .error .endOfTokens
  | depth + 1, ts =>
    chained .pipe .or (chained .ampersand .and (unary (conditionWithin depth))) ts

/-- A condition.  There are no more parentheses than tokens. -/
def condition (ts : List Token) : Parsed Condition :=
  conditionWithin ts.length.succ ts

/-! ## Operations -/

/-- The condition of a selection, if it has one. -/
def whereClause : List Token → Parsed (Option Condition)
  | [] => .ok (none, [])
  | t :: ts =>
    if t.kind = .where_ then
      match expect .leftParen .conditionStart ts with
      | .error stop => .error stop
      | .ok (_, rest) =>
        match condition rest with
        | .error stop => .error stop
        | .ok (found, rest) =>
          match expect .rightParen .conditionEnd rest with
          | .ok (_, rest) => .ok (some found, rest)
          | .error stop => .error stop
    else .ok (none, t :: ts)

/-- The fields of a selection; all of them when none are given. -/
def fieldSpec : List Token → Parsed Fields
  | [] => .error .endOfTokens
  | t :: ts =>
    match t.kind with
    | .asterisk => .ok (.all, ts)
    | .leftBracket =>
      match nameList .fieldName ts with
      | .ok (names, rest) => .ok (.named names, rest)
      | .error stop => .error stop
    | .identifier => .ok (.named ⟨t.lexeme, []⟩, ts)
    | _ => .ok (.all, t :: ts)

/-- Whether tokens begin with one of the given kind. -/
def startsWith (kind : Token.Kind) : List Token → Bool
  | [] => false
  | t :: _ => t.kind = kind

/-- A selection after its keyword. -/
def selectBody (ts : List Token) : Parsed Select :=
  match fieldSpec (dropKind .each ts) with
  | .error stop => .error stop
  | .ok (fields, rest) =>
    match whereClause rest with
    | .ok (condition, rest) => .ok (⟨fields, condition, startsWith .each ts⟩, rest)
    | .error stop => .error stop

/-- A selection with or without its keyword. -/
def innerSelect (ts : List Token) : Parsed Select :=
  selectBody (dropKind .select ts)

/-- The two selections of a percentage.  The second one is everything unless it
begins with its keyword; a comma before it may be left out. -/
def percentage (ts : List Token) : Parsed Operation :=
  match innerSelect ts with
  | .error stop => .error stop
  | .ok (part, rest) =>
    match dropKind .comma rest with
    | [] => .error .endOfTokens
    | t :: rest =>
      if t.kind = .select then
        match selectBody rest with
        | .ok (whole, rest) => .ok (.percentOf part whole, rest)
        | .error stop => .error stop
      else .ok (.percentOf part .everything, t :: rest)

/-- The two variables of an arithmetic operation.  Both are read before their
names are looked at. -/
def operands (operator : Arithmetic) (ts : List Token) : Parsed Operation :=
  match expect .reference (.leftOperand operator) ts with
  | .error stop => .error stop
  | .ok (left, rest) =>
    match expect .reference (.rightOperand operator) rest with
    | .error stop => .error stop
    | .ok (right, rest) =>
      match variableName left, variableName right with
      | .ok a, .ok b => .ok (.arithmetic operator a b, rest)
      | .error stop, _ => .error stop
      | _, .error stop => .error stop

/-- The operation that a keyword begins, read after the keyword. -/
def operation (kind : Token.Kind) : Option (List Token → Parsed Operation) :=
  match kind with
  | .select => some fun ts => (selectBody ts).map fun (s, rest) => (.select s, rest)
  | .count => some fun ts => (innerSelect ts).map fun (s, rest) => (.count s, rest)
  | .percentOf => some percentage
  | .aggregate function => some fun ts => .ok (.aggregate function, ts)
  | .arithmetic operator => some (operands operator)
  | _ => none

/-- The operation whose value a variable takes.  It is read before the name of
the variable is looked at. -/
def assignment (target : Token) : List Token → Parsed Statement
  | [] => .error .endOfTokens
  | t :: ts =>
    match operation t.kind with
    | none => .error (.refused .assignedOperation t)
    | some parse =>
      match parse ts with
      | .error stop => .error stop
      | .ok (operation, rest) =>
        match variableName target with
        | .ok name => .ok (⟨some name, operation⟩, rest)
        | .error stop => .error stop

/-- The statement that a token begins, read after it. -/
def statement (t : Token) : Option (List Token → Parsed Statement) :=
  if t.kind = .reference then some (assignment t)
  else (operation t.kind).map fun parse ts =>
    (parse ts).map fun (operation, rest) => (⟨none, operation⟩, rest)

/-! ## What is read is taken off the front -/

theorem reads_expect (kind : Token.Kind) (expected : Expected) :
    Reads (expect kind expected) := by
  intro ts v rest h
  cases ts with
  | nil => simp [expect] at h
  | cons t ts =>
    simp only [expect] at h
    split at h
    · injection h with h
      injection h with _ h
      exact h ▸ List.suffix_cons t ts
    · simp at h

theorem dropKind_suffix (kind : Token.Kind) (ts : List Token) : dropKind kind ts <:+ ts := by
  cases ts with
  | nil => exact List.suffix_refl _
  | cons t ts =>
    simp only [dropKind]
    split
    · exact List.suffix_cons t ts
    · exact List.suffix_refl _

theorem reads_moreNames (expected : Expected) : Reads (moreNames expected) := by
  intro ts v rest h
  fun_induction moreNames expected ts generalizing v rest with
  | case1 => simp at h
  | case2 => simp at h
  | case3 t => simp at h; simp [← h.2]
  | case4 => simp at h
  | case5 t name ts _ _ names rest' heq ih =>
    simp only [Except.ok.injEq, Prod.mk.injEq] at h
    obtain ⟨_, rfl⟩ := h
    exact (ih heq).trans ((List.suffix_cons _ _).trans (List.suffix_cons _ _))
  | case6 => simp at h
  | case7 => simp at h
  | case8 t name ts =>
    simp only [Except.ok.injEq, Prod.mk.injEq] at h
    exact h.2 ▸ List.suffix_cons _ _
  | case9 => simp at h

theorem reads_nameList (expected : Expected) : Reads (nameList expected) := by
  intro ts v rest h
  simp only [nameList] at h
  split at h
  · simp at h
  · next name rest₁ h₁ =>
    split at h
    · next names rest₂ h₂ =>
      simp only [Except.ok.injEq, Prod.mk.injEq] at h
      exact h.2 ▸ (reads_moreNames expected h₂).trans (reads_expect _ _ h₁)
    · simp at h

theorem reads_segment : Reads segment := by
  intro ts v rest h
  cases ts with
  | nil => simp [segment] at h
  | cons t ts =>
    simp only [segment] at h
    split at h
    · simp only [Except.ok.injEq, Prod.mk.injEq] at h
      exact h.2 ▸ List.suffix_cons _ _
    · split at h
      · next names rest₁ h₁ =>
        simp only [Except.ok.injEq, Prod.mk.injEq] at h
        exact h.2 ▸ (reads_nameList _ h₁).trans (List.suffix_cons _ _)
      · simp at h
    · simp at h

theorem reads_comparison : Reads comparison := by
  intro ts v rest h
  simp only [comparison] at h
  split at h
  · simp at h
  · next field rest₁ h₁ =>
    split at h
    · simp at h
    · next t rest₂ =>
      split at h
      · simp at h
      · split at h
        · simp only [Except.ok.injEq, Prod.mk.injEq] at h
          exact h.2 ▸ ((List.suffix_cons _ _).trans (List.suffix_cons _ _)).trans
            (reads_expect _ _ h₁)
        · simp at h
      · simp at h

theorem reads_primary {inner : List Token → Parsed Condition} (hi : Reads inner) :
    Reads (primary inner) := by
  intro ts v rest h
  cases ts with
  | nil => simp [primary] at h
  | cons t ts =>
    simp only [primary] at h
    split at h
    · split at h
      · simp at h
      · next c rest₁ h₁ =>
        split at h
        · next u rest₂ h₂ =>
          simp only [Except.ok.injEq, Prod.mk.injEq] at h
          exact h.2 ▸ ((reads_expect _ _ h₂).trans (hi h₁)).trans (List.suffix_cons _ _)
        · simp at h
    · exact reads_comparison h

theorem reads_unary {inner : List Token → Parsed Condition} (hi : Reads inner) :
    Reads (unary inner) := by
  intro ts
  induction ts with
  | nil => intro v rest h; simp [unary] at h
  | cons t ts ih =>
    intro v rest h
    simp only [unary] at h
    split at h
    · split at h
      · next c rest₁ h₁ =>
        simp only [Except.ok.injEq, Prod.mk.injEq] at h
        exact h.2 ▸ (ih h₁).trans (List.suffix_cons _ _)
      · simp at h
    · exact reads_primary hi h

theorem chain_suffix {mark : Token.Kind} {join : Condition → Condition → Condition}
    {term : List Token → Parsed Condition} (ht : Reads term) {count : Nat} {left v : Condition}
    {ts rest : List Token} (h : chain mark join term count left ts = .ok (v, rest)) :
    rest <:+ ts := by
  induction count generalizing left ts with
  | zero =>
    simp only [chain, Except.ok.injEq, Prod.mk.injEq] at h
    exact h.2 ▸ List.suffix_refl _
  | succ count ih =>
    cases ts with
    | nil =>
      simp only [chain, Except.ok.injEq, Prod.mk.injEq] at h
      exact h.2 ▸ List.suffix_refl _
    | cons t ts =>
      simp only [chain] at h
      split at h
      · split at h
        · next right rest₁ h₁ =>
          exact (ih h).trans ((ht h₁).trans (List.suffix_cons _ _))
        · simp only [Except.ok.injEq, Prod.mk.injEq] at h
          exact h.2 ▸ List.suffix_refl _
        · simp at h
      · simp only [Except.ok.injEq, Prod.mk.injEq] at h
        exact h.2 ▸ List.suffix_refl _

theorem reads_chained {mark : Token.Kind} {join : Condition → Condition → Condition}
    {term : List Token → Parsed Condition} (ht : Reads term) :
    Reads (chained mark join term) := by
  intro ts v rest h
  simp only [chained] at h
  split at h
  · next first rest₁ h₁ => exact (chain_suffix ht h).trans (ht h₁)
  · simp at h

theorem reads_conditionWithin (depth : Nat) : Reads (conditionWithin depth) := by
  induction depth with
  | zero => intro ts v rest h; simp [conditionWithin] at h
  | succ depth ih => exact reads_chained (reads_chained (reads_unary ih))

theorem reads_whereClause : Reads whereClause := by
  intro ts v rest h
  cases ts with
  | nil =>
    simp only [whereClause, Except.ok.injEq, Prod.mk.injEq] at h
    exact h.2 ▸ List.suffix_refl _
  | cons t ts =>
    simp only [whereClause] at h
    split at h
    · split at h
      · simp at h
      · next rest₁ h₁ =>
        split at h
        · simp at h
        · next c rest₂ h₂ =>
          split at h
          · next rest₃ h₃ =>
            simp only [Except.ok.injEq, Prod.mk.injEq] at h
            exact h.2 ▸ (((reads_expect _ _ h₃).trans (reads_conditionWithin _ h₂)).trans
              (reads_expect _ _ h₁)).trans (List.suffix_cons _ _)
          · simp at h
    · simp only [Except.ok.injEq, Prod.mk.injEq] at h
      exact h.2 ▸ List.suffix_refl _

theorem reads_fieldSpec : Reads fieldSpec := by
  intro ts v rest h
  cases ts with
  | nil => simp [fieldSpec] at h
  | cons t ts =>
    simp only [fieldSpec] at h
    split at h
    · simp only [Except.ok.injEq, Prod.mk.injEq] at h
      exact h.2 ▸ List.suffix_cons _ _
    · split at h
      · next names rest₁ h₁ =>
        simp only [Except.ok.injEq, Prod.mk.injEq] at h
        exact h.2 ▸ (reads_nameList _ h₁).trans (List.suffix_cons _ _)
      · simp at h
    · simp only [Except.ok.injEq, Prod.mk.injEq] at h
      exact h.2 ▸ List.suffix_cons _ _
    · simp only [Except.ok.injEq, Prod.mk.injEq] at h
      exact h.2 ▸ List.suffix_refl _

theorem reads_selectBody : Reads selectBody := by
  intro ts v rest h
  simp only [selectBody] at h
  split at h
  · simp at h
  · next fields rest₁ h₁ =>
    split at h
    · next c rest₂ h₂ =>
      simp only [Except.ok.injEq, Prod.mk.injEq] at h
      exact h.2 ▸ ((reads_whereClause h₂).trans (reads_fieldSpec h₁)).trans (dropKind_suffix _ _)
    · simp at h

theorem reads_innerSelect : Reads innerSelect := fun h =>
  (reads_selectBody h).trans (dropKind_suffix _ _)

theorem reads_percentage : Reads percentage := by
  intro ts v rest h
  simp only [percentage] at h
  split at h
  · simp at h
  · next part rest₁ h₁ =>
    have hd := dropKind_suffix .comma rest₁
    split at h
    · simp at h
    · next t rest₂ h₂ =>
      rw [h₂] at hd
      split at h
      · split at h
        · next whole rest₃ h₃ =>
          simp only [Except.ok.injEq, Prod.mk.injEq] at h
          exact h.2 ▸ (((reads_selectBody h₃).trans (List.suffix_cons _ _)).trans hd).trans
            (reads_innerSelect h₁)
        · simp at h
      · simp only [Except.ok.injEq, Prod.mk.injEq] at h
        exact h.2 ▸ hd.trans (reads_innerSelect h₁)

theorem reads_operands (operator : Arithmetic) : Reads (operands operator) := by
  intro ts v rest h
  simp only [operands] at h
  split at h
  · simp at h
  · next left rest₁ h₁ =>
    split at h
    · simp at h
    · next right rest₂ h₂ =>
      split at h
      · simp only [Except.ok.injEq, Prod.mk.injEq] at h
        exact h.2 ▸ (reads_expect _ _ h₂).trans (reads_expect _ _ h₁)
      · simp at h
      · simp at h

theorem reads_map {α β : Type} {parse : List Token → Parsed α} (hp : Reads parse) (f : α → β) :
    Reads fun ts => (parse ts).map fun (v, rest) => (f v, rest) := by
  intro ts v rest h
  match hv : parse ts with
  | .error stop => simp [hv, Except.map] at h
  | .ok (w, rest₁) =>
    simp only [hv, Except.map, Except.ok.injEq, Prod.mk.injEq] at h
    exact h.2 ▸ hp hv

theorem reads_operation {kind : Token.Kind} {parse : List Token → Parsed Operation}
    (h : operation kind = some parse) : Reads parse := by
  unfold operation at h
  split at h <;> simp only [Option.some.injEq, reduceCtorEq] at h <;> subst h
  · exact reads_map reads_selectBody Operation.select
  · exact reads_map reads_innerSelect Operation.count
  · exact reads_percentage
  · intro ts v rest h
    simp only [Except.ok.injEq, Prod.mk.injEq] at h
    exact h.2 ▸ List.suffix_refl _
  · exact reads_operands _

theorem reads_assignment (target : Token) : Reads (assignment target) := by
  intro ts v rest h
  cases ts with
  | nil => simp [assignment] at h
  | cons t ts =>
    simp only [assignment] at h
    split at h
    · simp at h
    · next parse hp =>
      split at h
      · simp at h
      · next op rest₁ h₁ =>
        split at h
        · simp only [Except.ok.injEq, Prod.mk.injEq] at h
          exact h.2 ▸ (reads_operation hp h₁).trans (List.suffix_cons _ _)
        · simp at h

theorem reads_statement {t : Token} {parse : List Token → Parsed Statement}
    (h : statement t = some parse) : Reads parse := by
  unfold statement at h
  split at h
  · simp only [Option.some.injEq] at h
    subst h
    exact reads_assignment t
  · obtain ⟨inner, hi, rfl⟩ := Option.map_eq_some_iff.mp h
    exact reads_map (reads_operation hi) fun operation => Statement.mk none operation

/-! ## Paths, blocks and programs -/

/-- The segments after the first, and whether the last segment of all stands in
brackets. -/
def moreSegments (bracketed : Bool) (ts : List Token) : Parsed (List Names × Bool) :=
  match ts with
  | [] => .ok (([], bracketed), [])
  | t :: ts =>
    if t.kind = .dot then
      match h : segment ts with
      | .error stop => .error stop
      | .ok ((names, bracketed), rest) =>
        have := (reads_segment h).length_le
        match moreSegments bracketed rest with
        | .ok ((others, tail), rest) => .ok ((names :: others, tail), rest)
        | .error stop => .error stop
    else .ok (([], bracketed), t :: ts)
termination_by ts.length

/-- A bracketed segment at the end of a longer path is its field set. -/
def pathOf (first : Names) (others : List Names) (bracketed : Bool) : UsePath :=
  match bracketed, others.getLast? with
  | true, some fields => ⟨first, others.dropLast, some fields⟩
  | _, _ => ⟨first, others, none⟩

/-- A path after its keyword. -/
def path (ts : List Token) : Parsed UsePath :=
  match segment ts with
  | .error stop => .error stop
  | .ok ((first, bracketed), rest) =>
    match moreSegments bracketed rest with
    | .ok ((others, tail), rest) => .ok (pathOf first others tail, rest)
    | .error stop => .error stop

/-- The kinds that end the statements of a block. -/
def endsBlock : Token.Kind → Bool
  | .return_ | .query | .endOfText => true
  | _ => false

/-- Statements up to a token that ends them.  Tokens that begin no statement are
passed over. -/
def statements (ts : List Token) : Parsed (List Statement) :=
  match ts with
  | [] => .error .endOfTokens
  | t :: ts =>
    if endsBlock t.kind then .ok ([], t :: ts)
    else
      match hs : statement t with
      | none => statements ts
      | some parse =>
        match h : parse ts with
        | .error stop => .error stop
        | .ok (found, rest) =>
          have := (reads_statement hs h).length_le
          match statements rest with
          | .ok (others, rest) => .ok (found :: others, rest)
          | .error stop => .error stop
termination_by ts.length

/-- A block after its keyword. -/
def block (ts : List Token) : Parsed Block :=
  match expect .identifier .queryName ts with
  | .error stop => .error stop
  | .ok (name, rest) =>
    match statements rest with
    | .error stop => .error stop
    | .ok (found, rest) =>
      match expect .return_ .blockEnd rest with
      | .ok (_, rest) => .ok (⟨name.lexeme, found⟩, rest)
      | .error stop => .error stop

theorem reads_moreSegments (bracketed : Bool) : Reads (moreSegments bracketed) := by
  intro ts v rest h
  fun_induction moreSegments bracketed ts generalizing v rest with
  | case1 =>
    simp only [Except.ok.injEq, Prod.mk.injEq] at h
    exact h.2 ▸ List.suffix_refl _
  | case2 => simp at h
  | case3 b t ts _ names br rest₁ h₁ _ others tail rest₂ h₂ ih =>
    simp only [Except.ok.injEq, Prod.mk.injEq] at h
    exact h.2 ▸ ((ih h₂).trans (reads_segment h₁)).trans (List.suffix_cons _ _)
  | case4 => simp at h
  | case5 =>
    simp only [Except.ok.injEq, Prod.mk.injEq] at h
    exact h.2 ▸ List.suffix_refl _

theorem reads_path : Reads path := by
  intro ts v rest h
  simp only [path] at h
  split at h
  · simp at h
  · next first br rest₁ h₁ =>
    split at h
    · next others tail rest₂ h₂ =>
      simp only [Except.ok.injEq, Prod.mk.injEq] at h
      exact h.2 ▸ (reads_moreSegments _ h₂).trans (reads_segment h₁)
    · simp at h

theorem reads_statements : Reads statements := by
  intro ts v rest h
  fun_induction statements ts generalizing v rest with
  | case1 => simp at h
  | case2 =>
    simp only [Except.ok.injEq, Prod.mk.injEq] at h
    exact h.2 ▸ List.suffix_refl _
  | case3 t ts _ _ ih => exact (ih h).trans (List.suffix_cons _ _)
  | case4 => simp at h
  | case5 t ts _ parse hs found rest₁ h₁ _ others rest₂ h₂ ih =>
    simp only [Except.ok.injEq, Prod.mk.injEq] at h
    exact h.2 ▸ ((ih h₂).trans (reads_statement hs h₁)).trans (List.suffix_cons _ _)
  | case6 => simp at h

theorem reads_block : Reads block := by
  intro ts v rest h
  simp only [block] at h
  split at h
  · simp at h
  · next name rest₁ h₁ =>
    split at h
    · simp at h
    · next found rest₂ h₂ =>
      split at h
      · next rest₃ h₃ =>
        simp only [Except.ok.injEq, Prod.mk.injEq] at h
        exact h.2 ▸ ((reads_expect _ _ h₃).trans (reads_statements h₂)).trans (reads_expect _ _ h₁)
      · simp at h

/-- Declarations up to the end-of-text token, which is read too.  Tokens that
begin no declaration are passed over. -/
def program (ts : List Token) : Parsed Program :=
  match ts with
  | [] => .error .endOfTokens
  | t :: ts =>
    match t.kind with
    | .endOfText => .ok (.empty, ts)
    | .use =>
      match h : path ts with
      | .error stop => .error stop
      | .ok (found, rest) =>
        have := (reads_path h).length_le
        match program rest with
        | .ok (others, rest) => .ok ({ others with paths := found :: others.paths }, rest)
        | .error stop => .error stop
    | .query =>
      match h : block ts with
      | .error stop => .error stop
      | .ok (found, rest) =>
        have := (reads_block h).length_le
        match program rest with
        | .ok (others, rest) => .ok ({ others with blocks := found :: others.blocks }, rest)
        | .error stop => .error stop
    | _ => program ts
termination_by ts.length

end Grammar
end RecordQuery
