/-
Where the conditions of a program come from.

Each condition of a program that was read is spelled by a stretch of its tokens
(`Program.exists_spelled`).  The variables stand in that stretch in the order in which the
condition reads them (`SpellsCondition.reads_eq`), and no literal in it holds an integer
that is too long to be written out (`SpellsCondition.literals_writable`).
-/
import RecordQuery.Condition
import RecordQuery.Proofs.Outcome

namespace RecordQuery

/-- A comparison within a condition. -/
structure Comparison where
  field : String
  relation : Comparator
  operand : Operand

/-- The comparisons of a condition, from left to right. -/
def Condition.comparisons : Condition → List Comparison
  | compare field relation operand => [⟨field, relation, operand⟩]
  | and left right | or left right => left.comparisons ++ right.comparisons
  | not inner => inner.comparisons

def Operation.conditions : Operation → List Condition
  | select selection | count selection => selection.condition.toList
  | percentOf part whole => part.condition.toList ++ whole.condition.toList
  | _ => []

def Block.conditions (block : Block) : List Condition :=
  block.statements.flatMap fun statement => statement.operation.conditions

/-- The conditions of a program, in order. -/
def Program.conditions (program : Program) : List Condition :=
  program.blocks.flatMap Block.conditions

/-- The variable that a token refers to. -/
def Token.variable? (t : Token) : Option String :=
  if t.kind = .reference then (Grammar.variableName t).toOption else none

namespace Grammar

theorem operand_variable? {t : Token} {found : Operand} (h : operand t = .ok found) :
    t.variable?.toList = match found with
      | .reference name => [name]
      | .literal _ => [] := by
  unfold operand at h
  unfold Token.variable?
  split at h
  · next hk =>
    cases h
    simp [hk]
  · next hk =>
    obtain ⟨n, -, rfl⟩ := map_eq_ok.mp h
    simp [hk]
  · next hk =>
    cases h
    simp [hk]
  · next hk =>
    cases h
    simp [hk]
  · next hk =>
    obtain ⟨name, hn, rfl⟩ := map_eq_ok.mp h
    simp [hk, hn, Except.toOption]
  · cases h

theorem numeral_writable {lexeme : String} {n : Number} (h : numeral lexeme = .ok n) :
    (Value.number n).writable := by
  simp only [numeral] at h
  split at h
  · split at h
    · cases h
      rfl
    · cases h
  · split at h
    · next m count hi =>
      split at h
      · next hc =>
        cases h
        have hlt := Numeral.lt_firstUnwritable (Numeral.natAbs_lt_of_integer? hi) hc
        rw [Value.writable]
        exact decide_eq_true hlt
      · cases h
    · cases h

theorem operand_writable {t : Token} {value : Value} (h : operand t = .ok (.literal value)) :
    value.writable := by
  unfold operand at h
  split at h
  · cases h
    rfl
  · obtain ⟨n, hn, ⟨⟩⟩ := map_eq_ok.mp h
    exact numeral_writable hn
  · cases h
    rfl
  · cases h
    rfl
  · obtain ⟨name, -, ⟨⟩⟩ := map_eq_ok.mp h
  · cases h

theorem variable?_of_ne {t : Token} (h : t.kind ≠ .reference) : t.variable? = none :=
  if_neg h

/-- A condition reads the variables that its tokens refer to, in their order. -/
theorem SpellsCondition.reads_eq {tier : Tier} {xs : List Token} {c : Condition}
    (h : SpellsCondition tier xs c) : c.reads = xs.filterMap Token.variable? := by
  induction h with
  | @compare f r o relation value hf hr ho =>
    have hlast : [o].filterMap Token.variable? = o.variable?.toList := by
      cases hv : o.variable? <;> simp [hv]
    rw [List.filterMap_cons_none (variable?_of_ne (by simp [hf])),
      List.filterMap_cons_none (variable?_of_ne (by simp [hr])), hlast, operand_variable? ho]
    cases value <;> rfl
  | paren hl _ hr ih =>
    rw [List.filterMap_cons_none (variable?_of_ne (by simp [hl])), List.filterMap_append,
      List.filterMap_cons_none (variable?_of_ne (by simp [hr])), List.filterMap_nil,
      List.append_nil, ih]
  | not hn _ ih =>
    rw [List.filterMap_cons_none (variable?_of_ne (by simp [hn])), ← ih]
    rfl
  | and _ hm _ ihl ihr | or _ hm _ ihl ihr =>
    rw [List.filterMap_append, List.filterMap_cons_none (variable?_of_ne (by simp [hm])), ← ihl,
      ← ihr]
    rfl
  | primary _ ih | negation _ ih | conjunction _ ih => exact ih

theorem SpellsCondition.literals_writable {tier : Tier} {xs : List Token} {c : Condition}
    (h : SpellsCondition tier xs c) :
    ∀ comparison ∈ c.comparisons, ∀ value, comparison.operand = .literal value →
      value.writable := by
  induction h with
  | @compare f r o relation found hf hr ho =>
    intro comparison hm value hv
    obtain rfl := List.mem_singleton.mp hm
    obtain rfl : found = .literal value := hv
    exact operand_writable ho
  | and _ _ _ ihl ihr | or _ _ _ ihl ihr =>
    exact List.forall_mem_append.mpr ⟨ihl, ihr⟩
  | paren _ _ _ ih | not _ _ ih | primary _ ih | negation _ ih | conjunction _ ih => exact ih

/-! ## From a program to its conditions -/

/-- Each of the conditions is spelled by a stretch of the tokens. -/
def SpelledIn (xs : List Token) (conditions : List Condition) : Prop :=
  ∀ c ∈ conditions, ∃ own, own <:+: xs ∧ SpellsCondition .disjunction own c

section
variable {xs ys : List Token} {more : List Token.Kind}

theorem SpelledIn.mono {conditions : List Condition} (h : SpelledIn xs conditions)
    (hsub : xs <:+: ys) : SpelledIn ys conditions := by
  intro c hc
  obtain ⟨own, hown, hspells⟩ := h c hc
  exact ⟨own, hown.trans hsub, hspells⟩

theorem SpelledIn.append {conditions others : List Condition} (hx : SpelledIn xs conditions)
    (hy : SpelledIn ys others) : SpelledIn (xs ++ ys) (conditions ++ others) :=
  List.forall_mem_append.mpr
    ⟨hx.mono (List.infix_append' [] xs ys), hy.mono (List.suffix_append xs ys).isInfix⟩

theorem spelledIn_nil (xs : List Token) : SpelledIn xs [] :=
  fun _ hc => absurd hc List.not_mem_nil

theorem SpellsWhere.spelledIn {condition : Option Condition} (h : SpellsWhere xs condition more) :
    SpelledIn xs condition.toList := by
  cases h with
  | omitted => exact spelledIn_nil []
  | @given w l r own c _ _ hx _ =>
    intro other hc
    obtain rfl : other = c := List.mem_singleton.mp hc
    exact ⟨own, ⟨[w, l], [r], by simp⟩, hx⟩

theorem SpellsSelect.spelledIn {selection : Select} (h : SpellsSelect xs selection more) :
    SpelledIn xs selection.condition.toList := by
  cases h with
  | clauses _ _ hz _ _ =>
    exact hz.spelledIn.mono ((List.suffix_append _ _).trans (List.suffix_append _ _)).isInfix

theorem SpellsInner.spelledIn {selection : Select} (h : SpellsInner xs selection more) :
    SpelledIn xs selection.condition.toList := by
  cases h with
  | marked _ hy _ => exact hy.spelledIn.mono (List.suffix_append _ _).isInfix

theorem SpellsWhole.spelledIn {selection : Select} (h : SpellsWhole xs selection more) :
    SpelledIn xs selection.condition.toList := by
  cases h with
  | omitted => exact spelledIn_nil []
  | given _ hx => exact hx.spelledIn.mono (List.suffix_cons _ _).isInfix

theorem SpellsOperation.spelledIn {kind : Token.Kind} {found : Operation}
    (h : SpellsOperation kind xs found more) : SpelledIn xs found.conditions := by
  cases h with
  | select hx => exact hx.spelledIn
  | count hx => exact hx.spelledIn
  | percentOf hx =>
    cases hx with
    | operands hpart _ hwhole _ _ =>
      exact hpart.spelledIn.append (hwhole.spelledIn.mono (List.suffix_append _ _).isInfix)
  | aggregate => exact spelledIn_nil _
  | arithmetic => exact spelledIn_nil _

theorem SpellsStatement.spelledIn {t : Token} {found : Statement}
    (h : SpellsStatement t xs found more) : SpelledIn xs found.operation.conditions := by
  cases h with
  | plain hx => exact hx.spelledIn
  | assigned _ _ hx => exact hx.spelledIn.mono (List.suffix_cons _ _).isInfix

theorem SpellsStatements.spelledIn {r : Token} {found : List Statement}
    (h : SpellsStatements r xs found) :
    SpelledIn xs (found.flatMap fun statement => statement.operation.conditions) := by
  induction h with
  | none => exact spelledIn_nil []
  | passed _ _ _ ih => exact ih.mono (List.suffix_cons _ _).isInfix
  | read hx _ _ ih => exact (hx.spelledIn.append ih).mono (List.suffix_cons _ _).isInfix

theorem SpellsBlock.spelledIn {found : Block} (h : SpellsBlock xs found) :
    SpelledIn xs found.conditions := by
  cases h with
  | @named n r own statements _ hx _ =>
    exact hx.spelledIn.mono ⟨[n], [r], by simp⟩

theorem SpellsProgram.spelledIn {found : Program} (h : SpellsProgram xs found) :
    SpelledIn xs found.conditions := by
  induction h with
  | ends _ => exact spelledIn_nil _
  | passed _ _ _ _ ih => exact ih.mono (List.suffix_cons _ _).isInfix
  | path _ _ _ _ ih =>
    exact ih.mono ((List.suffix_append _ _).trans (List.suffix_cons _ _)).isInfix
  | block _ hx _ ih =>
    exact (hx.spelledIn.append ih).mono (List.suffix_cons _ _).isInfix

end

end Grammar

/-- Each condition of a program that was read is spelled by a stretch of its tokens. -/
theorem Program.exists_spelled {tokens : List Token} {program : Program}
    (h : ofTokens tokens = .ok program) {condition : Condition}
    (hc : condition ∈ program.conditions) :
    ∃ own, own <:+: tokens ∧ Grammar.SpellsCondition .disjunction own condition :=
  have hp := ofTokens_eq_ok.mp h
  (Grammar.program_spelled (Grammar.closed_of_program hp) hp).spelledIn condition hc

end RecordQuery
