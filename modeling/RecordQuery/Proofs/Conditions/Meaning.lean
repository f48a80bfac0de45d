/-
Conditions mean what they say.

A comparison by itself is true or false of a row (`Comparison.Decides`): the row reads a
value for the field, the operand denotes one, and the relation holds between the two or
does not.  From the truth of its comparisons every condition has a truth value, for which
both operands of `&` and `|` count (`Condition.meaning`).

Testing takes the operands from the left and stops at the first that decides, so it may
pass over comparisons.  Where all comparisons decide this makes no difference
(`Condition.test_eq_meaning`), and they do decide once the variables are assigned, unless
an operand is too long to be written out.  What tokens spell has no such literal, so with
variables that can be written out a condition of a program stops at nothing
(`Condition.parsed_meaning`).
-/
import RecordQuery.Proofs.Conditions.Origin
import RecordQuery.Proofs.Overflow.Conditions

namespace RecordQuery

/-! ## One comparison -/

/-- What a row reads for a field: the value that the field has, and null where there is no
such field or the row is no record. -/
inductive Value.Reads : Value → String → Value → Prop
  | field {fields : List (String × Value)} {name : String} {value : Value} :
      Table.get? fields name = some value → Reads (.record fields) name value
  | missing {fields : List (String × Value)} {name : String} :
      Table.get? fields name = none → Reads (.record fields) name .null
  | other {row : Value} {name : String} : row.isRecord = false → Reads row name .null

theorem Value.reads_field (row : Value) (name : String) : row.Reads name (row.field name) := by
  cases row with
  | record fields =>
    cases h : Table.get? fields name with
    | none =>
      have hnull : (record fields).field name = .null := by simp [Value.field, field?, h]
      exact hnull ▸ .missing h
    | some value =>
      have hvalue : (record fields).field name = value := by simp [Value.field, field?, h]
      exact hvalue ▸ .field h
  | _ => exact .other rfl

theorem Value.Reads.eq_field {row value : Value} {name : String} (h : row.Reads name value) :
    value = row.field name := by
  cases h with
  | field hf => simp [Value.field, field?, hf]
  | missing hf => simp [Value.field, field?, hf]
  | other hr => cases row <;> first | rfl | cases hr

/-- The value that an operand stands for, given the variables. -/
inductive Operand.Denotes (store : Table Value) : Operand → Value → Prop
  | literal {value : Value} : Denotes store (.literal value) value
  | reference {name : String} {value : Value} :
      store.get? name = some value → Denotes store (.reference name) value

theorem Operand.value_eq_ok {store : Table Value} {operand : Operand} {value : Value} :
    operand.value store = .ok value ↔ operand.Denotes store value := by
  cases operand with
  | literal found =>
    constructor
    · rintro ⟨⟩
      exact .literal
    · rintro ⟨⟩
      rfl
  | reference name =>
    rw [Operand.value]
    cases h : store.get? name with
    | none =>
      refine iff_of_false (fun h => by cases h) fun hd => ?_
      cases hd with
      | reference hg => simp [h] at hg
    | some found =>
      constructor
      · rintro ⟨⟩
        exact .reference h
      · intro hd
        cases hd with
        | reference hg => exact congrArg Except.ok (Option.some.inj (h.symm.trans hg))

namespace Comparison

variable {store : Table Value} {row : Value} {comparison : Comparison}

/-- A comparison by itself is true of a row, or false. -/
def Decides (store : Table Value) (row : Value) (comparison : Comparison) (truth : Bool) : Prop :=
  ∃ actual expected, row.Reads comparison.field actual ∧
    comparison.operand.Denotes store expected ∧
    comparison.relation.holds actual expected = .ok truth

/-- The truth of a comparison by itself, if it has one. -/
def verdict (store : Table Value) (row : Value) (comparison : Comparison) : Bool :=
  match comparison.operand.value store with
  | .ok expected =>
    match comparison.relation.holds (row.field comparison.field) expected with
    | .ok truth => truth
    | .error _ => false
  | .error _ => false

theorem Decides.verdict_eq {truth : Bool} (h : comparison.Decides store row truth) :
    comparison.verdict store row = truth := by
  obtain ⟨actual, expected, hactual, hexpected, hholds⟩ := h
  rw [hactual.eq_field] at hholds
  simp only [verdict, Operand.value_eq_ok.mpr hexpected, hholds]

/-- A comparison is true or false of a row if its operand denotes something and nothing is
too long to be written out. -/
theorem decides_verdict {expected : Value} (hd : comparison.operand.Denotes store expected)
    (hw : expected.writable) (hr : row.writable) :
    comparison.Decides store row (comparison.verdict store row) := by
  have hraises := (comparison.relation.holds_raises (row.field comparison.field) expected).mono
    (q := Fault.OfSize) (by rintro fault rfl; trivial)
  have hfield := Value.writable_field hr comparison.field
  obtain ⟨truth, htruth⟩ := Overflowed.exists_ok hraises fun ho =>
    ((Comparator.holds_overflowed hfield).mp ho).2.2 hw
  have h : comparison.Decides store row truth :=
    ⟨_, expected, row.reads_field comparison.field, hd, htruth⟩
  rwa [h.verdict_eq]

end Comparison

/-! ## Whole conditions -/

namespace Condition

variable {store : Table Value} {row : Value} {condition : Condition}

/-- The truth of a condition, from that of its comparisons. -/
def meaning (truth : Comparison → Bool) : Condition → Bool
  | compare field relation operand => truth ⟨field, relation, operand⟩
  | and left right => left.meaning truth && right.meaning truth
  | or left right => left.meaning truth || right.meaning truth
  | not inner => !inner.meaning truth

/-- The truth of a condition for a row. -/
def satisfied (store : Table Value) (row : Value) (condition : Condition) : Bool :=
  condition.meaning (Comparison.verdict store row)

/-- Nothing that a condition compares with is too long to be written out. -/
def Writable (store : Table Value) (condition : Condition) : Prop :=
  ∀ comparison ∈ condition.comparisons, ∀ value, comparison.operand.Denotes store value →
    value.writable

/-- Where all comparisons decide, those that are passed over would not change anything. -/
theorem test_eq_meaning {truth : Comparison → Bool}
    (h : ∀ comparison ∈ condition.comparisons, comparison.Decides store row (truth comparison)) :
    condition.test store row = .ok (condition.meaning truth) := by
  induction condition with
  | compare field relation operand =>
    obtain ⟨actual, expected, hactual, hexpected, hholds⟩ := h _ List.mem_cons_self
    rw [hactual.eq_field] at hholds
    exact bind_eq_ok.mpr ⟨expected, Operand.value_eq_ok.mpr hexpected, hholds⟩
  | and left right ihl ihr =>
    obtain ⟨hl, hr⟩ := List.forall_mem_append.mp h
    refine bind_eq_ok.mpr ⟨_, ihl hl, ?_⟩
    cases hleft : left.meaning truth with
    | true => simpa [meaning, hleft] using ihr hr
    | false => simp [meaning, hleft]
  | or left right ihl ihr =>
    obtain ⟨hl, hr⟩ := List.forall_mem_append.mp h
    refine bind_eq_ok.mpr ⟨_, ihl hl, ?_⟩
    cases hleft : left.meaning truth with
    | true => simp [meaning, hleft]
    | false => simpa [meaning, hleft] using ihr hr
  | not inner ih => exact map_eq_ok.mpr ⟨_, ih h, rfl⟩

/-- The operand of a comparison denotes something if the variables are assigned. -/
theorem exists_denotes (h : condition.missingVariable? store = none) :
    ∀ comparison ∈ condition.comparisons, ∃ value, comparison.operand.Denotes store value := by
  have hall : ∀ name ∈ condition.reads, store.has name := by
    simpa [missingVariable?] using h
  clear h
  induction condition with
  | compare field relation operand =>
    intro comparison hm
    obtain rfl := List.mem_singleton.mp hm
    cases operand with
    | literal value => exact ⟨value, .literal⟩
    | reference name =>
      obtain ⟨value, hv⟩ := Option.isSome_iff_exists.mp (hall name List.mem_cons_self)
      exact ⟨value, .reference hv⟩
  | and left right ihl ihr | or left right ihl ihr =>
    obtain ⟨hl, hr⟩ := List.forall_mem_append.mp hall
    exact List.forall_mem_append.mpr ⟨ihl hl, ihr hr⟩
  | not inner ih => exact ih hall

theorem decides_of_writable (h : condition.missingVariable? store = none)
    (hw : condition.Writable store) (hr : row.writable) :
    ∀ comparison ∈ condition.comparisons,
      comparison.Decides store row (comparison.verdict store row) := by
  intro comparison hm
  obtain ⟨value, hd⟩ := exists_denotes h comparison hm
  exact Comparison.decides_verdict hd (hw comparison hm value hd) hr

/-- A condition keeps the rows that satisfy it. -/
theorem filter_eq_satisfied (h : condition.missingVariable? store = none)
    (hw : condition.Writable store) {rows : List Value} (hr : ∀ row ∈ rows, row.writable) :
    condition.filter store rows = .ok (rows.filter fun row => condition.satisfied store row) := by
  induction rows with
  | nil => rfl
  | cons row rest ih =>
    obtain ⟨hrow, hrest⟩ := List.forall_mem_cons.mp hr
    rw [filter, test_eq_meaning (decides_of_writable h hw hrow), ih hrest, List.filter_cons]
    rfl

/-! ## Conditions that were read -/

theorem writable_of_parsed {tokens : List Token} {program : Program}
    (hp : Program.ofTokens tokens = .ok program) (hc : condition ∈ program.conditions)
    (hs : ∀ entry ∈ store, entry.2.writable) : condition.Writable store := by
  obtain ⟨own, -, hspells⟩ := Program.exists_spelled hp hc
  intro comparison hm value hd
  cases ho : comparison.operand with
  | literal found =>
    rw [ho] at hd
    cases hd
    exact hspells.literals_writable comparison hm _ ho
  | reference name =>
    rw [ho] at hd
    cases hd with
    | reference hg => exact hs _ (Table.mem_of_get? hg)

end Condition

/-- A name is the first of several that a table does not have. -/
def Table.FirstMissing {α : Type} (table : Table α) (names : List String) (name : String) : Prop :=
  ∃ before after, names = before ++ name :: after ∧ table.has name = false ∧
    ∀ earlier ∈ before, table.has earlier

theorem Table.missing?_eq_some {α : Type} {table : Table α} {names : List String} {name : String} :
    table.missing? names = some name ↔ table.FirstMissing names name := by
  unfold missing? FirstMissing
  rw [List.find?_eq_some_iff_append]
  simp only [Bool.not_eq_true', Bool.not_not]
  constructor
  · rintro ⟨hname, before, after, heq, hbefore⟩
    exact ⟨before, after, heq, hname, hbefore⟩
  · rintro ⟨before, after, heq, hname, hbefore⟩
    exact ⟨hname, before, after, heq, hbefore⟩

namespace Condition

/-- A condition of a program refuses variables that lack one of those its tokens refer to,
and reports the first of these.  Otherwise, if no variable holds anything too long to be
written out, testing a row stops at nothing: its comparisons are true or false of the row,
each by itself, and the condition is what they make it.  So two conditions that are
equivalent whatever their comparisons are keep the same rows. -/
theorem parsed_meaning {tokens : List Token} {program : Program}
    (hp : Program.ofTokens tokens = .ok program) {condition : Condition}
    (hc : condition ∈ program.conditions) {store : Table Value}
    (hs : ∀ entry ∈ store, entry.2.writable) :
    (∃ own, own <:+: tokens ∧ Grammar.SpellsCondition .disjunction own condition ∧
      (∀ name, condition.missingVariable? store = some name ↔
        store.FirstMissing (own.filterMap Token.variable?) name) ∧
      (condition.missingVariable? store = none ↔
        ∀ name ∈ own.filterMap Token.variable?, store.has name)) ∧
    (condition.missingVariable? store = none →
      (∀ row : Value, row.writable → ∃ truth : Comparison → Bool,
        (∀ comparison ∈ condition.comparisons,
          comparison.Decides store row (truth comparison)) ∧
        condition.test store row = .ok (condition.meaning truth)) ∧
      ∀ {others : List Token} {second : Program}, Program.ofTokens others = .ok second →
        ∀ other ∈ second.conditions, other.missingVariable? store = none →
          (∀ truth, condition.meaning truth = other.meaning truth) →
          ∀ rows : List Value, (∀ row ∈ rows, row.writable) →
            ∃ kept, condition.filter store rows = .ok kept ∧
              other.filter store rows = .ok kept) := by
  have hw := writable_of_parsed hp hc hs
  refine ⟨?_, fun hm => ⟨fun row hr => ?_, ?_⟩⟩
  · obtain ⟨own, hown, hspells⟩ := Program.exists_spelled hp hc
    refine ⟨own, hown, hspells, ?_⟩
    rw [← hspells.reads_eq]
    exact ⟨fun name => Table.missing?_eq_some, by simp [missingVariable?]⟩
  · have hdecides := decides_of_writable hm hw hr
    exact ⟨_, hdecides, test_eq_meaning hdecides⟩
  · intro others second hsecond other ho hom hequivalent rows hrows
    refine ⟨_, filter_eq_satisfied hm hw hrows, ?_⟩
    rw [filter_eq_satisfied hom (writable_of_parsed hsecond ho hs) hrows]
    simp only [satisfied, hequivalent]

/-- A block of two counts, where not both comparisons hold and where one of them does not. -/
def denialBlock : List Token :=
  [⟨.identifier, "q", 1, 7⟩, ⟨.count, "COUNT", 1, 9⟩, ⟨.where_, "WHERE", 1, 15⟩,
    ⟨.leftParen, "(", 1, 21⟩, ⟨.not, "!", 1, 22⟩, ⟨.leftParen, "(", 1, 23⟩,
    ⟨.identifier, "a", 1, 24⟩, ⟨.comparator .equal, "=", 1, 26⟩, ⟨.number, "1", 1, 28⟩,
    ⟨.ampersand, "&", 1, 30⟩, ⟨.identifier, "t", 1, 32⟩,
    ⟨.comparator .contains, "CONTAINS", 1, 34⟩, ⟨.reference, "$x", 1, 43⟩,
    ⟨.rightParen, ")", 1, 45⟩, ⟨.rightParen, ")", 1, 46⟩, ⟨.count, "COUNT", 1, 48⟩,
    ⟨.where_, "WHERE", 1, 54⟩, ⟨.leftParen, "(", 1, 60⟩, ⟨.not, "!", 1, 61⟩,
    ⟨.identifier, "a", 1, 62⟩, ⟨.comparator .equal, "=", 1, 64⟩, ⟨.number, "1", 1, 66⟩,
    ⟨.pipe, "|", 1, 68⟩, ⟨.not, "!", 1, 70⟩, ⟨.identifier, "t", 1, 71⟩,
    ⟨.comparator .contains, "CONTAINS", 1, 73⟩, ⟨.reference, "$x", 1, 82⟩,
    ⟨.rightParen, ")", 1, 84⟩, ⟨.return_, "RETURN", 1, 86⟩, ⟨.endOfText, "", 1, 92⟩]

def denials : List Token :=
  ⟨.query, "QUERY", 1, 1⟩ :: denialBlock

def notBoth : Condition :=
  .not (.and (.compare "a" .equal (.literal (.int 1))) (.compare "t" .contains (.reference "x")))

def eitherNot : Condition :=
  .or (.not (.compare "a" .equal (.literal (.int 1))))
    (.not (.compare "t" .contains (.reference "x")))

def denied : Program :=
  ⟨[], [⟨"q", [⟨none, .count ⟨.all, some notBoth, false⟩⟩,
    ⟨none, .count ⟨.all, some eitherNot, false⟩⟩]⟩]⟩

theorem ofTokens_denials : Program.ofTokens denials = .ok denied := by
  have hblock : Grammar.block denialBlock =
      .ok (denied.blocks.head (by simp [denied]), [⟨.endOfText, "", 1, 92⟩]) := by
    rw [denialBlock, Grammar.block_named rfl, Grammar.statements_read rfl rfl,
      Grammar.statements_read rfl rfl, Grammar.statements_end rfl]
    rfl
  rw [Program.ofTokens_eq_ok, denials, Grammar.program_query rfl hblock, Grammar.program_end rfl]
  rfl

/-- Rows that differ in the comparisons, one of them no record. -/
def taggedRows : List Value :=
  [.record [("a", .text "1"), ("t", .list [.text "u"])], .record [("t", .list [.text "u"])],
    .null]

theorem parsed_meaning_denials :
    Program.ofTokens denials = .ok denied ∧ notBoth ∈ denied.conditions ∧
      notBoth.missingVariable? [] = some "x" ∧
      notBoth.missingVariable? [("x", .text "u")] = none ∧
      (∃ truth : Comparison → Bool, (∀ comparison ∈ notBoth.comparisons,
        comparison.Decides [("x", .text "u")] .null (truth comparison)) ∧
        notBoth.test [("x", .text "u")] .null = .ok (notBoth.meaning truth)) ∧
      ∃ kept, notBoth.filter [("x", .text "u")] taggedRows = .ok kept ∧
        eitherNot.filter [("x", .text "u")] taggedRows = .ok kept := by
  have hboth : notBoth ∈ denied.conditions := List.mem_cons_self
  have heither : eitherNot ∈ denied.conditions := List.mem_cons_of_mem _ List.mem_cons_self
  have hstore : ∀ entry ∈ [("x", Value.text "u")], entry.2.writable := by
    simp [Value.writable]
  have hmeaning : ∀ truth, notBoth.meaning truth = eitherNot.meaning truth := by
    simp [notBoth, eitherNot, meaning]
  have hrows : ∀ row ∈ taggedRows, row.writable := by
    simp [taggedRows, Value.writable, Value.itemsWritable, Value.fieldsWritable]
  obtain ⟨hrow, hequivalent⟩ := (parsed_meaning ofTokens_denials hboth hstore).2 rfl
  exact ⟨ofTokens_denials, hboth, rfl, rfl, hrow .null rfl,
    hequivalent ofTokens_denials eitherNot heither rfl hmeaning taggedRows hrows⟩

end Condition
end RecordQuery
