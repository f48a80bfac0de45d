/-
Every stop has its cause among the tokens.

A function of the grammar stops because the tokens end, because one of them
cannot stand where it stands, or because one of them is a number whose lexeme
denotes none (`Blames`).  What a function leaves is the end of what it was given,
so the cause of a stop further on is among the tokens as well.
-/
import RecordQuery.Proofs.Grammar.Loops

namespace RecordQuery
namespace Grammar

/-- What it is among some tokens that brings about a stop. -/
inductive Blames (ts : List Token) : Stop → Prop
  | ended : Blames ts .endOfTokens
  | token {expected : Expected} {t : Token} : t ∈ ts → Blames ts (.refused expected t)
  | numeral {t : Token} {stop : Stop} :
      t ∈ ts → t.kind = .number → numeral t.lexeme = .error stop → Blames ts stop

theorem Blames.mono {xs ts : List Token} {stop : Stop} (h : Blames xs stop) (hs : xs ⊆ ts) :
    Blames ts stop := by
  cases h with
  | ended => exact .ended
  | token ht => exact .token (hs ht)
  | numeral ht hk hn => exact .numeral (hs ht) hk hn

theorem Blames.cons {t : Token} {ts : List Token} {stop : Stop} (h : Blames ts stop) :
    Blames (t :: ts) stop :=
  h.mono (List.subset_cons_self t ts)

/-- That the stops of a parser have their causes among the tokens it is given. -/
def Accountable {α : Type} (parse : List Token → Parsed α) : Prop :=
  ∀ ⦃ts stop⦄, parse ts = .error stop → Blames ts stop

theorem Accountable.map {α β : Type} {parse : List Token → Parsed α} (h : Accountable parse)
    (g : α → β) : Accountable fun ts => (parse ts).map fun (v, rest) => (g v, rest) :=
  fun _ _ hp => h (map_eq_error.mp hp)

theorem expect_accountable (kind : Token.Kind) (expected : Expected) :
    Accountable (expect kind expected) := by
  intro ts stop h
  cases ts with
  | nil =>
    cases h
    exact .ended
  | cons t ts =>
    simp only [expect] at h
    split at h <;> cases h
    exact .token List.mem_cons_self

/-! ## Names and paths -/

theorem moreNames_accountable (expected : Expected) : Accountable (moreNames expected) := by
  intro ts stop h
  fun_induction moreNames expected ts with
  | case1 | case2 =>
    cases h
    exact .ended
  | case3 | case5 | case8 => cases h
  | case4 | case9 =>
    cases h
    exact .token List.mem_cons_self
  | case6 t name ts _ _ stop' heq ih =>
    cases h
    exact (ih heq).cons.cons
  | case7 t name ts =>
    cases h
    exact .token (List.mem_cons_of_mem t List.mem_cons_self)

theorem nameList_accountable (expected : Expected) : Accountable (nameList expected) := by
  intro ts stop h
  simp only [nameList] at h
  split at h
  · next h₁ =>
    cases h
    exact expect_accountable _ _ h₁
  · next name rest h₁ =>
    split at h
    · cases h
    · next h₂ =>
      cases h
      exact (moreNames_accountable expected h₂).mono (reads_expect _ _ h₁).subset

theorem segment_accountable : Accountable segment := by
  intro ts stop h
  cases ts with
  | nil =>
    cases h
    exact .ended
  | cons t ts =>
    simp only [segment] at h
    split at h
    · cases h
    · split at h
      · cases h
      · next h₁ =>
        cases h
        exact (nameList_accountable _ h₁).cons
    · cases h
      exact .token List.mem_cons_self

theorem moreSegments_accountable (bracketed : Bool) : Accountable (moreSegments bracketed) := by
  intro ts stop h
  fun_induction moreSegments bracketed ts with
  | case1 | case3 | case5 => cases h
  | case2 b t ts ht stop' h₁ =>
    cases h
    exact (segment_accountable h₁).cons
  | case4 b t ts ht names next rest h₁ _ stop' h₂ ih =>
    cases h
    exact ((ih h₂).mono (reads_segment h₁).subset).cons

theorem path_accountable : Accountable path := by
  intro ts stop h
  simp only [path] at h
  split at h
  · next h₁ =>
    cases h
    exact segment_accountable h₁
  · next first bracketed rest h₁ =>
    split at h
    · cases h
    · next h₂ =>
      cases h
      exact (moreSegments_accountable _ h₂).mono (reads_segment h₁).subset

/-! ## Conditions -/

theorem variableName_blames {t : Token} {ts : List Token} {stop : Stop} (ht : t ∈ ts)
    (h : variableName t = .error stop) : Blames ts stop := by
  simp only [variableName] at h
  split at h <;> split at h <;> cases h <;> exact .token ht

theorem operand_blames {t : Token} {ts : List Token} {stop : Stop} (ht : t ∈ ts)
    (h : operand t = .error stop) : Blames ts stop := by
  unfold operand at h
  split at h
  · cases h
  · next hk => exact .numeral ht hk (map_eq_error.mp h)
  · cases h
  · cases h
  · exact variableName_blames ht (map_eq_error.mp h)
  · cases h
    exact .token ht

theorem comparison_accountable : Accountable comparison := by
  intro ts stop h
  simp only [comparison] at h
  split at h
  · next h₁ =>
    cases h
    exact expect_accountable _ _ h₁
  · next field rest h₁ =>
    refine Blames.mono ?_ (reads_expect _ _ h₁).subset
    split at h
    · cases h
      exact .ended
    · next t rest =>
      split at h
      · cases h
        exact .ended
      · next value rest _ =>
        split at h
        · cases h
        · next ho =>
          cases h
          exact operand_blames (List.mem_cons_of_mem t List.mem_cons_self) ho
      · cases h
        exact .token List.mem_cons_self

section
variable {inner : List Token → Parsed Condition} (hi : Accountable inner) (hr : Reads inner)
include hi hr

theorem primary_accountable : Accountable (primary inner) := by
  intro ts stop h
  cases ts with
  | nil =>
    cases h
    exact .ended
  | cons t ts =>
    simp only [primary] at h
    split at h
    · split at h
      · next h₁ =>
        cases h
        exact (hi h₁).cons
      · next c rest h₁ =>
        split at h
        · cases h
        · next h₂ =>
          cases h
          exact ((expect_accountable _ _ h₂).mono (hr h₁).subset).cons
    · exact comparison_accountable h

theorem unary_accountable : Accountable (unary inner) := by
  intro ts stop h
  induction ts with
  | nil =>
    cases h
    exact .ended
  | cons t ts ih =>
    simp only [unary] at h
    split at h
    · split at h
      · cases h
      · next h₁ =>
        cases h
        exact (ih h₁).cons
    · exact primary_accountable hi hr h

end

section
variable {mark : Token.Kind} {join : Condition → Condition → Condition}
variable {term : List Token → Parsed Condition} (ht : Accountable term) (hr : Reads term)
include ht hr

theorem chain_accountable (count : Nat) (left : Condition) :
    Accountable (chain mark join term count left) := by
  intro ts stop h
  induction count generalizing left ts with
  | zero => cases h
  | succ count ih =>
    cases ts with
    | nil => cases h
    | cons t ts =>
      simp only [chain] at h
      split at h
      · split at h
        · next h₁ => exact ((ih _ h).mono (hr h₁).subset).cons
        · cases h
        · next h₁ =>
          cases h
          exact (ht h₁).cons
      · cases h

theorem chained_accountable : Accountable (chained mark join term) := by
  intro ts stop h
  simp only [chained] at h
  split at h
  · next first rest h₁ => exact (chain_accountable ht hr _ _ h).mono (hr h₁).subset
  · next h₁ =>
    cases h
    exact ht h₁

end

theorem conditionWithin_accountable (depth : Nat) : Accountable (conditionWithin depth) := by
  induction depth with
  | zero =>
    intro ts stop h
    cases h
    exact .ended
  | succ depth ih =>
    have hr : Reads (unary (conditionWithin depth)) := reads_unary (reads_conditionWithin depth)
    have hu := unary_accountable ih (reads_conditionWithin depth)
    exact chained_accountable (chained_accountable hu hr) (reads_chained hr)

theorem condition_accountable : Accountable condition :=
  fun ts _ h => conditionWithin_accountable ts.length.succ h

/-! ## Operations -/

theorem whereClause_accountable : Accountable whereClause := by
  intro ts stop h
  cases ts with
  | nil => cases h
  | cons t ts =>
    simp only [whereClause] at h
    split at h
    · refine Blames.cons ?_
      split at h
      · next h₁ =>
        cases h
        exact expect_accountable _ _ h₁
      · next rest₁ h₁ =>
        refine Blames.mono ?_ (reads_expect _ _ h₁).subset
        split at h
        · next h₂ =>
          cases h
          exact condition_accountable h₂
        · next c rest₂ h₂ =>
          split at h
          · cases h
          · next h₃ =>
            cases h
            exact (expect_accountable _ _ h₃).mono (reads_conditionWithin _ h₂).subset
    · cases h

theorem fieldSpec_accountable : Accountable fieldSpec := by
  intro ts stop h
  cases ts with
  | nil =>
    cases h
    exact .ended
  | cons t ts =>
    simp only [fieldSpec] at h
    split at h
    · cases h
    · split at h
      · cases h
      · next h₁ =>
        cases h
        exact (nameList_accountable _ h₁).cons
    · cases h
    · cases h

theorem selectBody_accountable : Accountable selectBody := by
  intro ts stop h
  simp only [selectBody] at h
  refine Blames.mono ?_ (dropKind_suffix .each ts).subset
  split at h
  · next h₁ =>
    cases h
    exact fieldSpec_accountable h₁
  · next fields rest h₁ =>
    split at h
    · cases h
    · next h₂ =>
      cases h
      exact (whereClause_accountable h₂).mono (reads_fieldSpec h₁).subset

theorem innerSelect_accountable : Accountable innerSelect :=
  fun ts _ h => (selectBody_accountable h).mono (dropKind_suffix .select ts).subset

theorem percentage_accountable : Accountable percentage := by
  intro ts stop h
  simp only [percentage] at h
  split at h
  · next h₁ =>
    cases h
    exact innerSelect_accountable h₁
  · next part rest₁ h₁ =>
    split at h
    · cases h
      exact .ended
    · next t rest₂ hd =>
      split at h
      · split at h
        · cases h
        · next h₂ =>
          cases h
          have hsub : t :: rest₂ ⊆ rest₁ := hd ▸ (dropKind_suffix .comma rest₁).subset
          exact ((selectBody_accountable h₂).cons.mono hsub).mono (reads_innerSelect h₁).subset
      · cases h

theorem operands_accountable (operator : Arithmetic) : Accountable (operands operator) := by
  intro ts stop h
  simp only [operands] at h
  split at h
  · next h₁ =>
    cases h
    exact expect_accountable _ _ h₁
  · next left rest₁ h₁ =>
    obtain ⟨rfl, -⟩ := expect_ok h₁
    split at h
    · next h₂ =>
      cases h
      exact (expect_accountable _ _ h₂).cons
    · next right rest₂ h₂ =>
      obtain ⟨rfl, -⟩ := expect_ok h₂
      split at h
      · cases h
      · next hl =>
        cases h
        exact variableName_blames List.mem_cons_self hl
      · next hr _ =>
        cases h
        exact variableName_blames (List.mem_cons_of_mem left List.mem_cons_self) hr

theorem operation_accountable {kind : Token.Kind} {parse : List Token → Parsed Operation}
    (hp : operation kind = some parse) : Accountable parse := by
  unfold operation at hp
  split at hp <;> simp only [Option.some.injEq, reduceCtorEq] at hp <;> subst hp
  · exact selectBody_accountable.map Operation.select
  · exact innerSelect_accountable.map Operation.count
  · exact percentage_accountable
  · exact fun _ _ h => by cases h
  · exact operands_accountable _

theorem assignment_blames {target : Token} {ts : List Token} {stop : Stop}
    (h : assignment target ts = .error stop) : Blames (target :: ts) stop := by
  cases ts with
  | nil =>
    cases h
    exact .ended
  | cons t ts =>
    simp only [assignment] at h
    split at h
    · cases h
      exact .token (List.mem_cons_of_mem target List.mem_cons_self)
    · next parse hp =>
      split at h
      · next h₁ =>
        cases h
        exact (operation_accountable hp h₁).cons.cons
      · split at h
        · cases h
        · next hn =>
          cases h
          exact variableName_blames List.mem_cons_self hn

theorem statement_blames {t : Token} {parse : List Token → Parsed Statement} {ts : List Token}
    {stop : Stop} (hs : statement t = some parse) (h : parse ts = .error stop) :
    Blames (t :: ts) stop := by
  unfold statement at hs
  split at hs
  · cases hs
    exact assignment_blames h
  · obtain ⟨inner, hk, rfl⟩ := Option.map_eq_some_iff.mp hs
    exact ((operation_accountable hk).map _ h).cons

/-! ## Blocks and programs -/

theorem statements_accountable : Accountable statements := by
  intro ts stop h
  fun_induction statements ts with
  | case1 =>
    cases h
    exact .ended
  | case2 | case5 => cases h
  | case3 t ts _ _ ih => exact (ih h).cons
  | case4 t ts _ parse hs stop' hp =>
    cases h
    exact statement_blames hs hp
  | case6 t ts _ parse hs found rest hp _ stop' heq ih =>
    cases h
    exact ((ih heq).mono (reads_statement hs hp).subset).cons

theorem block_accountable : Accountable block := by
  intro ts stop h
  simp only [block] at h
  split at h
  · next h₁ =>
    cases h
    exact expect_accountable _ _ h₁
  · next name rest₁ h₁ =>
    refine Blames.mono ?_ (reads_expect _ _ h₁).subset
    split at h
    · next h₂ =>
      cases h
      exact statements_accountable h₂
    · next found rest₂ h₂ =>
      split at h
      · cases h
      · next h₃ =>
        cases h
        exact (expect_accountable _ _ h₃).mono (reads_statements h₂).subset

theorem program_accountable : Accountable program := by
  intro ts stop h
  fun_induction program ts with
  | case1 =>
    cases h
    exact .ended
  | case2 | case4 | case7 => cases h
  | case3 t ts _ stop' hp =>
    cases h
    exact (path_accountable hp).cons
  | case5 t ts _ found rest hp _ stop' heq ih =>
    cases h
    exact ((ih heq).mono (reads_path hp).subset).cons
  | case6 t ts _ stop' hb =>
    cases h
    exact (block_accountable hb).cons
  | case8 t ts _ found rest hb _ stop' heq ih =>
    cases h
    exact ((ih heq).mono (reads_block hb).subset).cons
  | case9 t ts _ _ _ ih => exact (ih h).cons

end Grammar
end RecordQuery
