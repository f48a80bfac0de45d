/-
What becomes of a token sequence.

A token sequence is a program, or a token of it is refused at its place, or it ends
too early or too late.  It is a program only if its last token and no other ends the
text, and it ends too early or too late only if that is not so; texts always end as
they should (`ofTokens_outcome`).

Three facts carry this.  No item has the end of the text among its tokens, so what is
read in a closed sequence goes up to its first end (`Grammar.program_sound`).  Where
reading stops, a token of the sequence is to blame (`Grammar.program_accountable`).
And a number as texts have them denotes a number unless it is too long.

The depth and the count by which conditions are read are no limits: reading with
larger ones gives the same (`conditionWithin_eq`, `chain_congr`).
-/
import Mathlib.Data.List.Induction
import RecordQuery.Proofs.Grammar.Blame
import RecordQuery.Proofs.Numerals
import RecordQuery.Proofs.Scanning

namespace RecordQuery
namespace Grammar

/-! ## Conditions are read without limits -/

section
variable {inner inner' : List Token → Parsed Condition} {ts : List Token}
variable (h : ∀ us : List Token, us.length < ts.length → inner us = inner' us)
include h

theorem primary_congr : primary inner ts = primary inner' ts := by
  cases ts with
  | nil => rfl
  | cons t ts => rw [primary, primary, h ts (by simp)]

theorem unary_congr : unary inner ts = unary inner' ts := by
  induction ts with
  | nil => rfl
  | cons t ts ih =>
    have hlater : unary inner ts = unary inner' ts :=
      ih fun us hu => h us (Nat.lt_succ_of_lt hu)
    rw [unary, unary, hlater, primary_congr h]

end

section
variable {mark : Token.Kind} {join : Condition → Condition → Condition}
variable {term term' : List Token → Parsed Condition} {ts : List Token}

/-- Each further operand takes a token, so no count that is large enough for the tokens
is used up. -/
theorem chain_congr (ht : Reads term) {count count' : Nat} {left : Condition}
    (hn : ts.length ≤ count) (hn' : ts.length ≤ count')
    (h : ∀ us : List Token, us.length < ts.length → term us = term' us) :
    chain mark join term count left ts = chain mark join term' count' left ts := by
  induction count generalizing count' left ts with
  | zero =>
    obtain rfl := List.eq_nil_of_length_eq_zero (Nat.le_zero.mp hn)
    cases count' <;> rfl
  | succ count ih =>
    cases ts with
    | nil => cases count' <;> rfl
    | cons t ts =>
      obtain ⟨count', rfl⟩ := Nat.exists_eq_add_one_of_ne_zero
        (Nat.ne_of_gt (Nat.lt_of_lt_of_le (Nat.succ_pos _) hn'))
      rw [List.length_cons] at hn hn'
      simp only [chain, ← h ts (by simp)]
      split
      · cases hp : term ts with
        | error stop => cases stop <;> rfl
        | ok found =>
          have hlen := (ht hp).length_le
          exact ih (by omega) (by omega) fun us hu => h us (by
            rw [List.length_cons]
            omega)
      · rfl

theorem chained_congr (ht : Reads term)
    (h : ∀ us : List Token, us.length ≤ ts.length → term us = term' us) :
    chained mark join term ts = chained mark join term' ts := by
  rw [chained, chained, ← h ts (Nat.le_refl _)]
  cases hp : term ts with
  | error stop => rfl
  | ok found =>
    have hlen := (ht hp).length_le
    exact chain_congr ht (Nat.le_refl _) (Nat.le_refl _) fun us hu => h us (by omega)

end

/-- Each parenthesis takes a token, so the depth is never used up. -/
theorem conditionWithin_eq {depth : Nat} {ts : List Token} (h : ts.length < depth) :
    conditionWithin depth ts = condition ts := by
  have hsame : ∀ {depth depth' : Nat} {ts : List Token}, ts.length < depth →
      ts.length < depth' → conditionWithin depth ts = conditionWithin depth' ts := by
    intro depth
    induction depth with
    | zero => exact fun h => absurd h (Nat.not_lt_zero _)
    | succ depth ih =>
      intro depth' ts h h'
      cases depth' with
      | zero => exact absurd h' (Nat.not_lt_zero _)
      | succ depth' =>
        have hinner : ∀ us : List Token, us.length ≤ ts.length →
            unary (conditionWithin depth) us = unary (conditionWithin depth') us :=
          fun us hu => unary_congr fun vs hv => ih (by omega) (by omega)
        have hunary : Reads (unary (conditionWithin depth)) :=
          reads_unary (reads_conditionWithin depth)
        exact chained_congr (reads_chained hunary) fun us hu =>
          chained_congr hunary fun vs hv => hinner vs (hv.trans hu)
  exact hsame h (Nat.lt_succ_self _)

/-! ## Where programs end -/

/-- Nothing comes after the end in tokens that end once. -/
theorem Ended.nothing_after {xs rest : List Token} (hx : Ended xs) (h : Ended (xs ++ rest)) :
    rest = [] := by
  obtain ⟨before, e, rfl, he, -⟩ := hx
  obtain ⟨front, ends, hts, -, hfront⟩ := h
  cases rest using List.reverseRecOn with
  | nil => rfl
  | append_singleton rest last =>
    rw [← List.append_assoc] at hts
    obtain ⟨rfl, -⟩ := List.append_inj' hts rfl
    exact absurd he (hfront e (by simp))

theorem closed_of_program {ts rest : List Token} {found : Program}
    (h : program ts = .ok (found, rest)) : Closed ts := by
  fun_induction program ts generalizing found rest with
  | case1 | case3 | case5 | case6 | case8 => cases h
  | case2 t ts he => exact ⟨t, by simp, he⟩
  | case4 t ts _ first mid hp _ others last hm ih =>
    obtain ⟨e, hmem, he⟩ := ih hm
    exact ⟨e, List.mem_cons_of_mem t ((reads_path hp).subset hmem), he⟩
  | case7 t ts _ first mid hb _ others last hm ih =>
    obtain ⟨e, hmem, he⟩ := ih hm
    exact ⟨e, List.mem_cons_of_mem t ((reads_block hb).subset hmem), he⟩
  | case9 t ts _ _ _ ih =>
    obtain ⟨e, hmem, he⟩ := ih h
    exact ⟨e, List.mem_cons_of_mem t hmem, he⟩

end Grammar

namespace Program

open Grammar (Ended)

/-- That numbers have the form that texts give them, and are not too long to be read. -/
def ReadableNumbers (tokens : List Token) : Prop :=
  ∀ t ∈ tokens, t.kind = .number →
    Numeral.Scanned t.lexeme.toList ∧ Numeral.digitCount t.lexeme ≤ digitLimit

/-- Only tokens that end too early or too late are incomplete. -/
theorem ofTokens_ended {tokens : List Token} (h : Ended tokens) :
    ofTokens tokens ≠ .error .incomplete := by
  obtain ⟨stop, hp, hstop⟩ | ⟨found, xs, rest, hp, rfl, hx⟩ := Grammar.program_sound h.closed
  · cases stop with
    | endOfTokens => exact absurd rfl hstop
    | refused | badNumeral => simp [ofTokens, hp]
  · obtain rfl := hx.ended.nothing_after h
    rw [ofTokens_eq_ok.mpr hp]
    simp

theorem ended_of_ofTokens {tokens : List Token} {program : Program}
    (h : ofTokens tokens = .ok program) : Ended tokens := by
  have hp := ofTokens_eq_ok.mp h
  exact (Grammar.program_spelled (Grammar.closed_of_program hp) hp).ended

theorem ReadableNumbers.numeral_ne {tokens : List Token} (h : ReadableNumbers tokens) {t : Token}
    (ht : t ∈ tokens) (hk : t.kind = .number) (stop : Grammar.Stop) :
    Grammar.numeral t.lexeme ≠ .error stop := by
  obtain ⟨hscanned, hcount⟩ := h t ht hk
  obtain ⟨n, hn⟩ | ⟨hlong, -⟩ := Grammar.numeral_scanned hscanned
  · simp [hn]
  · exact absurd hlong (Nat.not_lt.mpr hcount)

/-- What becomes of a sequence whose numbers can be read, that a text is never incomplete,
and that the depth and the count by which conditions are read are no limits. -/
theorem ofTokens_outcome :
    (∀ tokens, ReadableNumbers tokens →
      (∃ program, ofTokens tokens = .ok program ∧ Ended tokens) ∨
      (∃ expected, ∃ t ∈ tokens,
        ofTokens tokens = .error (.refused expected t.line t.column none)) ∨
      (ofTokens tokens = .error .incomplete ∧ ¬ Ended tokens)) ∧
    (∀ text, ofText text ≠ .error .incomplete) ∧
    (∀ tokens depth, tokens.length < depth →
      Grammar.conditionWithin depth tokens = Grammar.condition tokens) ∧
    ∀ mark join term, Grammar.Reads term → ∀ tokens count left, tokens.length ≤ count →
      Grammar.chain mark join term count left tokens =
        Grammar.chain mark join term tokens.length left tokens := by
  have hincomplete : ∀ {tokens}, ofTokens tokens = .error .incomplete →
      ofTokens tokens = .error .incomplete ∧ ¬ Ended tokens :=
    fun ho => ⟨ho, fun hended => ofTokens_ended hended ho⟩
  refine ⟨fun tokens hnumbers => ?_, fun text h => ?_, fun _ _ => Grammar.conditionWithin_eq,
    fun _ _ _ ht _ _ _ hn => Grammar.chain_congr ht hn (Nat.le_refl _) fun _ _ => rfl⟩
  · cases hp : Grammar.program tokens with
    | ok found =>
      obtain ⟨program, rest⟩ := found
      cases rest with
      | nil =>
        have ho := ofTokens_eq_ok.mpr hp
        exact .inl ⟨program, ho, ended_of_ofTokens ho⟩
      | cons t rest => exact .inr (.inr (hincomplete (by simp [ofTokens, hp])))
    | error stop =>
      right
      cases Grammar.program_accountable hp with
      | ended => exact .inr (hincomplete (by simp [ofTokens, hp]))
      | @token expected t ht => exact .inl ⟨expected, t, ht, by simp [ofTokens, hp]⟩
      | numeral ht hk hn => exact absurd hn (hnumbers.numeral_ne ht hk stop)
  · have ho : ofTokens (Token.ofText text) = .error .incomplete := by
      unfold ofText at h
      split at h <;> simp_all
    exact ofTokens_ended (Token.ended_ofText text) ho

/-- A path, and a token after the end of the text. -/
def overlong : List Token :=
  [⟨.use, "USE", 1, 1⟩, ⟨.identifier, "a", 1, 5⟩, ⟨.number, "12.5", 1, 7⟩,
    ⟨.endOfText, "", 1, 11⟩, ⟨.number, "7", 1, 11⟩]

theorem ofTokens_outcome_overlong :
    ReadableNumbers overlong ∧ overlong.length < 6 ∧ Grammar.Reads Grammar.comparison ∧
      ((∃ program, ofTokens overlong = .ok program ∧ Ended overlong) ∨
        (∃ expected, ∃ t ∈ overlong,
          ofTokens overlong = .error (.refused expected t.line t.column none)) ∨
        (ofTokens overlong = .error .incomplete ∧ ¬ Ended overlong)) ∧
      Grammar.conditionWithin 6 overlong = Grammar.condition overlong ∧
      Grammar.chain .pipe .or Grammar.comparison 6 (.compare "a" .equal (.literal .null)) overlong =
        Grammar.chain .pipe .or Grammar.comparison overlong.length
          (.compare "a" .equal (.literal .null)) overlong := by
  have hnumbers : ReadableNumbers overlong := by
    have hdecimal : Numeral.Scanned (['1', '2'] ++ '.' :: ['5']) :=
      .decimal (by decide) (List.all_eq_true.mp (by decide)) (by decide)
        (List.all_eq_true.mp (by decide))
    have hwhole : Numeral.Scanned ['7'] := .whole (by decide) (List.all_eq_true.mp (by decide))
    simp only [ReadableNumbers, overlong, List.forall_mem_cons]
    refine ⟨by simp, by simp, fun _ => ⟨hdecimal, by decide⟩, by simp,
      fun _ => ⟨hwhole, by decide⟩, by simp⟩
  exact ⟨hnumbers, by decide, Grammar.reads_comparison, ofTokens_outcome.1 _ hnumbers,
    ofTokens_outcome.2.2.1 _ _ (by decide),
    ofTokens_outcome.2.2.2 _ _ _ Grammar.reads_comparison _ _ _ (by decide)⟩

end Program
end RecordQuery
