/-
The grammar does not look at places.

A change of places keeps the kind and the lexeme of every token.  Every function
of the grammar commutes with it: from the moved tokens it reads the same piece of
a program and leaves the moved rest, or it stops at the moved token.  So all that
the places of tokens can change is where a refusal is reported.

To compare two token lists that differ in places only, both are moved from a third
one, in which the tokens are numbered (`program_numbered`).
-/
import RecordQuery.Proofs.Grammar.Loops

namespace RecordQuery

/-- What the grammar sees of a token. -/
def Token.face (t : Token) : Token.Kind × String :=
  (t.kind, t.lexeme)

namespace Grammar

open Token (face)

/-- A change of the places of tokens, and of nothing else. -/
structure Moves (f : Token → Token) : Prop where
  kind : ∀ t, (f t).kind = t.kind
  lexeme : ∀ t, (f t).lexeme = t.lexeme

def Stop.moved (f : Token → Token) : Stop → Stop
  | endOfTokens => endOfTokens
  | refused expected found => refused expected (f found)
  | badNumeral cause => badNumeral cause

/-- An outcome after a change of places. -/
def moved {α : Type} (f : Token → Token) : Parsed α → Parsed α
  | .ok (v, rest) => .ok (v, rest.map f)
  | .error stop => .error (stop.moved f)

/-- That a parser reads from moved tokens what it reads from the tokens. -/
def Commutes {α : Type} (f : Token → Token) (parse : List Token → Parsed α) : Prop :=
  ∀ ts, parse (ts.map f) = moved f (parse ts)

section
variable {f : Token → Token} {α β : Type}

@[simp] theorem moved_ok (v : α) (rest : List Token) :
    moved f (.ok (v, rest)) = .ok (v, rest.map f) := rfl

@[simp] theorem moved_error (stop : Stop) :
    moved f (.error stop : Parsed α) = .error (stop.moved f) := rfl

@[simp] theorem moved_endOfTokens : Stop.moved f .endOfTokens = .endOfTokens := rfl

@[simp] theorem moved_refused (expected : Expected) (found : Token) :
    Stop.moved f (.refused expected found) = .refused expected (f found) := rfl

theorem moved_map (g : α → β) (outcome : Parsed α) :
    (moved f outcome).map (fun (v, rest) => (g v, rest)) =
      moved f (outcome.map fun (v, rest) => (g v, rest)) := by
  cases outcome <;> rfl

theorem Commutes.map {parse : List Token → Parsed α} (h : Commutes f parse) (g : α → β) :
    Commutes f fun ts => (parse ts).map fun (v, rest) => (g v, rest) := by
  intro ts
  show (parse (ts.map f)).map _ = moved f ((parse ts).map _)
  rw [h ts, moved_map]

end

/-- The segments after a dot, read one at a time. -/
theorem moreSegments_dot {bracketed : Bool} {d : Token} {ts : List Token} (hd : d.kind = .dot) :
    moreSegments bracketed (d :: ts) = (segment ts).bind fun ((names, next), rest) =>
      (moreSegments next rest).map fun ((others, tail), rest) =>
        ((names :: others, tail), rest) := by
  rw [moreSegments, if_pos hd]
  split
  · next h => simp only [h, Except.bind]
  · next names next rest h =>
    simp only [h, Except.bind]
    cases moreSegments next rest <;> rfl

section
variable {f : Token → Token} (hf : Moves f)
include hf

/-- The token that is read is moved as well. -/
theorem expect_moved (kind : Token.Kind) (expected : Expected) (ts : List Token) :
    expect kind expected (ts.map f) =
      (moved f (expect kind expected ts)).map fun (t, rest) => (f t, rest) := by
  cases ts with
  | nil => rfl
  | cons t ts =>
    simp only [List.map_cons, expect, hf.kind]
    split <;> rfl

theorem dropKind_moved (kind : Token.Kind) (ts : List Token) :
    dropKind kind (ts.map f) = (dropKind kind ts).map f := by
  cases ts with
  | nil => rfl
  | cons t ts =>
    simp only [List.map_cons, dropKind, hf.kind]
    split <;> rfl

theorem startsWith_moved (kind : Token.Kind) (ts : List Token) :
    startsWith kind (ts.map f) = startsWith kind ts := by
  cases ts with
  | nil => rfl
  | cons t ts => simp only [List.map_cons, startsWith, hf.kind]

/-! ## Names and paths -/

theorem moreNames_moved (expected : Expected) : Commutes f (moreNames expected) := by
  intro ts
  fun_induction moreNames expected ts with
  | case1 => rfl
  | case2 t ht | case3 t ht => simp [moreNames, hf.kind, ht]
  | case4 t => simp [moreNames, hf.kind]
  | case5 t name ts ht hn names rest heq ih =>
    simp [moreNames, hf.kind, hf.lexeme, ht, hn, ih, heq]
  | case6 t name ts ht hn stop heq ih => simp [moreNames, hf.kind, ht, hn, ih, heq]
  | case7 t name ts ht hn => simp [moreNames, hf.kind, ht, hn]
  | case8 t name ts ht => simp [moreNames, hf.kind, ht]
  | case9 t name ts => simp [moreNames, hf.kind]

theorem nameList_moved (expected : Expected) : Commutes f (nameList expected) := by
  intro ts
  rw [nameList, nameList, expect_moved hf]
  cases expect .identifier expected ts with
  | error stop => rfl
  | ok found =>
    obtain ⟨name, rest⟩ := found
    simp only [moved_ok, Except.map, hf.lexeme, moreNames_moved hf expected rest]
    cases moreNames expected rest <;> rfl

theorem segment_moved : Commutes f segment := by
  intro ts
  cases ts with
  | nil => rfl
  | cons t ts =>
    simp only [List.map_cons, segment, hf.kind, hf.lexeme, nameList_moved hf .pathName ts]
    split
    · rfl
    · cases nameList .pathName ts <;> rfl
    · rfl

theorem moreSegments_moved (bracketed : Bool) : Commutes f (moreSegments bracketed) := by
  intro ts
  fun_induction moreSegments bracketed ts with
  | case1 => simp [moreSegments]
  | case2 b t ts ht stop h₁ =>
    rw [List.map_cons, moreSegments_dot ((hf.kind t).trans ht), segment_moved hf ts, h₁]
    rfl
  | case3 b t ts ht names next rest h₁ _ others tail rest₂ h₂ ih =>
    rw [List.map_cons, moreSegments_dot ((hf.kind t).trans ht), segment_moved hf ts, h₁]
    simp only [moved_ok, Except.bind, ih, h₂]
    rfl
  | case4 b t ts ht names next rest h₁ _ stop h₂ ih =>
    rw [List.map_cons, moreSegments_dot ((hf.kind t).trans ht), segment_moved hf ts, h₁]
    simp only [moved_ok, Except.bind, ih, h₂]
    rfl
  | case5 b t ts ht => simp [moreSegments, hf.kind, ht]

theorem path_moved : Commutes f path := by
  intro ts
  rw [path, path, segment_moved hf ts]
  cases segment ts with
  | error stop => rfl
  | ok found =>
    obtain ⟨⟨first, bracketed⟩, rest⟩ := found
    simp only [moved_ok, moreSegments_moved hf bracketed rest]
    cases moreSegments bracketed rest <;> rfl

/-! ## Conditions -/

theorem variableName_moved (t : Token) :
    variableName (f t) = (variableName t).mapError (Stop.moved f) := by
  simp only [variableName, hf.lexeme]
  split <;> split <;> rfl

omit hf in
theorem numeral_stop_moved {lexeme : String} {stop : Stop} (h : numeral lexeme = .error stop) :
    stop.moved f = stop := by
  simp only [numeral] at h
  repeat' split at h
  all_goals cases h
  all_goals rfl

theorem operand_moved (t : Token) : operand (f t) = (operand t).mapError (Stop.moved f) := by
  simp only [operand, hf.kind, hf.lexeme]
  split
  · rfl
  · cases hn : numeral t.lexeme with
    | ok n => rfl
    | error stop => exact congrArg Except.error (numeral_stop_moved hn).symm
  · rfl
  · rfl
  · rw [variableName_moved hf]
    cases variableName t <;> rfl
  · rfl

theorem comparison_moved : Commutes f comparison := by
  intro ts
  rw [comparison, comparison, expect_moved hf]
  cases expect .identifier .conditionField ts with
  | error stop => rfl
  | ok found =>
    obtain ⟨field, rest⟩ := found
    simp only [moved_ok, Except.map]
    cases rest with
    | nil => rfl
    | cons t rest =>
      cases rest with
      | nil =>
        simp only [List.map_cons, List.map_nil, hf.kind]
        cases t.kind <;> rfl
      | cons value rest =>
        simp only [List.map_cons, hf.kind, hf.lexeme]
        cases t.kind with
        | comparator relation =>
          simp only [operand_moved hf]
          cases operand value <;> rfl
        | _ => rfl

section
variable {inner : List Token → Parsed Condition} (hi : Commutes f inner)
include hi

theorem primary_moved : Commutes f (primary inner) := by
  intro ts
  cases ts with
  | nil => rfl
  | cons t ts =>
    rw [List.map_cons, primary, primary, hf.kind, hi ts]
    split
    · cases inner ts with
      | error stop => rfl
      | ok found =>
        obtain ⟨c, rest⟩ := found
        simp only [moved_ok, expect_moved hf]
        cases expect .rightParen .closingParen rest <;> rfl
    · exact comparison_moved hf (t :: ts)

theorem unary_moved : Commutes f (unary inner) := by
  intro ts
  induction ts with
  | nil => rfl
  | cons t ts ih =>
    rw [List.map_cons, unary, unary, hf.kind, ih]
    split
    · cases unary inner ts <;> rfl
    · exact primary_moved hf hi (t :: ts)

end

section
variable {mark : Token.Kind} {join : Condition → Condition → Condition}
variable {term : List Token → Parsed Condition} (ht : Commutes f term)
include ht

theorem chain_moved (count : Nat) (left : Condition) :
    Commutes f (chain mark join term count left) := by
  intro ts
  induction count generalizing left ts with
  | zero => rfl
  | succ count ih =>
    cases ts with
    | nil => rfl
    | cons t ts =>
      simp only [List.map_cons, chain, hf.kind, ht ts]
      split
      · cases term ts with
        | ok found => exact ih _ found.2
        | error stop => cases stop <;> rfl
      · rfl

theorem chained_moved : Commutes f (chained mark join term) := by
  intro ts
  rw [chained, chained, ht ts]
  cases term ts with
  | error stop => rfl
  | ok found =>
    obtain ⟨first, rest⟩ := found
    simp only [moved_ok, List.length_map]
    exact chain_moved hf ht rest.length first rest

end

theorem conditionWithin_moved (depth : Nat) : Commutes f (conditionWithin depth) := by
  induction depth with
  | zero => exact fun ts => rfl
  | succ depth ih => exact chained_moved hf (chained_moved hf (unary_moved hf ih))

theorem condition_moved : Commutes f condition := by
  intro ts
  rw [condition, condition, List.length_map, conditionWithin_moved hf]

/-! ## Operations -/

theorem whereClause_moved : Commutes f whereClause := by
  intro ts
  cases ts with
  | nil => rfl
  | cons t ts =>
    rw [List.map_cons, whereClause, whereClause, hf.kind, expect_moved hf]
    split
    · cases expect .leftParen .conditionStart ts with
      | error stop => rfl
      | ok found =>
        obtain ⟨_, rest⟩ := found
        simp only [moved_ok, Except.map, condition_moved hf rest]
        cases condition rest with
        | error stop => rfl
        | ok found =>
          obtain ⟨c, rest⟩ := found
          simp only [moved_ok, expect_moved hf]
          cases expect .rightParen .conditionEnd rest <;> rfl
    · rfl

theorem fieldSpec_moved : Commutes f fieldSpec := by
  intro ts
  cases ts with
  | nil => rfl
  | cons t ts =>
    simp only [List.map_cons, fieldSpec, hf.kind, hf.lexeme, nameList_moved hf .fieldName ts]
    split
    · rfl
    · cases nameList .fieldName ts <;> rfl
    · rfl
    · rfl

theorem selectBody_moved : Commutes f selectBody := by
  intro ts
  rw [selectBody, selectBody, dropKind_moved hf, fieldSpec_moved hf, startsWith_moved hf]
  cases fieldSpec (dropKind .each ts) with
  | error stop => rfl
  | ok found =>
    obtain ⟨fields, rest⟩ := found
    simp only [moved_ok, whereClause_moved hf rest]
    cases whereClause rest <;> rfl

theorem innerSelect_moved : Commutes f innerSelect := by
  intro ts
  rw [innerSelect, innerSelect, dropKind_moved hf, selectBody_moved hf]

theorem percentage_moved : Commutes f percentage := by
  intro ts
  rw [percentage, percentage, innerSelect_moved hf ts]
  cases innerSelect ts with
  | error stop => rfl
  | ok found =>
    obtain ⟨part, rest⟩ := found
    simp only [moved_ok, dropKind_moved hf]
    cases dropKind .comma rest with
    | nil => rfl
    | cons t rest =>
      simp only [List.map_cons, hf.kind, selectBody_moved hf rest]
      split
      · cases selectBody rest <;> rfl
      · rfl

theorem operands_moved (operator : Arithmetic) : Commutes f (operands operator) := by
  intro ts
  rw [operands, operands, expect_moved hf]
  cases expect .reference (.leftOperand operator) ts with
  | error stop => rfl
  | ok found =>
    obtain ⟨left, rest⟩ := found
    simp only [moved_ok, Except.map, expect_moved hf]
    cases expect .reference (.rightOperand operator) rest with
    | error stop => rfl
    | ok found =>
      obtain ⟨right, rest⟩ := found
      simp only [moved_ok, variableName_moved hf]
      cases variableName left <;> cases variableName right <;> rfl

theorem operation_moved {kind : Token.Kind} {parse : List Token → Parsed Operation}
    (hp : operation kind = some parse) : Commutes f parse := by
  unfold operation at hp
  split at hp <;> simp only [Option.some.injEq, reduceCtorEq] at hp <;> subst hp
  · exact (selectBody_moved hf).map Operation.select
  · exact (innerSelect_moved hf).map Operation.count
  · exact percentage_moved hf
  · exact fun ts => rfl
  · exact operands_moved hf _

theorem assignment_moved (target : Token) (ts : List Token) :
    assignment (f target) (ts.map f) = moved f (assignment target ts) := by
  cases ts with
  | nil => rfl
  | cons t ts =>
    simp only [List.map_cons, assignment, hf.kind]
    cases hk : operation t.kind with
    | none => rfl
    | some parse =>
      simp only [operation_moved hf hk ts]
      cases parse ts with
      | error stop => rfl
      | ok found =>
        simp only [variableName_moved hf]
        cases variableName target <;> rfl

/-- A moved token begins the statement that the token begins. -/
theorem statement_moved (t : Token) :
    (statement t = none ∧ statement (f t) = none) ∨
      ∃ parse parse', statement t = some parse ∧ statement (f t) = some parse' ∧
        ∀ ts, parse' (ts.map f) = moved f (parse ts) := by
  simp only [statement, hf.kind]
  split
  · exact .inr ⟨_, _, rfl, rfl, assignment_moved hf t⟩
  · cases hk : operation t.kind with
    | none => exact .inl ⟨rfl, rfl⟩
    | some parse => exact .inr ⟨_, _, rfl, rfl, (operation_moved hf hk).map _⟩

/-! ## Blocks and programs -/

theorem statements_moved : Commutes f statements := by
  intro ts
  induction hn : ts.length using Nat.strongRecOn generalizing ts with
  | ind n ih =>
    subst hn
    cases ts with
    | nil => simp [statements]
    | cons t ts =>
      rw [List.map_cons]
      by_cases he : endsBlock t.kind
      · rw [statements_end he, statements_end (by rwa [hf.kind])]
        rfl
      obtain ⟨hs, hs'⟩ | ⟨parse, parse', hs, hs', hparse⟩ := statement_moved hf t
      · rw [statements_pass (by simpa using he) hs,
          statements_pass (by simpa [hf.kind] using he) hs']
        exact ih ts.length (by simp) ts rfl
      have hp' := hparse ts
      cases hp : parse ts with
      | error stop =>
        rw [hp] at hp'
        rw [statements_refuse hs hp, statements_refuse hs' hp']
        rfl
      | ok found =>
        obtain ⟨first, rest⟩ := found
        rw [hp] at hp'
        have hlen : rest.length < (t :: ts).length :=
          Nat.lt_succ_of_le (reads_statement hs hp).length_le
        rw [statements_read hs hp, statements_read hs' hp', ih rest.length hlen rest rfl,
          moved_map]

theorem block_moved : Commutes f block := by
  intro ts
  rw [block, block, expect_moved hf]
  cases expect .identifier .queryName ts with
  | error stop => rfl
  | ok found =>
    obtain ⟨name, rest⟩ := found
    simp only [moved_ok, Except.map, statements_moved hf rest]
    cases statements rest with
    | error stop => rfl
    | ok found =>
      obtain ⟨found, rest⟩ := found
      simp only [moved_ok, expect_moved hf, hf.lexeme]
      cases expect .return_ .blockEnd rest <;> rfl

theorem program_moved : Commutes f program := by
  intro ts
  induction hn : ts.length using Nat.strongRecOn generalizing ts with
  | ind n ih =>
    subst hn
    cases ts with
    | nil => simp [program]
    | cons t ts =>
      rw [List.map_cons]
      by_cases he : t.kind = .endOfText
      · rw [program_end he, program_end ((hf.kind t).trans he)]
        rfl
      by_cases hu : t.kind = .use
      · have hp' := path_moved hf ts
        cases hp : path ts with
        | error stop =>
          rw [hp] at hp'
          rw [program_use_refused hu hp, program_use_refused ((hf.kind t).trans hu) hp']
          rfl
        | ok found =>
          obtain ⟨first, rest⟩ := found
          rw [hp] at hp'
          have hlen : rest.length < (t :: ts).length :=
            Nat.lt_succ_of_le (reads_path hp).length_le
          rw [program_use hu hp, program_use ((hf.kind t).trans hu) hp',
            ih rest.length hlen rest rfl]
          cases program rest <;> rfl
      by_cases hq : t.kind = .query
      · have hb' := block_moved hf ts
        cases hb : block ts with
        | error stop =>
          rw [hb] at hb'
          rw [program_query_refused hq hb, program_query_refused ((hf.kind t).trans hq) hb']
          rfl
        | ok found =>
          obtain ⟨first, rest⟩ := found
          rw [hb] at hb'
          have hlen : rest.length < (t :: ts).length :=
            Nat.lt_succ_of_le (reads_block hb).length_le
          rw [program_query hq hb, program_query ((hf.kind t).trans hq) hb',
            ih rest.length hlen rest rfl]
          cases program rest <;> rfl
      · rw [program_pass he hu hq, program_pass (by rwa [hf.kind]) (by rwa [hf.kind])
          (by rwa [hf.kind])]
        exact ih ts.length (by simp) ts rfl

end

/-! ## Numbered tokens -/

/-- Tokens with the given faces, each with its index for a line. -/
def numbered (faces : List (Token.Kind × String)) : List Token :=
  faces.zipIdx.map fun (face, i) => ⟨face.1, face.2, i, 0⟩

/-- A numbered token moved to the place of the token with its index. -/
def placeAs (ts : List Token) (t : Token) : Token :=
  match ts[t.line.toNat]? with
  | some u => { t with line := u.line, column := u.column }
  | none => t

theorem moves_placeAs (ts : List Token) : Moves (placeAs ts) := by
  constructor
  all_goals
    intro t
    unfold placeAs
    split <;> rfl

section
variable {ts us : List Token} {t : Token} {found : Program}

theorem placeAs_numbered {i : Nat} (h : ts[i]? = some t) :
    placeAs ts ⟨t.kind, t.lexeme, i, 0⟩ = t := by
  simp [placeAs, h]

theorem map_placeAs (ts : List Token) : (numbered (ts.map face)).map (placeAs ts) = ts := by
  refine List.ext_getElem? fun i => ?_
  cases h : ts[i]? with
  | none => simp [numbered, h]
  | some t => simpa [numbered, h, face] using placeAs_numbered h

theorem exists_of_mem_numbered (h : t ∈ numbered (ts.map face)) :
    ∃ i : Nat, t.line = i ∧ ts[i]? = some (placeAs ts t) := by
  obtain ⟨⟨f, i⟩, hi, rfl⟩ := List.mem_map.mp h
  obtain ⟨u, hu, rfl⟩ : ∃ u, ts[i]? = some u ∧ face u = f := by
    simpa using List.mem_zipIdx_iff_getElem?.mp hi
  exact ⟨i, rfl, by rw [hu]; exact congrArg some (placeAs_numbered hu).symm⟩

/-- Tokens are read as the numbered ones of the same faces are. -/
theorem program_numbered (ts : List Token) :
    program ts = moved (placeAs ts) (program (numbered (ts.map face))) := by
  rw [← program_moved (moves_placeAs ts), map_placeAs]

theorem program_of_face (hface : us.map face = ts.map face)
    (h : program ts = .ok (found, [])) : program us = .ok (found, []) := by
  rw [program_numbered] at h ⊢
  rw [hface]
  cases hp : program (numbered (ts.map face)) with
  | error stop => simp [hp] at h
  | ok v =>
    obtain ⟨v, rest⟩ := v
    simp only [hp, moved_ok, Except.ok.injEq, Prod.mk.injEq, List.map_eq_nil_iff] at h ⊢
    exact h

theorem apart_of_face {more : List Token.Kind} (hface : us.map face = ts.map face)
    (h : Apart more ts) : Apart more us := by
  cases us with
  | nil => exact apart_nil more
  | cons u us =>
    cases ts with
    | nil => simp at hface
    | cons t ts =>
      obtain ⟨hu, -⟩ := List.cons.inj hface
      obtain ⟨hk, -⟩ := Prod.mk.inj hu
      rw [apart_cons] at h ⊢
      rwa [hk]

end

end Grammar
end RecordQuery
