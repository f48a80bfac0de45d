/-
One program after another.

Two texts that are programs are a program together, one below the other: the paths of
the first and then of the second, and so for the blocks (`ofText_append`).  Neither
what cuts tokens nor what reads them looks across the line feed between the texts.

A token of the first text ends there at the latest, unless it is an unclosed quote.
A block ends with a keyword of its own, and a path goes on only with a dot.
-/
import RecordQuery.Proofs.Grammar.Places
import RecordQuery.Proofs.Scanning

namespace RecordQuery
namespace Token

section
variable {p : Position} {cs : List Char} {ts : List Token}

/-- The place where a text begins shows in the places of its tokens only. -/
theorem Scans.face_eq (hs : Scans p cs ts) (q : Position) :
    (scan q cs).map face = ts.map face := by
  induction hs generalizing q with
  | ends =>
    rw [scan_nil]
    rfl
  | blank hc _ ih => rw [scan_blank hc, ih]
  | token hcut _ ih =>
    rw [scan_token hcut, List.map_cons, List.map_cons, ih]
    rfl

/-- A text without an unclosed quote has its tokens also before a line feed. -/
theorem Scans.append (hs : Scans p cs ts) (hq : ∀ t ∈ ts, ¬ t.Unclosed) (rest : List Char) :
    ∃ front p' q, ts = front ++ [ending p'] ∧
      scan p (cs ++ '\n' :: rest) = front ++ scan q rest := by
  induction hs with
  | @ends p => exact ⟨[], p, p.next '\n', rfl, scan_blank (by decide)⟩
  | blank hc _ ih =>
    obtain ⟨front, p', q, rfl, hscan⟩ := ih hq
    exact ⟨front, p', q, rfl, by rw [List.cons_append, scan_blank hc, hscan]⟩
  | @token p c cs kind tail ts hcut hs ih =>
    obtain ⟨hclosed, hq⟩ := List.forall_mem_cons.mp hq
    obtain ⟨front, p', q, rfl, hscan⟩ := ih hq
    have hlater : Cut c (cs ++ '\n' :: rest) kind tail := by
      refine hcut.append (by decide) (fun _ => rfl) fun hk => not_or.mp fun hquote => ?_
      exact hclosed ⟨hk, c, by simp [lexemeOf, hk], hquote⟩
    refine ⟨_ :: front, p', q, rfl, ?_⟩
    rw [List.cons_append, scan_token hlater, List.take_append_of_le_length hcut.tail_le_length,
      List.drop_append_of_le_length hcut.tail_le_length, hscan]
    rfl

end

end Token

namespace Grammar

theorem SpellsProgram.ne_nil {xs : List Token} {found : Program} (h : SpellsProgram xs found) :
    xs ≠ [] :=
  h.ended.closed.ne_nil

/-- The items of a program come before those of what is put in the place of its end. -/
theorem SpellsProgram.append {xs ys : List Token} {found later : Program}
    (h : SpellsProgram xs found) (hlater : SpellsProgram ys later) (hdot : Apart [.dot] ys) :
    SpellsProgram (xs.dropLast ++ ys)
      ⟨found.paths ++ later.paths, found.blocks ++ later.blocks⟩ := by
  induction h with
  | ends => exact hlater
  | passed he hu hq hx ih =>
    rw [List.dropLast_cons_of_ne_nil hx.ne_nil]
    exact .passed he hu hq ih
  | @path t us vs first others more ht hx ha hv ih =>
    -- What comes after the path is what came after it, or else it is the later program.
    have hnext : Apart more (vs.dropLast ++ ys) := by
      obtain rfl : more = [.dot] := by
        cases hx
        rfl
      cases vs with
      | nil => exact absurd rfl hv.ne_nil
      | cons v vs =>
        cases vs with
        | nil => exact hdot
        | cons w vs => simpa using ha
    rw [← List.cons_append, List.dropLast_append_of_ne_nil hv.ne_nil, List.append_assoc,
      List.cons_append]
    exact .path ht hx hnext ih
  | @block t us vs first others ht hx hv ih =>
    rw [← List.cons_append, List.dropLast_append_of_ne_nil hv.ne_nil, List.append_assoc,
      List.cons_append]
    exact .block ht hx ih

end Grammar

namespace Program

/-- Two programs, one below the other. -/
theorem ofText_append {text₁ text₂ : String} {program₁ program₂ : Program}
    (h₁ : ofText text₁ = .ok program₁) (h₂ : ofText text₂ = .ok program₂)
    (hclosed : ∀ t ∈ Token.ofText text₁, ¬ t.Unclosed)
    (hdot : ∀ t ∈ (Token.ofText text₂).head?, t.kind ≠ .dot) :
    ofText (text₁ ++ "\n" ++ text₂) =
      .ok ⟨program₁.paths ++ program₂.paths, program₁.blocks ++ program₂.blocks⟩ := by
  rw [ofText_eq_ok, ofTokens_eq_ok] at h₁ h₂ ⊢
  obtain ⟨front, p, q, hfront, hscan⟩ :=
    (Token.scans .start text₁.toList).append hclosed text₂.toList
  have htext : (text₁ ++ "\n" ++ text₂).toList = text₁.toList ++ '\n' :: text₂.toList := by
    simp
  have hface := (Token.scans .start text₂.toList).face_eq q
  have hfirst : Grammar.SpellsProgram (front ++ [Token.ending p]) program₁ := by
    rw [← hfront]
    exact Grammar.program_spelled (Token.closed_ofText text₁) h₁
  have hlater : Grammar.SpellsProgram (Token.scan q text₂.toList) program₂ :=
    Grammar.program_spelled (Token.scans q text₂.toList).ended.closed
      (Grammar.program_of_face hface h₂)
  have hdot' : Grammar.Apart [.dot] (Token.ofText text₂) := by
    simpa [Grammar.Apart] using hdot
  have htogether := hfirst.append hlater (Grammar.apart_of_face hface hdot')
  rw [List.dropLast_concat] at htogether
  rw [Token.ofText, htext, hscan, ← List.append_nil (front ++ _)]
  exact Grammar.program_complete htogether []

/-- A path with a comment after it, and a block with a stray word before it. -/
def upper : String :=
  "USE a//b"

def lower : String :=
  "c QUERY q COUNT RETURN"

theorem ofText_append_upper_lower :
    ofText upper = .ok ⟨[⟨⟨"a", []⟩, [], none⟩], []⟩ ∧
      ofText lower = .ok ⟨[], [⟨"q", [⟨none, .count .everything⟩]⟩]⟩ ∧
      (∀ t ∈ Token.ofText upper, ¬ t.Unclosed) ∧
      (∀ t ∈ (Token.ofText lower).head?, t.kind ≠ .dot) ∧
      ofText (upper ++ "\n" ++ lower) =
        .ok ⟨[⟨⟨"a", []⟩, [], none⟩], [⟨"q", [⟨none, .count .everything⟩]⟩]⟩ := by
  have hupper : Token.ofText upper = [⟨.use, "USE", 1, 1⟩, ⟨.identifier, "a", 1, 5⟩,
      ⟨.comment, "//b", 1, 6⟩, ⟨.endOfText, "", 1, 9⟩] := by
    decide +kernel
  have hlower : Token.ofText lower = [⟨.identifier, "c", 1, 1⟩, ⟨.query, "QUERY", 1, 3⟩,
      ⟨.identifier, "q", 1, 9⟩, ⟨.count, "COUNT", 1, 11⟩, ⟨.return_, "RETURN", 1, 17⟩,
      ⟨.endOfText, "", 1, 23⟩] := by
    decide +kernel
  have h₁ : ofText upper = .ok ⟨[⟨⟨"a", []⟩, [], none⟩], []⟩ := by
    have hpath : Grammar.path [⟨.identifier, "a", 1, 5⟩, ⟨.comment, "//b", 1, 6⟩,
        ⟨.endOfText, "", 1, 9⟩] =
        .ok (⟨⟨"a", []⟩, [], none⟩, [⟨.comment, "//b", 1, 6⟩, ⟨.endOfText, "", 1, 9⟩]) :=
      @Grammar.path_complete [⟨.identifier, "a", 1, 5⟩] _ _ _ (.dotted (.name rfl) .none)
        (by simp) (by simp)
    rw [ofText_eq_ok, ofTokens_eq_ok, hupper, Grammar.program_use rfl hpath,
      Grammar.program_pass (by simp) (by simp) (by simp), Grammar.program_end rfl]
    rfl
  have h₂ : ofText lower = .ok ⟨[], [⟨"q", [⟨none, .count .everything⟩]⟩]⟩ := by
    have hblock : Grammar.block [⟨.identifier, "q", 1, 9⟩, ⟨.count, "COUNT", 1, 11⟩,
        ⟨.return_, "RETURN", 1, 17⟩, ⟨.endOfText, "", 1, 23⟩] =
        .ok (⟨"q", [⟨none, .count .everything⟩]⟩, [⟨.endOfText, "", 1, 23⟩]) := by
      rw [Grammar.block_named rfl, Grammar.statements_read rfl rfl, Grammar.statements_end rfl]
      rfl
    rw [ofText_eq_ok, ofTokens_eq_ok, hlower,
      Grammar.program_pass (by simp) (by simp) (by simp), Grammar.program_query rfl hblock,
      Grammar.program_end rfl]
    rfl
  have hclosed : ∀ t ∈ Token.ofText upper, ¬ t.Unclosed := by
    rw [hupper]
    simp [Token.Unclosed]
  have hdot : ∀ t ∈ (Token.ofText lower).head?, t.kind ≠ .dot := by
    rw [hlower]
    simp
  exact ⟨h₁, h₂, hclosed, hdot, ofText_append h₁ h₂ hclosed hdot⟩

end Program
end RecordQuery
