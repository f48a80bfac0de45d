/-
What the report of a refused token shows.

A refusal is reported at the place of a token, which counts line feeds, and the report
shows the line with that number and a caret under the column.  The caret stands where the
raw text of the token begins on its line; the line that is shown is the one of the token
only if nothing but line feeds breaks a line up to there (`Program.ofText_excerpt`).
-/
import RecordQuery.Proofs.Grammar.Blame
import RecordQuery.Proofs.Lines
import RecordQuery.Proofs.Scanning.Tiles

namespace RecordQuery

namespace Token

open Text

/-- Every token but the last one stands before its raw text, which begins with no white
space. -/
theorem Scans.exists_place {p : Position} {before cs : List Char} {ts : List Token} {t : Token}
    (hs : Scans p cs ts) (hp : p = Position.start.after before) (ht : t ∈ ts)
    (hk : t.kind ≠ .endOfText) :
    ∃ front c tail rest, before ++ cs = front ++ (c :: tail ++ rest) ∧ Raw t (c :: tail) ∧
      isLayout c = false ∧ Placed front t := by
  induction hs generalizing before with
  | ends =>
    rw [List.mem_singleton.mp ht] at hk
    exact absurd rfl hk
  | @blank p c cs ts hc _ ih =>
    have hafter : p.next c = Position.start.after (before ++ [c]) := by
      rw [Position.after_append, ← hp]
      rfl
    obtain ⟨front, d, tail, rest, heq, hplace⟩ := ih hafter ht
    exact ⟨front, d, tail, rest, by simpa using heq, hplace⟩
  | @token p c cs kind tail ts hcut _ ih =>
    rcases List.mem_cons.mp ht with rfl | ht
    · refine ⟨before, c, cs.take tail, cs.drop tail, ?_, hcut.raw rfl rfl,
        hcut.isLayout_eq_false, placed_of_after hp rfl rfl⟩
      rw [List.cons_append, List.take_append_drop]
    · have hafter : p.after (c :: cs.take tail) =
          Position.start.after (before ++ c :: cs.take tail) := by
        rw [Position.after_append, ← hp]
      obtain ⟨front, d, more, rest, heq, hplace⟩ := ih hafter ht
      refine ⟨front, d, more, rest, ?_, hplace⟩
      rw [← heq, List.append_assoc, List.cons_append, List.take_append_drop]

end Token

/-- A number is never refused for where it stands. -/
theorem Grammar.numeral_ne_refused {lexeme : String} {expected : Expected} {t : Token} :
    numeral lexeme ≠ .error (.refused expected t) := by
  intro h
  simp only [numeral] at h
  repeat' split at h
  all_goals cases h

namespace Program

open Text

/-- What an excerpt shows of a token whose raw text stands between two parts of a text.  It has
two lines.  The second is a caret under the first character that the raw text has on its line,
and the first is this line if and only if it is intact. -/
structure Excerpted (t : Token) (before raw rest first : List Char) (shown : Option String) :
    Prop where
  isRaw : t.Raw raw
  ne_nil : raw ≠ []
  placed : Token.Placed before t
  eq_lines : shown = some (String.ofList
    (first ++ '\n' :: List.replicate (lastLine before).length ' ' ++ ['^']))
  no_feed : '\n' ∉ first
  at_caret : (sourceLine before (raw ++ rest))[(lastLine before).length]? = raw.head?
  line_iff : first = sourceLine before (raw ++ rest) ↔ Intact before (raw ++ rest)

theorem excerpt_of_placed {text : String} {before after line : List Char} {t : Token}
    (ht : text.toList = before ++ after) (hp : Token.Placed before t)
    (hline : (lines (before ++ after))[before.count '\n']? = some line) :
    excerpt text t.line t.column = some (String.ofList
      (line ++ '\n' :: List.replicate (lastLine before).length ' ' ++ ['^'])) := by
  have hcount : (t.line - 1).toNat = before.count '\n' := by
    rw [hp.line]
    omega
  have hcolumn : (t.column - 1).toNat = (lastLine before).length := by
    rw [hp.column, lastLine, List.length_reverse]
    omega
  have hpositive : ¬ t.line < 1 := by
    rw [hp.line]
    omega
  rw [excerpt, if_neg hpositive, ht, hcount, hline, hcolumn]
  rfl

section
variable {text : String} {expected : Grammar.Expected} {line column : Int} {shown : Option String}
  (h : ofText text = .error (.refused expected line column shown))

include h

/-- A refusal of a text is reported at the place of one of its tokens, with the excerpt for that
place. -/
theorem ofText_refused : (∃ t ∈ Token.ofText text, t.line = line ∧ t.column = column) ∧
    shown = excerpt text line column := by
  simp only [ofText, ofTokens] at h
  cases hp : Grammar.program (Token.ofText text) with
  | ok found =>
    obtain ⟨found, rest⟩ := found
    cases rest <;> simp [hp] at h
  | error stop =>
    cases stop with
    | endOfTokens | badNumeral => simp [hp] at h
    | refused found t =>
      simp only [hp, Except.error.injEq, ParseError.refused.injEq] at h
      obtain ⟨-, rfl, rfl, rfl⟩ := h
      have ht : t ∈ Token.ofText text := by
        cases Grammar.program_accountable hp with
        | token ht => exact ht
        | numeral _ _ hn => exact absurd hn Grammar.numeral_ne_refused
      exact ⟨⟨t, ht, rfl, rfl⟩, rfl⟩

/-- A refusal of a text is reported at the place of one of its tokens, and if this is not the
end, there is an excerpt for the token. -/
theorem ofText_excerpt :
    (∃ t ∈ Token.ofText text, t.line = line ∧ t.column = column) ∧
    ∀ t ∈ Token.ofText text, t.kind ≠ .endOfText → t.line = line → t.column = column →
      ∃ before raw rest first, text.toList = before ++ (raw ++ rest) ∧
        Excerpted t before raw rest first shown := by
  obtain ⟨hplace, hshown⟩ := ofText_refused h
  refine ⟨hplace, fun t ht hk hline hcolumn => ?_⟩
  have hstart : Token.Position.start = Token.Position.start.after [] := rfl
  obtain ⟨before, c, tail, rest, htext, hraw, hlayout, hplaced⟩ :=
    (Token.scans .start text.toList).exists_place hstart ht hk
  have hafter : c :: tail ++ rest ≠ [] := List.cons_ne_nil c _
  obtain ⟨first, hfirst, hfeed, hiff⟩ := @exists_line_count before _ hafter
  have hexcerpt := excerpt_of_placed htext hplaced hfirst
  have hne {d : Char} (hd : Token.isLayout d) : c ≠ d := by
    intro heq
    rw [heq, hd] at hlayout
    cases hlayout
  refine ⟨before, c :: tail, rest, first, htext, hraw, List.cons_ne_nil c tail, hplaced, ?_, hfeed,
    getElem?_sourceLine (hne rfl) (hne rfl) _, hiff⟩
  rw [hshown, ← hline, ← hcolumn, hexcerpt]

end

/-- A missing name on the second of two lines, the first of which ends with a carriage
return. -/
def unnamed : String :=
  "// a\r\nQUERY 1 RETURN"

theorem ofText_excerpt_unnamed :
    ofText unnamed = .error (.refused .queryName 2 7 (some "QUERY 1 RETURN\n      ^")) ∧
      (∃ t ∈ Token.ofText unnamed, t.line = 2 ∧ t.column = 7) ∧
      ⟨.number, "1", 2, 7⟩ ∈ Token.ofText unnamed ∧
      ∃ before raw rest first, unnamed.toList = before ++ (raw ++ rest) ∧
        Excerpted ⟨.number, "1", 2, 7⟩ before raw rest first
          (some "QUERY 1 RETURN\n      ^") := by
  have hrefused : ofText unnamed =
      .error (.refused .queryName 2 7 (some "QUERY 1 RETURN\n      ^")) := by
    with_unfolding_all rfl
  have htoken : (⟨.number, "1", 2, 7⟩ : Token) ∈ Token.ofText unnamed := by
    have htokens : Token.ofText unnamed = [⟨.comment, "// a\r", 1, 1⟩, ⟨.query, "QUERY", 2, 1⟩,
        ⟨.number, "1", 2, 7⟩, ⟨.return_, "RETURN", 2, 9⟩, ⟨.endOfText, "", 2, 15⟩] := by
      decide +kernel
    simp [htokens]
  obtain ⟨hplace, hexcerpt⟩ := ofText_excerpt hrefused
  exact ⟨hrefused, hplace, htoken, hexcerpt _ htoken (by decide) rfl rfl⟩

/-- A missing name behind a comment that a form feed breaks into two lines. -/
def fed : String :=
  "// a\x0cb\nQUERY 1 RETURN"

/-- The first line of an excerpt can be another one than the line of the token. -/
theorem ofText_excerpt_fed :
    ¬ ∀ text expected line column shown,
      ofText text = .error (.refused expected line column shown) →
      ∀ t ∈ Token.ofText text, t.kind ≠ .endOfText → t.line = line → t.column = column →
        ∃ before raw rest, text.toList = before ++ (raw ++ rest) ∧ t.Raw raw ∧
          Token.Placed before t ∧ shown = some (String.ofList (sourceLine before (raw ++ rest) ++
            '\n' :: List.replicate (lastLine before).length ' ' ++ ['^'])) := by
  intro h
  have hrefused : ofText fed = .error (.refused .queryName 2 7 (some "b\n      ^")) := by
    with_unfolding_all rfl
  have htoken : (⟨.number, "1", 2, 7⟩ : Token) ∈ Token.ofText fed := by
    have htokens : Token.ofText fed = [⟨.comment, "// a\x0cb", 1, 1⟩, ⟨.query, "QUERY", 2, 1⟩,
        ⟨.number, "1", 2, 7⟩, ⟨.return_, "RETURN", 2, 9⟩, ⟨.endOfText, "", 2, 15⟩] := by
      decide +kernel
    simp [htokens]
  obtain ⟨before, raw, rest, -, hraw, hplaced, hshown⟩ :=
    h _ _ _ _ _ hrefused _ htoken (by decide) rfl rfl
  have hone : raw = ['1'] := by
    cases hraw with
    | quoted hk => cases hk
    | plain => rfl
  subst hone
  have hindent : (lastLine before).length = 6 := by
    have hcolumn : (7 : Int) = 1 + (lastLine before).length := by
      rw [lastLine, List.length_reverse]
      exact hplaced.column
    omega
  have hline := @getElem?_sourceLine before '1' (by decide) (by decide) rest
  rw [hindent] at hline
  obtain ⟨hlt, -⟩ := List.getElem?_eq_some_iff.mp hline
  have hseventh : "b\n      ^".toList[6]? = some '1' := by
    rw [Option.some.inj hshown, String.toList_ofList, List.append_assoc]
    exact (List.getElem?_append_left hlt).trans hline
  exact absurd hseventh (by decide)

end Program
end RecordQuery
