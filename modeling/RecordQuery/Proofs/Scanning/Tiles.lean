/-
Nothing of a text is lost.

The white space of a text and the raw texts of its tokens, in their order, are the
text: they tile it (`Tiles`).  A token says where its raw text begins, and this is
the only thing besides its kind and its lexeme that it says.

Only an unclosed quote makes a token of no known kind longer than a character, and
nothing comes after it.
-/
import Mathlib.Data.List.Induction
import Mathlib.Data.List.Nodup
import RecordQuery.Proofs.Scanning

namespace RecordQuery
namespace Token

/-- The raw text of a token is its lexeme.  A string has quotes around it, of which
none stands inside. -/
inductive Raw (t : Token) : List Char → Prop
  | quoted {q : Char} : t.kind = .string → q = '"' ∨ q = '\'' → q ∉ t.lexeme.toList →
      Raw t (q :: (t.lexeme.toList ++ [q]))
  | plain : t.kind ≠ .string → Raw t t.lexeme.toList

/-- That a token stands behind some text, of which the last line is the one that the
token stands on. -/
structure Placed (before : List Char) (t : Token) : Prop where
  line : t.line = 1 + before.count '\n'
  column : t.column = 1 + (before.reverse.takeWhile (· ≠ '\n')).length

/-- What is left of a text, as white space and tokens, behind the part that came
before. -/
inductive Tiles : List Char → List Char → List Token → Prop
  | ends {before : List Char} {t : Token} :
      t.kind = .endOfText → Placed before t → Tiles before [] [t]
  | blank {before cs : List Char} {c : Char} {ts : List Token} :
      c ∈ [' ', '\t', '\r', '\n'] → Tiles (before ++ [c]) cs ts → Tiles before (c :: cs) ts
  | token {before raw cs : List Char} {t : Token} {ts : List Token} :
      t.kind ≠ .endOfText → Raw t raw → raw ≠ [] → Placed before t →
      Tiles (before ++ raw) cs ts → Tiles before (raw ++ cs) (t :: ts)

/-! ## Places -/

theorem Position.after_append (p : Position) (cs ds : List Char) :
    p.after (cs ++ ds) = (p.after cs).after ds :=
  List.foldl_append

theorem Position.after_start (before : List Char) :
    Position.start.after before = ⟨1 + before.count '\n',
      1 + (before.reverse.takeWhile (· ≠ '\n')).length⟩ := by
  induction before using List.reverseRecOn with
  | nil => rfl
  | append_singleton before c ih =>
    rw [after_append, ih, List.reverse_append]
    show Position.next _ c = _
    by_cases hc : c = '\n'
    · simp [Position.next, hc, Nat.add_assoc]
    · simp [Position.next, hc, Nat.add_comm]

theorem placed_of_after {before : List Char} {p : Position} {t : Token}
    (hp : p = Position.start.after before) (hline : t.line = p.line)
    (hcolumn : t.column = p.column) : Placed before t := by
  rw [Position.after_start] at hp
  subst hp
  exact ⟨by simp [hline], by simp [hcolumn]⟩

/-! ## Raw texts -/

/-- What a token is cut from is its raw text. -/
theorem Cut.raw {c : Char} {cs : List Char} {kind : Kind} {tail : Nat} (h : Cut c cs kind tail)
    {t : Token} (hk : t.kind = kind) (hl : t.lexeme = lexemeOf kind (c :: cs.take tail)) :
    Raw t (c :: cs.take tail) := by
  by_cases hs : kind = .string
  · subst hs
    obtain ⟨hq, hlt, rfl⟩ := h.string_inv
    have hbody : t.lexeme.toList = cs.take (run (· ≠ c) cs) := by
      rw [hl, lexemeOf, if_pos rfl, String.toList_ofList, List.tail_cons,
        take_run_succ hlt, List.dropLast_concat]
    have hraw := @Raw.quoted t c hk hq
    rw [hbody, ← take_run_succ hlt] at hraw
    exact hraw fun hm => by simpa using mem_take_run hm
  · have hbody : t.lexeme.toList = c :: cs.take tail := by
      rw [hl, lexemeOf, if_neg hs, String.toList_ofList]
    rw [← hbody]
    exact .plain (hk ▸ hs)

theorem Scans.tiles {p : Position} {before cs : List Char} {ts : List Token}
    (h : Scans p cs ts) (hp : p = Position.start.after before) : Tiles before cs ts := by
  induction h generalizing before with
  | ends => exact .ends rfl (placed_of_after hp rfl rfl)
  | blank hc _ ih =>
    refine .blank (by simpa using isLayout_cases hc) (ih ?_)
    rw [Position.after_append, ← hp]
    rfl
  | @token p c cs kind tail ts hcut _ ih =>
    have hplaced : Placed before ⟨kind, lexemeOf kind (c :: cs.take tail), p.line, p.column⟩ :=
      placed_of_after hp rfl rfl
    have htiles := Tiles.token hcut.kind_ne_endOfText (hcut.raw rfl rfl)
      (List.cons_ne_nil c _) hplaced (ih (by rw [Position.after_append, ← hp]))
    rwa [List.cons_append, List.take_append_drop] at htiles

/-- A token of no known kind that is longer than a character is an unclosed quote. -/
theorem unclosed_of_long {text : String} {t : Token} (h : t ∈ ofText text)
    (hk : t.kind = .unknown) (hl : 1 < t.lexeme.length) : t.Unclosed := by
  obtain h | ⟨c, ds, tail, hcut, hlex⟩ := (scans .start text.toList).mem h
  · exact absurd (hk.symm.trans h) (by decide)
  rw [hk] at hcut hlex
  have hbody : t.lexeme.toList = c :: ds.take tail := by simp [hlex, lexemeOf]
  obtain ⟨hq, -, -⟩ | ⟨-, -, rfl⟩ := hcut.unknown_cases
  · exact ⟨hk, c, by simp [hbody], hq⟩
  · rw [← String.length_toList, hbody] at hl
    simp at hl

/-- The tokens of a text tile it, the last one of them and no other ends it, and an
occurrence of a longer token of no known kind is an unclosed quote before the end. -/
theorem ofText_tiles (text : String) :
    Tiles [] text.toList (ofText text) ∧ Grammar.Ended (ofText text) ∧
      ∀ front t back, ofText text = front ++ t :: back → t.kind = .unknown →
        1 < t.lexeme.length →
        (∃ ends, back = [ends]) ∧
          ∃ q cs, t.lexeme.toList = q :: cs ∧ (q = '"' ∨ q = '\'') ∧ q ∉ cs := by
  refine ⟨(scans .start text.toList).tiles rfl, ended_ofText text, ?_⟩
  intro front t back h hk hl
  have ht : t ∈ ofText text := by simp [h]
  have hquote : t.Unclosed := unclosed_of_long ht hk hl
  obtain ⟨⟨p, hback⟩, hquoted⟩ := (scans .start text.toList).unclosed_last h hquote
  exact ⟨⟨ending p, hback⟩, hquoted⟩

/-- A string over two lines, a number before a lone point and an unclosed quote. -/
def unclosedText : String :=
  "\"a\nb\" 1. 'c d"

theorem ofText_tiles_unclosed :
    ofText unclosedText = [⟨.string, "a\nb", 1, 1⟩, ⟨.number, "1", 2, 4⟩, ⟨.dot, ".", 2, 5⟩] ++
        ⟨.unknown, "'c d", 2, 7⟩ :: [⟨.endOfText, "", 2, 11⟩] ∧
      1 < "'c d".length ∧ (∃ ends, [(⟨.endOfText, "", 2, 11⟩ : Token)] = [ends]) ∧
        ∃ q cs, "'c d".toList = q :: cs ∧ (q = '"' ∨ q = '\'') ∧ q ∉ cs := by
  have htokens : ofText unclosedText =
      [⟨.string, "a\nb", 1, 1⟩, ⟨.number, "1", 2, 4⟩, ⟨.dot, ".", 2, 5⟩] ++
        ⟨.unknown, "'c d", 2, 7⟩ :: [⟨.endOfText, "", 2, 11⟩] := by
    decide +kernel
  exact ⟨htokens, by decide, (ofText_tiles unclosedText).2.2 _ _ _ htokens rfl (by decide)⟩

end Token
end RecordQuery
