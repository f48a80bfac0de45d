/-
The layout of a text does not matter.

A text can be written anew from the raw texts of its tokens, one to a line
(`onLines`).  The tokens keep their kinds and lexemes: a raw text is cut as the same
token before a line feed as it was in the text, unless it is an unclosed quote, and
then it is the last one.  The program is the same as well, or the token at the same
index is refused for the same reason (`ofText_onLines`), since the grammar reads the
kinds and lexemes and not the places.
-/
import Mathlib.Data.List.Forall2
import RecordQuery.Proofs.Grammar.Places
import RecordQuery.Proofs.Outcome
import RecordQuery.Proofs.Scanning.Tiles

namespace RecordQuery
namespace Token

/-- The raw texts of the tokens of a text, without the end of the text. -/
def RawTexts (text : String) (raws : List (List Char)) : Prop :=
  List.Forall₂ Raw ((ofText text).filter fun t => t.kind ≠ .endOfText) raws

/-- A text with every raw text on a line of its own. -/
def onLines (raws : List (List Char)) : String :=
  String.ofList (['\n'].intercalate raws)

/-! ## Raw texts are scanned back -/

section
variable {t : Token} {c : Char} {ds raw : List Char} {tail : Nat}

/-- A raw text alone is cut as its token, whichever quotes it has. -/
theorem Raw.cut (h : Raw t raw) (hcut : Cut c ds t.kind tail)
    (hl : t.lexeme = lexemeOf t.kind (c :: ds.take tail)) :
    lexemeOf t.kind raw = t.lexeme ∧
      ∃ d es, raw = d :: es ∧ Cut d es t.kind es.length ∧
        (t.kind = .unknown → t.lexeme.toList.head? = some d) := by
  cases h with
  | @quoted q hk hq hmem =>
    refine ⟨?_, q, _, rfl, ?_, by simp [hk]⟩
    · rw [lexemeOf, if_pos hk, List.tail_cons, List.dropLast_concat, String.ofList_toList]
    · rw [hk]
      exact .quoted hq fun d hd h => hmem (h ▸ hd)
  | plain hk =>
    have hraw : t.lexeme.toList = c :: ds.take tail := by
      rw [hl, lexemeOf, if_neg hk, String.toList_ofList]
    refine ⟨by rw [lexemeOf, if_neg hk, String.ofList_toList], c, _, hraw, ?_, fun _ => ?_⟩
    · rw [List.length_take_of_le hcut.tail_le_length]
      exact hcut.take
    · rw [hraw, List.head?_cons]

/-- A raw text is cut as its token before the end of the text and, unless it is an
unclosed quote, before a line feed. -/
theorem Raw.standsBefore (h : Raw t raw) (hcut : Cut c ds t.kind tail)
    (hl : t.lexeme = lexemeOf t.kind (c :: ds.take tail)) {rest : List Char}
    (hr : rest = [] ∨ (∃ more, rest = '\n' :: more) ∧ ¬ t.Unclosed) :
    Piece.StandsBefore rest ⟨t.kind, raw⟩ := by
  obtain ⟨-, d, es, rfl, hd, hhead⟩ := h.cut hcut hl
  refine ⟨d, es, rfl, ?_⟩
  obtain rfl | ⟨⟨more, rfl⟩, hu⟩ := hr
  · rwa [List.append_nil]
  · refine hd.append (by decide) (fun _ => rfl) fun hk => ?_
    have hquote : ¬ (d = '"' ∨ d = '\'') := fun hq => hu ⟨hk, d, hhead hk, hq⟩
    exact not_or.mp hquote

end

section
variable {p : Position} {cs : List Char} {ts : List Token}

/-- Every token has a raw text. -/
theorem Scans.exists_raw (hs : Scans p cs ts) :
    ∃ raws, List.Forall₂ Raw (ts.filter fun t => t.kind ≠ .endOfText) raws := by
  induction hs with
  | ends => exact ⟨[], .nil⟩
  | blank _ _ ih => exact ih
  | token hcut _ ih =>
    obtain ⟨raws, hraws⟩ := ih
    rw [List.filter_cons_of_pos (by simpa using hcut.kind_ne_endOfText)]
    exact ⟨_, .cons (hcut.raw rfl rfl) hraws⟩

/-- The tokens that raw texts on lines of their own are scanned as. -/
theorem Scans.face_onLines (hs : Scans p cs ts) {raws : List (List Char)}
    (h : List.Forall₂ Raw (ts.filter fun t => t.kind ≠ .endOfText) raws) (q : Position) :
    (scan q (['\n'].intercalate raws)).map face = ts.map face := by
  induction hs generalizing raws q with
  | ends =>
    cases h
    rw [List.intercalate_nil, scan_nil]
    rfl
  | blank _ _ ih => exact ih h q
  | @token p c cs kind tail ts hcut hs ih =>
    rw [List.filter_cons_of_pos (by simpa using hcut.kind_ne_endOfText)] at h
    cases h with
    | @cons _ raw _ raws hraw hraws =>
      -- What comes after the raw text, and that it is scanned as the later tokens are.
      obtain ⟨rest, hjoin, hrest, hscan⟩ : ∃ rest,
          ['\n'].intercalate (raw :: raws) = raw ++ rest ∧
          (rest = [] ∨ (∃ more, rest = '\n' :: more) ∧ raws ≠ []) ∧
          ∀ q, (scan q rest).map face = ts.map face := by
        by_cases hne : raws = []
        · subst hne
          refine ⟨[], by simp, .inl rfl, fun q => ih hraws q⟩
        · refine ⟨'\n' :: ['\n'].intercalate raws, ?_, .inr ⟨⟨_, rfl⟩, hne⟩, fun q => ?_⟩
          · rw [List.intercalate_cons_of_ne_nil hne, List.append_assoc]
            rfl
          · rw [scan_blank (by decide)]
            exact ih hraws _
      have hclosed : raws ≠ [] →
          ¬ Unclosed ⟨kind, lexemeOf kind (c :: cs.take tail), p.line, p.column⟩ := by
        intro hne hu
        obtain ⟨⟨p', rfl⟩, -⟩ := (Scans.token hcut hs).unclosed_last (List.nil_append _).symm hu
        cases hraws
        exact hne rfl
      have hstands := hraw.standsBefore hcut rfl (hrest.imp_right fun h => ⟨h.1, hclosed h.2⟩)
      obtain ⟨t, q', ⟨hkind, hlexeme⟩, ht⟩ := Piece.scan_piece hstands q
      rw [hjoin, ht, List.map_cons, List.map_cons, hscan, face, hkind, hlexeme,
        (hraw.cut hcut rfl).1]
      rfl

end

end Token

namespace Program

open Token (face RawTexts onLines)

/-- That two texts are the same program, or are refused for the same reason at the tokens
with the same index. -/
inductive SameOutcome (text other : String) :
    Except ParseError Program → Except ParseError Program → Prop
  | program {found : Program} : SameOutcome text other (.ok found) (.ok found)
  | refused {expected : Grammar.Expected} {i : Nat} {t u : Token} :
      (Token.ofText text)[i]? = some t → (Token.ofText other)[i]? = some u →
      SameOutcome text other
        (.error (.refused expected t.line t.column (excerpt text t.line t.column)))
        (.error (.refused expected u.line u.column (excerpt other u.line u.column)))

theorem readableNumbers_ofText {text : String}
    (h : ∀ t ∈ Token.ofText text, t.kind = .number → Numeral.digitCount t.lexeme ≤ digitLimit) :
    ReadableNumbers (Token.ofText text) := by
  refine fun t ht hk => ⟨?_, h t ht hk⟩
  obtain he | ⟨c, ds, tail, hcut, hl⟩ := (Token.scans .start text.toList).mem ht
  · exact absurd (hk.symm.trans he) (by decide)
  · rw [hl, Token.lexemeOf, if_neg (by simp [hk]), String.toList_ofList]
    exact hcut.scanned hk

/-- Texts whose tokens look the same to the grammar. -/
theorem sameOutcome_of_face {text other : String}
    (hface : (Token.ofText other).map face = (Token.ofText text).map face)
    (hn : ReadableNumbers (Token.ofText text)) :
    SameOutcome text other (ofText text) (ofText other) := by
  have hts := Grammar.program_numbered (Token.ofText text)
  have hus := Grammar.program_numbered (Token.ofText other)
  rw [hface] at hus
  have hended := ofTokens_ended (Token.ended_ofText text)
  cases hp : Grammar.program (Grammar.numbered ((Token.ofText text).map face)) with
  | ok found =>
    obtain ⟨found, rest⟩ := found
    rw [hp, Grammar.moved_ok] at hts hus
    cases rest with
    | nil =>
      rw [ofText_eq_ok.mpr (ofTokens_eq_ok.mpr hts), ofText_eq_ok.mpr (ofTokens_eq_ok.mpr hus)]
      exact .program
    | cons t rest => exact absurd (by simp [ofTokens, hts]) hended
  | error stop =>
    rw [hp, Grammar.moved_error] at hts hus
    cases Grammar.program_accountable hp with
    | ended => exact absurd (by simp [ofTokens, hts]) hended
    | @token expected t ht =>
      obtain ⟨i, hi, hti⟩ := Grammar.exists_of_mem_numbered ht
      rw [← hface] at ht
      obtain ⟨j, hj, huj⟩ := Grammar.exists_of_mem_numbered ht
      obtain rfl : i = j := by
        rw [hi] at hj
        exact_mod_cast hj
      have hrefused := @SameOutcome.refused text other expected i _ _ hti huj
      simpa [ofText, ofTokens, hts, hus] using hrefused
    | @numeral t _ ht hk hnum =>
      obtain ⟨i, -, hti⟩ := Grammar.exists_of_mem_numbered ht
      have hmoves := Grammar.moves_placeAs (Token.ofText text)
      have hmem := List.mem_of_getElem? hti
      rw [← hmoves.lexeme t] at hnum
      exact absurd hnum (hn.numeral_ne hmem ((hmoves.kind t).trans hk) stop)

/-- Every token of a text has a raw text.  The raw texts on lines of their own have the
same tokens but for the places, and the same program, or a refusal at the same token. -/
theorem ofText_onLines (text : String) :
    (∃ raws, RawTexts text raws) ∧
    ∀ raws, RawTexts text raws →
      (∀ t ∈ Token.ofText text, t.kind = .number →
        Numeral.digitCount t.lexeme ≤ digitLimit) →
      (Token.ofText (onLines raws)).map face = (Token.ofText text).map face ∧
        SameOutcome text (onLines raws) (ofText text) (ofText (onLines raws)) := by
  have hscans := Token.scans .start text.toList
  refine ⟨hscans.exists_raw, fun raws hraws hn => ?_⟩
  have hface : (Token.ofText (onLines raws)).map face = (Token.ofText text).map face := by
    rw [Token.ofText, onLines, String.toList_ofList]
    exact hscans.face_onLines hraws .start
  exact ⟨hface, sameOutcome_of_face hface (readableNumbers_ofText hn)⟩

/-- A text with a comment, a string over two lines and an unclosed quote. -/
def crowded : String :=
  "QUERY q//c\nWHERE(a!=\"x\ny\"&b>1.5)RETURN'z"

/-- Its raw texts, with other quotes around the string. -/
def crowdedRaws : List (List Char) :=
  ["QUERY".toList, "q".toList, "//c".toList, "WHERE".toList, "(".toList, "a".toList, "!=".toList,
    '\'' :: ("x\ny".toList ++ ['\'']), "&".toList, "b".toList, ">".toList, "1.5".toList,
    ")".toList, "RETURN".toList, "'z".toList]

theorem ofText_onLines_crowded :
    RawTexts crowded crowdedRaws ∧
      (∀ t ∈ Token.ofText crowded, t.kind = .number →
        Numeral.digitCount t.lexeme ≤ digitLimit) ∧
      (Token.ofText (onLines crowdedRaws)).map face = (Token.ofText crowded).map face ∧
      SameOutcome crowded (onLines crowdedRaws) (ofText crowded)
        (ofText (onLines crowdedRaws)) := by
  have htokens : Token.ofText crowded =
      [⟨.query, "QUERY", 1, 1⟩, ⟨.identifier, "q", 1, 7⟩, ⟨.comment, "//c", 1, 8⟩,
        ⟨.where_, "WHERE", 2, 1⟩, ⟨.leftParen, "(", 2, 6⟩, ⟨.identifier, "a", 2, 7⟩,
        ⟨.comparator .notEqual, "!=", 2, 8⟩, ⟨.string, "x\ny", 2, 10⟩, ⟨.ampersand, "&", 3, 3⟩,
        ⟨.identifier, "b", 3, 4⟩, ⟨.comparator .greater, ">", 3, 5⟩, ⟨.number, "1.5", 3, 6⟩,
        ⟨.rightParen, ")", 3, 9⟩, ⟨.return_, "RETURN", 3, 10⟩, ⟨.unknown, "'z", 3, 16⟩,
        ⟨.endOfText, "", 3, 18⟩] := by
    decide +kernel
  have hraws : RawTexts crowded crowdedRaws := by
    have hplain : ∀ {t : Token}, t.kind ≠ .string → Token.Raw t t.lexeme.toList := .plain
    rw [RawTexts, htokens, crowdedRaws]
    repeat' first
      | exact .nil
      | refine .cons (hplain (by decide)) ?_
      | refine .cons (.quoted rfl (.inr rfl) (by decide)) ?_
  have hnumbers : ∀ t ∈ Token.ofText crowded, t.kind = .number →
      Numeral.digitCount t.lexeme ≤ digitLimit := by
    rw [htokens]
    decide
  exact ⟨hraws, hnumbers, (ofText_onLines crowded).2 crowdedRaws hraws hnumbers⟩

end Program
end RecordQuery
