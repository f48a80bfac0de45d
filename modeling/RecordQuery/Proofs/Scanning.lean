/-
Scanning a text piece by piece.

`scan` passes over white space and cuts the next token where there is none (`Scans`).
A piece of text stands alone when it is the whole token that is cut where it begins,
before a separator and before the end of the text, and pieces that stand alone, joined
by the separator, are scanned back one by one (`lays_joined`).
-/
import Mathlib.Data.List.Forall2
import RecordQuery.Proofs.Grammar.Loops
import RecordQuery.Proofs.Scanning.Cuts

namespace RecordQuery
namespace Token

/-- The end-of-text token of a text that ends at a place. -/
def ending (p : Position) : Token := ⟨.endOfText, "", p.line, p.column⟩

section
variable {p : Position} {c : Char} {cs : List Char}

theorem scan_nil (p : Position) : scan p [] = [ending p] := by
  rw [scan, ending]

theorem scan_token {kind : Kind} {tail : Nat} (h : Cut c cs kind tail) :
    scan p (c :: cs) = ⟨kind, lexemeOf kind (c :: cs.take tail), p.line, p.column⟩ ::
      scan (p.after (c :: cs.take tail)) (cs.drop tail) := by
  rw [scan, h.measure_eq]

/-- White space is passed over one character at a time, although `measure` takes the
whole run of it. -/
theorem scan_blank (hc : isLayout c) : scan p (c :: cs) = scan (p.next c) cs := by
  have hrun : ∀ {d : Char} {ds : List Char} {q : Position}, isLayout d →
      scan q (d :: ds) = scan ((q.next d).after (ds.take (run isLayout ds)))
        (ds.drop (run isLayout ds)) := fun {d ds q} hd => by
    have hm : measure d ds = (none, run isLayout ds) := by simp [measure, hd]
    rw [scan, hm]
    rfl
  rw [hrun hc]
  cases cs with
  | nil => rfl
  | cons d ds =>
    by_cases hd : isLayout d
    · have hlen : run isLayout (d :: ds) = run isLayout ds + 1 := by simp [run, hd]
      rw [hrun hd, hlen]
      rfl
    · have hlen : run isLayout (d :: ds) = 0 := by simp [run, hd]
      rw [hlen]
      rfl

end

/-- A token that begins with a quote which is never closed. -/
def Unclosed (t : Token) : Prop :=
  t.kind = .unknown ∧ ∃ q ∈ t.lexeme.toList.head?, q = '"' ∨ q = '\''

/-- The tokens of a text, piece by piece. -/
inductive Scans : Position → List Char → List Token → Prop
  | ends {p : Position} : Scans p [] [ending p]
  | blank {p : Position} {c : Char} {cs : List Char} {ts : List Token} :
      isLayout c → Scans (p.next c) cs ts → Scans p (c :: cs) ts
  | token {p : Position} {c : Char} {cs : List Char} {kind : Kind} {tail : Nat}
      {ts : List Token} :
      Cut c cs kind tail → Scans (p.after (c :: cs.take tail)) (cs.drop tail) ts →
      Scans p (c :: cs)
        (⟨kind, lexemeOf kind (c :: cs.take tail), p.line, p.column⟩ :: ts)

theorem scans (p : Position) (cs : List Char) : Scans p cs (scan p cs) := by
  induction hn : cs.length using Nat.strongRecOn generalizing p cs with
  | ind n ih =>
    subst hn
    cases cs with
    | nil =>
      rw [scan_nil]
      exact .ends
    | cons c cs =>
      obtain hc | ⟨kind, tail, hcut⟩ := isLayout_or_cut c cs
      · rw [scan_blank hc]
        exact .blank hc (ih cs.length (by simp) _ _ rfl)
      · rw [scan_token hcut]
        have hlen : (cs.drop tail).length < (c :: cs).length := by
          simp only [List.length_drop, List.length_cons]
          omega
        exact .token hcut (ih _ hlen _ _ rfl)

section
variable {p : Position} {cs : List Char} {ts : List Token}

/-- The tokens of a text end with the only end-of-text token. -/
theorem Scans.ended (h : Scans p cs ts) : Grammar.Ended ts := by
  induction h with
  | @ends p => exact ⟨[], ending p, rfl, rfl, by simp [Grammar.Endless]⟩
  | blank _ _ ih => exact ih
  | token hcut _ ih => exact ih.cons hcut.kind_ne_endOfText

theorem ended_ofText (text : String) : Grammar.Ended (ofText text) :=
  (scans .start text.toList).ended

theorem closed_ofText (text : String) : Grammar.Closed (ofText text) :=
  (ended_ofText text).closed

/-- Every token but the last one is cut from the text. -/
theorem Scans.mem {t : Token} (hs : Scans p cs ts) (h : t ∈ ts) :
    t.kind = .endOfText ∨
      ∃ c ds tail, Cut c ds t.kind tail ∧ t.lexeme = lexemeOf t.kind (c :: ds.take tail) := by
  induction hs with
  | ends =>
    rw [List.mem_singleton.mp h]
    exact .inl rfl
  | blank _ _ ih => exact ih h
  | @token p c cs kind tail ts hcut _ ih =>
    rcases List.mem_cons.mp h with rfl | h
    · exact .inr ⟨c, cs, tail, hcut, rfl⟩
    · exact ih h

/-- An unclosed quote reaches to the end of the text, so no token comes after it. -/
theorem Scans.unclosed_last {front back : List Token} {t : Token} (hs : Scans p cs ts)
    (h : ts = front ++ t :: back) (ht : t.Unclosed) :
    (∃ p', back = [ending p']) ∧
      ∃ q ds, t.lexeme.toList = q :: ds ∧ (q = '"' ∨ q = '\'') ∧ q ∉ ds := by
  induction hs generalizing front with
  | @ends p =>
    cases front with
    | nil =>
      obtain ⟨rfl, -⟩ := List.cons.inj h
      exact absurd ht.1 (by simp [ending])
    | cons u front => simp at h
  | blank _ _ ih => exact ih h
  | @token p c cs kind tail ts hcut hs ih =>
    cases front with
    | cons u front => exact ih (List.cons.inj h).2
    | nil =>
      obtain ⟨rfl, rfl⟩ := List.cons.inj h
      obtain ⟨hk, q, hq, hquote⟩ := ht
      obtain rfl : kind = .unknown := hk
      obtain rfl : c = q := by simpa [lexemeOf] using hq
      obtain ⟨-, rfl, hc⟩ | ⟨h₁, h₂, -⟩ := hcut.unknown_cases
      · rw [List.drop_length] at hs
        rw [List.take_length]
        refine ⟨?_, c, cs, by simp [lexemeOf], hquote, hc⟩
        cases hs
        exact ⟨_, rfl⟩
      · exact absurd hquote (not_or.mpr ⟨h₁, h₂⟩)

end

/-! ## Pieces that stand alone -/

/-- A part of a text that is meant as one token. -/
structure Piece where
  kind : Kind
  raw : List Char

namespace Piece

/-- That a piece is one token where `rest` comes after it. -/
def StandsBefore (rest : List Char) (piece : Piece) : Prop :=
  ∃ c cs, piece.raw = c :: cs ∧ Cut c (cs ++ rest) piece.kind cs.length

/-- That a piece is one token wherever a separator or nothing comes after it. -/
def Stands (separator : Char) (piece : Piece) : Prop :=
  ∀ rest, (∀ c ∈ rest.head?, c = separator) → piece.StandsBefore rest

/-- That a token is the one that a piece is meant as. -/
def Is (piece : Piece) (t : Token) : Prop :=
  t.kind = piece.kind ∧ t.lexeme = lexemeOf piece.kind piece.raw

/-- The text of some pieces. -/
def joined (separator : Char) : List Piece → List Char
  | [] => []
  | [piece] => piece.raw
  | piece :: pieces => piece.raw ++ separator :: joined separator pieces

theorem scan_piece {piece : Piece} {rest : List Char} (h : piece.StandsBefore rest)
    (p : Position) : ∃ t p', piece.Is t ∧ scan p (piece.raw ++ rest) = t :: scan p' rest := by
  obtain ⟨c, cs, hraw, hcut⟩ := h
  have hscan := @scan_token p _ _ _ _ hcut
  rw [List.take_left, List.drop_left] at hscan
  rw [hraw, List.cons_append, hscan]
  exact ⟨_, _, ⟨rfl, by rw [hraw]⟩, rfl⟩

/-! ## Which pieces stand alone -/

/-- A word ends where no character of a name comes after it. -/
theorem standsBefore_word {c : Char} {cs rest : List Char} (hc : isNameStart c)
    (hcs : ∀ d ∈ cs, isNameChar d) (hr : ∀ d ∈ rest.head?, isNameChar d = false) :
    StandsBefore rest ⟨Kind.ofWord (String.ofList (c :: cs)), c :: cs⟩ := by
  have hcut := @Cut.word c (cs ++ rest) hc
  rw [← take_run, run_append hcs hr, List.take_left] at hcut
  exact ⟨c, cs, rfl, hcut⟩

section
variable {separator : Char} (hs : isLayout separator)
include hs

theorem stands_of_cut {c : Char} {cs : List Char} {kind : Kind} (h : Cut c cs kind cs.length)
    (hcomment : kind = .comment → separator = '\n')
    (hclosed : kind = .unknown → c ≠ '"' ∧ c ≠ '\'') : Stands separator ⟨kind, c :: cs⟩ := by
  refine fun rest hr => ⟨c, cs, rfl, ?_⟩
  cases rest with
  | nil =>
    rw [List.append_nil]
    exact h
  | cons d rest =>
    obtain rfl := hr d rfl
    exact h.append hs hcomment hclosed

theorem stands_string {q : Char} {cs : List Char} (hq : q = '"' ∨ q = '\'')
    (hcs : ∀ d ∈ cs, d ≠ q) : Stands separator ⟨.string, q :: (cs ++ [q])⟩ :=
  stands_of_cut hs (.quoted hq hcs) (by simp) (by simp)

theorem stands_word {c : Char} {cs : List Char} (hc : isNameStart c)
    (hcs : ∀ d ∈ cs, isNameChar d) :
    Stands separator ⟨Kind.ofWord (String.ofList (c :: cs)), c :: cs⟩ := by
  refine fun rest hr => standsBefore_word hc hcs fun d hd => ?_
  obtain rfl := hr d hd
  rcases isLayout_cases hs with rfl | rfl | rfl | rfl <;> decide

theorem stands_reference {cs : List Char} (hcs : ∀ d ∈ cs, isNameChar d) :
    Stands separator ⟨.reference, '$' :: cs⟩ := by
  have hcut := @Cut.reference '$' cs rfl
  rw [run_of_forall hcs] at hcut
  exact stands_of_cut hs hcut (by simp) (by simp)

theorem stands_number {c : Char} {cs : List Char} (hc : Text.isDecimalDigit c)
    (hcs : ∀ d ∈ cs, Text.isDecimalDigit d) : Stands separator ⟨.number, c :: cs⟩ := by
  have hcut := @Cut.number c cs hc
  have hall : run Text.isDecimalDigit cs = cs.length := run_of_forall hcs
  rw [numeralTail_eq, hall, List.drop_length, pointTail, Nat.add_zero] at hcut
  · exact stands_of_cut hs hcut (by simp) (by simp)
  · simp

end

/-! ## Texts laid out in pieces -/

/-- That a part of a text is scanned as some pieces, wherever nothing comes after it or a
character that satisfies a test. -/
def Lays (test : Char → Prop) (pieces : List Piece) (cs : List Char) : Prop :=
  ∀ rest, (∀ c ∈ rest.head?, test c) → ∀ p, ∃ ts p',
    List.Forall₂ Is pieces ts ∧ scan p (cs ++ rest) = ts ++ scan p' rest

section
variable {test : Char → Prop} {xs ys : List Piece} {cs ds : List Char}

theorem Lays.nil : Lays test [] [] :=
  fun _ _ p => ⟨[], p, .nil, rfl⟩

theorem Lays.blank {c : Char} (hc : isLayout c) : Lays test [] [c] :=
  fun _ _ p => ⟨[], p.next c, .nil, scan_blank hc⟩

theorem Lays.piece {piece : Piece}
    (h : ∀ rest, (∀ c ∈ rest.head?, test c) → piece.StandsBefore rest) :
    Lays test [piece] piece.raw := by
  intro rest hr p
  obtain ⟨t, p', ht, hscan⟩ := scan_piece (h rest hr) p
  exact ⟨[t], p', .cons ht .nil, hscan⟩

/-- Parts in a row: what comes after the first one is the second one and what comes after
that. -/
theorem Lays.append {test' : Char → Prop} (hx : Lays test' xs cs) (hy : Lays test ys ds)
    (h : ∀ rest, (∀ c ∈ rest.head?, test c) → ∀ c ∈ (ds ++ rest).head?, test' c) :
    Lays test (xs ++ ys) (cs ++ ds) := by
  intro rest hr p
  obtain ⟨ts, p₁, hts, hscan₁⟩ := hx (ds ++ rest) (h rest hr) p
  obtain ⟨us, p₂, hus, hscan₂⟩ := hy rest hr p₁
  refine ⟨ts ++ us, p₂, List.rel_append hts hus, ?_⟩
  rw [List.append_assoc, hscan₁, hscan₂, List.append_assoc]

/-- A text that is laid out in pieces has their tokens. -/
theorem Lays.scan (h : Lays test xs cs) (p : Position) :
    ∃ ts p', scan p cs = ts ++ [ending p'] ∧ List.Forall₂ Is xs ts := by
  obtain ⟨ts, p', hts, hscan⟩ := h [] (by simp) p
  rw [List.append_nil, scan_nil] at hscan
  exact ⟨ts, p', hscan, hts⟩

end

/-- Pieces that stand alone are scanned back. -/
theorem lays_joined {separator : Char} (hs : isLayout separator) {pieces : List Piece}
    (h : ∀ piece ∈ pieces, Stands separator piece) :
    Lays (· = separator) pieces (joined separator pieces) := by
  induction pieces with
  | nil => exact .nil
  | cons piece pieces ih =>
    have hfirst : Lays (· = separator) [piece] piece.raw := .piece (h piece (by simp))
    cases pieces with
    | nil => exact hfirst
    | cons next pieces =>
      have hothers := ih fun x hx => h x (by simp [hx])
      have hblank : Lays (fun _ => True) [] [separator] := .blank hs
      exact hfirst.append (hblank.append hothers (by simp)) (by simp)

end Piece

end Token

/-- A text is a program if and only if its tokens spell it. -/
theorem Program.ofText_iff_spells {text : String} {program : Program} :
    ofText text = .ok program ↔ Grammar.SpellsProgram (Token.ofText text) program := by
  rw [ofText_eq_ok, ofTokens_iff_spells (Token.closed_ofText text)]

end RecordQuery
