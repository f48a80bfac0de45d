/-
The listing of tokens loses nothing.

A line of the listing says where a token stands, its kind and its lexeme.  Places end where
their digits do, labels are words, and a lexeme is quoted, so the line tells the token
(`Report.tokenLine_inj`).  As nothing in a line breaks it, what is printed has one line for
each token, and tells them all (`Command.Job.tokens_listing`).
-/
import Mathlib.Data.List.Basic
import RecordQuery.Proofs.Answers
import RecordQuery.Proofs.Lines
import RecordQuery.Proofs.Quoting
import RecordQuery.Proofs.Writing

namespace RecordQuery

open Token (Kind isNameChar)

/-! ## Labels -/

namespace Token.Kind

theorem ofLabel?_label (kind : Kind) : ofLabel? kind.label = some kind := by
  cases kind with
  | aggregate function => cases function <;> rfl
  | arithmetic operator => cases operator <;> rfl
  | comparator relation => cases relation <;> rfl
  | _ => rfl

theorem label_inj {kind other : Kind} : kind.label = other.label ↔ kind = other := by
  refine ⟨fun h => ?_, congrArg label⟩
  have hread := congrArg ofLabel? h
  rw [ofLabel?_label, ofLabel?_label] at hread
  exact Option.some.inj hread

/-- Labels are words. -/
theorem isNameChar_of_mem_label (kind : Kind) : ∀ c ∈ kind.label.toList, isNameChar c := by
  have hall : kind.label.toList.all isNameChar = true := by
    cases kind with
    | aggregate function => cases function <;> rfl
    | arithmetic operator => cases operator <;> rfl
    | comparator relation => cases relation <;> rfl
    | _ => rfl
  exact List.all_eq_true.mp hall

end Token.Kind

/-! ## Lines -/

namespace Report

open Json (Digitless digitless_cons numberChars numberChars_append_inj)

/-- What a line says of a lexeme. -/
def lexemeChars (lexeme : String) : List Char :=
  if lexeme.isEmpty then [] else ' ' :: Text.quotedChars lexeme.toList

theorem lexemeChars_inj {lexeme other : String} :
    lexemeChars lexeme = lexemeChars other ↔ lexeme = other := by
  refine ⟨fun h => ?_, congrArg lexemeChars⟩
  unfold lexemeChars at h
  split at h <;> split at h
  · next hlexeme hother =>
    exact (String.isEmpty_iff.mp hlexeme).trans (String.isEmpty_iff.mp hother).symm
  · cases h
  · cases h
  · have hquoted := congrArg (· ++ []) (List.cons.inj h).2
    exact String.toList_inj.mp (Text.quotedChars_append_inj.mp hquoted).1

/-- Where a token stands. -/
def place (token : Token) : String :=
  s!"{token.line}:{token.column}"

theorem toList_place (token : Token) : (place token).toList =
    numberChars (.int token.line) ++ ':' :: numberChars (.int token.column) := by
  have hcolon : (toString ":").toList = [':'] := rfl
  simp [place, numberChars, hcolon]

theorem toList_tokenLine (token : Token) : (tokenLine false token).toList =
    (place token).toList ++ ' ' :: (token.kind.label.toList ++ lexemeChars token.lexeme) := by
  rw [tokenLine, lexemeChars]
  split <;> simp [Markup.colorize, Text.quoted, place]

theorem mem_numberChars {n : Int} {c : Char} (h : c ∈ numberChars (.int n)) :
    c = '-' ∨ c.isDigit := by
  cases n with
  | ofNat n => exact .inr (Numeral.isDigit_of_mem_toDigits (Json.numberChars_ofNat n ▸ h))
  | negSucc n =>
    rw [Json.numberChars_negSucc] at h
    exact (List.mem_cons.mp h).imp id Numeral.isDigit_of_mem_toDigits

theorem mem_place {token : Token} {c : Char} (h : c ∈ (place token).toList) :
    c = ':' ∨ c = '-' ∨ c.isDigit := by
  rw [toList_place] at h
  rcases List.mem_append.mp h with h | h
  · exact .inr (mem_numberChars h)
  · exact (List.mem_cons.mp h).imp id mem_numberChars

/-- A label ends where the lexeme begins, or the line ends. -/
theorem takeWhile_label (kind : Kind) (lexeme : String) :
    (kind.label.toList ++ lexemeChars lexeme).takeWhile isNameChar = kind.label.toList := by
  rw [List.takeWhile_append_of_pos kind.isNameChar_of_mem_label, lexemeChars]
  split
  · exact List.append_nil _
  · rw [List.takeWhile_cons_of_neg (by decide), List.append_nil]

/-- The line of a token tells the token. -/
theorem tokenLine_inj {token other : Token} :
    tokenLine false token = tokenLine false other ↔ token = other := by
  refine ⟨fun h => ?_, congrArg (tokenLine false)⟩
  have hcolon : ∀ cs, Digitless (':' :: cs) := fun _ => digitless_cons (by decide)
  have hblank : ∀ cs, Digitless (' ' :: cs) := fun _ => digitless_cons (by decide)
  have hchars := congrArg String.toList h
  simp only [toList_tokenLine, toList_place, List.append_assoc, List.cons_append] at hchars
  obtain ⟨hline, hchars⟩ := numberChars_append_inj (hcolon _) (hcolon _) hchars
  obtain ⟨hcolumn, hchars⟩ :=
    numberChars_append_inj (hblank _) (hblank _) (List.cons.inj hchars).2
  -- The label ends where its characters do, as the lexeme is set off by a blank.
  have hwords := (List.cons.inj hchars).2
  have hlabel := congrArg (List.takeWhile isNameChar) hwords
  rw [takeWhile_label, takeWhile_label] at hlabel
  rw [hlabel, List.append_cancel_left_eq] at hwords
  have hkind := Token.Kind.label_inj.mp (String.toList_inj.mp hlabel)
  have hlexeme := lexemeChars_inj.mp hwords
  cases token
  cases other
  simp_all

/-- Nothing in the line of a token breaks it. -/
theorem isLineBreak_of_mem_tokenLine {token : Token} {c : Char}
    (h : c ∈ (tokenLine false token).toList) : Text.isLineBreak c = false := by
  have hword : isNameChar c → Text.isLineBreak c = false :=
    Text.isLineBreak_of_class (by decide)
  rw [toList_tokenLine] at h
  simp only [List.mem_append, List.mem_cons] at h
  rcases h with hplace | rfl | hlabel | hlexeme
  · rcases mem_place hplace with rfl | rfl | hdigit
    · decide
    · decide
    · exact Text.isLineBreak_of_class (by decide) hdigit
  · decide
  · exact hword (token.kind.isNameChar_of_mem_label c hlabel)
  · unfold lexemeChars at hlexeme
    split at hlexeme
    · exact absurd hlexeme List.not_mem_nil
    · rcases List.mem_cons.mp hlexeme with rfl | hquoted
      · decide
      · exact Text.isLineBreak_of_mem_quotedChars hquoted

end Report

/-! ## Listings -/

namespace Text

/-- Lines that nothing breaks are the lines of what is printed. -/
theorem lines_unbroken {cs : List Char} (h : ∀ c ∈ cs, isLineBreak c = false) :
    lines (cs ++ ['\n']) = [cs] := by
  induction cs with
  | nil => rfl
  | cons c cs ih =>
    obtain ⟨hc, hcs⟩ := List.forall_mem_cons.mp h
    rw [List.cons_append, lines_cons_plain hc, ih hcs]
    rfl

theorem lines_printedLines {ls : List String}
    (h : ∀ l ∈ ls, ∀ c ∈ l.toList, isLineBreak c = false) :
    lines (Command.printedLines ls).toList = ls.map String.toList := by
  induction ls with
  | nil => rfl
  | cons l ls ih =>
    obtain ⟨hl, hls⟩ := List.forall_mem_cons.mp h
    have hprinted : (Command.printedLines (l :: ls)).toList =
        (l.toList ++ ['\n']) ++ (Command.printedLines ls).toList := by
      simp [Command.printedLines]
    have hend : Terminated (l.toList ++ ['\n']) := by
      intro c hc
      rw [List.getLast?_concat] at hc
      exact (Option.some.inj hc).symm
    rw [hprinted, lines_append hend, lines_unbroken hl, ih hls]
    rfl

end Text

namespace Report

/-- The listing of tokens. -/
def listing (ts : List Token) : String :=
  Command.printedLines (ts.map (tokenLine false))

theorem lines_listing (ts : List Token) :
    Text.lines (listing ts).toList = ts.map fun t => (tokenLine false t).toList := by
  have hlines : ∀ l ∈ ts.map (tokenLine false), ∀ c ∈ l.toList, Text.isLineBreak c = false := by
    intro l hl c hc
    obtain ⟨t, -, rfl⟩ := List.mem_map.mp hl
    exact isLineBreak_of_mem_tokenLine hc
  rw [listing, Text.lines_printedLines hlines, List.map_map]
  rfl

theorem listing_inj {ts us : List Token} : listing ts = listing us ↔ ts = us := by
  refine ⟨fun h => ?_, congrArg listing⟩
  have hlines := congrArg (fun text : String => Text.lines text.toList) h
  rw [lines_listing, lines_listing] at hlines
  have hinj : Function.Injective fun t : Token => (tokenLine false t).toList :=
    fun _ _ heq => tokenLine_inj.mp (String.toList_inj.mp heq)
  exact List.map_injective_iff.mpr hinj hlines

end Report

namespace Command.Job

open Report (tokenLine listing)

/-- No character of a token's line breaks it, and the line tells the token.  So what is printed
of a query without colour, if there is a query, has one line for each token of it, and tells
all the tokens. -/
theorem tokens_listing :
    (∀ token : Token, ∀ c ∈ (tokenLine false token).toList, Text.isLineBreak c = false) ∧
    (∀ token other : Token, tokenLine false token = tokenLine false other ↔ token = other) ∧
    (∀ world verbose settings job, job.name = .tokens →
      (outcome world verbose false settings job).map
          (fun parts => printedLines (parts.map Report.Part.printed)) =
        (readQuery world job.queryFile job.query).map fun query =>
          listing (Token.ofText query)) ∧
    (∀ ts, Text.lines (listing ts).toList = ts.map fun t => (tokenLine false t).toList) ∧
    (∀ ts us, listing ts = listing us ↔ ts = us) := by
  refine ⟨fun _ _ => Report.isLineBreak_of_mem_tokenLine, fun _ _ => Report.tokenLine_inj,
    fun world verbose settings job hname => ?_, Report.lines_listing,
    fun _ _ => Report.listing_inj⟩
  rw [outcome_eq, answer, hname]
  cases readQuery world job.queryFile job.query with
  | error failure => rfl
  | ok query =>
    show Except.ok (printedLines (((Token.ofText query).map _).map Report.Part.printed)) = _
    rw [List.map_map]
    rfl

/-- A job that lists the tokens of a query that is given with it. -/
def listingOf (query : String) : Job :=
  ⟨.tokens, inputName, "", some query, none, "", "", 0⟩

/-- A directory without files. -/
def bareWorld : World :=
  ⟨fun _ => .missing, "", false⟩

theorem tokens_listing_text :
    (listingOf "USE \"it's\n\"").name = .tokens ∧
      (outcome bareWorld false false [] (listingOf "USE \"it's\n\"")).map
          (fun parts => printedLines (parts.map Report.Part.printed)) =
        .ok "1:1 USE 'USE'\n1:5 STRING \"it's\\n\"\n2:2 EOF\n" := by
  have htokens : Token.ofText "USE \"it's\n\"" =
      [⟨.use, "USE", 1, 1⟩, ⟨.string, "it's\n", 1, 5⟩, ⟨.endOfText, "", 2, 2⟩] := by
    decide +kernel
  have hlisting : listing [⟨.use, "USE", 1, 1⟩, ⟨.string, "it's\n", 1, 5⟩,
      ⟨.endOfText, "", 2, 2⟩] = "1:1 USE 'USE'\n1:5 STRING \"it's\\n\"\n2:2 EOF\n" := by
    decide +kernel
  have hprinted := tokens_listing.2.2.1 bareWorld false [] (listingOf "USE \"it's\n\"") rfl
  exact ⟨rfl, hprinted.trans (congrArg Except.ok ((congrArg listing htokens).trans hlisting))⟩

end Command.Job
end RecordQuery
