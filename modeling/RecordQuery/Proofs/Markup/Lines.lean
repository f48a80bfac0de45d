/-
Coloured lines and plain ones.

A coloured line shows what the plain one says as far as none of its styled texts ends in two
backslashes.  Names, places, kinds and quoted lexemes never do, so of all the lines that the
commands print only those of results can differ, and these do exactly where the value ends in
two backslashes (`Command.Job.shows_colored`).
-/
import RecordQuery.Proofs.Markup.Escaping
import RecordQuery.Proofs.Rendering.Parsed
import RecordQuery.Proofs.TokenLines

namespace RecordQuery

/-! ## Characters that are shown -/

namespace Markup

variable {cs ds tail : List Char}

/-- The characters that markup shows. -/
def shownChars (cs : List Char) : List Char :=
  (read id 0 cs).flatMap Piece.chars

@[simp] theorem chars_shownAll (cs : List Char) : (shownAll cs).flatMap Piece.chars = cs := by
  induction cs with
  | nil => rfl
  | cons c cs ih => rw [shownAll_cons, List.flatMap_cons, ih]; rfl

@[simp] theorem shownChars_nil : shownChars [] = [] := by
  rw [shownChars, read_nil, chars_shownAll]
  rfl

theorem shownChars_plain {c : Char} (hs : c ≠ '\\') (hb : c ≠ '[') (cs : List Char) :
    shownChars (c :: cs) = c :: shownChars cs := by
  rw [shownChars, read_plain hs hb]
  rfl

theorem chars_closing (count : Nat) : (closing count).flatMap Piece.chars =
    backslashes (beforeClosing count / 2) ++
      if beforeClosing count % 2 = 0 then [] else ['[', '/', ']'] := by
  rw [closing, List.flatMap_append, chars_shownAll]
  split <;> rfl

/-- Of the backslashes a text ends in all are shown only if there is at most one. -/
theorem chars_closing_inj {count : Nat} (h : cs.head? ≠ some '\\') :
    (closing count).flatMap Piece.chars ++ cs = backslashes count ++ ds ↔ count ≤ 1 ∧ cs = ds := by
  rw [chars_closing]
  match count with
  | 0 | 1 => simp [beforeClosing, backslashes]
  | count + 2 =>
    refine iff_of_false (fun heq => ?_) (by omega)
    obtain ⟨more, hmore⟩ : ∃ more, count + 2 = (count + 2) / 2 + (1 + more) :=
      ⟨(count + 2) - (count + 2) / 2 - 1, by omega⟩
    have hbefore : beforeClosing (count + 2) = count + 2 := if_neg (by omega)
    rw [hbefore, congrArg backslashes hmore, backslashes_add, backslashes_add 1,
      List.append_assoc, List.append_assoc, List.append_cancel_left_eq] at heq
    -- After the half that is shown the text goes on with a backslash, and the line does not.
    have hhead := congrArg List.head? heq
    split at hhead
    · exact h hhead
    · exact absurd (Option.some.inj hhead) (by decide)

/-- A text in a style shows exactly the text if and only if it does not end in two backslashes,
where no backslash follows that could make up for it. -/
theorem shownChars_styled_inj (style : Style) (text : String)
    (h : (shownChars tail).head? ≠ some '\\') :
    shownChars ((styled style text).toList ++ tail) = text.toList ++ ds ↔
      ¬ ['\\', '\\'] <:+ text.toList ∧ shownChars tail = ds := by
  have hshown : shownChars ((styled style text).toList ++ tail) = body id 0 text.toList ++
      ((closing (trailing 0 text.toList)).flatMap Piece.chars ++ shownChars tail) := by
    rw [shownChars, read_styled]
    simp [Piece.chars, shownChars]
  have htext : text.toList ++ ds =
      body id 0 text.toList ++ (backslashes (trailing 0 text.toList) ++ ds) := by
    rw [← List.append_assoc, body_trailing]
    rfl
  rw [hshown, htext, List.append_cancel_left_eq, chars_closing_inj h, doubled_iff, Nat.not_le,
    Nat.lt_succ_iff]

theorem shownChars_styled (style : Style) {text : String} (h : ¬ ['\\', '\\'] <:+ text.toList)
    (ht : (shownChars tail).head? ≠ some '\\') :
    shownChars ((styled style text).toList ++ tail) = text.toList ++ shownChars tail :=
  (shownChars_styled_inj style text ht).mpr ⟨h, rfl⟩

theorem shownChars_styled_iff (style : Style) (text : String) :
    shownChars (styled style text).toList = text.toList ↔ ¬ ['\\', '\\'] <:+ text.toList := by
  have hstyled := @shownChars_styled_inj [] [] style text (by simp)
  simpa using hstyled

/-- Only what follows the last other character decides whether a text ends in two backslashes. -/
theorem doubled_append {c : Char} (hs : c ≠ '\\') (cs ds : List Char) :
    ['\\', '\\'] <:+ cs ++ c :: ds ↔ ['\\', '\\'] <:+ ds := by
  have htrailing : ∀ met, trailing met (cs ++ c :: ds) = trailing 0 ds := by
    induction cs with
    | nil => exact fun met => trailing_cons hs ds
    | cons d cs ih =>
      intro met
      by_cases hd : d = '\\'
      · rw [hd, List.cons_append, trailing, ih]
      · rw [List.cons_append, trailing_cons hd, ih]
  rw [doubled_iff, doubled_iff, htrailing]

theorem not_doubled (h : '\\' ∉ cs) : ¬ ['\\', '\\'] <:+ cs :=
  fun hsuffix => h (hsuffix.subset List.mem_cons_self)

end Markup

/-! ## Lines of reports -/

namespace Report

open Markup

/-- The characters that a part of a report shows. -/
def Part.shows : Part → List Char
  | plain text => text.toList
  | markup text => shownChars text.toList
  | highlighted text _ => text.toList

/-- A coloured path shows the path. -/
theorem shows_path {path : String} (h : '\\' ∉ path.toList) :
    (line true (colorize .resultValue true path)).shows =
      (line false (colorize .resultValue false path)).shows := by
  exact (shownChars_styled_iff .resultValue path).mpr (not_doubled h)

/-- A coloured result shows the plain one unless its name or its value ends in two
backslashes. -/
theorem shows_result (name value : String) :
    (line true (colorize .queryName true name ++ ": " ++ colorize .resultValue true value)).shows =
      (line false (colorize .queryName false name ++ ": " ++
        colorize .resultValue false value)).shows ↔
    ¬ ['\\', '\\'] <:+ name.toList ∧ ¬ ['\\', '\\'] <:+ value.toList := by
  have hbetween (cs : List Char) :
      shownChars (": ".toList ++ cs) = ": ".toList ++ shownChars cs := by
    show shownChars (':' :: ' ' :: cs) = ':' :: ' ' :: shownChars cs
    rw [shownChars_plain (by decide) (by decide), shownChars_plain (by decide) (by decide)]
  have hline : shownChars ((styled .queryName name).toList ++
      (": ".toList ++ (styled .resultValue value).toList)) =
        name.toList ++ (": ".toList ++ value.toList) ↔ _ :=
    shownChars_styled_inj .queryName name (by rw [hbetween]; simp)
  rw [hbetween, List.append_cancel_left_eq, shownChars_styled_iff] at hline
  simpa [line, colorize, Part.shows] using hline

theorem shownChars_blank (cs : List Char) : shownChars (' ' :: cs) = ' ' :: shownChars cs :=
  shownChars_plain (by decide) (by decide) cs

/-- What a coloured line says of a lexeme. -/
def coloredLexeme (lexeme : String) : List Char :=
  if lexeme.isEmpty then [] else ' ' :: (styled .resultValue (Text.quoted lexeme)).toList

theorem not_doubled_quoted (lexeme : String) :
    ¬ ['\\', '\\'] <:+ (Text.quoted lexeme).toList := by
  have hslash : Text.quoteFor lexeme.toList ≠ '\\' := by
    rcases Text.isQuote_quoteFor lexeme.toList with hq | hq <;> rw [hq] <;> decide
  rw [Text.quoted, String.toList_ofList, Text.quotedChars, doubled_append hslash]
  exact not_doubled List.not_mem_nil

theorem shownChars_coloredLexeme (lexeme : String) :
    shownChars (coloredLexeme lexeme) = lexemeChars lexeme := by
  unfold coloredLexeme lexemeChars
  split
  · exact shownChars_nil
  · rw [shownChars_blank, (shownChars_styled_iff .resultValue _).mpr (not_doubled_quoted lexeme),
      Text.quoted, String.toList_ofList]

theorem toList_tokenLine_colored (token : Token) : (tokenLine true token).toList =
    (styled .dim (place token)).toList ++
      ' ' :: ((styled .tokenKind token.kind.label).toList ++ coloredLexeme token.lexeme) := by
  rw [tokenLine, coloredLexeme]
  split <;> simp [colorize, place]

/-- A coloured token shows the plain one. -/
theorem shows_token (token : Token) :
    (line true (tokenLine true token)).shows = (line false (tokenLine false token)).shows := by
  have hplace : '\\' ∉ (place token).toList := by
    intro hm
    rcases mem_place hm with h | h | h <;> exact absurd h (by decide)
  have hlabel : '\\' ∉ token.kind.label.toList := fun hm =>
    absurd (token.kind.isNameChar_of_mem_label _ hm) (by decide)
  have hlexeme : (lexemeChars token.lexeme).head? ≠ some '\\' := by
    unfold lexemeChars
    split <;> simp
  show shownChars (tokenLine true token).toList = (tokenLine false token).toList
  rw [toList_tokenLine_colored, toList_tokenLine,
    shownChars_styled .dim (not_doubled hplace) (by simp [shownChars_blank]), shownChars_blank,
    shownChars_styled .tokenKind (not_doubled hlabel) (by rwa [shownChars_coloredLexeme]),
    shownChars_coloredLexeme]

/-- That a coloured part shows what a plain one shows, unless that ends in two backslashes. -/
def Part.Renders (colored bare : Part) : Prop :=
  colored.shows = bare.shows ↔ ¬ ['\\', '\\'] <:+ bare.shows

theorem renders_result {name : String} (h : ¬ ['\\', '\\'] <:+ name.toList) (value : String) :
    Part.Renders
      (line true (colorize .queryName true name ++ ": " ++ colorize .resultValue true value))
      (line false (colorize .queryName false name ++ ": " ++
        colorize .resultValue false value)) := by
  have hplain : (line false (colorize .queryName false name ++ ": " ++
      colorize .resultValue false value)).shows =
        (name.toList ++ [':']) ++ ' ' :: value.toList := by
    simp [line, colorize, Part.shows]
  have hlast : ['\\', '\\'] <:+ (name.toList ++ [':']) ++ ' ' :: value.toList ↔
      ['\\', '\\'] <:+ value.toList := doubled_append (by decide) _ _
  rw [Part.Renders, shows_result, hplain, hlast, and_iff_right h]

/-- Coloured results show the plain ones apart from those that end in two backslashes. -/
theorem text_agree {results : Table Value}
    (h : ∀ entry ∈ results, ¬ ['\\', '\\'] <:+ entry.1.toList) :
    Command.Agree (List.Forall₂ Part.Renders) (text true results) (text false results) := by
  unfold text
  split
  · exact .ok (.cons (iff_of_true rfl (by decide)) .nil)
  · refine Command.Agree.bind (r := List.Forall₂ fun colored bare =>
      Part.Renders (line true colored) (line false bare)) ?_ fun _ _ hlines => ?_
    · refine Command.Agree.mapM fun entry hentry => ?_
      exact Command.Agree.after fun value _ => .ok (renders_result (h entry hentry) value)
    · refine .ok ?_
      rwa [List.forall₂_map_left_iff, List.forall₂_map_right_iff]

end Report

/-! ## Names -/

theorem IsName.backslash_not_mem {name : String} (h : IsName name) : '\\' ∉ name.toList := by
  obtain ⟨c, cs, hl, hc, hcs, -⟩ := h
  rw [hl, List.mem_cons, not_or]
  refine ⟨fun heq => ?_, fun hm => ?_⟩
  · exact absurd (heq ▸ hc) (by decide)
  · exact absurd (hcs _ hm) (by decide)

theorem not_mem_intercalate {separator : String} {c : Char} (hc : c ∉ separator.toList) :
    ∀ {parts : List String}, (∀ part ∈ parts, c ∉ part.toList) →
      c ∉ (separator.intercalate parts).toList
  | [], _ => by simp
  | [part], h => by simpa using h
  | first :: second :: others, h => by
    obtain ⟨hfirst, hrest⟩ := List.forall_mem_cons.mp h
    rw [String.intercalate_cons_cons, String.toList_append, String.toList_append,
      List.mem_append, List.mem_append]
    rintro ((hm | hm) | hm)
    · exact hfirst hm
    · exact hc hm
    · exact not_mem_intercalate hc hrest hm

theorem Names.WellFormed.backslash_not_mem {names : Names} (h : names.WellFormed) :
    '\\' ∉ names.bracketed.toList := by
  have hnames : '\\' ∉ (", ".intercalate names.toList).toList :=
    not_mem_intercalate (by decide) fun name hn => (h name hn).backslash_not_mem
  simpa [Names.bracketed] using hnames

/-- Nothing in the text of a path is a backslash. -/
theorem UsePath.WellFormed.backslash_not_mem {path : UsePath} (h : path.WellFormed) :
    '\\' ∉ path.text.toList := by
  have hsegment : ∀ segment ∈ path.segments, '\\' ∉ (segmentText segment).toList := by
    intro segment hs
    unfold segmentText
    split
    · exact (h.segments segment hs segment.first List.mem_cons_self).backslash_not_mem
    · exact (h.segments segment hs).backslash_not_mem
  refine not_mem_intercalate (by decide) fun part hpart => ?_
  rcases List.mem_append.mp hpart with hm | hm
  · obtain ⟨segment, hs, rfl⟩ := List.mem_map.mp hm
    exact hsegment segment hs
  · obtain ⟨fields, hf, rfl⟩ := Option.map_eq_some_iff.mp (Option.mem_toList.mp hm)
    exact (h.fields fields hf).backslash_not_mem

theorem Program.names_of_run {program : Program} {data : Value} {results : Table Value}
    (h : program.run data = .ok results) : results.map Prod.fst = program.blockNames := by
  unfold run at h
  obtain ⟨leaves, -, rfl⟩ := map_eq_ok.mp h
  rw [List.map_map]
  exact List.map_id _

/-! ## Jobs -/

namespace Command.Job

open Markup (Reads styled shownAll)

theorem exists_ofText {world : World} {job : Job} {program : Program}
    (h : (readQuery world job.queryFile job.query).bind parseQuery = .ok program) :
    ∃ text, Program.ofText text = .ok program := by
  cases hquery : readQuery world job.queryFile job.query with
  | error failure =>
    rw [hquery] at h
    cases h
  | ok query =>
    rw [hquery] at h
    change parseQuery query = .ok program at h
    unfold parseQuery at h
    split at h
    · next hread =>
      cases h
      exact ⟨query, hread⟩
    · cases h
    · cases h

theorem eq_ok_of_mapError {ε ε' α : Type} {x : Except ε α} {f : ε → ε'} {a : α}
    (h : x.mapError f = .ok a) : x = .ok a := by
  cases x with
  | error e => cases h
  | ok b => exact congrArg Except.ok (Except.ok.inj h)

/-- The names of blocks and the texts of paths of a parsed program have no backslashes. -/
theorem backslash_not_mem_of_ofText {text : String} {program : Program}
    (h : Program.ofText text = .ok program) :
    (∀ path ∈ program.expectedPaths, '\\' ∉ path.toList) ∧
      ∀ name ∈ program.blockNames, '\\' ∉ name.toList := by
  have hspelled := Program.ofText_iff_spells.mp h
  have hlegible : Grammar.AllLegible (Token.ofText text) := fun _ ht =>
    Token.legible_of_mem_scan ht
  refine ⟨fun path hp => ?_, fun name hn => ?_⟩
  · obtain ⟨declared, hd, rfl⟩ := List.mem_map.mp hp
    exact (hspelled.paths_wellFormed hlegible declared hd).backslash_not_mem
  · obtain ⟨block, hb, rfl⟩ := List.mem_map.mp (List.mem_eraseDups.mp hn)
    exact (hspelled.isName hlegible block hb).backslash_not_mem

variable (world : World) (job : Job)

theorem agree_paths (h : job.name = .paths) :
    Agree (List.Forall₂ fun colored bare : Report.Part => colored.shows = bare.shows)
      (answer world true job) (answer world false job) := by
  rw [answer, answer, h]
  refine Agree.after fun program hprogram => .ok ?_
  obtain ⟨text, htext⟩ := exists_ofText hprogram
  rw [List.forall₂_map_left_iff, List.forall₂_map_right_iff, List.forall₂_same]
  exact fun path hp => Report.shows_path ((backslash_not_mem_of_ofText htext).1 path hp)

theorem agree_tokens (h : job.name = .tokens) :
    Agree (List.Forall₂ fun colored bare : Report.Part => colored.shows = bare.shows)
      (answer world true job) (answer world false job) := by
  rw [answer, answer, h]
  refine Agree.after fun query _ => .ok ?_
  rw [List.forall₂_map_left_iff, List.forall₂_map_right_iff, List.forall₂_same]
  exact fun token _ => Report.shows_token token

theorem agree_results (h : job.name = .run) (hout : Format.ofName? job.out = some .text) :
    Agree (List.Forall₂ Report.Part.Renders) (answer world true job) (answer world false job) := by
  rw [answer, answer, h]
  show Agree _ (reported world true job) (reported world false job)
  unfold reported
  split
  · exact .error _
  refine Agree.after fun format hformat => ?_
  obtain rfl : format = .text := by
    rw [Report.format, hout] at hformat
    exact (Except.ok.inj hformat).symm
  -- Up to the results nothing depends on colour, so both jobs fail alike or have the same ones.
  refine Agree.after fun program hprogram => Agree.after fun data _ =>
    Agree.after fun results hresults => ?_
  obtain ⟨text, htext⟩ := exists_ofText hprogram
  refine ((Report.text_agree fun entry hentry => ?_).mapError _).mapError _
  have hname : entry.1 ∈ program.blockNames :=
    Program.names_of_run (eq_ok_of_mapError hresults) ▸ List.mem_map_of_mem hentry
  exact Markup.not_doubled ((backslash_not_mem_of_ofText htext).2 _ hname)

/-- A text in a style is read as the style, exactly the text and the closing tag, provided it
does not end in two backslashes, and only then.  So colour never changes what `paths` and
`tokens` show, and of the lines of results only those that end in two backslashes. -/
theorem shows_colored (style : Style) (text : String) (world : World) (verbose : Bool)
    (settings : Settings) (job : Job) :
    (Reads (styled style text).toList
        (.tag style.tag.toList :: shownAll text.toList ++ [.tag ['/']]) ↔
      ¬ ['\\', '\\'] <:+ text.toList) ∧
    (job.name ≠ .run →
      Agree (List.Forall₂ fun colored bare : Report.Part => colored.shows = bare.shows)
        (outcome world verbose true settings job) (outcome world verbose false settings job)) ∧
    (job.name = .run → Format.ofName? job.out = some .text →
      Agree (List.Forall₂ Report.Part.Renders)
        (outcome world verbose true settings job)
        (outcome world verbose false settings job)) := by
  refine ⟨?_, fun h => ?_, fun h hout => ?_⟩
  · rw [Markup.reads_iff, eq_comm, Markup.read_styled_iff, and_iff_right rfl]
  · rw [outcome_eq, outcome_eq]
    cases hname : job.name with
    | run => exact absurd hname h
    | paths => exact agree_paths world job hname
    | tokens => exact agree_tokens world job hname
  · rw [outcome_eq, outcome_eq]
    exact agree_results world job h hout

/-- The results of a program whose one value ends in two backslashes. -/
def slashJob : Job :=
  ⟨.run, inputName, "data", some "USE r QUERY q SELECT v RETURN", none, " Text\n", "", 2⟩

/-- A directory where every file has the same data. -/
def slashWorld : World :=
  ⟨fun _ => .bytes "\x7b\"r\":\x7b\"v\":\"a\\\\\\\\\"\x7d\x7d".toUTF8.toList, "", false⟩

theorem ofName?_slashJob : Format.ofName? slashJob.out = some .text := by
  decide +kernel

theorem outcome_slashJob (color : Bool) : outcome slashWorld false color [] slashJob =
    .ok [Report.line color (Markup.colorize .queryName color "q" ++ ": " ++
      Markup.colorize .resultValue color "a\\\\")] := by
  let program : Program :=
    ⟨[⟨⟨"r", []⟩, [], none⟩], [⟨"q", [⟨none, .select ⟨.named ⟨"v", []⟩, none, false⟩⟩]⟩]⟩
  let data : Value := .record [("r", .record [("v", .text "a\\\\")])]
  have hformat : Report.format slashJob.out = .ok .text := by
    rw [Report.format, ofName?_slashJob]
  have hprogram : Program.ofText "USE r QUERY q SELECT v RETURN" = .ok program := by
    have hname : ∀ c : Char, Token.isNameStart c → Token.Kind.ofWord (String.ofList [c]) =
        .identifier → IsName (String.ofList [c]) := fun c hc hk =>
      ⟨c, [], String.toList_ofList, hc, by simp, hk⟩
    have hr : IsName "r" := hname 'r' (by decide) (by decide)
    have hq : IsName "q" := hname 'q' (by decide) (by decide)
    have hv : IsName "v" := hname 'v' (by decide) (by decide)
    have hw : program.WellFormed := by
      refine ⟨List.forall_mem_singleton.mpr ⟨?_, by simp, by simp⟩,
        List.forall_mem_singleton.mpr ⟨hq, List.forall_mem_singleton.mpr ⟨by simp, ?_, by simp⟩⟩⟩
      · simp [UsePath.segments, Names.WellFormed, Names.toList, hr]
      · simp [Fields.names, Names.toList, hv]
    have htext : program.render = "USE r QUERY q SELECT v RETURN" := by decide
    exact htext ▸ hw.read_back
  have hparsed : (readQuery slashWorld slashJob.queryFile slashJob.query).bind parseQuery =
      .ok program := by
    show parseQuery "USE r QUERY q SELECT v RETURN" = .ok program
    rw [parseQuery, hprogram]
  have hdata : readData slashWorld slashJob.dataFile = .ok data := by with_unfolding_all rfl
  have hrun : program.run data = .ok [("q", .text "a\\\\")] := by with_unfolding_all rfl
  rw [outcome_eq]
  show reported slashWorld color slashJob = _
  rw [reported, hformat, hparsed, hdata, if_neg (by decide)]
  show (do
    let results ← (program.run data).mapError failureOf
    (Report.results .text color slashJob.outTheme slashJob.indent results).mapError
      reportFailure) = _
  rw [hrun]
  rfl

theorem shows_colored_slashes :
    slashJob.name = .run ∧ Format.ofName? slashJob.out = some .text ∧
      Agree (List.Forall₂ Report.Part.Renders) (outcome slashWorld false true [] slashJob)
        (outcome slashWorld false false [] slashJob) ∧
      (listingOf "USE").name ≠ .run ∧
      Agree (List.Forall₂ fun colored bare : Report.Part => colored.shows = bare.shows)
        (outcome bareWorld false true [] (listingOf "USE"))
        (outcome bareWorld false false [] (listingOf "USE")) := by
  have hresults := (shows_colored .dim "" slashWorld false [] slashJob).2.2 rfl ofName?_slashJob
  have hname : (listingOf "USE").name ≠ .run := by decide
  have htokens := (shows_colored .dim "" bareWorld false [] (listingOf "USE")).2.1 hname
  exact ⟨rfl, ofName?_slashJob, hresults, hname, htokens⟩

/-- Two backslashes in a style are not read as the style, the backslashes and the closing tag,
and a coloured line that ends in them does not show what the plain one does. -/
theorem not_shows_colored_slashes :
    (¬ Reads (styled .resultValue "\\\\").toList
      (.tag Style.resultValue.tag.toList :: shownAll "\\\\".toList ++ [.tag ['/']])) ∧
    ∃ colored bare, outcome slashWorld false true [] slashJob = .ok [colored] ∧
      outcome slashWorld false false [] slashJob = .ok [bare] ∧
      bare.shows = "q: a\\\\".toList ∧ colored.shows ≠ bare.shows := by
  constructor
  · rw [Markup.reads_iff, eq_comm, Markup.read_styled_iff]
    exact fun h => h.2 (by decide)
  · refine ⟨_, _, outcome_slashJob true, outcome_slashJob false, rfl, fun heq => ?_⟩
    exact ((Report.shows_result "q" "a\\\\").mp heq).2 (by decide)

end Command.Job
end RecordQuery
