/-
The expected paths of a program as a query.

A program lists the paths at which it expects data, each as it would be declared.  Put
behind `USE`, one on a line, they are a query that declares the same paths
(`Program.ofText_listing`): a segment stands in brackets exactly where the brackets are
needed to read the path back.

The texts of the paths have no space around their dots and brackets, so a name is not
followed by a separator but by any character that is not one of a name, and what carries
the scan from one piece to the next is that the text after a name begins with such a
character.
-/
import RecordQuery.Proofs.Rendering.Parsed

namespace RecordQuery

open Token (Piece isNameChar)
open Token.Piece (mark Lays)

/-! ## Pieces without separators -/

/-- That a text is scanned as some pieces where no character of a name comes after it. -/
def LaysOut (pieces : List Piece) (cs : List Char) : Prop :=
  Lays (fun c => isNameChar c = false) pieces cs

/-- That a text, if it is not empty, begins with a character that ends a name. -/
def EndsName (cs : List Char) : Prop :=
  ∀ c ∈ cs.head?, isNameChar c = false

section
variable {xs ys : List Piece} {cs ds : List Char}

theorem EndsName.append (hc : EndsName cs) (hd : EndsName ds) : EndsName (cs ++ ds) := by
  cases cs with
  | nil => exact hd
  | cons c cs => exact hc

theorem LaysOut.append (hx : LaysOut xs cs) (hy : LaysOut ys ds) (hd : EndsName ds) :
    LaysOut (xs ++ ys) (cs ++ ds) :=
  Lays.append hx hy fun _ hr => hd.append hr

theorem laysOut_flatMap {α : Type} {items : List α} {f : α → List Piece} {g : α → List Char}
    (h : ∀ item ∈ items, LaysOut (f item) (g item)) (hg : ∀ item, EndsName (g item)) :
    LaysOut (items.flatMap f) (items.flatMap g) ∧ EndsName (items.flatMap g) := by
  induction items with
  | nil => exact ⟨.nil, by simp [EndsName]⟩
  | cons item rest ih =>
    obtain ⟨hlays, hends⟩ := ih fun other hm => h other (List.mem_cons_of_mem _ hm)
    exact ⟨(h item List.mem_cons_self).append hlays hends, (hg item).append hends⟩

theorem laysOut_name {name : String} (h : IsName name) :
    LaysOut [Piece.name name] name.toList := by
  obtain ⟨c, cs, hl, hc, hcs, ho⟩ := h
  refine @Lays.piece _ (Piece.name name) fun rest hr => ?_
  have hword := Piece.standsBefore_word hc hcs hr
  rwa [← hl, String.ofList_toList, ho] at hword

/-- A sign that no other makes longer may come before anything. -/
theorem LaysOut.sign {kind : Token.Kind} {c : Char} (hy : LaysOut ys ds) (hc : Token.isSign c)
    (hslash : c ≠ '/') (h : ∀ next, Token.symbol c next = (kind, 0)) :
    LaysOut (⟨kind, [c]⟩ :: ys) (c :: ds) := by
  have hpiece : Lays (fun _ => True) [⟨kind, [c]⟩] [c] := by
    refine @Lays.piece _ ⟨kind, [c]⟩ fun rest _ => ⟨c, [], rfl, ?_⟩
    have hcut := @Token.Cut.sign c rest hc fun hs => hslash hs.1
    rwa [h] at hcut
  exact Lays.append hpiece hy fun _ _ _ _ => trivial

theorem LaysOut.blank {c : Char} (hy : LaysOut ys ds) (hc : Token.isLayout c) :
    LaysOut ys (c :: ds) := by
  have hblank : Lays (fun _ => True) [] [c] := .blank hc
  exact Lays.append hblank hy fun _ _ _ _ => trivial

theorem LaysOut.comma (hy : LaysOut ys ds) : LaysOut (mark .comma :: ys) (',' :: ds) :=
  hy.sign (by decide) (by decide) fun _ => rfl

theorem LaysOut.dot (hy : LaysOut ys ds) : LaysOut (mark .dot :: ys) ('.' :: ds) :=
  hy.sign (by decide) (by decide) fun _ => rfl

theorem LaysOut.leftBracket (hy : LaysOut ys ds) : LaysOut (mark .leftBracket :: ys) ('[' :: ds) :=
  hy.sign (by decide) (by decide) fun _ => rfl

theorem LaysOut.rightBracket (hy : LaysOut ys ds) :
    LaysOut (mark .rightBracket :: ys) (']' :: ds) :=
  hy.sign (by decide) (by decide) fun _ => rfl

end

/-! ## Texts of paths -/

theorem toList_intercalate_cons (separator first : String) (others : List String) :
    (separator.intercalate (first :: others)).toList =
      first.toList ++ others.flatMap fun other => separator.toList ++ other.toList := by
  induction others generalizing first with
  | nil => simp
  | cons other others ih =>
    rw [String.intercalate_cons_cons, String.toList_append, String.toList_append, ih]
    simp

theorem endsName_cons {c : Char} {cs : List Char} (hc : isNameChar c = false) :
    EndsName (c :: cs) := by
  rintro _ ⟨⟩
  exact hc

theorem Names.WellFormed.laysOut {names : Names} (h : names.WellFormed) :
    LaysOut names.pieces names.bracketed.toList := by
  have hname : ∀ name ∈ names.others,
      LaysOut [mark .comma, Piece.name name] (',' :: ' ' :: name.toList) := fun name hn =>
    ((laysOut_name (h name (List.mem_cons_of_mem _ hn))).blank (by decide)).comma
  obtain ⟨hothers, hends⟩ := laysOut_flatMap hname fun name => endsName_cons (by decide)
  have hclose : LaysOut [mark .rightBracket] [']'] := LaysOut.rightBracket .nil
  have hfirst := laysOut_name (h names.first List.mem_cons_self)
  have hinner := (hothers.append hclose (endsName_cons (by decide)))
  have hall := (hfirst.append hinner (hends.append (endsName_cons (by decide)))).leftBracket
  have htext : names.bracketed.toList = '[' :: (names.first.toList ++
      (names.others.flatMap (fun name => ',' :: ' ' :: name.toList) ++ [']'])) := by
    rw [Names.bracketed, Names.toList, String.toList_append, String.toList_append,
      toList_intercalate_cons]
    simp
  rw [htext]
  exact hall

theorem Names.WellFormed.laysOut_segment {names : Names} (h : names.WellFormed) :
    LaysOut (UsePath.segmentPieces names) (UsePath.segmentText names).toList := by
  rw [UsePath.segmentPieces, UsePath.segmentText]
  simp only [List.isEmpty_iff]
  split
  · exact laysOut_name (h names.first List.mem_cons_self)
  · exact h.laysOut

/-- A declaration, on a line of its own. -/
def UsePath.line (text : String) : String :=
  "USE " ++ text

theorem UsePath.WellFormed.laysOut {path : UsePath} (h : path.WellFormed) :
    LaysOut path.pieces (UsePath.line path.text).toList := by
  have hsegment : ∀ segment ∈ path.others,
      LaysOut (mark .dot :: segmentPieces segment) ('.' :: (segmentText segment).toList) :=
    fun segment hs => (h.segments segment (List.mem_cons_of_mem _ hs)).laysOut_segment.dot
  have hfields : ∀ fields ∈ path.fields.toList,
      LaysOut (mark .dot :: fields.pieces) ('.' :: fields.bracketed.toList) :=
    fun fields hf => (h.fields fields (by simpa using hf)).laysOut.dot
  obtain ⟨hothers, hends⟩ := laysOut_flatMap hsegment fun _ => endsName_cons (by decide)
  obtain ⟨htail, hends'⟩ := laysOut_flatMap hfields fun _ => endsName_cons (by decide)
  have hfirst := (h.segments path.first List.mem_cons_self).laysOut_segment
  have hpath := hfirst.append (hothers.append htail hends') (hends.append hends')
  have huse : Lays (· = ' ') [mark .use] (mark .use).raw := .piece (Piece.stands_mark rfl)
  have hline : LaysOut path.pieces ((mark .use).raw ++ ' ' :: _) :=
    Lays.append huse (hpath.blank (by decide)) (by simp)
  have htext : (line path.text).toList = (mark .use).raw ++ ' ' ::
      ((segmentText path.first).toList ++
        (path.others.flatMap (fun segment => '.' :: (segmentText segment).toList) ++
          path.fields.toList.flatMap fun fields => '.' :: fields.bracketed.toList)) := by
    have hword : "USE ".toList = (mark .use).raw ++ [' '] := rfl
    rw [line, text, UsePath.segments, List.map_cons, List.cons_append, String.toList_append,
      toList_intercalate_cons, hword]
    cases path.fields <;> simp [List.flatMap_map]
  rw [htext]
  exact hline

/-! ## Listings -/

namespace Program

/-- Declarations, one on a line. -/
def listing (paths : List String) : String :=
  "\n".intercalate (paths.map UsePath.line)

theorem laysOut_listing {paths : List UsePath} (h : ∀ path ∈ paths, path.WellFormed) :
    LaysOut (paths.flatMap UsePath.pieces) (listing (paths.map UsePath.text)).toList := by
  cases paths with
  | nil => exact .nil
  | cons path paths =>
    obtain ⟨hpath, hpaths⟩ := List.forall_mem_cons.mp h
    have hline : ∀ path ∈ paths,
        LaysOut path.pieces ('\n' :: (UsePath.line path.text).toList) := fun path hp =>
      (hpaths path hp).laysOut.blank (by decide)
    obtain ⟨hothers, hends⟩ := laysOut_flatMap hline fun _ => endsName_cons (by decide)
    have htext : (listing ((path :: paths).map UsePath.text)).toList =
        (UsePath.line path.text).toList ++
          paths.flatMap fun path => '\n' :: (UsePath.line path.text).toList := by
      rw [listing, List.map_cons, List.map_cons, toList_intercalate_cons]
      simp [List.flatMap_map]
    rw [htext]
    exact hpath.laysOut.append hothers hends

/-- The expected paths of a parsed program, each behind `USE` on a line of its own, are
the text of a program that has the same paths, and no blocks, and expects the same. -/
theorem ofText_listing {text : String} {program : Program} (h : ofText text = .ok program) :
    ∃ listed, ofText (listing program.expectedPaths) = .ok listed ∧
      listed.paths = program.paths ∧ listed.blocks = [] ∧
      listed.expectedPaths = program.expectedPaths := by
  have hpaths : ∀ path ∈ program.paths, path.WellFormed :=
    (ofText_iff_spells.mp h).paths_wellFormed fun _ ht => Token.legible_of_mem_scan ht
  have hw : WellFormed ⟨program.paths, []⟩ := ⟨hpaths, by simp⟩
  obtain ⟨ts, p, hscan, hts⟩ := Lays.scan (laysOut_listing hpaths) .start
  have hpieces : pieces ⟨program.paths, []⟩ = program.paths.flatMap UsePath.pieces := by
    simp [pieces]
  exact ⟨⟨program.paths, []⟩, hw.ofText_eq hscan (hpieces ▸ hts), rfl, rfl, rfl⟩

/-- A path with one name in brackets, first and last, and a choice of names between
them. -/
def declaration : String :=
  "USE [a] . [b,c].[d]"

def declared : Program :=
  ⟨[⟨⟨"a", []⟩, [⟨"b", ["c"]⟩], some ⟨"d", []⟩⟩], []⟩

theorem ofText_listing_declaration :
    ofText declaration = .ok declared ∧
      listing declared.expectedPaths = "USE a.[b, c].[d]" ∧
      ∃ listed, ofText (listing declared.expectedPaths) = .ok listed ∧
        listed.paths = declared.paths ∧ listed.blocks = [] ∧
        listed.expectedPaths = declared.expectedPaths := by
  have htokens : Token.ofText declaration = [⟨.use, "USE", 1, 1⟩, ⟨.leftBracket, "[", 1, 5⟩,
      ⟨.identifier, "a", 1, 6⟩, ⟨.rightBracket, "]", 1, 7⟩, ⟨.dot, ".", 1, 9⟩,
      ⟨.leftBracket, "[", 1, 11⟩, ⟨.identifier, "b", 1, 12⟩, ⟨.comma, ",", 1, 13⟩,
      ⟨.identifier, "c", 1, 14⟩, ⟨.rightBracket, "]", 1, 15⟩, ⟨.dot, ".", 1, 16⟩,
      ⟨.leftBracket, "[", 1, 17⟩, ⟨.identifier, "d", 1, 18⟩, ⟨.rightBracket, "]", 1, 19⟩,
      ⟨.endOfText, "", 1, 20⟩] := by
    decide +kernel
  have hfirst : Grammar.SpellsSegment [⟨.leftBracket, "[", 1, 5⟩, ⟨.identifier, "a", 1, 6⟩,
      ⟨.rightBracket, "]", 1, 7⟩] (⟨"a", []⟩, true) :=
    .list rfl (.list rfl (.close rfl))
  have hchoice : Grammar.SpellsSegment [⟨.leftBracket, "[", 1, 11⟩, ⟨.identifier, "b", 1, 12⟩,
      ⟨.comma, ",", 1, 13⟩, ⟨.identifier, "c", 1, 14⟩, ⟨.rightBracket, "]", 1, 15⟩]
      (⟨"b", ["c"]⟩, true) :=
    .list rfl (.list rfl (.name rfl rfl (.close rfl)))
  have hlast : Grammar.SpellsSegment [⟨.leftBracket, "[", 1, 17⟩, ⟨.identifier, "d", 1, 18⟩,
      ⟨.rightBracket, "]", 1, 19⟩] (⟨"d", []⟩, true) :=
    .list rfl (.list rfl (.close rfl))
  have hpath := Grammar.SpellsPath.dotted hfirst (.dotted (d := ⟨.dot, ".", 1, 9⟩) rfl hchoice
    (.dotted (d := ⟨.dot, ".", 1, 16⟩) rfl hlast .none))
  have hread : ofText declaration = .ok declared := by
    rw [ofText_iff_spells, htokens]
    exact .path rfl hpath (by simp) (.ends rfl)
  exact ⟨hread, by decide, ofText_listing hread⟩

end Program
end RecordQuery
