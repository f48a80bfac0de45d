/-
Markup on a terminal.

Half of the backslashes before a tag are shown, and an odd one makes the tag
plain text.  Codes of emoji are replaced.  Styled stretches become control
sequences, line by line, so that a style never runs over the end of a line.
-/
import RecordQuery.Markup
import RecordQuery.Text.Emoji
import RecordQuery.Text.Width

namespace RecordQuery
namespace Markup

/-- What markup consists of: characters to show, text that the backslashes of a
tag set off from its surroundings, and tags. -/
inductive Piece
  | shown (c : Char)
  | apart (cs : List Char)
  | tag (name : List Char)
  deriving DecidableEq

/-- The characters of a piece; tags have none. -/
def Piece.chars : Piece → List Char
  | shown c => [c]
  | apart cs => cs
  | tag _ => []

def shownAll (cs : List Char) : List Piece :=
  cs.map .shown

/-- The pieces of markup before which so many backslashes were met.  `bare` says
how many of them are shown before a bracket that opens no tag. -/
def pieces (bare : Nat → Nat) (met : Nat) (cs : List Char) : List Piece :=
  match cs with
  | [] => shownAll (backslashes met)
  | '\\' :: rest => pieces bare (met + 1) rest
  | '[' :: rest =>
    match h : tag? rest with
    | none => shownAll (backslashes (bare met)) ++ .shown '[' :: pieces bare 0 rest
    | some (name, later) =>
      have := length_of_tag? h
      .apart (backslashes (met / 2)) ::
        (if met % 2 = 0 then .tag name else .apart ('[' :: name ++ [']'])) ::
        pieces bare 0 later
  | c :: rest => shownAll (backslashes met) ++ .shown c :: pieces bare 0 rest
termination_by cs.length

/-- Pieces with emoji for their codes, after the characters `read`, which are in
reverse.  A code does not reach across text that is set apart. -/
def withEmoji (read : List Char) : List Piece → List Piece
  | [] => [.apart (Text.Emoji.replace read.reverse)]
  | .shown c :: rest => withEmoji (c :: read) rest
  | .apart cs :: rest =>
    .apart (Text.Emoji.replace read.reverse) :: .apart (Text.Emoji.replace cs) ::
      withEmoji [] rest
  | .tag name :: rest =>
    .apart (Text.Emoji.replace read.reverse) :: .tag name :: withEmoji [] rest

/-- The control parameters of a style. -/
def parameters : List (String × String) :=
  [(Style.queryName.tag, "1;37"), (Style.resultValue.tag, "32"), (Style.tokenKind.tag, "35"),
    (Style.dim.tag, "2;37")]

/-- A stretch of characters in a style. -/
def stretch (style : Option String) (cs : List Char) : List Char :=
  match style with
  | some codes =>
    if cs.isEmpty then []
    else '\x1b' :: '[' :: codes.toList ++ 'm' :: cs ++ ['\x1b', '[', '0', 'm']
  | none => cs

/-- Controls that move or sound the terminal are left out. -/
def isSilenced (c : Char) : Bool :=
  c = '\x07' || c = '\x08' || c = '\x0b' || c = '\x0c' || c = '\r'

/-- The distance between tab stops. -/
def tabWidth : Nat := 8

/-- What has been drawn: the finished characters, the styles that are open, the
characters of the current stretch in reverse, the column of the latest tab stop
in the line, and the characters after it in reverse. -/
structure Canvas where
  finished : List Char
  styles : List (Option String)
  current : List Char
  stop : Nat
  afterStop : List Char

namespace Canvas

def blank : Canvas := ⟨[], [], [], 0, []⟩

/-- Ends the current stretch. -/
def finish (canvas : Canvas) : Canvas :=
  { canvas with
    finished := canvas.finished ++ stretch canvas.styles.head?.join canvas.current.reverse
    current := [] }

/-- Ends the current stretch and the line. -/
def breakLine (canvas : Canvas) : Canvas :=
  { canvas.finish with
    finished := canvas.finish.finished ++ ['\n'], stop := 0, afterStop := [] }

/-- Goes on to the next tab stop, by one blank at least, and ends the current
stretch there. -/
def tabulate (canvas : Canvas) : Canvas :=
  let reached := canvas.stop + Text.columns (canvas.afterStop.reverse ++ [' '])
  let gap := (tabWidth - reached % tabWidth) % tabWidth
  finish { canvas with
    current := List.replicate (gap + 1) ' ' ++ canvas.current
    stop := reached + gap
    afterStop := [] }

def draw (canvas : Canvas) (c : Char) : Canvas :=
  if isSilenced c then canvas
  else if c = '\n' then canvas.breakLine
  else if c = '\t' then canvas.tabulate
  else { canvas with current := c :: canvas.current, afterStop := c :: canvas.afterStop }

def add (canvas : Canvas) : Piece → Canvas
  | .tag ('/' :: _) => { canvas.finish with styles := canvas.styles.tail }
  | .tag name =>
    { canvas.finish with styles := parameters.lookup (String.ofList name) :: canvas.styles }
  | piece => piece.chars.foldl draw canvas

end Canvas

/-- Pieces as a terminal shows them. -/
def paint (pieces : List Piece) : List Char :=
  (pieces.foldl Canvas.add .blank).finish.finished

/-- A line of markup as a terminal shows it.  One backslash before a bracket that
opens no tag is not shown. -/
def onTerminal (markup : String) : String :=
  String.ofList (paint (withEmoji [] (pieces Nat.pred 0 markup.toList)))

end Markup
end RecordQuery
