/-
Cutting a query text into tokens.

At each character `measure` says how many of the following characters belong to
the same piece of text and which kind of token the piece is; white space is a
piece without a kind.  Every character therefore lies in exactly one piece, and
no text is refused: a stray character or an unclosed quote becomes a token of
kind `unknown`.
-/
import RecordQuery.Text.DecimalDigit
import RecordQuery.Token

namespace RecordQuery
namespace Token

open Text

/-- The white space between tokens. -/
def isLayout (c : Char) : Bool :=
  c = ' ' || c = '\t' || c = '\r' || c = '\n'

def isNameStart (c : Char) : Bool :=
  c.isAlpha || c = '_'

def isNameChar (c : Char) : Bool :=
  c.isAlphanum || c = '_'

/-- How many leading characters satisfy a test. -/
def run (test : Char → Bool) (cs : List Char) : Nat :=
  (cs.takeWhile test).length

/-- How far a number extends past its first digit.  A point belongs to it only
when a digit follows. -/
def numeralTail (cs : List Char) : Nat :=
  let whole := run isDecimalDigit cs
  match cs.drop whole with
  | '.' :: d :: more =>
    if isDecimalDigit d then whole + 2 + run isDecimalDigit more else whole
  | _ => whole

/-- Operators and punctuation; the two-character operators come first, so that
`!=` is never read as `!` and `=`. -/
def symbol : Char → Option Char → Kind × Nat
  | '!', some '=' => (.comparator .notEqual, 1)
  | '>', some '=' => (.comparator .atLeast, 1)
  | '<', some '=' => (.comparator .atMost, 1)
  | '(', _ => (.leftParen, 0)
  | ')', _ => (.rightParen, 0)
  | '[', _ => (.leftBracket, 0)
  | ']', _ => (.rightBracket, 0)
  | ',', _ => (.comma, 0)
  | '.', _ => (.dot, 0)
  | '*', _ => (.asterisk, 0)
  | '&', _ => (.ampersand, 0)
  | '|', _ => (.pipe, 0)
  | '!', _ => (.not, 0)
  | '=', _ => (.comparator .equal, 0)
  | '>', _ => (.comparator .greater, 0)
  | '<', _ => (.comparator .less, 0)
  | _, _ => (.unknown, 0)

/-- The kind of the piece that begins with `c`, and how many characters after
`c` belong to it. -/
def measure (c : Char) (cs : List Char) : Option Kind × Nat :=
  if isLayout c then (none, run isLayout cs)
  else if c = '/' ∧ cs.head? = some '/' then (some .comment, run (· ≠ '\n') cs)
  else if c = '"' ∨ c = '\'' then
    let body := run (· ≠ c) cs
    if body < cs.length then (some .string, body + 1) else (some .unknown, body)
  else if isDecimalDigit c then (some .number, numeralTail cs)
  else if c = '$' then (some .reference, run isNameChar cs)
  else if isNameStart c then
    (some (Kind.ofWord (String.ofList (c :: cs.takeWhile isNameChar))), run isNameChar cs)
  else
    let (kind, tail) := symbol c cs.head?
    (some kind, tail)

/-- A place in a text, both counts from one. -/
structure Position where
  line : Nat
  column : Nat
  deriving DecidableEq

namespace Position

def start : Position := ⟨1, 1⟩

/-- Only a line feed begins a new line. -/
def next (p : Position) (c : Char) : Position :=
  if c = '\n' then ⟨p.line + 1, 1⟩ else ⟨p.line, p.column + 1⟩

def after (p : Position) (cs : List Char) : Position :=
  cs.foldl next p

end Position

/-- What a token says, given its raw text: strings leave out their quotes. -/
def lexemeOf (kind : Kind) (raw : List Char) : String :=
  String.ofList (if kind = .string then raw.tail.dropLast else raw)

/-- The tokens of a text that begins at `p`, closed by the end-of-text token. -/
def scan (p : Position) : List Char → List Token
  | [] => [⟨.endOfText, "", p.line, p.column⟩]
  | c :: cs =>
    let (kind?, tail) := measure c cs
    let raw := c :: cs.take tail
    let later := scan (p.after raw) (cs.drop tail)
    match kind? with
    | none => later
    | some kind => ⟨kind, lexemeOf kind raw, p.line, p.column⟩ :: later
termination_by cs => cs.length
decreasing_by simp only [List.length_drop, List.length_cons]; omega

/-- The tokens of a query text. -/
def ofText (text : String) : List Token :=
  scan .start text.toList

end Token
end RecordQuery
