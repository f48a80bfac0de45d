/-
Markup for coloured lines.

A tag is a bracketed word that begins with a lowercase letter or one of `#`, `/`
and `@`.  Text is put between an opening tag that names a style and a closing
tag; what would read as a tag inside the text is kept from it by a backslash,
for which the backslashes before it are doubled.
-/
namespace RecordQuery

/-- What a stretch of a line is. -/
inductive Style
  | queryName
  | resultValue
  | tokenKind
  | dim
  deriving DecidableEq

namespace Style

/-- The name of a style in markup. -/
def tag : Style → String
  | queryName => "bold white"
  | resultValue => "green"
  | tokenKind => "magenta"
  | dim => "dim white"

end Style

namespace Markup

def beginsTag (c : Char) : Bool :=
  ('a' ≤ c && c ≤ 'z') || c = '#' || c = '/' || c = '@'

/-- The name of the tag that a bracket before the given text opens, and what
follows the tag. -/
def tag? : List Char → Option (List Char × List Char)
  | [] => none
  | c :: rest =>
    if beginsTag c then
      let body := rest.takeWhile fun d => d ≠ '[' && d ≠ ']'
      match rest.drop body.length with
      | ']' :: later => some (c :: body, later)
      | _ => none
    else none

theorem length_of_tag? {cs name later : List Char} (h : tag? cs = some (name, later)) :
    later.length < cs.length := by
  cases cs with
  | nil => simp [tag?] at h
  | cons c rest =>
    simp only [tag?] at h
    split at h
    · split at h
      · next heq =>
        simp only [Option.some.injEq, Prod.mk.injEq] at h
        have := congrArg List.length heq
        simp only [List.length_drop, List.length_cons, h.2] at this ⊢
        omega
      · simp at h
    · simp at h

def backslashes (count : Nat) : List Char :=
  List.replicate count '\\'

/-- A text with every would-be tag kept from being one.  So many backslashes
have been met just before it. -/
def escapeTags : Nat → List Char → List Char
  | met, [] => backslashes met
  | met, '\\' :: rest => escapeTags (met + 1) rest
  | met, '[' :: rest =>
    if (tag? rest).isSome then backslashes (2 * met + 1) ++ '[' :: escapeTags 0 rest
    else backslashes met ++ '[' :: escapeTags 0 rest
  | met, c :: rest => backslashes met ++ c :: escapeTags 0 rest

/-- Whether a text ends in exactly one backslash, which would keep a closing tag
from being one. -/
def endsInBackslash (cs : List Char) : Bool :=
  match cs.reverse with
  | '\\' :: '\\' :: _ => false
  | '\\' :: _ => true
  | _ => false

def escape (cs : List Char) : List Char :=
  let escaped := escapeTags 0 cs
  if endsInBackslash escaped then escaped ++ ['\\'] else escaped

/-- A text in a style, as markup. -/
def styled (style : Style) (text : String) : String :=
  "[" ++ style.tag ++ "]" ++ String.ofList (escape text.toList) ++ "[/]"

/-- A text in a style where colour is wanted, and bare otherwise. -/
def colorize (style : Style) (color : Bool) (text : String) : String :=
  if color then styled style text else text

end Markup
end RecordQuery
