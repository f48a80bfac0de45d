/-
Writing values as JSON text.

A style says what stands between items and between a name and its value,
whether characters beyond ASCII are escaped, and whether every item goes on a
line of its own.  Integers are written in full and doubles with the fewest
digits that read back; the three doubles without digits have names that JSON
itself does not know.
-/
import RecordQuery.Number.Shortest
import RecordQuery.Text.Hexadecimal
import RecordQuery.Value

namespace RecordQuery
namespace Json

open Text

/-- How values are laid out. -/
structure Style where
  itemMark : List Char
  fieldMark : List Char
  /-- Characters beyond ASCII are written as escapes. -/
  ascii : Bool
  /-- Spaces by which each nesting level is indented; none writes one line. -/
  indent : Option Nat

namespace Style

/-- No blanks at all. -/
def compact : Style := ⟨[','], [':'], false, none⟩

/-- One line with blanks after the marks. -/
def spaced : Style := ⟨[',', ' '], [':', ' '], false, none⟩

/-- One line of ASCII. -/
def ascii7 : Style := { spaced with ascii := true }

/-- Every item on a line of its own, or one line when no indentation is asked
for. -/
def indented (width : Nat) : Style :=
  if width = 0 then spaced else ⟨[','], [':', ' '], false, some width⟩

/-- What separates an item from the text before it. -/
def newline (style : Style) (depth : Nat) : List Char :=
  match style.indent with
  | none => []
  | some width => '\n' :: List.replicate (width * depth) ' '

end Style

/-- A code point as one escape, or as a pair of them when it needs more than
sixteen bits. -/
def escapeCodePoint (n : Nat) : List Char :=
  if n < 0x10000 then '\\' :: 'u' :: hexadecimal 4 n
  else
    let offset := n - 0x10000
    '\\' :: 'u' :: hexadecimal 4 (0xd800 + offset / 0x400) ++
      '\\' :: 'u' :: hexadecimal 4 (0xdc00 + offset % 0x400)

def escapeChar (ascii : Bool) (c : Char) : List Char :=
  if c = '"' then ['\\', '"']
  else if c = '\\' then ['\\', '\\']
  else if c = '\n' then ['\\', 'n']
  else if c = '\r' then ['\\', 'r']
  else if c = '\t' then ['\\', 't']
  else if c = '\x08' then ['\\', 'b']
  else if c = '\x0c' then ['\\', 'f']
  else if c.toNat < 0x20 ∨ (ascii ∧ 0x7f ≤ c.toNat) then escapeCodePoint c.toNat
  else [c]

def textChars (ascii : Bool) (s : String) : List Char :=
  '"' :: s.toList.flatMap (escapeChar ascii) ++ ['"']

def doubleNames : Double.SpecialNames := ⟨"NaN", "Infinity"⟩

def numberChars : Number → List Char
  | .int n => (toString n).toList
  | .double x => (x.write doubleNames).toList

/-- Parts between brackets. -/
def enclosed (style : Style) (depth : Nat) (left right : Char) (parts : List (List Char)) :
    List Char :=
  if parts.isEmpty then [left, right]
  else
    left :: style.newline (depth + 1) ++
      (style.itemMark ++ style.newline (depth + 1)).intercalate parts ++
      style.newline depth ++ [right]

mutual

def chars (style : Style) (depth : Nat) : Value → List Char
  | .null => ['n', 'u', 'l', 'l']
  | .bool true => ['t', 'r', 'u', 'e']
  | .bool false => ['f', 'a', 'l', 's', 'e']
  | .number n => numberChars n
  | .text s => textChars style.ascii s
  | .list items => enclosed style depth '[' ']' (itemChars style (depth + 1) items)
  | .record fields => enclosed style depth '\x7b' '\x7d' (fieldChars style (depth + 1) fields)

def itemChars (style : Style) (depth : Nat) : List Value → List (List Char)
  | [] => []
  | value :: rest => chars style depth value :: itemChars style depth rest

def fieldChars (style : Style) (depth : Nat) : List (String × Value) → List (List Char)
  | [] => []
  | (name, value) :: rest =>
    (textChars style.ascii name ++ style.fieldMark ++ chars style depth value) ::
      fieldChars style depth rest

end

/-- The JSON text of a value. -/
def write (style : Style) (value : Value) : String :=
  String.ofList (chars style 0 value)

/-- The JSON text of a value, unless it holds an integer too long to write. -/
def write? (style : Style) (value : Value) : Except Fault String :=
  if value.writable then .ok (write style value) else .error .unwritableInteger

end Json
end RecordQuery
