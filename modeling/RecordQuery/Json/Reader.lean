/-
Reading JSON text.

Beyond the standard, `NaN`, `Infinity` and `-Infinity` are numbers.  A name that
repeats within one record keeps its first place and takes its last value.  A
refusal says what was expected and how much of the text was left there, from
which `Refusal.message` tells line and column.
-/
import RecordQuery.Text.Hexadecimal
import RecordQuery.Value

namespace RecordQuery
namespace Json

open Text

/-- What keeps a text from being JSON. -/
inductive Cause
  | byteOrderMark
  | value
  | propertyName
  | colon
  | comma
  | unterminated
  | controlCharacter
  | escape
  | codePoint
  | extraData
  | integerTooLong (digits : Nat)
  deriving DecidableEq

/-- A cause, with the text that was left at the offending place. -/
structure Refusal where
  cause : Cause
  left : List Char

abbrev Reading (α : Type) := Except Refusal (α × List Char)

def refuse {α : Type} (cause : Cause) (left : List Char) : Reading α :=
  .error ⟨cause, left⟩

def isSpace (c : Char) : Bool :=
  c = ' ' || c = '\t' || c = '\n' || c = '\r'

def skip (cs : List Char) : List Char :=
  cs.dropWhile isSpace

/-- The value of four hexadecimal digits.  At least one more character has to
follow them. -/
def codeUnit? : List Char → Option Nat
  | a :: b :: c :: d :: _ :: _ => do
    let digits ← [a, b, c, d].mapM hexadecimalValue?
    return digits.foldl (fun n digit => n * 16 + digit) 0
  | _ => none

def isHighSurrogate (n : Nat) : Bool :=
  0xd800 ≤ n && n < 0xdc00

def isLowSurrogate (n : Nat) : Bool :=
  0xdc00 ≤ n && n < 0xe000

/-- The character of a code point; half of a surrogate pair has none and is
replaced. -/
def charOf (n : Nat) : Char :=
  if isHighSurrogate n || isLowSurrogate n then '\ufffd' else Char.ofNat n

/-- The character that an escape by code point denotes, and the length of the
escape from its `u` on.  A high surrogate joins with a low one in a second
escape. -/
def codePointEscape (digits : List Char) : Except Refusal (Char × Nat) :=
  match codeUnit? digits with
  | none => .error ⟨.codePoint, 'u' :: digits⟩
  | some high =>
    match isHighSurrogate high, digits.drop 4 with
    | true, '\\' :: 'u' :: second =>
      if second.length < 5 then .ok (charOf high, 5)
      else match codeUnit? second with
        | none => .error ⟨.codePoint, 'u' :: second⟩
        | some low =>
          if isLowSurrogate low then
            .ok (Char.ofNat (0x10000 + (high - 0xd800) * 0x400 + (low - 0xdc00)), 11)
          else .ok (charOf high, 5)
    | _, _ => .ok (charOf high, 5)

/-- The character that an escape denotes, and the length of the escape after its
backslash. -/
def escape (opening : List Char) : List Char → Except Refusal (Char × Nat)
  | [] => .error ⟨.unterminated, opening⟩
  | '"' :: _ => .ok ('"', 1)
  | '\\' :: _ => .ok ('\\', 1)
  | '/' :: _ => .ok ('/', 1)
  | 'b' :: _ => .ok ('\x08', 1)
  | 'f' :: _ => .ok ('\x0c', 1)
  | 'n' :: _ => .ok ('\n', 1)
  | 'r' :: _ => .ok ('\r', 1)
  | 't' :: _ => .ok ('\t', 1)
  | 'u' :: digits => codePointEscape digits
  | other => .error ⟨.escape, '\\' :: other⟩

/-- The rest of a string after the characters `read`, which are in reverse.  The
text from the opening quote on is kept to report a missing end. -/
def stringFrom (opening read : List Char) : List Char → Reading String
  | [] => refuse .unterminated opening
  | '"' :: rest => .ok (String.ofList read.reverse, rest)
  | '\\' :: rest =>
    match escape opening rest with
    | .ok (c, length) => stringFrom opening (c :: read) (rest.drop length)
    | .error refusal => .error refusal
  | c :: rest =>
    if c.toNat < 0x20 then refuse .controlCharacter (c :: rest)
    else stringFrom opening (c :: read) rest
termination_by cs => cs.length
decreasing_by
  · simp only [List.length_drop, List.length_cons]; omega
  · simp only [List.length_cons]; omega

/-- A string, whose opening quote has been read. -/
def string (rest : List Char) : Reading String :=
  stringFrom ('"' :: rest) [] rest

/-- The digits after a point that a digit follows. -/
def fraction : List Char → List Char × List Char
  | '.' :: d :: rest =>
    if d.isDigit then (d :: rest.takeWhile Char.isDigit, rest.dropWhile Char.isDigit)
    else ([], '.' :: d :: rest)
  | rest => ([], rest)

/-- An exponent with at least one digit. -/
def exponent? : List Char → Option (Int × List Char)
  | c :: rest =>
    if c = 'e' ∨ c = 'E' then
      let (negative, rest) := match rest with
        | '-' :: rest => (true, rest)
        | '+' :: rest => (false, rest)
        | rest => (false, rest)
      match rest.takeWhile Char.isDigit with
      | [] => none
      | digits =>
        let n := Nat.ofDigitChars 10 digits 0
        some (if negative then -(n : Int) else n, rest.dropWhile Char.isDigit)
    else none
  | [] => none

/-- A number.  Without fraction and exponent it is an integer. -/
def number (cs : List Char) : Reading Value :=
  let (negative, unsigned) := match cs with
    | '-' :: rest => (true, rest)
    | rest => (false, rest)
  let whole := match unsigned with
    | '0' :: _ => ['0']
    | digits => digits.takeWhile Char.isDigit
  if whole.isEmpty then refuse .value cs
  else
    let (decimals, rest) := fraction (unsigned.drop whole.length)
    match decimals, exponent? rest with
    | [], none =>
      if digitLimit < whole.length then refuse (.integerTooLong whole.length) cs
      else
        let n := Nat.ofDigitChars 10 whole 0
        .ok (.int (if negative then -(n : Int) else n), rest)
    | _, scale =>
      let (exponent, rest) := scale.getD (0, rest)
      .ok (.double (Double.ofDecimal negative (Nat.ofDigitChars 10 (whole ++ decimals) 0)
        (exponent - decimals.length)), rest)

/-- The values that are written as words. -/
def words : List (List Char × Value) :=
  [("null".toList, .null), ("true".toList, .bool true), ("false".toList, .bool false),
    ("NaN".toList, .double .nan), ("Infinity".toList, .double (.infinite false)),
    ("-Infinity".toList, .double (.infinite true))]

/-- A value that is neither string, list nor record. -/
def atom (cs : List Char) : Reading Value :=
  match words.find? fun word => word.1.isPrefixOf cs with
  | some (word, value) => .ok (value, cs.drop word.length)
  | none => number cs

/-- The items of a list after its bracket, at most `count` of them. -/
def items (element : List Char → Reading Value) :
    Nat → List Char → Except Refusal (List Value × List Char)
  | 0, cs => refuse .comma cs
  | count + 1, cs => do
    let (value, rest) ← element cs
    match skip rest with
    | ']' :: rest => .ok ([value], rest)
    | ',' :: rest =>
      let (values, rest) ← items element count (skip rest)
      .ok (value :: values, rest)
    | rest => refuse .comma rest

/-- The fields of a record after its brace, at most `count` of them. -/
def fields (element : List Char → Reading Value) :
    Nat → List Char → Except Refusal (List (String × Value) × List Char)
  | 0, cs => refuse .comma cs
  | count + 1, '"' :: cs => do
    let (name, rest) ← string cs
    match skip rest with
    | ':' :: rest =>
      let (value, rest) ← element (skip rest)
      match skip rest with
      | '\x7d' :: rest => .ok ([(name, value)], rest)
      | ',' :: rest =>
        let (others, rest) ← fields element count (skip rest)
        .ok ((name, value) :: others, rest)
      | rest => refuse .comma rest
    | rest => refuse .colon rest
  | _ + 1, cs => refuse .propertyName cs

/-- A value in which lists and records nest at most `depth` deep. -/
def value : Nat → List Char → Reading Value
  | _, [] => refuse .value []
  | 0, cs => refuse .value cs
  | depth + 1, c :: cs =>
    if c = '"' then (string cs).map fun (s, rest) => (.text s, rest)
    else if c = '[' then
      match skip cs with
      | ']' :: rest => .ok (.list [], rest)
      | rest => (items (value depth) rest.length.succ rest).map fun (vs, rest) => (.list vs, rest)
    else if c = '\x7b' then
      match skip cs with
      | '\x7d' :: rest => .ok (.record [], rest)
      | rest =>
        (fields (value depth) rest.length.succ rest).map fun (pairs, rest) =>
          (.record (Table.ofPairs pairs), rest)
    else atom (c :: cs)

/-- The value of a whole text.  Nesting is bounded by the length of the text. -/
def readChars (cs : List Char) : Except Refusal Value :=
  if cs.head? = some '\ufeff' then .error ⟨.byteOrderMark, cs⟩
  else do
    let (result, rest) ← value cs.length.succ (skip cs)
    match skip rest with
    | [] => .ok result
    | rest => .error ⟨.extraData, rest⟩

/-- Whether a text failed as JSON, or for holding a numeral that is too long. -/
inductive ReadError
  | malformed (message : String)
  | unreadable (fault : Fault)

def Cause.message : Cause → String
  | byteOrderMark => "Unexpected UTF-8 BOM (decode using utf-8-sig)"
  | value => "Expecting value"
  | propertyName => "Expecting property name enclosed in double quotes"
  | colon => "Expecting ':' delimiter"
  | comma => "Expecting ',' delimiter"
  | unterminated => "Unterminated string starting at"
  | controlCharacter => "Invalid control character at"
  | escape => "Invalid \\escape"
  | codePoint => "Invalid \\uXXXX escape"
  | extraData => "Extra data"
  | integerTooLong digits => (Fault.unreadableInteger digits).message

/-- The report of a refusal within a text: the cause and the place. -/
def Refusal.message (refusal : Refusal) (text : List Char) : String :=
  let offset := text.length - refusal.left.length
  let before := text.take offset
  let line := before.count '\n' + 1
  let column := (before.reverse.takeWhile (· ≠ '\n')).length + 1
  s!"{refusal.cause.message}: line {line} column {column} (char {offset})"

/-- The value that a JSON text denotes. -/
def read (text : String) : Except ReadError Value :=
  match readChars text.toList with
  | .ok value => .ok value
  | .error refusal =>
    match refusal.cause with
    | .integerTooLong digits => .error (.unreadable (.unreadableInteger digits))
    | _ => .error (.malformed (refusal.message text.toList))

end Json
end RecordQuery
