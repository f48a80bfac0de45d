/-
Decoding UTF-8.

A code point takes one to four bytes and has to be written with as few as it
needs; surrogates are not code points.  A report of bytes that are no text names
the longest run that begins like a character and cannot be continued.
-/
import RecordQuery.Text.Hexadecimal

namespace RecordQuery
namespace Text
namespace Utf8

/-- How bytes fail to be text. -/
inductive Defect
  | start
  | continuation
  | truncated
  deriving DecidableEq

def Defect.message : Defect → String
  | start => "invalid start byte"
  | continuation => "invalid continuation byte"
  | truncated => "unexpected end of data"

/-- A defect, the byte at which it begins, its offset, and how many bytes it
spans. -/
structure Error where
  defect : Defect
  first : UInt8
  offset : Nat
  count : Nat

def Error.message (error : Error) : String :=
  (if error.count = 1 then
    "'utf-8' codec can't decode byte 0x" ++ String.ofList (hexadecimal 2 error.first.toNat) ++
      s!" in position {error.offset}: "
  else
    s!"'utf-8' codec can't decode bytes in position {error.offset}-" ++
      s!"{error.offset + error.count - 1}: ") ++ error.defect.message

/-- How many bytes follow the first one of a character, and the range in which
the second one has to lie; no range for a byte that begins no character. -/
def shape? (first : Nat) : Option (Nat × Nat × Nat) :=
  if first < 0x80 then some (0, 0, 0)
  else if first < 0xc2 then none
  else if first < 0xe0 then some (1, 0x80, 0xbf)
  else if first = 0xe0 then some (2, 0xa0, 0xbf)
  else if first = 0xed then some (2, 0x80, 0x9f)
  else if first < 0xf0 then some (2, 0x80, 0xbf)
  else if first = 0xf0 then some (3, 0x90, 0xbf)
  else if first < 0xf4 then some (3, 0x80, 0xbf)
  else if first = 0xf4 then some (3, 0x80, 0x8f)
  else none

/-- The code point that so many more bytes complete, the first of them within a
range; `read` counts the bytes before. -/
def complete? : Nat → Nat → Nat → Nat → Nat → List UInt8 → Except (Defect × Nat) Nat
  | 0, _, _, code, _, _ => .ok code
  | _ + 1, _, _, _, read, [] => .error (.truncated, read)
  | more + 1, low, high, code, read, b :: bytes =>
    if low ≤ b.toNat ∧ b.toNat ≤ high then
      complete? more 0x80 0xbf (code * 64 + b.toNat % 64) (read + 1) bytes
    else .error (.continuation, read)

/-- The bits of the first byte that belong to the code point. -/
def leadBits (first more : Nat) : Nat :=
  if more = 0 then first else first % Nat.pow 2 (6 - more)

/-- The text that bytes encode from an offset on, after the characters `read`,
which are in reverse. -/
def decodeFrom (offset : Nat) (read : List Char) : List UInt8 → Except Error (List Char)
  | [] => .ok read.reverse
  | first :: bytes =>
    match shape? first.toNat with
    | none => .error ⟨.start, first, offset, 1⟩
    | some (more, low, high) =>
      match complete? more low high (leadBits first.toNat more) 1 bytes with
      | .error (defect, count) => .error ⟨defect, first, offset, count⟩
      | .ok code =>
        decodeFrom (offset + 1 + more) (Char.ofNat code :: read) (bytes.drop more)
termination_by bytes => bytes.length
decreasing_by simp only [List.length_drop, List.length_cons]; omega

/-- The text that bytes encode. -/
def decode (bytes : List UInt8) : Except Error (List Char) :=
  decodeFrom 0 [] bytes

end Utf8

/-- The text after the characters `read`, which are in reverse, with a line feed
for every line end. -/
def unifyFrom (read : List Char) : List Char → List Char
  | [] => read.reverse
  | '\r' :: '\n' :: rest => unifyFrom ('\n' :: read) rest
  | '\r' :: rest => unifyFrom ('\n' :: read) rest
  | c :: rest => unifyFrom (c :: read) rest

/-- Every line end, however written, becomes a line feed. -/
def unifyLineEnds (cs : List Char) : List Char :=
  unifyFrom [] cs

end Text
end RecordQuery
