/-
Programs from tokens and from text.

A token sequence is a program when the grammar reads it to its end-of-text token
and nothing follows.  A refusal is reported at the place of the offending token;
when the program came as text, the report shows the line and points at the
column.
-/
import RecordQuery.Program.Grammar
import RecordQuery.Text.Lines
import RecordQuery.Token.Lexer

namespace RecordQuery

namespace Grammar

def Expected.message : Expected → String
  | fieldName => "Expected field name"
  | pathName => "Expected identifier in USE path"
  | closingBracket => "Expected closing ']' after fields"
  | pathSegment => "Expected identifier or field list in USE path"
  | conditionField => "Expected field name in condition"
  | conditionOperator => "Expected operator in condition"
  | conditionValue => "Expected value in condition"
  | closingParen => "Expected ')' after expression"
  | conditionStart => "Expected '(' after WHERE"
  | conditionEnd => "Expected ')' after WHERE conditions"
  | leftOperand operator => "Expected variable as " ++ operator.leftRole
  | rightOperand operator => "Expected variable as " ++ operator.rightRole
  | variableName => "Expected variable name after '$'"
  | assignedOperation => "Expected operation after variable assignment"
  | queryName => "Expected query name after QUERY"
  | blockEnd => "Expected RETURN at end of query block"

/-- The report of an integer lexeme shows no more than this many characters. -/
def reportedLexeme : Nat := 200

def BadNumeral.message : BadNumeral → String
  | tooLong digits => (Fault.unreadableInteger digits).message
  | notInteger lexeme =>
    "invalid literal for int() with base 10: " ++
      String.ofList ((Text.quotedChars lexeme.toList).take reportedLexeme)
  | notDecimal lexeme => "could not convert string to float: " ++ Text.quoted lexeme

end Grammar

namespace Program

/-- Why tokens or a text are no program. -/
inductive ParseError
  /-- The tokens end too early, or go on after the end of the text. -/
  | incomplete
  | refused (expected : Grammar.Expected) (line column : Int) (excerpt : Option String)
  | badNumeral (cause : Grammar.BadNumeral)
  deriving DecidableEq

def ParseError.message : ParseError → String
  | incomplete => "Invalid query syntax"
  | refused expected line _ excerpt =>
    (if 0 < line then s!"Line {line}: " else "") ++ expected.message ++
      (excerpt.map ("\n\n" ++ ·)).getD ""
  | badNumeral cause => cause.message

/-- The program that a token sequence denotes. -/
def ofTokens (tokens : List Token) : Except ParseError Program :=
  match Grammar.program tokens with
  | .ok (program, []) => .ok program
  | .ok (_, _ :: _) | .error .endOfTokens => .error .incomplete
  | .error (.refused expected found) =>
    .error (.refused expected found.line found.column none)
  | .error (.badNumeral cause) => .error (.badNumeral cause)

/-- A line of a text and, below it, a caret under a column; none where the text
has no such line. -/
def excerpt (text : String) (line column : Int) : Option String :=
  if line < 1 then none
  else
    (Text.lines text.toList)[(line - 1).toNat]?.map fun chars =>
      String.ofList (chars ++ '\n' :: List.replicate (column - 1).toNat ' ' ++ ['^'])

/-- The program that a text denotes. -/
def ofText (text : String) : Except ParseError Program :=
  match ofTokens (Token.ofText text) with
  | .ok program => .ok program
  | .error (.refused expected line column _) =>
    .error (.refused expected line column (excerpt text line column))
  | .error error => .error error

end Program

end RecordQuery
