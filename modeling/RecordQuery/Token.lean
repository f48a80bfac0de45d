/-
Tokens of a query text.

A kind of token that stands for an operator carries the operator, so that what
reads tokens never has to look at a lexeme to learn which operator it met.
-/
import RecordQuery.Operator

namespace RecordQuery

namespace Token

/-- What a token is. -/
inductive Kind
  | use
  | query
  | select
  | where_
  | return_
  | each
  | count
  | percentOf
  | aggregate (function : Aggregate)
  | arithmetic (operator : Arithmetic)
  | comparator (relation : Comparator)
  | leftParen
  | rightParen
  | leftBracket
  | rightBracket
  | comma
  | dot
  | asterisk
  | ampersand
  | pipe
  | not
  | string
  | number
  | boolean
  | null
  | reference
  | identifier
  | comment
  | unknown
  | endOfText
  deriving DecidableEq

namespace Kind

/-- The label of a kind in listings. -/
def label : Kind → String
  | use => "USE"
  | query => "QUERY"
  | select => "SELECT"
  | where_ => "WHERE"
  | return_ => "RETURN"
  | each => "EACH"
  | count => "COUNT"
  | percentOf => "PERCENT_OF"
  | aggregate function => function.name
  | arithmetic operator => operator.name
  | comparator .equal => "EQUALS"
  | comparator .notEqual => "NOT_EQUALS"
  | comparator .greater => "GREATER_THAN"
  | comparator .less => "LESS_THAN"
  | comparator .atLeast => "GREATER_THAN_EQUALS"
  | comparator .atMost => "LESS_THAN_EQUALS"
  | comparator .contains => "CONTAINS"
  | comparator .lacks => "NOT_CONTAINS"
  | leftParen => "LEFT_PAREN"
  | rightParen => "RIGHT_PAREN"
  | leftBracket => "LEFT_BRACKET"
  | rightBracket => "RIGHT_BRACKET"
  | comma => "COMMA"
  | dot => "DOT"
  | asterisk => "ASTERISK"
  | ampersand => "AMPERSAND"
  | pipe => "PIPE"
  | not => "NOT"
  | string => "STRING"
  | number => "NUMBER"
  | boolean => "BOOLEAN"
  | null => "NULL"
  | reference => "VARIABLE"
  | identifier => "IDENTIFIER"
  | comment => "COMMENT"
  | unknown => "UNKNOWN"
  | endOfText => "EOF"

/-- The kinds whose label is also the word that denotes them in a query. -/
def keywords : List Kind :=
  [use, query, select, where_, return_, each, count, percentOf, comparator .contains,
    comparator .lacks] ++ Aggregate.all.map aggregate ++ Arithmetic.all.map arithmetic

def all : List Kind :=
  keywords ++ [comparator .equal, comparator .notEqual, comparator .greater, comparator .less,
    comparator .atLeast, comparator .atMost, leftParen, rightParen, leftBracket, rightBracket,
    comma, dot, asterisk, ampersand, pipe, not, string, number, boolean, null, reference,
    identifier, comment, unknown, endOfText]

def ofLabel? (label : String) : Option Kind :=
  all.find? fun k => k.label == label

/-- The kind of a bare word: a keyword, a literal or else a name.  Case
matters. -/
def ofWord (word : String) : Kind :=
  match keywords.find? fun k => k.label == word with
  | some k => k
  | none =>
    if word = "true" ∨ word = "false" then boolean
    else if word = "null" then null
    else identifier

end Kind

end Token

/-- A token, with the place where its raw text begins.  Places are counted from
one; token sequences that no text produced may carry any numbers. -/
structure Token where
  kind : Token.Kind
  lexeme : String
  line : Int
  column : Int
  deriving DecidableEq

end RecordQuery
