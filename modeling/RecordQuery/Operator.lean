/-
The operators of the query language, each with the word that names it in a
query.
-/
namespace RecordQuery

/-- Relations between a field and an operand in a WHERE condition. -/
inductive Comparator
  | equal
  | notEqual
  | greater
  | less
  | atLeast
  | atMost
  | contains
  | lacks
  deriving DecidableEq

namespace Comparator

def all : List Comparator :=
  [equal, notEqual, greater, less, atLeast, atMost, contains, lacks]

/-- How the relation is written in a query. -/
def symbol : Comparator → String
  | equal => "="
  | notEqual => "!="
  | greater => ">"
  | less => "<"
  | atLeast => ">="
  | atMost => "<="
  | contains => "CONTAINS"
  | lacks => "NOT_CONTAINS"

def ofSymbol? (symbol : String) : Option Comparator :=
  all.find? fun c => c.symbol == symbol

end Comparator

/-- Reductions of a working set to one value. -/
inductive Aggregate
  | sum
  | average
  | median
  | min
  | max
  | mostFrequent
  | leastFrequent
  | unique
  | standardDeviation
  | variance
  | range
  deriving DecidableEq

namespace Aggregate

def all : List Aggregate :=
  [sum, average, median, min, max, mostFrequent, leastFrequent, unique, standardDeviation,
    variance, range]

def name : Aggregate → String
  | sum => "SUM"
  | average => "AVERAGE"
  | median => "MEDIAN"
  | min => "MIN"
  | max => "MAX"
  | mostFrequent => "MOST_FREQUENT"
  | leastFrequent => "LEAST_FREQUENT"
  | unique => "UNIQUE"
  | standardDeviation => "STANDARD_DEVIATION"
  | variance => "VARIANCE"
  | range => "RANGE"

def ofName? (name : String) : Option Aggregate :=
  all.find? fun a => a.name == name

end Aggregate

/-- Arithmetic on the values of two variables. -/
inductive Arithmetic
  | divide
  | multiply
  | subtract
  deriving DecidableEq

namespace Arithmetic

def all : List Arithmetic :=
  [divide, multiply, subtract]

def name : Arithmetic → String
  | divide => "DIVIDE"
  | multiply => "MULTIPLY"
  | subtract => "SUBTRACT"

def ofName? (name : String) : Option Arithmetic :=
  all.find? fun a => a.name == name

/-- What the first operand is called when it is missing. -/
def leftRole : Arithmetic → String
  | divide => "dividend"
  | multiply => "first factor"
  | subtract => "minuend"

/-- What the second operand is called when it is missing. -/
def rightRole : Arithmetic → String
  | divide => "divisor"
  | multiply => "second factor"
  | subtract => "subtrahend"

end Arithmetic

end RecordQuery
