/-
Reports: what the commands print.
-/
import RecordQuery.Markup.Terminal
import RecordQuery.Token
import RecordQuery.Value.Coercion

namespace RecordQuery

/-- The formats in which results are reported. -/
inductive Format
  | json
  | text
  deriving DecidableEq

namespace Format

def all : List Format := [json, text]

def name : Format → String
  | json => "json"
  | text => "text"

/-- The format of a name, written in any case and with blanks around it. -/
def ofName? (name : String) : Option Format :=
  let wanted := String.ofList ((Text.trim name.toList).map Char.toLower)
  all.find? fun f => f.name == wanted

end Format

namespace Report

/-- One piece of a report. -/
inductive Part
  | plain (text : String)
  | markup (text : String)
  /-- Text that a terminal shows with its syntax in colours of a theme. -/
  | highlighted (text theme : String)
  deriving DecidableEq

/-- Why results are not reported. -/
inductive ReportError
  | unknownFormat (name : String)
  /-- A value has no JSON text. -/
  | unwritable (fault : Fault)
  /-- A value has no text of its own. -/
  | unprintable (fault : Fault)

def ReportError.message : ReportError → String
  | unknownFormat name =>
    "Unsupported output format: " ++ name ++ ". Available: " ++
      ", ".intercalate (Format.all.map Format.name)
  | unwritable fault => "Cannot serialize results: " ++ fault.message
  | unprintable fault => fault.message

def defaultTheme : String := "github-dark"

def defaultIndent : Int := 2

/-- The theme of a name; a blank name stands for the default. -/
def themeOf (name : String) : String :=
  let trimmed := Text.trim name.toList
  if trimmed.isEmpty then defaultTheme else String.ofList trimmed

def line (color : Bool) (text : String) : Part :=
  if color then .markup text else .plain text

/-- Results as one JSON text.  An indentation that is not positive asks for one
line. -/
def json (color : Bool) (theme : String) (indent : Int) (results : Table Value) :
    Except Fault Part := do
  let text ← Json.write? (.indented indent.toNat) (.record results)
  return if color then .highlighted text (themeOf theme) else .plain text

/-- One line for each result. -/
def text (color : Bool) (results : Table Value) : Except Fault (List Part) :=
  if results.isEmpty then .ok [.plain "No results"]
  else do
    let lines ← results.mapM fun (name, value) => do
      let shown ← value.sourceText
      return Markup.colorize .queryName color name ++ ": " ++
        Markup.colorize .resultValue color shown
    return lines.map (line color)

/-- Results in a format. -/
def results (format : Format) (color : Bool) (theme : String) (indent : Int)
    (results : Table Value) : Except ReportError (List Part) :=
  match format with
  | .json => ((json color theme indent results).map ([·])).mapError .unwritable
  | .text => (text color results).mapError .unprintable

/-- The format of a name, or a refusal that lists the names there are. -/
def format (name : String) : Except ReportError Format :=
  match Format.ofName? name with
  | some format => .ok format
  | none => .error (.unknownFormat name)

/-- A token as its place, its kind and what it says. -/
def tokenLine (color : Bool) (token : Token) : String :=
  let place := Markup.colorize .dim color s!"{token.line}:{token.column}"
  let kind := Markup.colorize .tokenKind color token.kind.label
  if token.lexeme.isEmpty then place ++ " " ++ kind
  else
    place ++ " " ++ kind ++ " " ++ Markup.colorize .resultValue color (Text.quoted token.lexeme)

/-- What is printed of a part. -/
def Part.printed : Part → String
  | plain text => text
  | markup text => Markup.onTerminal text
  | highlighted text _ => text

end Report
end RecordQuery
