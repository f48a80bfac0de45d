/-
Carrying out command lines.

A command sees the world as the files of its directory, its input and whether it
writes to a terminal, and answers with an exit code and what it prints.  Only a
configuration that cannot be used, or a number too large to compute with, ends it
before it can report.
-/
import RecordQuery.Command.Arguments
import RecordQuery.Journal
import RecordQuery.Json.Reader
import RecordQuery.Settings
import RecordQuery.Text.Utf8

namespace RecordQuery
namespace Command

/-- What a file name leads to. -/
inductive File
  | missing
  | forbidden
  | directory
  | bytes (content : List UInt8)

/-- What a command can see. -/
structure World where
  file : String → File
  input : String
  terminal : Bool

/-- What ends a command without a report of its own. -/
inductive Abort
  | malformedConfig
  | undecodableConfig (error : Text.Utf8.Error)
  | fault (cause : Fault)

def Abort.message : Abort → String
  | malformedConfig => "Malformed config"
  | undecodableConfig error => error.message
  | fault cause => cause.message

/-- How a command ended: its exit code, what it printed, and the error it
reported. -/
structure Outcome where
  exit : Nat
  out : String
  error : Option String

/-- What stops a command: a mistake of its user, or an abort. -/
inductive Failure
  | usage (message : String)
  | abort (abort : Abort)

/-- A command while it runs: the lines noted so far are kept when it fails. -/
abbrev Script := ExceptT Failure (StateM (List String))

/-! ## Reading -/

/-- A text file, with line feeds at its line ends. -/
def readFile (world : World) (name description : String) : Except Failure (List Char) :=
  let refuse (problem : String) : Except Failure (List Char) :=
    .error (.usage s!"Invalid value: {description} '{name}' {problem}")
  match world.file name with
  | .missing => refuse "not found"
  | .forbidden => .error (.usage s!"Invalid value: Permission denied for '{name}'")
  | .directory => refuse "is a directory"
  | .bytes content =>
    match Text.Utf8.decode content with
    | .ok cs => .ok (Text.unifyLineEnds cs)
    | .error _ => refuse "is not valid UTF-8"

/-- The settings of a configuration file.  A file that is missing sets nothing,
and an empty name is that of the directory. -/
def loadSettings (world : World) (name : String) : Except Abort Settings :=
  match if name.isEmpty then .directory else world.file name with
  | .missing => .ok []
  | .directory | .forbidden => .error .malformedConfig
  | .bytes content =>
    match Text.Utf8.decode content with
    | .error error => .error (.undecodableConfig error)
    | .ok cs =>
      match Json.read (String.ofList (Text.unifyLineEnds cs)) with
      | .error (.malformed _) => .error .malformedConfig
      | .error (.unreadable fault) => .error (.fault fault)
      | .ok config =>
        match Settings.ofConfig? config with
        | some settings => .ok settings
        | none => .error .malformedConfig

/-- The text of the query of a call. -/
def readQuery (world : World) (file : String) (inline : Option String) :
    Except Failure String :=
  if file = inputName then
    .ok (inline.getD (String.ofList (Text.unifyLineEnds world.input.toList)))
  else if inline.isSome then
    .error (.usage "Invalid value: --query can only be used when QUERY_FILE is '-'")
  else (readFile world file "Query file").map String.ofList

/-- The program of a query text. -/
def parseQuery (query : String) : Except Failure Program :=
  match Program.ofText query with
  | .ok program => .ok program
  | .error (.badNumeral (.tooLong digits)) =>
    .error (.abort (.fault (.unreadableInteger digits)))
  | .error error => .error (.usage error.message)

/-- The data of a file. -/
def readData (world : World) (file : String) : Except Failure Value :=
  match readFile world file "Data file" with
  | .error failure => .error failure
  | .ok cs =>
    match Json.read (String.ofList cs) with
    | .ok data => .ok data
    | .error (.malformed message) =>
      .error (.usage s!"Invalid value: Invalid JSON in '{file}': {message}")
    | .error (.unreadable fault) => .error (.abort (.fault fault))

/-! ## Notes -/

/-- Notes a line if notes are wanted. -/
def note (verbose : Bool) (line : String) : Script Unit :=
  if verbose then modify (· ++ [line]) else pure ()

def truthName (truth : Bool) : String :=
  if truth then "True" else "False"

/-- A setting as it is noted. -/
def settingText : Value → String
  | .bool truth => truthName truth
  | .number (.int n) => toString n
  | .text s => Text.quoted s
  | _ => ""

/-- The options that settings stand for, in the order of the settings' names. -/
def settingOptions : List (String × String) :=
  [("color_flag", "--color"), ("indent", "--indent"), ("out", "--out"),
    ("out_theme", "--out-theme")]

/-- The settings that were read, unless there are none. -/
def settingsNote? (name : Name) (settings : Settings) : Option String :=
  let entries := settingOptions.filterMap fun (setting, option) =>
    (settings.get? setting).map fun value => option ++ "=" ++ settingText value
  if entries.isEmpty then none
  else some (s!"Config defaults applied ({name.text}): " ++ ", ".intercalate entries)

/-! ## Commands -/

/-- A call with everything that was left open taken from the settings. -/
structure Job where
  name : Name
  queryFile : String
  dataFile : String
  query : Option String
  color : Option Bool
  out : String
  outTheme : String
  indent : Int

namespace Job

def ofCall (settings : Settings) (call : Call) : Job where
  name := call.name
  queryFile := call.arguments.getD 0 ""
  dataFile := call.arguments.getD 1 ""
  query := call.query
  color := call.color <|> settings.color
  out := call.out.getD (settings.textOr "out" Format.json.name)
  outTheme := call.outTheme.getD (settings.textOr "out_theme" Report.defaultTheme)
  indent := call.indent.getD settings.indent

/-- The values a command works with, in the order of their names. -/
def argumentsNote (job : Job) : String :=
  let color := "color_flag=" ++ (job.color.map truthName).getD "None"
  let query := ["query=" ++ (job.query.map Text.quoted).getD "None",
    "query_file=" ++ Text.quoted job.queryFile]
  let entries := match job.name with
    | .run =>
      [color, "data_file=" ++ Text.quoted job.dataFile, s!"indent={job.indent}",
        "out=" ++ Text.quoted job.out, "out_theme=" ++ Text.quoted job.outTheme] ++ query
    | _ => color :: query
  s!"Command arguments ({job.name.text}): " ++ ", ".intercalate entries

/-- What evaluating and reporting results can fail with. -/
def failureOf (fault : Fault) : Failure :=
  if fault.concernsQuery then .usage fault.message else .abort (.fault fault)

def reportFailure (error : Report.ReportError) : Failure :=
  match error with
  | .unprintable fault => .abort (.fault fault)
  | error => .usage error.message

/-- Runs a program over data and reports the results. -/
def report (world : World) (verbose color : Bool) (job : Job) : Script (List Report.Part) := do
  if job.indent < 0 then throw (.usage "Invalid value: --indent must be non-negative")
  let format ← (Report.format job.out).mapError reportFailure
  let program ← (readQuery world job.queryFile job.query).bind parseQuery
  let data ← readData world job.dataFile
  note verbose s!"Loaded data from {job.dataFile}"
  for found in (Note.ofRun program data).filter Note.isInformative do
    note verbose found.text
  let results ← (program.run data).mapError failureOf
  (Report.results format color job.outTheme job.indent results).mapError reportFailure

/-- Carries out a job. -/
def run (world : World) (verbose : Bool) (settings : Settings) (job : Job) :
    Script (List Report.Part) := do
  if let some line := settingsNote? job.name settings then note verbose line
  note verbose job.argumentsNote
  let color := job.color.getD world.terminal
  note verbose ("Color output " ++ if color then "enabled" else "disabled")
  match job.name with
  | .run => report world verbose color job
  | .paths =>
    let program ← (readQuery world job.queryFile job.query).bind parseQuery
    return program.expectedPaths.map fun path =>
      Report.line color (Markup.colorize .resultValue color path)
  | .tokens =>
    let query ← readQuery world job.queryFile job.query
    return (Token.ofText query).map fun token =>
      Report.line color (Report.tokenLine color token)

end Job

/-- How a misused command ends. -/
def usageExit : Nat := 2

/-- How a command ends that cannot do what it is asked for, such as completion
without a shell that it is for. -/
def failedExit : Nat := 1

/-- Lines of text, each with its end. -/
def printedLines (lines : List String) : String :=
  String.join (lines.map (· ++ "\n"))

def help : List String :=
  ["Usage: ssoql [OPTIONS] COMMAND [ARGS]...", "", "Run SSOQL queries over JSON data files.", "",
    "Commands:", "  run     Execute every query block against a JSON data file.",
    "  paths   List the data paths declared by USE statements.",
    "  tokens  Show the tokens the lexer produces for a query."]

/-- What a command line does. -/
def execute (world : World) (args : List String) : Except Abort Outcome := do
  let settings ← loadSettings world (configName args)
  match args, readRequest args with
  | [], _ => return ⟨usageExit, "", none⟩
  | _, .error mistake => return ⟨usageExit, "", some mistake.message⟩
  | _, .ok .help => return ⟨0, printedLines help, none⟩
  | _, .ok .completion => return ⟨failedExit, "", none⟩
  | _, .ok (.call verbose call) =>
    if call.help then return ⟨0, printedLines help, none⟩
    let job := Job.ofCall settings call
    let (outcome, notes) := ((job.run world (verbose || settings.verbose) settings).run).run []
    match outcome with
    | .ok parts =>
      return ⟨0, printedLines (notes ++ parts.map Report.Part.printed), none⟩
    | .error (.usage message) => return ⟨usageExit, printedLines notes, some message⟩
    | .error (.abort abort) => .error abort

end Command
end RecordQuery
