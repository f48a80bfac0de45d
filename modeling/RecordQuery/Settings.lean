/-
Settings: defaults for command options, read from a configuration.

A configuration is a record whose only field is a section of options.  Every
option in it has to be known and to carry a value it accepts, or else the whole
section is refused.  The two colour options are looked at together, since both
decide one setting.
-/
import RecordQuery.Report

namespace RecordQuery

/-- Default values under the names of the settings. -/
abbrev Settings := Table Value

namespace Settings

def sectionName : String := "defaults"

/-- The section of a configuration; it may be left out. -/
def section? (config : Table Value) : Option (Table Value) :=
  if config.any fun entry => entry.1 ≠ sectionName then none
  else
    match config.get? sectionName with
    | none => some []
    | some (.record options) => some options
    | some _ => none

/-- The setting that two colour options decide, unless they contradict each other
or are no booleans.  Options set to false decide nothing. -/
def color? (options : Table Value) : Option Settings :=
  match options.get? "--color", options.get? "--no-color" with
  | none, none | some (.bool false), none | none, some (.bool false)
  | some (.bool false), some (.bool false) => some []
  | some (.bool true), none | some (.bool true), some (.bool false) =>
    some [("color_flag", .bool true)]
  | none, some (.bool true) | some (.bool false), some (.bool true) =>
    some [("color_flag", .bool false)]
  | _, _ => none

/-- A text without the blanks around it, unless it is blank. -/
def trimmed? (s : String) : Option String :=
  match Text.trim s.toList with
  | [] => none
  | cs => some (String.ofList cs)

/-- The setting an option decides and its value, if the option is known and
accepts the value. -/
def accept? (option : String) (value : Value) : Option (String × Value) :=
  match option, value with
  | "--indent", .number (.int n) => if n < 0 then none else some ("indent", .int n)
  | "--verbose", .bool truth => some ("verbose", .bool truth)
  | "--out", .text s => do
    let name ← trimmed? s
    let _ ← Format.ofName? name
    return ("out", .text name)
  | "--out-theme", .text s => do
    let name ← trimmed? s
    return ("out_theme", .text name)
  | _, _ => none

/-- Adds an option to settings. -/
def add? (settings : Settings) (option : String) (value : Value) : Option Settings :=
  (accept? option value).map fun (name, value) => settings.put name value

def isColorOption (option : String) : Bool :=
  option = "--color" || option = "--no-color"

/-- The settings of a section. -/
def ofOptions? (options : Table Value) : Option Settings := do
  let color ← color? options
  (options.filter fun entry => !isColorOption entry.1).foldlM
    (fun settings (option, value) => add? settings option value) color

/-- The settings of a configuration. -/
def ofConfig? (config : Value) : Option Settings :=
  match config with
  | .record fields => (section? fields).bind ofOptions?
  | _ => none

/-- The settings that the command with all options takes. -/
def forRun (settings : Settings) : Settings :=
  settings.filter fun entry => entry.1 ∈ ["color_flag", "indent", "out", "out_theme"]

/-- The settings that the listing commands take. -/
def forListing (settings : Settings) : Settings :=
  settings.filter fun entry => entry.1 = "color_flag"

/-- The settings of every command. -/
def byCommand (settings : Settings) : Table Value :=
  [("run", .record settings.forRun), ("paths", .record settings.forListing),
    ("tokens", .record settings.forListing)]

def color (settings : Settings) : Option Bool :=
  match settings.get? "color_flag" with
  | some (.bool truth) => some truth
  | _ => none

def verbose (settings : Settings) : Bool :=
  match settings.get? "verbose" with
  | some (.bool truth) => truth
  | _ => false

def textOr (settings : Settings) (name fallback : String) : String :=
  match settings.get? name with
  | some (.text s) => s
  | _ => fallback

def indent (settings : Settings) : Int :=
  match settings.get? "indent" with
  | some (.number (.int n)) => n
  | _ => Report.defaultIndent

end Settings
end RecordQuery
