/-
Command lines.

Options may stand anywhere among the arguments of a command, but only before the
name of the command when they concern all commands.  A long option takes its
value from behind an equals sign or from the next argument; short options can
share one dash.  Two dashes end the options.
-/
import RecordQuery.Number.Numeral
import RecordQuery.Text.Quoted
import RecordQuery.Text.Resemblance

namespace RecordQuery
namespace Command

inductive Switch
  | verbose
  | config
  | query
  | color
  | noColor
  | out
  | outTheme
  | indent
  | installCompletion
  | showCompletion
  | help
  deriving DecidableEq

namespace Switch

def long : Switch → String
  | verbose => "--verbose"
  | config => "--config"
  | query => "--query"
  | color => "--color"
  | noColor => "--no-color"
  | out => "--out"
  | outTheme => "--out-theme"
  | indent => "--indent"
  | installCompletion => "--install-completion"
  | showCompletion => "--show-completion"
  | help => "--help"

def short? : Switch → Option Char
  | verbose => some 'v'
  | query => some 'q'
  | _ => none

def takesValue : Switch → Bool
  | config | query | out | outTheme | indent => true
  | _ => false

/-- The options before the name of a command. -/
def general : List Switch := [verbose, config, installCompletion, showCompletion, help]

end Switch

/-- The commands there are. -/
inductive Name
  | run
  | paths
  | tokens
  deriving DecidableEq

namespace Name

def all : List Name := [run, paths, tokens]

def text : Name → String
  | run => "run"
  | paths => "paths"
  | tokens => "tokens"

def ofText? (text : String) : Option Name :=
  all.find? fun n => n.text == text

/-- The commands that a word resembles, the closest first. -/
def resembling (word : String) : List String :=
  Text.closeMatches word (all.map text)

/-- The options of a command. -/
def switches : Name → List Switch
  | run => [.query, .color, .noColor, .out, .outTheme, .indent, .help]
  | _ => [.query, .color, .noColor, .help]

/-- The arguments a command needs. -/
def parameters : Name → List String
  | run => ["QUERY_FILE", "DATA_FILE"]
  | _ => ["QUERY_FILE"]

end Name

/-- What is wrong with a command line. -/
inductive Misuse
  | missingCommand
  | unknownCommand (name : String)
  | unknownSwitch (name : String) (known : List String)
  | valueMissing (name : String)
  | valueUnwanted (name : String)
  | notInteger (name text : String)
  | argumentMissing (name : String)
  | unexpected (arguments : List String)

namespace Misuse

/-- The complaint itself. -/
def complaint : Misuse → String
  | missingCommand => "Missing command."
  | unknownCommand name => "No such command " ++ Text.quoted name ++ "."
  | unknownSwitch name _ => "No such option " ++ Text.quoted name ++ "."
  | valueMissing name => s!"Option '{name}' requires an argument."
  | valueUnwanted name => s!"Option '{name}' does not take a value."
  | notInteger name text =>
    s!"Invalid value for '{name}': " ++ Text.quoted text ++ " is not a valid integer."
  | argumentMissing name => s!"Missing argument '{name}'."
  | unexpected arguments =>
    "Got unexpected extra argument" ++ (if arguments.length = 1 then "" else "s") ++ " (" ++
      " ".intercalate arguments ++ ")"

/-- The known names that resemble an unknown one. -/
def alternatives : Misuse → List String
  | unknownCommand name => Name.resembling name
  | unknownSwitch name known => Text.closeMatches name known
  | _ => []

end Misuse

def quotedNames (names : List String) : String :=
  ", ".intercalate (names.map Text.quoted)

/-- A question for one of the names that perhaps were meant, in alphabetical
order. -/
def question : List String → String
  | [] => ""
  | [name] => " Did you mean " ++ Text.quoted name ++ "?"
  | names =>
    " (Did you mean one of: " ++ quotedNames (names.mergeSort fun a b => decide (a ≤ b)) ++ "?)"

/-- A misuse, and the commands that perhaps were meant, the closest first. -/
structure Mistake where
  misuse : Misuse
  commands : List String

/-- What is said of a mistake.  Commands that perhaps were meant come before the
alternatives to a name. -/
def Mistake.message (mistake : Mistake) : String :=
  mistake.misuse.complaint ++
    (if mistake.commands.isEmpty then ""
      else " Did you mean " ++ quotedNames mistake.commands ++ "?") ++
    question mistake.misuse.alternatives

/-- Options in the order given, each with its value. -/
abbrev Given := List (Switch × String)

/-- The name and the value of an argument at its first equals sign. -/
def splitValue (arg : List Char) : List Char × Option (List Char) :=
  let name := arg.takeWhile (· ≠ '=')
  match arg.drop name.length with
  | _ :: value => (name, some value)
  | [] => (name, none)

/-- Short options behind one dash, and how many further arguments they take. -/
def readShort (switches : List Switch) (next : List String) :
    List Char → Except Misuse (Given × Nat)
  | [] => .ok ([], 0)
  | c :: rest =>
    match switches.find? fun s => s.short? == some c with
    | none => .error (.unknownSwitch (String.ofList ['-', c]) [])
    | some switch =>
      if switch.takesValue then
        match rest, next with
        | [], [] => .error (.valueMissing (String.ofList ['-', c]))
        | [], value :: _ => .ok ([(switch, value)], 1)
        | value, _ => .ok ([(switch, String.ofList value)], 0)
      else (readShort switches next rest).map fun (given, taken) => ((switch, "") :: given, taken)

/-- The options of an argument that begins with a dash, and how many further
arguments they take. -/
def readSwitch (switches : List Switch) (arg : String) (next : List String) :
    Except Misuse (Given × Nat) :=
  let (nameChars, value?) := splitValue arg.toList
  let name := String.ofList nameChars
  match switches.find? fun s => s.long == name with
  | some switch =>
    match switch.takesValue, value?, next with
    | true, some value, _ => .ok ([(switch, String.ofList value)], 0)
    | true, none, [] => .error (.valueMissing name)
    | true, none, value :: _ => .ok ([(switch, value)], 1)
    | false, some _, _ => .error (.valueUnwanted name)
    | false, none, _ => .ok ([(switch, "")], 0)
  | none =>
    match arg.toList with
    | '-' :: '-' :: _ => .error (.unknownSwitch name (switches.map Switch.long))
    | _ => readShort switches next (arg.toList.drop 1)

def looksLikeSwitch (arg : String) : Bool :=
  match arg.toList with
  | '-' :: _ :: _ => true
  | _ => false

/-- The options and the other arguments of a command line.  With `mixed` options
may follow other arguments.  A misuse comes with the arguments after it. -/
def readArguments (switches : List Switch) (mixed : Bool) (args : List String) :
    Except (Misuse × List String) (Given × List String) :=
  match args with
  | [] => .ok ([], [])
  | arg :: rest =>
    if arg = "--" then .ok ([], rest)
    else if looksLikeSwitch arg then
      match readSwitch switches arg rest with
      | .error misuse => .error (misuse, rest)
      | .ok (given, taken) =>
        (readArguments switches mixed (rest.drop taken)).map fun (more, others) =>
          (given ++ more, others)
    else if mixed then
      (readArguments switches mixed rest).map fun (given, others) => (given, arg :: others)
    else .ok ([], arg :: rest)
termination_by args.length

/-- The value given last for an option. -/
def lastValue? (given : Given) (switch : Switch) : Option String :=
  given.reverse.lookup switch

/-- The colour chosen last. -/
def chosenColor? (given : Given) : Option Bool :=
  given.reverse.findSome? fun (switch, _) =>
    match switch with
    | .color => some true
    | .noColor => some false
    | _ => none

/-- The indentation given last, as an integer. -/
def chosenIndent? (given : Given) : Except Misuse (Option Int) :=
  match lastValue? given .indent with
  | none => .ok none
  | some text =>
    match Numeral.integer? text.toList with
    | some (n, count) =>
      if count ≤ digitLimit then .ok (some n) else .error (.notInteger "--indent" text)
    | none => .error (.notInteger "--indent" text)

/-- Fits arguments to the parameters of a command. -/
def fit : List String → List String → Except Misuse Unit
  | [], [] => .ok ()
  | [], extra => .error (.unexpected extra)
  | parameter :: _, [] => .error (.argumentMissing parameter)
  | _ :: parameters, _ :: arguments => fit parameters arguments

/-- A call of a command. -/
structure Call where
  name : Name
  arguments : List String
  query : Option String
  color : Option Bool
  out : Option String
  outTheme : Option String
  indent : Option Int
  help : Bool

/-- The name under which the query is taken from the command line or the
input. -/
def inputName : String := "-"

/-- Whether a call takes its query from the input. -/
def Call.readsInput (call : Call) : Bool :=
  !call.help && call.query.isNone && call.arguments.head? == some inputName

/-- What is asked for: help on the whole, completion for a shell, or a call, with
the general options before it. -/
inductive Request
  | help
  | completion
  | call (verbose : Bool) (call : Call)

/-- The call that the arguments after a command's name make. -/
def readCall (name : Name) (args : List String) : Except Misuse Call := do
  let (given, arguments) ← (readArguments name.switches true args).mapError Prod.fst
  let help := (lastValue? given .help).isSome
  let indent ← if help then pure none else chosenIndent? given
  if !help then fit name.parameters arguments
  return ⟨name, arguments, lastValue? given .query, chosenColor? given, lastValue? given .out,
    lastValue? given .outTheme, indent, help⟩

/-- What general options ask for by themselves. -/
def general? (given : Given) : Option Request :=
  if (lastValue? given .help).isSome then some .help
  else if given.any fun (switch, _) => switch = .installCompletion || switch = .showCompletion then
    some .completion
  else none

/-- What a command line asks for that names no command where one is expected.
What stands there is read as general options once more, and the command that
perhaps was meant is looked for behind them. -/
def readUnnamed (word : String) (args : List String) : Except Mistake Request :=
  let meant (left : List String) : List String := (left.head?.map Name.resembling).getD []
  match readArguments Switch.general false args with
  | .error (misuse, left) => .error ⟨misuse, meant left⟩
  | .ok (given, left) =>
    match general? given with
    | some request => .ok request
    | none => .error ⟨.unknownCommand word, meant left⟩

/-- What a command line asks for. -/
def readRequest (args : List String) : Except Mistake Request :=
  match readArguments Switch.general false args with
  | .error (misuse, _) => .error ⟨misuse, []⟩
  | .ok (given, rest) =>
    match general? given, rest with
    | some request, _ => .ok request
    | none, [] => .error ⟨.missingCommand, []⟩
    | none, word :: others =>
      match Name.ofText? word with
      | none => readUnnamed word rest
      | some name =>
        match readCall name others with
        | .ok call => .ok (.call (lastValue? given .verbose).isSome call)
        | .error misuse => .error ⟨misuse, []⟩

/-- Whether a command line asks for a query from the input. -/
def readsInput (args : List String) : Bool :=
  match readRequest args with
  | .ok (.call _ call) => call.readsInput
  | _ => false

/-- The configuration file used when none is named. -/
def defaultConfigName : String := ".ssoql.json"

/-- The name of the configuration file, looked for in the whole command line. -/
def configName : List String → String
  | [] => defaultConfigName
  | [arg] => (namedConfig? arg).getD defaultConfigName
  | arg :: next :: rest =>
    if arg = "--config" then next
    else (namedConfig? arg).getD (configName (next :: rest))
where
  /-- The file name behind an equals sign. -/
  namedConfig? (arg : String) : Option String :=
    match splitValue arg.toList with
    | (name, some value) =>
      if String.ofList name = "--config" then some (String.ofList value) else none
    | _ => none

end Command
end RecordQuery
