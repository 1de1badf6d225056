import GraphqlBuild.EsModule
import GraphqlBuild.Path
/-!
# Requests

What the arguments of the command ask for. A switch is written out (`--style=parse`, or with its value in the
next argument) or shortened to a letter (`-s`), letters without a value may share a dash, and what follows
`--` is no switch. The first other argument is the command's name. The switches in front of it and those
behind it are two groups: each switch stands at most once in a group, and what the second group says about a
switch prevails.

| here | in the program |
| --- | --- |
| `Request`, `Switch` | `Cli` and its arguments |
| `Command`, `ReportFormat` | `Commands`, `OutputFormat` |
| `Call.ofArguments` | `Cli::parse` |
-/

namespace GraphqlBuild.CommandLine

/-! ## Requests -/

/-- How the report of a check is written. -/
inductive ReportFormat
  | human
  | json
deriving DecidableEq, Repr

/-- What is to be done. -/
inductive Command
  | transform (file : Path) (style : EmitStyle)
  | check (patterns : List Text) (format : ReportFormat)
  | print (file : Path) (parsed : Bool)
deriving DecidableEq, Repr

/-- A command and the switches that every command has. -/
structure Request where
  command : Command
  config : Option Path := none
  /-- Colours are asked for or ruled out. -/
  color : Option Bool := none
  quiet : Bool := false
deriving DecidableEq, Repr

/-- What the arguments call for. -/
inductive Call
  | version
  | run (request : Request)
deriving DecidableEq, Repr

/-- Why the arguments make no request. -/
inductive UsageError
  | unexpected (argument : Text)
  | missingValue (switch : Text)
  | repeated (switch : Text)
  | badValue (switch value : Text)
  | conflict (switch other : Text)
  | missingArgument (name : Text)
  | unknownCommand (name : Text)
deriving DecidableEq, Repr

/-- The wording of the error. -/
def UsageError.message : UsageError → Text
  | unexpected a => "error: unexpected argument '" ++ a ++ "' found"
  | missingValue s => "error: a value is required for '--" ++ s ++ "' but none was supplied"
  | repeated s => "error: the argument '--" ++ s ++ "' cannot be used multiple times"
  | badValue s v => "error: invalid value '" ++ v ++ "' for '--" ++ s ++ "'"
  | conflict s o => "error: the argument '--" ++ s ++ "' cannot be used with '--" ++ o ++ "'"
  | missingArgument n => "error: the required argument <" ++ n ++ "> was not provided"
  | unknownCommand n => "error: unrecognized subcommand '" ++ n ++ "'"

/-! ## Switches -/

/-- A switch. -/
inductive Switch
  | config
  | color
  | noColor
  | quiet
  | version
  | style
  | format
  | parse
deriving DecidableEq, Repr

namespace Switch

/-- The switches that stand with any command. -/
def global : List Switch := [config, color, noColor, quiet]

/-- The name behind two dashes. -/
def name : Switch → Text
  | config => "config"
  | color => "color"
  | noColor => "no-color"
  | quiet => "quiet"
  | version => "version"
  | style => "style"
  | format => "format"
  | parse => "parse"

/-- The letter behind one dash. -/
def letter? : Switch → Option Char
  | config => some 'c'
  | quiet => some 'q'
  | version => some 'V'
  | style => some 's'
  | format => some 'f'
  | color | noColor | parse => none

/-- The switch goes with a value. -/
def takesValue : Switch → Bool
  | config | style | format => true
  | color | noColor | quiet | version | parse => false

end Switch

/-- The name of a command. -/
inductive CommandName
  | transform
  | check
  | print
deriving DecidableEq, Repr

namespace CommandName

/-- All commands. -/
def all : List CommandName := [transform, check, print]

/-- How the command is called. -/
def name : CommandName → Text
  | transform => "transform"
  | check => "check"
  | print => "print"

/-- The switches that may follow the command's name. -/
def switches : CommandName → List Switch
  | transform => .style :: Switch.global
  | check => .format :: Switch.global
  | print => .parse :: Switch.global

end CommandName

/-! ## Reading arguments -/

/-- Switches with their values, those without one with the empty text. -/
abbrev Switches := List (Switch × Text)

/-- Two switches that rule each other out are both given. -/
def Switches.inConflict (given : Switches) : Bool :=
  (given.lookup .color).isSome && (given.lookup .noColor).isSome

/-- What the arguments so far say. -/
structure Arguments where
  command : Option CommandName := none
  /-- The switches in front of the command's name, once that is known. -/
  outer : Switches := []
  /-- The switches behind the command's name, or those so far while it is not known. -/
  switches : Switches := []
  /-- The other arguments, latest first. -/
  positional : List Text := []
  /-- The switch whose value is the next argument. -/
  pending : Option Switch := none
  /-- No further argument is a switch. -/
  literal : Bool := false
deriving DecidableEq, Repr

namespace Arguments

/-- The switches that may come next. -/
def allowed (a : Arguments) : List Switch :=
  match a.command with
  | none => .version :: Switch.global
  | some c => c.switches

/-- The value of a switch, behind the command's name or else in front of it. -/
def value? (a : Arguments) (s : Switch) : Option Text := (a.switches.lookup s).or (a.outer.lookup s)

/-- The switch is given. -/
def has (a : Arguments) (s : Switch) : Bool := (a.value? s).isSome

/-- With a switch and its value. A configuration has a name. -/
def give (a : Arguments) (s : Switch) (value : Text) : Except UsageError Arguments :=
  if (a.switches.lookup s).isSome then .error (.repeated s.name)
  else if s = .config ∧ value.isEmpty then .error (.missingValue s.name)
  else .ok { a with switches := (s, value) :: a.switches, pending := none }

/-- With letters that share a dash. What follows the letter of a switch with a value is the value, and what
follows the one for the version does not count. -/
def giveLetters : Text → Arguments → Except UsageError Arguments
  | [], a => .ok a
  | c :: t, a =>
    match a.allowed.find? fun s => s.letter? = some c with
    | none => .error (.unexpected ['-', c])
    | some s =>
      if s.takesValue then
        match t with
        | [] => .ok { a with pending := some s }
        | '=' :: value => a.give s value
        | value => a.give s value
      else if s = .version then a.give s []
      else do giveLetters t (← a.give s [])

/-- With a switch that is written out, and its value if that is given with it. -/
def giveNamed (argument : Text) (a : Arguments) : Except UsageError Arguments :=
  let name := argument.takeWhile (· != '=')
  let value := argument.dropWhile (· != '=')
  match a.allowed.find? fun s => s.name = name with
  | none => .error (.unexpected ('-' :: '-' :: name))
  | some s =>
    match s.takesValue, value with
    | true, [] => .ok { a with pending := some s }
    | true, _ :: value => a.give s value
    | false, [] => a.give s []
    | false, _ :: value => .error (.badValue name value)

/-- With an argument that is no switch. -/
def givePositional (argument : Text) (a : Arguments) : Except UsageError Arguments :=
  match a.command with
  | none =>
    match CommandName.all.find? fun c => c.name = argument with
    | some c => .ok { a with command := some c, outer := a.switches, switches := [] }
    | none => .error (.unknownCommand argument)
  | some _ => .ok { a with positional := argument :: a.positional }

/-- The argument is a switch, or the mark in front of arguments that are none. -/
def isDashed (argument : Text) : Bool := argument.head? == some '-' && argument != ['-']

/-- With one more argument; once the version is asked for, nothing else counts. -/
def step (a : Arguments) (argument : Text) : Except UsageError Arguments :=
  match a.pending with
  | some s => if isDashed argument then .error (.missingValue s.name) else a.give s argument
  | none =>
    if a.has .version then .ok a
    else if a.literal then
      if a.command.isSome then a.givePositional argument else .error (.unexpected argument)
    else match argument with
      | ['-', '-'] => .ok { a with literal := true }
      | '-' :: '-' :: named => a.giveNamed named
      | '-' :: c :: letters => a.giveLetters (c :: letters)
      | _ => a.givePositional argument

/-- The only positional argument, which must be there. -/
def file (a : Arguments) : Except UsageError Path :=
  match a.positional with
  | [] | [[]] => .error (.missingArgument "FILE")
  | [file] => .ok file
  | extra :: _ => .error (.unexpected extra)

/-- The value of a switch among the words that it may have; the first of them if it is not given. -/
def choose {α : Type} (a : Arguments) (s : Switch) (default : α) (words : List (Text × α)) :
    Except UsageError α :=
  match a.value? s with
  | none => .ok default
  | some value =>
    match words.lookup value with
    | some choice => .ok choice
    | none => .error (.badValue s.name value)

/-- The command that the arguments spell. -/
def toCommand (a : Arguments) : CommandName → Except UsageError Command
  | .transform => do
    return .transform (← a.file) (← a.choose .style .parse [("parse", .parse), ("pending", .pending)])
  | .check => do
    return .check a.positional.reverse
      (← a.choose .format .human [("human", .human), ("json", .json)])
  | .print => do return .print (← a.file) (a.has .parse)

/-- What the arguments call for. Colours that one group asks for are not ruled out by the other. -/
def toCall (a : Arguments) : Except UsageError Call := do
  if let some s := a.pending then throw (.missingValue s.name)
  if a.has .version then return .version
  if a.outer.inConflict || a.switches.inConflict then
    throw (.conflict Switch.color.name Switch.noColor.name)
  match a.command with
  | none => throw (.missingArgument "COMMAND")
  | some name =>
    let color := if a.has .color then some true else if a.has .noColor then some false else none
    return .run {
      command := ← a.toCommand name
      config := a.value? .config
      color
      quiet := a.has .quiet }

end Arguments

/-- What a list of arguments calls for. -/
def Call.ofArguments (arguments : List Text) : Except UsageError Call := do
  (← arguments.foldlM Arguments.step {}).toCall

end GraphqlBuild.CommandLine
