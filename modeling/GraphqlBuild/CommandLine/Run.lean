import GraphqlBuild.CommandLine.Report
import GraphqlBuild.Config.File
import GraphqlBuild.Document.Description
/-!
# Running commands

Each command loads the configuration first, then reads what it works on. `transform` writes the code that
takes a file's place, `print` the description of its documents, and `check` a report on many files. A
failure is told on the error stream and by the status.

| here | in the program |
| --- | --- |
| `wantsColor` | `configure_colors` |
| `Context.load` | `CommandContext::load`, `CommandContext::resolve` |
| `withFile` | `read_source` |
| `transform`, `print`, `check` | `transform::run`, `print::run`, `check::run` |
| `Request.run`, `run` | `main` |
-/

namespace GraphqlBuild.CommandLine

/-! ## What a command is run with -/

/-- The variables that decide about colours, where they are set. -/
structure Variables where
  noColor : Option Text := none
  forceColor : Option Text := none
deriving DecidableEq, Repr

/-- The output is coloured. A switch decides first, then the variable that rules colours out, then the one
that forces them unless it is `0`; the output is never taken for a terminal's. -/
def wantsColor (switch : Option Bool) (v : Variables) : Bool :=
  match switch with
  | some wanted => wanted
  | none => v.noColor.isNone && v.forceColor.any fun t => t != ['0']

/-- The options in force, and the file that they come from. -/
structure Context where
  options : Options
  configPath : Option Path

/-- The context of a command: the named configuration, or the nearest one, or the defaults. -/
def Context.load (w : Workspace) (config : Option Path) : Except ConfigError Context := do
  match config.or (w.configPath? w.current) with
  | none => return ⟨.default, none⟩
  | some p =>
    let (_, options) ← w.loadConfig p
    return ⟨options, some p⟩

/-- The outcome when the configuration cannot be used. -/
def configFailure (colored : Bool) (e : ConfigError) : Outcome :=
  .failed .configError (paint colored .red "✗ Invalid configuration:" ++ ' ' :: e.message)

/-! ## Commands -/

/-- Hands the text of a file on, or tells why it cannot be read. -/
def withFile (w : Workspace) (colored : Bool) (file : Path) (next : Text → Outcome) : Outcome :=
  match w.read file with
  | .error failure => .failed .ioError (readFailureLine colored file failure)
  | .ok code => next code

/-- Writes the code that takes the file's place, or the file as it is. -/
def transform (w : Workspace) (colored : Bool) (options : Options) (file : Path) (style : EmitStyle) :
    Outcome :=
  withFile w colored file fun code =>
    match ({ options, style } : Pipeline).transform code file with
    | .ok (some o) => { stdout := o.code ++ ['\n'] }
    | .ok none => { stdout := code }
    | .error e => .failed .parseError (failureLine colored e.message)

/-- Writes the description of the file's documents. -/
def print (w : Workspace) (colored : Bool) (options : Options) (file : Path) (parsed : Bool) : Outcome :=
  withFile w colored file fun code =>
    let pipeline : Pipeline := { options }
    match pipeline.route file with
    | none => .failed .configError <| failureLine colored <|
        file ++ " is neither a GraphQL file nor a JavaScript/TypeScript module"
    | some mode =>
      match pipeline.describe code mode parsed with
      | .ok description => { stdout := description.pretty ++ ['\n'] }
      | .error e => .failed .parseError (syntaxErrorLine colored file e)

/-- Checks the files that the patterns name and reports on them. -/
def check (w : Workspace) (colored quiet : Bool) (context : Context) (patterns : List Text)
    (format : ReportFormat) : Outcome :=
  let opening : Text := match context.configPath with
    | some p =>
      if format = .human && !quiet then paint colored .dimmed "Using config" ++ ' ' :: p ++ ['\n'] else []
    | none => []
  let pipeline : Pipeline := { options := context.options }
  let outcome : Outcome := match pipeline.collectFiles w patterns with
    | .error e => .failed .patternError ("Error: " ++ e.message)
    | .ok [] => nothingFound colored format
    | .ok files => report w colored quiet (files.map (pipeline.checkFile w)) format
  { outcome with stdout := opening ++ outcome.stdout }

/-! ## Any call -/

/-- The name and version of the program. -/
def versionLine : Text := "graphql-tag 0.1.0\n"

/-- The paths that a request may read, besides the files that a check looks at. -/
def Request.reads (r : Request) (current : Path) : List Path :=
  let file := match r.command with
    | .transform file _ | .print file _ => [file]
    | .check _ _ => []
  let configs := match r.config with
    | some p => [p]
    | none => (Path.ancestors current).flatMap fun dir => configNames.map (Path.join dir)
  file ++ configs

/-- Carries a request out. -/
def Request.run (r : Request) (w : Workspace) (v : Variables) : Outcome :=
  let colored := wantsColor r.color v
  match Context.load w r.config with
  | .error e => configFailure colored e
  | .ok context =>
    match r.command with
    | .transform file style => transform w colored context.options file style
    | .check patterns format => check w colored r.quiet context patterns format
    | .print file parsed => print w colored context.options file parsed

/-- Runs the program with these arguments. -/
def run (w : Workspace) (v : Variables) (arguments : List Text) : Outcome :=
  match Call.ofArguments arguments with
  | .error e => .failed .usageError e.message
  | .ok .version => { stdout := versionLine }
  | .ok (.run r) => r.run w v

end GraphqlBuild.CommandLine
