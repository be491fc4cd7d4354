import DartModels.CommandLine.Help
import DartModels.CommandLine.Summary
import DartModels.Run

/-!
# The command

The command reads its arguments, runs the settings of an options file and tells what was done.

* `Request.ofArguments`: what the arguments ask for.
* `command`: the output, the exit code and the files of a whole call.
-/

namespace DartModels

namespace CommandLine

/-! ## Output -/

/-- What a call has printed, and the files as it leaves them. -/
structure Terminal where
  out : String
  err : String
  files : FileSystem

/-- Why a call ends before its end. -/
inductive Stop where
  /-- All that was asked for is shown. -/
  | shown
  /-- The command is not used as it should be. -/
  | usage (fault : UsageFault)
  /-- The command cannot go on. -/
  | refused (message : String)
  /-- Some files or models failed, and were told. -/
  | incomplete
  /-- A failure that the command tells nothing about. -/
  | unhandled (error : Error)
  deriving Inhabited

/-- The exit code of a stop. -/
def Stop.exitCode : Stop → Nat
  | .shown => 0
  | .usage _ => 2
  | .refused _ | .incomplete | .unhandled _ => 1

/-- What a stop tells. -/
def Stop.text : Stop → String
  | .usage fault =>
    (if fault.showsUsage then Help.usage else "") ++ s!"Error: {fault.message}\n"
  | .refused message => s!"Error: {message}\n"
  | .shown | .incomplete | .unhandled _ => ""

/-- A part of a call. -/
abbrev Call := ExceptT Stop (StateM Terminal)

/-- Prints a text. -/
def print (text : String) : Call Unit := modify fun t => { t with out := t.out ++ text }

/-- Prints a text about a failure. -/
def printError (text : String) : Call Unit := modify fun t => { t with err := t.err ++ text }

/-- The stop for a failure: an unusable configuration is a wrong use. -/
def Stop.ofError (e : Error) : Stop :=
  if e.isConfiguration then .usage (.configuration e) else .unhandled e

/-- A result, or the stop for its failure. -/
def require {α : Type} (r : Except Error α) : Call α := liftM (r.mapError Stop.ofError)

/-! ## Requests -/

/-- A call that runs: its options file, and the directories that replace those of the settings. -/
structure RunRequest where
  config : Option String
  cwd : Option String
  out : Option String
  quiet : Bool
  deriving DecidableEq, Inhabited

/-- What a call asks for. -/
inductive Request where
  | version
  | help
  | run (request : RunRequest)
  deriving DecidableEq, Inhabited

/-- Why a path cannot be the operand of an option. -/
def refusal? (fs : FileSystem) (o : OptionName) (path : String) : Option Refusal :=
  match o, fs.stat path with
  | .config, .error _ => some .missing
  | .config, .ok .directory => some .isDirectory
  | .cwd, .ok (.file _) | .out, .ok (.file _) => some .isFile
  | _, _ => none

/-- The operand of an option as a canonical path. -/
def operandPath (fs : FileSystem) (o : OptionName) (operand : String) : Except Stop String :=
  if FileSystem.hasNul operand then .error (.unhandled .nulInPath)
  else
    let path := Path.canonical fs.workdirPath operand
    match refusal? fs o path with
    | some refusal => .error (.usage (.refusedOperand o operand refusal))
    | none => .ok path

namespace Arguments

/-- The operand of an option that was given last. -/
def operand? (a : Arguments) (o : OptionName) : Option String := a.given.reverse.lookup o

/-- The options that take a path and were given, in the order of their first places. -/
def pathOptions (a : Arguments) : List OptionName :=
  ((a.given.map (·.1)).filter (·.takesOperand)).eraseDups

end Arguments

/-- The paths of the options that take one.  The option given first is checked first. -/
def operandPaths (fs : FileSystem) (a : Arguments) : Except Stop (List (OptionName × String)) :=
  a.pathOptions.mapM fun o => do return (o, ← operandPath fs o ((a.operand? o).getD ""))

/-- What arguments ask for: the version or the help, whichever comes first, before all else. -/
def Request.ofArguments (fs : FileSystem) (a : Arguments) : Except Stop Request := do
  match (a.given.map (·.1)).find? (fun o => o == OptionName.version || o == OptionName.help) with
  | some .version => return .version
  | some _ => return .help
  | none =>
    let paths ← operandPaths fs a
    if !a.extra.isEmpty then throw (.usage (.extraArguments a.extra))
    return .run ⟨paths.lookup .config, paths.lookup .cwd, paths.lookup .out,
      (a.operand? .quiet).isSome⟩

/-! ## Running -/

/-- The options file of a request. -/
def RunRequest.optionsFile (r : RunRequest) (fs : FileSystem) : String :=
  r.config.getD (Path.join fs.workdirPath Settings.defaultFilename)

/-- The settings of a request. -/
def settingsOf (fs : FileSystem) (r : RunRequest) : Except Error Settings := do
  let settings ← Settings.load fs (r.optionsFile fs)
  let replaced (value : Json) (path : Option String) : Json := (path.map Json.str).getD value
  return { settings with
    source := { settings.source with cwd := replaced settings.source.cwd r.cwd }
    model := { settings.model with out := replaced settings.model.out r.out } }

/-- What is shown before a run. -/
def banner (s : Settings) : String :=
  Program.name ++ " v" ++ Program.version ++ "\n\n" ++
    "■ Source: \"" ++ s.source.cwd.text ++ "\"\n" ++
    "× Target: \"" ++ s.model.out.text ++ "\"\n\n"

/-- What a stage shows once it has started. -/
def stageLine (label : String) (progress : List ProgressEvent) : String :=
  if progress.isEmpty then "" else label ++ "\n"

/-- The rows of a summary, the files taken from the working directory. -/
def summaryRows (fs : FileSystem) (written : List WrittenModel) : List SummaryRow :=
  written.map fun w => ⟨w.entity.name, fs.relative w.entity.target "."⟩

/-- Prints unless the call is quiet. -/
def tell (r : RunRequest) (text : String) : Call Unit :=
  if r.quiet then return else print text

/-- Runs a request. -/
def runRequest (env : Environment) (schedule : Schedule) (r : RunRequest) : Call Unit := do
  let fs := (← get).files
  let settings ← require (settingsOf fs r)
  let cwd := settings.source.cwd
  tell r (banner settings)
  if !fs.isDirectory cwd.text then
    throw (.refused ("Parser \"cwd\" folder doesn't exist: " ++ cwd.text))
  let outcome := settings.run env schedule fs
  modify fun t => { t with files := outcome.files }
  tell r (stageLine "Parsing   " outcome.surveyed ++ stageLine "Generating" outcome.generated)
  let result ← require outcome.result
  tell r "│\n"
  if !r.quiet then
    let rows := summaryRows fs result.generation.written
    let lines ← require (Summary.lines rows cwd settings.source.ext)
    print (String.join (lines.map (· ++ "\n")))
  if !result.ok then
    printError (String.join (result.errors.map fun e => s!"Error: {e.message}\n"))
    printError "Error: Could not generate Dart models.\n"
    throw .incomplete

/-- A whole call. -/
def call (env : Environment) (schedule : Schedule) (arguments : List String) : Call Unit := do
  let given ← liftM ((Arguments.read arguments).mapError Stop.usage)
  match ← liftM (Request.ofArguments (← get).files given) with
  | .version => print Help.version
  | .help => print Help.text
  | .run request => runRequest env schedule request

/-- The paths among the arguments of a call. -/
def operands (arguments : List String) : List String :=
  match Arguments.read arguments with
  | .ok a => (a.given.filter (·.1.takesOperand)).map (·.2)
  | .error _ => []

/-- The directories that a call works in, as far as its options file can be read. -/
def directories (fs : FileSystem) (arguments : List String) : List String :=
  match Arguments.read arguments with
  | .error _ => []
  | .ok given =>
    match Request.ofArguments fs given with
    | .ok (.run request) =>
      match settingsOf fs request with
      | .ok s => [s.source.cwd.text, s.source.root.text, s.model.out.text]
      | .error _ => []
    | _ => []

/-- What a call leaves behind.  A failure that the command tells nothing about is kept. -/
structure CallOutcome where
  exitCode : Nat
  out : String
  err : String
  unhandled : Option Error
  files : FileSystem

/-- The outcome of a call with the given arguments. -/
def command (env : Environment) (schedule : Schedule) (fs : FileSystem) (arguments : List String) :
    CallOutcome :=
  match (ExceptT.run (call env schedule arguments)).run ⟨"", "", fs⟩ with
  | (.ok (), t) => ⟨0, t.out, t.err, none, t.files⟩
  | (.error stop, t) =>
    let unhandled :=
      match stop with
      | .unhandled e => some e
      | _ => none
    ⟨stop.exitCode, t.out, t.err ++ stop.text, unhandled, t.files⟩

end CommandLine

end DartModels
