import ScriptToPhp.Command.Arguments
import ScriptToPhp.Command.Host
import ScriptToPhp.Config.Basic
import ScriptToPhp.Log
import ScriptToPhp.Project
import ScriptToPhp.Tree.Dump

/-!
# Running the command

A run finds its files, loads all of them, and compiles all of them before it writes any output.
-/

namespace ScriptToPhp.Command

inductive Exit
  | success
  /-- An input or an output cannot be used. -/
  | failure
  /-- The arguments or a script are refused. -/
  | refusal
deriving DecidableEq, Repr

def Exit.code : Exit → Nat
  | .success => 0
  | .failure => 1
  | .refusal => 2

inductive ConfigFault
  | unreadable (path : String) (fault : FileFault)
  | invalid
deriving DecidableEq, Repr

def ConfigFault.message : ConfigFault → String
  | .unreadable path fault => s!"cannot read {path}: {fault.message}"
  | .invalid => "invalid configuration: not the JSON of a configuration"

inductive Failure
  | project (path : String) (fault : ConfigFault)
  | defaultProject (fault : ConfigFault)
  | noInput
  | load (fault : FileFault)
  | output (fault : FileFault)
deriving DecidableEq, Repr

/-- The configuration that is used if the arguments name neither one nor any file. -/
def defaultConfig : String := "jsphp.json"

def Failure.message : Failure → String
  | .project path fault => s!"Failed to read project '{path}': {fault.message}"
  | .defaultProject fault => s!"Failed to read {defaultConfig}: {fault.message}"
  | .noInput => "No input files found."
  | .load fault => s!"Failed to load source files: {fault.message}"
  | .output fault => s!"Failed to write output: {fault.message}"

/-- The files of a configuration, seen from the directory of the configuration. -/
def configFiles (path : String) (config : Config) : List String :=
  (config.files.getD []).map (Path.join ((Path.parent? path).getD ""))

def refusal? (source : Source) : Except Diagnostic Php.Output → Option (Source × Diagnostic)
  | .error d => some (source, d)
  | .ok _ => none

namespace Host

variable {m : Type → Type} [Monad m] (host : Host m)

def log (settings : Settings) (entry : LogEntry) : m Unit :=
  if (LogLevel.ofVerbosity (settings.has .quiet) settings.verbosity).shows entry.level then
    host.report entry.line
  else
    pure ()

def readConfig (path : String) : m (Except ConfigFault Config) := do
  match ← host.read path with
  | .error fault => return .error (.unreadable path fault)
  | .ok text =>
    match Config.parse? text with
    | some config => return .ok config
    | none => return .error .invalid

/-- The names of the files to compile, and the configuration. Files in the arguments win over those
of the configuration. -/
def findInput (settings : Settings) : m (Except Failure (List String × Option Config)) := do
  match settings.value? .project with
  | some path =>
    match ← host.readConfig path with
    | .error fault => return .error (.project path fault)
    | .ok config =>
      return .ok (if settings.files.isEmpty then configFiles path config else settings.files,
        some config)
  | none =>
    if !settings.files.isEmpty then return .ok (settings.files, none)
    if !(← host.isPresent defaultConfig) then return .ok ([], none)
    match ← host.readConfig defaultConfig with
    | .error fault => return .error (.defaultProject fault)
    | .ok config => return .ok (configFiles defaultConfig config, some config)

def load : List String → m (Except FileFault (List Source))
  | [] => return .ok []
  | file :: files => do
    match ← host.read file with
    | .error fault => return .error fault
    | .ok text =>
      match ← load files with
      | .error fault => return .error fault
      | .ok sources => return .ok (Source.ofText file text :: sources)

def openProject (settings : Settings) : m (Except Failure Project) := do
  match ← host.findInput settings with
  | .error failure => return .error failure
  | .ok (files, config) =>
    if files.isEmpty then return .error .noInput
    let options := settings.override ((config.map Config.effectiveOptions).getD {})
    match ← host.load files with
    | .error fault => return .error (.load fault)
    | .ok sources => return .ok ⟨options, sources⟩

def parse (settings : Settings) (options : Options) (source : Source) :
    m (Except Diagnostic Script) := do
  let reading := Script.read options source
  reading.events.forM fun event => host.log settings event.logEntry
  return reading.result source

/-- Show what is wrong with a source: drawn on a terminal, and elsewhere in one line. -/
def reportDiagnostic (source : Source) (d : Diagnostic) : m Unit := do
  let shown := if ← host.isTerminal then host.draw source d else d.display
  host.report (shown ++ "\n")

def printTrees (settings : Settings) (options : Options) : List Source → m Exit
  | [] => return .success
  | source :: sources => do
    match ← host.parse settings options source with
    | .ok script =>
      host.print (source.file ++ ":\n" ++ script.root.dumpText ++ "\n")
      printTrees settings options sources
    | .error d =>
      host.reportDiagnostic source d
      let _ ← printTrees settings options sources
      return .refusal

def compile (settings : Settings) (options : Options) (source : Source) :
    m (Except Diagnostic Php.Output) := do
  match ← host.parse settings options source with
  | .error d => return .error d
  | .ok script =>
    host.log settings (.emitting source.file)
    return .ok (Php.emit options source.file script.root)

/-- Turn the failure to make a directory into success if the directory is there. -/
def allowPresent (path : String) : Except FileFault Unit → m (Except FileFault Unit)
  | .ok () => return .ok ()
  | .error fault => do return if ← host.isDirectory path then .ok () else .error fault

/-- Make a directory and those above it that are missing. `bound` limits their number. -/
def makeDirectories (path : String) : (bound : Nat) → m (Except FileFault Unit)
  | 0 => return .error .notFound
  | bound + 1 => do
    if path.isEmpty then return .ok ()
    match ← host.makeDirectory path with
    | .error .notFound =>
      match Path.parent? path with
      | none => return .error (.other "failed to create whole tree")
      | some parent =>
        match ← makeDirectories parent bound with
        | .error fault => return .error fault
        | .ok () => host.allowPresent path (← host.makeDirectory path)
    | made => host.allowPresent path made

/-- Make the directories that a path needs. A parent is shorter than its path, which bounds their
number. -/
def prepare (path : String) : m (Except FileFault Unit) :=
  match Path.parent? path with
  | some directory => host.makeDirectories directory (directory.length + 1)
  | none => return .ok ()

def writeOutput (settings : Settings) (output : Php.Output) : m (Except FileFault Unit) := do
  match ← host.prepare output.path with
  | .error fault => return .error fault
  | .ok () =>
    match ← host.write output.path output.php with
    | .error fault => return .error fault
    | .ok () =>
      host.log settings (.wrote output.path)
      return .ok ()

/-- Print or write outputs, up to the first that cannot be written. -/
def deliver (settings : Settings) : List Php.Output → m (Except FileFault Unit)
  | [] => return .ok ()
  | output :: outputs => do
    if settings.has .toStdout then
      host.print output.php
      deliver settings outputs
    else
      match ← host.writeOutput settings output with
      | .error fault => return .error fault
      | .ok () => deliver settings outputs

def fail (failure : Failure) : m Exit := do
  let label := if ← host.isTerminal then "\x1b[1m\x1b[31merror\x1b[0m" else "error"
  host.report (label ++ ": " ++ failure.message ++ "\n")
  return .failure

def finish (settings : Settings) (outputs : List Php.Output) : m Exit := do
  match ← host.deliver settings outputs with
  | .error fault => host.fail (.output fault)
  | .ok () =>
    host.log settings (.completed (← host.elapsed))
    return .success

def refuse (refusals : List (Source × Diagnostic)) : m Exit := do
  refusals.forM fun refusal => host.reportDiagnostic refusal.1 refusal.2
  let noun := if refusals.length == 1 then "error" else "errors"
  host.report s!"\nFound {refusals.length} {noun}.\n"
  return .refusal

def build (settings : Settings) (project : Project) : m Exit := do
  let results ← project.sources.mapM (host.compile settings project.options)
  let refusals := (List.zipWith refusal? project.sources results).filterMap id
  if refusals.isEmpty then host.finish settings (results.filterMap Except.toOption)
    else host.refuse refusals

def perform (settings : Settings) : m Exit := do
  match ← host.openProject settings with
  | .error failure => host.fail failure
  | .ok project =>
    if settings.has .tree then host.printTrees settings project.options project.sources
    else host.build settings project

structure Texts where
  help : String
  usage : String

def run (texts : Texts) (arguments : List String) : m Exit := do
  match Settings.ofArguments arguments with
  | .ok settings => host.perform settings
  | .error .help =>
    host.print texts.help
    return .success
  | .error .version =>
    host.print "jsphpc 0.1.0\n"
    return .success
  | .error .misuse =>
    host.report texts.usage
    return .refusal

end Host

end ScriptToPhp.Command
