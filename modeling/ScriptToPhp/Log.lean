import ScriptToPhp.Grammar.Event
import ScriptToPhp.Text.Quote

/-!
# Log lines
-/

namespace ScriptToPhp

/-- How much a run tells about itself. Each level includes the ones before it. -/
inductive LogLevel
  | error
  | warn
  | info
  | debug
  | trace
deriving DecidableEq, Repr

namespace LogLevel

def rank : LogLevel → Nat
  | .error => 0
  | .warn => 1
  | .info => 2
  | .debug => 3
  | .trace => 4

def name : LogLevel → String
  | .error => "ERROR"
  | .warn => "WARN"
  | .info => "INFO"
  | .debug => "DEBUG"
  | .trace => "TRACE"

def shows (level entry : LogLevel) : Bool := entry.rank ≤ level.rank

/-- The level that a run is asked for. Being quiet wins. -/
def ofVerbosity (quiet : Bool) (verbosity : Nat) : LogLevel :=
  if quiet then .error
  else match verbosity with
    | 0 => .warn
    | 1 => .info
    | 2 => .debug
    | _ => .trace

end LogLevel

structure LogEntry where
  level : LogLevel
  /-- The part of the program that speaks. -/
  target : String
  text : String
deriving DecidableEq, Repr

namespace LogEntry

def line (e : LogEntry) : String := s!"[{e.level.name} {e.target}] {e.text}\n"

def emitting (file : String) : LogEntry := ⟨.debug, "jsphp_compiler", "emitting " ++ file⟩

def wrote (path : String) : LogEntry := ⟨.info, "jsphp_emitter", "wrote " ++ path⟩

def completed (elapsed : String) : LogEntry :=
  ⟨.info, "jsphpc", "Compilation completed in " ++ elapsed⟩

end LogEntry

def displayName : Option String → String
  | some name => "Some(" ++ Text.quote name ++ ")"
  | none => "None"

def ParseEvent.logEntry : ParseEvent → LogEntry
  | .token t => ⟨.trace, "jsphp_scanner::lookahead", s!"token {t.describe} at {t.span.display}"⟩
  | .block word span =>
    ⟨.debug, "jsphp_parser::parser", s!"parsed '{word}' block at {span.display}"⟩
  | .function name span =>
    ⟨.debug, "jsphp_parser::parser", s!"parsed function {displayName name} at {span.display}"⟩
  | .script file statements scopes =>
    ⟨.debug, "jsphp_parser::parser", s!"parsed {file}: {statements} statements, {scopes} scopes"⟩

end ScriptToPhp
