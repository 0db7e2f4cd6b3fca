import ScriptToPhp.Grammar.Script
import ScriptToPhp.Php.Emit

/-!
# Compiling

One script, or the scripts of a project under the same options.
-/

namespace ScriptToPhp

def emitSource (options : Options) (source : Source) : Except Diagnostic Php.Output := do
  let script ← Script.parse options source
  return Php.emit options source.file script.root

def compile (options : Options) (file text : String) : Except Diagnostic String := do
  return (← emitSource options (.ofText file text)).php

structure Project where
  options : Options
  sources : List Source
deriving DecidableEq, Repr

namespace Project

def ofOptions (options : Options) : Project := ⟨options, []⟩

def add (p : Project) (file text : String) : Project :=
  { p with sources := p.sources ++ [.ofText file text] }

/-- What is wrong with each script, in the order of reports. -/
def check (p : Project) : List Diagnostic :=
  Diagnostic.sort <| p.sources.filterMap fun source =>
    match Script.parse p.options source with
    | .ok _ => none
    | .error d => some d

/-- The outcome for each script, in the order in which they were added. -/
def emit (p : Project) : List (Except Diagnostic Php.Output) :=
  p.sources.map (emitSource p.options)

end Project

end ScriptToPhp
