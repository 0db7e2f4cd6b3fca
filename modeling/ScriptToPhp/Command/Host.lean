import ScriptToPhp.Command.Files
import ScriptToPhp.Diagnostic.Basic

/-!
# What a run needs from its surroundings

The command is written over the actions it needs, so that it runs on the real file system as well as
on a tree of files in memory.
-/

namespace ScriptToPhp.Command

structure Host (m : Type → Type) where
  read : (path : String) → m (Except FileFault String)
  isPresent : (path : String) → m Bool
  isDirectory : (path : String) → m Bool
  /-- Make a directory inside one that is there. -/
  makeDirectory : (path : String) → m (Except FileFault Unit)
  write : (path text : String) → m (Except FileFault Unit)
  print : String → m Unit
  report : String → m Unit
  isTerminal : m Bool
  /-- How a terminal shows what is wrong with a source. In one run the name of a source stands for
  its text as it was read, so that the report can quote the text with its own line endings. -/
  draw : Source → Diagnostic → String
  /-- The time since the start, in words. -/
  elapsed : m String

/-- What a run finds and cannot change. -/
structure Console where
  elapsed : String
  isTerminal : Bool
  draw : Source → Diagnostic → String

def Console.plain (elapsed : String) : Console := ⟨elapsed, false, fun _ d => d.display⟩

structure World where
  files : Files
  stdout : String := ""
  stderr : String := ""
deriving DecidableEq, Repr

namespace World

def update (change : Files → Except FileFault Files) (w : World) : Except FileFault Unit × World :=
  match change w.files with
  | .ok files => (.ok (), { w with files })
  | .error fault => (.error fault, w)

def host (console : Console) : Host (StateM World) where
  read path := fun w => (w.files.read path, w)
  isPresent path := fun w => (w.files.isPresent path, w)
  isDirectory path := fun w => (w.files.isDirectory path, w)
  makeDirectory path := update (·.makeDirectory path)
  write path text := update (·.write path text)
  print text := fun w => ((), { w with stdout := w.stdout ++ text })
  report text := fun w => ((), { w with stderr := w.stderr ++ text })
  isTerminal := pure console.isTerminal
  draw := console.draw
  elapsed := pure console.elapsed

end World

end ScriptToPhp.Command
