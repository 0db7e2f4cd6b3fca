import ScriptToPhp.Command.Help

/-!
# The command on the real file system
-/

namespace ScriptToPhp.Command

def FileFault.ofError : IO.Error → FileFault
  | .noFileOrDirectory .. => .notFound
  | .alreadyExists .. => .exists
  | .inappropriateType _ 20 _ => .notDirectory
  | .inappropriateType _ 21 _ => .isDirectory
  | error => .other error.toString

def attempt {α : Type} (action : IO α) : IO (Except FileFault α) := do
  try
    return .ok (← action)
  catch error =>
    return .error (.ofError error)

def readFile (path : String) : IO (Except FileFault String) := do
  match ← attempt (IO.FS.readBinFile path) with
  | .error fault => return .error fault
  | .ok bytes =>
    match String.fromUTF8? bytes with
    | some text => return .ok text
    | none => return .error .notText

def displaySeconds (hundredths : Nat) : String :=
  let digits := toString (hundredths % 100)
  s!"{hundredths / 100}." ++ (if digits.length == 1 then "0" ++ digits else digits) ++ "s."

def drawReport (_ : Source) (d : Diagnostic) : String :=
  s!"{d.reportCode}\n\n  × {d.message}\n  at {d.location.display}\n  help: {d.kind.description}\n"

def systemHost (start : Nat) : Host IO where
  read := readFile
  isPresent path := do return (← attempt (IO.FS.realPath path)).isOk
  isDirectory path := do
    match ← attempt (IO.FS.realPath path) with
    | .ok found => found.isDir
    | .error _ => return false
  makeDirectory path := attempt (IO.FS.createDir path)
  write path text := attempt (IO.FS.writeFile path text)
  print text := do
    let stdout ← IO.getStdout
    stdout.putStr text
    stdout.flush
  report text := IO.eprint text
  isTerminal := do (← IO.getStderr).isTty
  draw := drawReport
  elapsed := do return displaySeconds (((← IO.monoMsNow) - start + 5) / 10)

end ScriptToPhp.Command

def main (arguments : List String) : IO UInt32 := do
  let start ← IO.monoMsNow
  let exit ← (ScriptToPhp.Command.systemHost start).run ScriptToPhp.Command.texts arguments
  return exit.code.toUInt32
