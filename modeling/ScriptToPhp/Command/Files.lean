import ScriptToPhp.Path

/-!
# Files and directories

A tree of files and directories with a working directory in it. Paths are resolved against it one
segment at a time.
-/

namespace ScriptToPhp.Command

inductive FileFault
  | notFound
  | exists
  | notDirectory
  | isDirectory
  /-- The content is no text. -/
  | notText
  /-- A zero character stands in the path. -/
  | badName
  /-- Any other reason, in words. -/
  | other (reason : String)
deriving DecidableEq, Repr

def FileFault.message : FileFault → String
  | .notFound => "No such file or directory (os error 2)"
  | .exists => "File exists (os error 17)"
  | .notDirectory => "Not a directory (os error 20)"
  | .isDirectory => "Is a directory (os error 21)"
  | .notText => "stream did not contain valid UTF-8"
  | .badName => "file name contained an unexpected NUL byte"
  | .other reason => reason

/-- The way to a file or directory from the root, without points. -/
abbrev Route := List (List Char)

structure Files where
  home : Route
  directories : List Route
  /-- The files. One has no text if its content is none. -/
  contents : List (Route × Option String)
deriving DecidableEq, Repr

inductive Place
  | directory (route : Route)
  | file (route : Route) (text : Option String)
  /-- Nothing, in a directory that is there. With a slash at its end, the path can only become that
  of a directory. -/
  | vacant (route : Route) (slash : Bool)
deriving DecidableEq, Repr

namespace Files

def ancestors (route : Route) : List Route :=
  (List.range (route.length - 1)).map fun n => route.take (n + 1)

/-- A directory that no path spells, as segments hold no slash. -/
def namelessHome : Route := [['/']]

/-- The files at the given paths in the working directory, and the directories that they need.
Nothing else is there, and the working directory is not found from above. -/
def ofList (files : List (String × Option String)) : Files :=
  let contents := files.map fun (path, text) =>
    (namelessHome ++ (Path.segments path.toList).filter (!Path.isVoid ·), text)
  ⟨namelessHome, (contents.flatMap fun (route, _) => ancestors route).eraseDups, contents⟩

def isUpward (segment : List Char) : Bool := segment == ['.', '.']

/-- Follow segments from a directory. The root is above itself. -/
def resolveFrom (files : Files) (here : Route) : List (List Char) → Except FileFault Place
  | [] => .ok (.directory here)
  | s :: rest =>
    if Path.isVoid s then files.resolveFrom here rest
    else if isUpward s then files.resolveFrom here.dropLast rest
    else
      let there := here ++ [s]
      if files.directories.contains there then files.resolveFrom there rest
      else
        match files.contents.lookup there with
        | some text => if rest.isEmpty then .ok (.file there text) else .error .notDirectory
        | none =>
          if rest.all List.isEmpty then .ok (.vacant there !rest.isEmpty) else .error .notFound

def resolve (files : Files) (path : String) : Except FileFault Place :=
  if path.toList.contains '\x00' then .error .badName
  else if path.isEmpty then .error .notFound
  else files.resolveFrom (if Path.isAbsolute path then [] else files.home)
    (Path.segments path.toList)

def read (files : Files) (path : String) : Except FileFault String := do
  match ← files.resolve path with
  | .file _ (some text) => return text
  | .file _ none => throw .notText
  | .directory _ => throw .isDirectory
  | .vacant .. => throw .notFound

def isPresent (files : Files) (path : String) : Bool :=
  match files.resolve path with
  | .ok (.file ..) | .ok (.directory _) => true
  | _ => false

def makeDirectory (files : Files) (path : String) : Except FileFault Files := do
  match ← files.resolve path with
  | .vacant route _ => return { files with directories := files.directories ++ [route] }
  | .file .. | .directory _ => throw .exists

def isDirectory (files : Files) (path : String) : Bool :=
  match files.resolve path with
  | .ok (.directory _) => true
  | _ => false

def write (files : Files) (path text : String) : Except FileFault Files := do
  match ← files.resolve path with
  | .file route _ =>
    return { files with
      contents := files.contents.map fun entry =>
        if entry.1 == route then (route, some text) else entry }
  | .vacant route false => return { files with contents := files.contents ++ [(route, some text)] }
  | .vacant _ true | .directory _ => throw .isDirectory

/-- The files in the working directory that are new or differ from those before, by their paths. -/
def changes (before after : Files) : List (String × Option String) :=
  (after.contents.filter fun entry =>
    !before.contents.contains entry).filterMap fun (route, text) =>
    if after.home.isPrefixOf route then
      some (String.ofList (Path.joinSegments (route.drop after.home.length)), text)
    else none

end Files

end ScriptToPhp.Command
