/-!
# File paths

Paths are text, taken apart without a look at any file. A path is a front (the root, the current
directory or nothing) and segments between slashes. An empty segment and a point between slashes
stand for nothing.
-/

namespace ScriptToPhp.Path

def segments : List Char → List (List Char)
  | [] => [[]]
  | c :: cs =>
    if c = '/' then [] :: segments cs
    else
      match segments cs with
      | [] => [[c]]
      | s :: ss => (c :: s) :: ss

def joinSegments : List (List Char) → List Char
  | [] => []
  | [s] => s
  | s :: ss => s ++ '/' :: joinSegments ss

/-- What a path starts with: the root, a point for the current directory, or nothing. -/
def front : List Char → List Char
  | '/' :: _ => ['/']
  | ['.'] => ['.']
  | '.' :: '/' :: _ => ['.']
  | _ => []

def isVoid (segment : List Char) : Bool := segment == [] || segment == ['.']

def trimVoid (ss : List (List Char)) : List (List Char) := (ss.reverse.dropWhile isVoid).reverse

/-- The segments behind the front, up to the last that stands for something. -/
def body (path : List Char) : List (List Char) :=
  trimVoid (segments (path.drop (front path).length))

def isAbsolute (path : String) : Bool := path.toList.head? == some '/'

/-- The path without its last segment. The root and the empty path have no parent. -/
def parent? (path : String) : Option String :=
  let cs := path.toList
  match body cs with
  | [] => if front cs == ['.'] then some "" else none
  | ss => some (String.ofList (front cs ++ joinSegments (trimVoid ss.dropLast)))

/-- The last segment, unless it leads upward. -/
def fileName? (path : String) : Option String :=
  match (body path.toList).getLast? with
  | some s => if s == ['.', '.'] then none else some (String.ofList s)
  | none => none

/-- The name before its last point. A point at the front does not count. -/
def stem (name : String) : String :=
  let cs := name.toList
  let before := (cs.reverse.dropWhile (· != '.')).reverse.dropLast
  if before.isEmpty then name else String.ofList before

def fileStem? (path : String) : Option String := (fileName? path).map stem

/-- A path seen from a directory. An absolute path stays as it is. -/
def join (directory path : String) : String :=
  if isAbsolute path || directory.isEmpty then path
  else if directory.toList.getLast? == some '/' then directory ++ path
  else directory ++ "/" ++ path

end ScriptToPhp.Path
