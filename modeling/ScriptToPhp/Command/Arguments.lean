import ScriptToPhp.Options

/-!
# Command-line arguments

Arguments are read from left to right. The first of a mistake, a call for help and a call for the
version decides; only whether the arguments go together is looked at in the end.
-/

namespace ScriptToPhp.Command

inductive Parameter
  | project
  | outDir
  | constPrefix
  | varPrefix
deriving DecidableEq, Repr

inductive Flag
  | noHelpers
  | phpTag
  | tree
  | toStdout
  | quiet
deriving DecidableEq, Repr

inductive Request
  | parameter (p : Parameter)
  | flag (f : Flag)
  | verbose
  | help
  | version
deriving DecidableEq, Repr

namespace Request

def ofName? : String → Option Request
  | "project" => some (.parameter .project)
  | "outDir" => some (.parameter .outDir)
  | "constPrefix" => some (.parameter .constPrefix)
  | "varPrefix" => some (.parameter .varPrefix)
  | "noHelpers" => some (.flag .noHelpers)
  | "phpTag" => some (.flag .phpTag)
  | "ast" => some (.flag .tree)
  | "stdout" => some (.flag .toStdout)
  | "quiet" => some (.flag .quiet)
  | "verbose" => some .verbose
  | "help" => some .help
  | "version" => some .version
  | _ => none

def ofLetter? : Char → Option Request
  | 'p' => some (.parameter .project)
  | 'q' => some (.flag .quiet)
  | 'v' => some .verbose
  | 'h' => some .help
  | 'V' => some .version
  | _ => none

end Request

structure Settings where
  files : List String := []
  /-- The options that have a value, each of them once. -/
  values : List (Parameter × String) := []
  /-- The flags that are set, each of them once. -/
  flags : List Flag := []
  /-- How often more output is asked for. -/
  verbosity : Nat := 0
deriving DecidableEq, Repr

inductive Stop
  | help
  | version
  | misuse
deriving DecidableEq, Repr

namespace Settings

def value? (s : Settings) (p : Parameter) : Option String := s.values.lookup p

def has (s : Settings) (f : Flag) : Bool := s.flags.contains f

def addFiles (s : Settings) (files : List String) : Settings := { s with files := s.files ++ files }

def give (s : Settings) (p : Parameter) (value : String) : Except Stop Settings :=
  if (s.value? p).isSome then .error .misuse else .ok { s with values := s.values ++ [(p, value)] }

def raise (s : Settings) (f : Flag) : Except Stop Settings :=
  if s.has f then .error .misuse else .ok { s with flags := s.flags ++ [f] }

/-- What has been read, and the option whose value is the next argument. -/
abbrev Progress := Settings × Option Parameter

def follow (s : Settings) : Request → Except Stop Progress
  | .parameter p => .ok (s, some p)
  | .flag f => do return (← s.raise f, none)
  | .verbose => .ok ({ s with verbosity := s.verbosity + 1 }, none)
  | .help => .error .help
  | .version => .error .version

/-- Read a named option, behind its hyphens. A value may follow an equals sign. -/
def readNamed (s : Settings) (cs : List Char) : Except Stop Progress :=
  match Request.ofName? (String.ofList (cs.takeWhile (· != '='))), cs.dropWhile (· != '=') with
  | some request, [] => s.follow request
  | some (.parameter p), _ :: value => do return (← s.give p (String.ofList value), none)
  | _, _ => .error .misuse

/-- Read letters behind one hyphen. What follows the letter of an option with a value is the value,
without an equals sign at its front. -/
def readLetters (s : Settings) : List Char → Except Stop Progress
  | [] => .ok (s, none)
  | c :: cs =>
    match Request.ofLetter? c with
    | some (.parameter p) =>
      match cs with
      | [] => .ok (s, some p)
      | '=' :: value => do return (← s.give p (String.ofList value), none)
      | value => do return (← s.give p (String.ofList value), none)
    | some request => do
      let (s, _) ← s.follow request
      s.readLetters cs
    | none => .error .misuse

/-- Read one argument that is not a value. A hyphen alone is the name of a file. -/
def readWord (s : Settings) (word : String) : Except Stop Progress :=
  match word.toList with
  | '-' :: '-' :: cs => s.readNamed cs
  | '-' :: c :: cs => s.readLetters (c :: cs)
  | _ => .ok (s.addFiles [word], none)

def isValue (word : String) : Bool :=
  match word.toList with
  | '-' :: _ :: _ => false
  | _ => true

/-- Read arguments. Behind two hyphens alone, all are names of files. -/
def readWords (s : Settings) : List String → Except Stop Settings
  | [] => .ok s
  | word :: words =>
    if word == "--" then .ok (s.addFiles words)
    else
      match s.readWord word with
      | .error stop => .error stop
      | .ok (s, none) => s.readWords words
      | .ok (s, some p) =>
        match words with
        | [] => .error .misuse
        | value :: words =>
          if isValue value then
            match s.give p value with
            | .error stop => .error stop
            | .ok s => s.readWords words
          else .error .misuse

/-- One cannot ask for less output and for more. -/
def isCoherent (s : Settings) : Bool := !(s.has .quiet && s.verbosity != 0)

def ofArguments (words : List String) : Except Stop Settings := do
  let s ← ({} : Settings).readWords words
  if s.isCoherent then return s else throw .misuse

def override (s : Settings) (options : Options) : Options :=
  { options with
    constPrefix := (s.value? .constPrefix).getD options.constPrefix
    varPrefix := (s.value? .varPrefix).getD options.varPrefix
    outDir := s.value? .outDir <|> options.outDir
    emitHelpers := options.emitHelpers && !s.has .noHelpers
    phpOpenTag := options.phpOpenTag || s.has .phpTag }

end Settings

end ScriptToPhp.Command
