import ScriptToPhp.Token.Scanner

/-!
# Compiler options
-/

namespace ScriptToPhp

structure Options where
  /-- Constants of a script may not start with this. -/
  constPrefix : String := "__JPC"
  /-- Variables of a script may not start with this. Block-local names are renamed under it. -/
  varPrefix : String := "__jpv"
  /-- What the names of the run-time helpers start with, if chosen. -/
  helperPrefix : Option String := none
  /-- Whether the output brings the definitions of the helpers it uses. -/
  emitHelpers : Bool := true
  /-- Whether the output starts with an open tag. -/
  phpOpenTag : Bool := false
  /-- The directory for output files, in place of the directory of the script. -/
  outDir : Option String := none
deriving DecidableEq, Repr

namespace Options

/-- What the names of the helpers start with: the chosen prefix, or the one for variables and an
underscore. -/
def helperNames (options : Options) : String :=
  options.helperPrefix.getD (options.varPrefix ++ "_")

def reserved (options : Options) : ReservedPrefixes :=
  ⟨options.constPrefix, options.varPrefix⟩

end Options

end ScriptToPhp
