import ScriptToPhp.Options
import ScriptToPhp.Php.Fragment
import ScriptToPhp.Scope

/-!
# Style

How printed code is laid out, and how its names are made.
-/

namespace ScriptToPhp.Php

structure Style where
  /-- What the names of block-local variables start with. -/
  varPrefix : String
  /-- What the names of helpers start with. -/
  helperPrefix : String
  indent : String := "    "
  newline : String := "\n"
  /-- Whether the text ends with a line break. -/
  trailingNewline : Bool := true
deriving DecidableEq, Repr

namespace Style

def ofOptions (options : Options) : Style where
  varPrefix := options.varPrefix
  helperPrefix := options.helperNames

def bareName (name : String) : String := String.ofList (name.toList.dropWhile (· == '$'))

/-- The PHP variable of a name. A block-local one carries the number of its scope. -/
def phpVariable (style : Style) (name : String) (scope : Option ScopeId) : String :=
  match scope with
  | some id => "$" ++ style.varPrefix ++ "_" ++ toString id ++ "_" ++ bareName name
  | none => "$" ++ bareName name

def helper (style : Style) (h : Helper) : Fragment :=
  ⟨"$GLOBALS['" ++ style.helperPrefix ++ h.name ++ "']", .single h⟩

def indentation (style : Style) : Nat → String
  | 0 => ""
  | level + 1 => style.indent ++ style.indentation level

end Style

end ScriptToPhp.Php
