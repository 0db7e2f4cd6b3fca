import ScriptToPhp.Token.Basic

/-!
# What reading a script reports

The reader of a script notes each token as it first looks at it, and each block as it completes it.
-/

namespace ScriptToPhp

inductive ParseEvent
  | token (t : Token)
  | block (word : String) (span : Span)
  | function (name : Option String) (span : Span)
  | script (file : String) (statements scopes : Nat)
deriving DecidableEq, Repr

end ScriptToPhp
