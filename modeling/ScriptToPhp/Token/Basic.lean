import ScriptToPhp.Text.Span
import ScriptToPhp.Token.Words

/-!
# Tokens

A token is a piece of source text of a known kind. Comments and line feeds are neutral: they
separate other tokens and mean nothing else.
-/

namespace ScriptToPhp

inductive TokenKind
  | comment
  | newline
  /-- A literal word: `true`, `null`, `E_ALL`, `Math.PI`. -/
  | constant
  | function
  | keyword
  | lambda
  | number
  | string
  | operator
  | variable
  /-- One of the marks `( ) { } [ ] , ; : .` -/
  | punctuation
deriving DecidableEq, Repr

namespace TokenKind

def name : TokenKind → String
  | .comment => "comment"
  | .newline => "newline"
  | .constant => "constant"
  | .function => "function"
  | .keyword => "keyword"
  | .lambda => "lambda"
  | .number => "number"
  | .string => "string"
  | .operator => "operator"
  | .variable => "variable"
  | .punctuation => "punctuation"

def isNeutral : TokenKind → Bool
  | .comment | .newline => true
  | _ => false

def isValue : TokenKind → Bool
  | .constant | .number | .string | .variable => true
  | _ => false

end TokenKind

structure Token where
  kind : TokenKind
  text : String
  /-- What the text stands for: the text itself, except for constants with another PHP name. -/
  value : String
  span : Span
  /-- Whether a line feed stands between this token and the meaningful one before it. -/
  newlineBefore : Bool := false
deriving DecidableEq, Repr

namespace Token

def isNeutral (t : Token) : Bool := t.kind.isNeutral

def isValue (t : Token) : Bool := t.kind.isValue

def isMark (t : Token) (c : Char) : Bool := t.kind == .punctuation && t.text == c.toString

def isOperator (t : Token) (op : String) : Bool := t.kind == .operator && t.value == op

def isKeyword (t : Token) (word : String) : Bool := t.kind == .keyword && t.value == word

def isAssignment (t : Token) : Bool := t.kind == .operator && isAssignmentOperator t.value

/-- Whether the token is an operator that cannot follow a value. -/
def refusesLeft (t : Token) : Bool := t.kind == .operator && unaryOnlyOperators.contains t.value

def describe (t : Token) : String :=
  match t.kind with
  | .punctuation | .operator | .lambda => s!"'{t.text}'"
  | .newline => "newline"
  | kind => s!"{kind.name} {t.text}"

end Token

end ScriptToPhp
