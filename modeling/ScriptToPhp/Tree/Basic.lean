import ScriptToPhp.Scope
import ScriptToPhp.Text.Span
import ScriptToPhp.Text.Uppercase

/-!
# Syntax trees

A script is a tree of nodes. Operators carry no precedence: a binary node takes as its right operand
everything that follows, so that printing the tree from left to right gives back the order of the
source and leaves precedence to the language it is printed in.
-/

namespace ScriptToPhp

inductive LiteralKind
  /-- A named constant under its PHP name. -/
  | named
  | number
  /-- A quoted string, quotes included. -/
  | string
deriving DecidableEq, Repr

def LiteralKind.name : LiteralKind → String
  | .named => "constant"
  | .number => "number"
  | .string => "string"

structure Literal where
  kind : LiteralKind
  value : String
  span : Span
deriving DecidableEq, Repr

def escapeQuoted : List Char → List Char
  | [] => []
  | c :: cs => if c == '\\' || c == '\'' then '\\' :: c :: escapeQuoted cs else c :: escapeQuoted cs

def Literal.quoted (text : String) (span : Span) : Literal :=
  ⟨.string, String.ofList ('\'' :: escapeQuoted text.toList ++ ['\'']), span⟩

inductive Separator
  | comma
  | semicolon
deriving DecidableEq, Repr

def Separator.text : Separator → String
  | .comma => ", "
  | .semicolon => "; "

inductive Fixity
  | leading
  | trailing
deriving DecidableEq, Repr

inductive BlockKind
  | main
  | function
  | ifBranch
  | elseBranch
  | forLoop
  | whileLoop
  | doLoop
  | switch
  | caseLabel
  | defaultLabel
  | returnJump
  | breakJump
  | continueJump
  | throwJump
  | tryBlock
  | catchBlock
  | finallyBlock
  /-- Any other keyword. -/
  | other (word : String)
deriving DecidableEq, Repr

namespace BlockKind

def ofKeyword (word : String) : BlockKind :=
  match word with
  | "function" => .function
  | "if" => .ifBranch
  | "else" => .elseBranch
  | "for" => .forLoop
  | "while" => .whileLoop
  | "do" => .doLoop
  | "switch" => .switch
  | "case" => .caseLabel
  | "default" => .defaultLabel
  | "return" => .returnJump
  | "break" => .breakJump
  | "continue" => .continueJump
  | "throw" => .throwJump
  | "try" => .tryBlock
  | "catch" => .catchBlock
  | "finally" => .finallyBlock
  | word => .other word

def keyword : BlockKind → String
  | .main => "main"
  | .function => "function"
  | .ifBranch => "if"
  | .elseBranch => "else"
  | .forLoop => "for"
  | .whileLoop => "while"
  | .doLoop => "do"
  | .switch => "switch"
  | .caseLabel => "case"
  | .defaultLabel => "default"
  | .returnJump => "return"
  | .breakJump => "break"
  | .continueJump => "continue"
  | .throwJump => "throw"
  | .tryBlock => "try"
  | .catchBlock => "catch"
  | .finallyBlock => "finally"
  | .other word => word

end BlockKind

mutual

inductive Node where
  | literal (literal : Literal)
  | variable (v : Variable)
  | binary (op : String) (left right : Node) (span : Span)
  | ternary (condition whenTrue whenFalse : Node) (span : Span)
  | assign (op : String) (target value : Node) (span : Span)
  | call (callee : Node) (arguments : List Node) (span : Span)
  | group (g : Group)
  /-- An array whose keys are the positions. -/
  | list (items : List Node) (span : Span)
  /-- An array with written keys. -/
  | record (entries : List (Literal × Node)) (span : Span)
  | unary (op : String) (operand : Node) (fixity : Fixity) (span : Span)
  | block (b : Block)

structure Variable where
  name : String
  chain : List Access
  /-- The scope of the block that declares the name, if one around it does. -/
  scope : Option ScopeId
  span : Span

inductive Access where
  | property (key : Literal)
  | index (value : Node)

structure Group where
  items : List Node
  separator : Separator
  span : Span

structure Block where
  kind : BlockKind
  /-- A condition, a list of parameters, or the value of a jump or a label. -/
  header : Option Node
  body : List Node
  scope : ScopeId
  name : Option String
  /-- Whether the body stands in braces. -/
  delimited : Bool
  span : Span

end

namespace Variable

def isBare (v : Variable) : Bool := v.chain.isEmpty

end Variable

namespace Node

def span : Node → Span
  | .literal l => l.span
  | .variable v => v.span
  | .binary _ _ _ s => s
  | .ternary _ _ _ s => s
  | .assign _ _ _ s => s
  | .call _ _ s => s
  | .group g => g.span
  | .list _ s => s
  | .record _ s => s
  | .unary _ _ _ s => s
  | .block b => b.span

def describe : Node → String
  | .literal l => s!"{l.kind.name} {l.value}"
  | .variable v => s!"variable {v.name}"
  | .binary op _ _ _ => s!"'{op}' expression"
  | .ternary .. => "ternary expression"
  | .assign .. => "assignation"
  | .call .. => "function call"
  | .group _ => "parenthesis"
  | .list .. | .record .. => "array literal"
  | .unary op _ _ _ => s!"'{op}' expression"
  | .block b => s!"{b.kind.keyword} block"

def isAssignable : Node → Bool
  | .variable _ => true
  | _ => false

def subject (node : Node) : String := Text.capitalize node.describe

def asVariable? : Node → Option Variable
  | .variable v => some v
  | _ => none

def isGroup : Node → Bool
  | .group _ => true
  | _ => false

/-! ### Nodes whose span follows from their parts -/

def mkBinary (op : String) (left right : Node) : Node :=
  .binary op left right (left.span.union right.span)

def mkTernary (condition whenTrue whenFalse : Node) : Node :=
  .ternary condition whenTrue whenFalse (condition.span.union whenFalse.span)

def mkAssign (op : String) (target value : Node) : Node :=
  .assign op target value (target.span.union value.span)

def mkCall (callee : Node) (arguments : List Node) (closing : Span) : Node :=
  .call callee arguments (callee.span.union closing)

def mkUnary (op : String) (operand : Node) (fixity : Fixity) (mark : Span) : Node :=
  .unary op operand fixity (operand.span.union mark)

end Node

namespace Block

def ofKind (kind : BlockKind) (scope : ScopeId) (span : Span) : Block :=
  ⟨kind, none, [], scope, none, false, span⟩

def cover (b : Block) (span : Span) : Block := { b with span := b.span.union span }

def withHeader (b : Block) (header : Node) : Block :=
  { b.cover header.span with header := some header }

def push (b : Block) (node : Node) : Block :=
  { b.cover node.span with body := b.body ++ [node] }

def append (b : Block) (nodes : List Node) : Block := nodes.foldl push b

def parameters (b : Block) : List Node :=
  match b.kind, b.header with
  | .function, some (.group g) => g.items
  | _, _ => []

end Block

end ScriptToPhp
