import ScriptToPhp.Php.Printer

/-!
# Writing

A writer prints in one pass. Statements go into one buffer, expressions are built as texts, and a
block that stands in an expression is written into the buffer after it was set aside. The depth of
indentation and the names bound to closures are changed on the way into a block and changed back on
the way out.
-/

namespace ScriptToPhp.Php

structure Writer where
  style : Style
  /-- What is written and not taken yet. -/
  output : String
  level : Nat
  /-- The helpers referred to so far. -/
  helpers : Helpers
  /-- The names bound to closures: the parameters of each function around, innermost first, and
  behind them the named functions of the script. -/
  callables : List (List String)
deriving DecidableEq, Repr

abbrev Writing := StateM Writer

namespace Writing

def write (text : String) : Writing Unit := modify fun w => { w with output := w.output ++ text }

def newline : Writing Unit := do write (← get).style.newline

def indentation : Writing Unit := do
  let w ← get
  write (w.style.indentation w.level)

def indented (x : Writing Unit) : Writing Unit := do
  modify fun w => { w with level := w.level + 1 }
  x
  modify fun w => { w with level := w.level - 1 }

def binding (names : List String) (x : Writing String) : Writing String := do
  modify fun w => { w with callables := names :: w.callables }
  let text ← x
  modify fun w => { w with callables := w.callables.tail }
  return text

/-- What an action writes. The buffer is set aside meanwhile. -/
def capture (x : Writing Unit) : Writing String := do
  let saved := (← get).output
  modify fun w => { w with output := "" }
  x
  let text := (← get).output
  modify fun w => { w with output := saved }
  return text

def varName (name : String) (scope : Option ScopeId) : Writing String :=
  return (← get).style.phpVariable name scope

def helper (h : Helper) : Writing String := do
  modify fun w => { w with helpers := w.helpers.union (.single h) }
  return ((← get).style.helper h).text

def isHostCall : Node → Writing Bool
  | .variable v =>
    return v.isBare && v.scope.isNone && v.name.toList.head? != some '$' &&
      !(← get).callables.any (·.contains v.name)
  | _ => return false

def parenthesized (text : String) : String := "(" ++ text ++ ")"

def commaSeparated (texts : List String) : String := ", ".intercalate texts

def callUserFunc (arguments : List String) : String :=
  "call_user_func(" ++ commaSeparated arguments ++ ")"

def branch (node : Node) (x : Writing String) : Writing String := do
  let text ← x
  return if endsInTernary node then parenthesized text else text

def lines : List (Writing Unit) → Writing Unit
  | [] => return
  | statement :: statements => do
    indentation
    statement
    newline
    lines statements

/-- The statements of a body. Named functions come first, unless the body has labels. -/
def statements (body : List Node) (actions : List (Writing Unit)) : Writing Unit :=
  let hoists := !body.any isLabel
  let (declarations, rest) := (body.zip actions).partition fun (node, _) =>
    hoists && isNamedFunction node
  lines ((declarations ++ rest).map (·.2))

def braced (body : List Node) (actions : List (Writing Unit)) : Writing Unit :=
  if body.isEmpty then write "\x7b\x7d"
  else do
    write "\x7b"
    newline
    indented (statements body actions)
    indentation
    write "\x7d"

structure Parts where
  header : Writing (Option String)
  /-- The header of a function as its parameters. -/
  parameters : Writing (List String)
  statements : List (Writing Unit)

def header (b : Block) (parts : Parts) : Writing String := do
  match ← parts.header with
  | none => return "()"
  | some text => return if b.header.any Node.isGroup then text else parenthesized text

def useClause : List String → Writing Unit
  | [] => return
  | used => write (" use " ++ parenthesized (commaSeparated used))

/-- A function as a closure. Its own parameters are bound inside it only. -/
def closure (b : Block) (parts : Parts) : Writing String := do
  let parameters ← parts.parameters
  let w ← get
  let used := (captures w.callables.flatten b).map fun c => "&" ++ w.style.phpVariable c.1 c.2
  binding (parameterNames b) <| capture do
    write ("function " ++ parenthesized (commaSeparated parameters))
    useClause used
    write " "
    braced b.body parts.statements

def catchBinding (header : Option Node) : Writing String := do
  match header with
  | some (.group g) =>
    match g.items.head?.bind parameterName? with
    | some (name, scope) => return " " ++ (← varName name scope)
    | none => return ""
  | _ => return ""

def naming : Option String → Writing Unit
  | none => return
  | some name => do
    write (← varName name none)
    write " = "

def spaced : Option String → Writing Unit
  | none => return
  | some text => do
    write " "
    write text

def otherBody (b : Block) (parts : Parts) : Writing Unit :=
  if b.delimited then do
    write " "
    braced b.body parts.statements
  else
    match parts.statements with
    | [] => write ";"
    | statement :: _ => do
      write " "
      statement

def block (b : Block) (parts : Parts) : Writing Unit :=
  match b.kind with
  | .main => statements b.body parts.statements
  | .function => do
    let text ← closure b parts
    naming b.name
    write text
    write ";"
  | .returnJump | .breakJump | .continueJump | .throwJump => do
    write b.kind.keyword
    spaced (← parts.header)
    write ";"
  | .caseLabel => do
    let value ← parts.header
    write "case "
    write (value.getD "")
    write ":"
  | .defaultLabel => write "default:"
  | .ifBranch | .whileLoop | .forLoop | .switch => do
    let condition ← header b parts
    write b.kind.keyword
    write " "
    write condition
    write " "
    braced b.body parts.statements
  | .elseBranch | .tryBlock | .finallyBlock => do
    write b.kind.keyword
    write " "
    braced b.body parts.statements
  | .catchBlock => do
    write ("catch (\\Throwable" ++ (← catchBinding b.header) ++ ") ")
    braced b.body parts.statements
  | .doLoop => do
    let condition ← if b.header.isSome then header b parts else pure "(false)"
    write "do "
    braced b.body parts.statements
    write " while "
    write condition
    write ";"
  | .other word => do
    write word
    spaced (← if b.header.isSome then some <$> header b parts else pure none)
    otherBody b parts

/-- How to print a node: as text where an expression stands, and into the buffer where a statement
does. -/
structure Actions where
  value : Writing String
  target : Writing String
  parameter : Writing String
  statement : Writing Unit

namespace Actions

def closed (x : Writing String) : Writing Unit := do
  write (← x)
  write ";"

def ofText (x : Writing String) : Actions := ⟨x, x, x, closed x⟩

/-- A block. As an expression a function is a closure, and any other block is what it writes. -/
def ofBlock (b : Block) (parts : Parts) : Actions :=
  let text := if b.kind = .function then closure b parts else capture (block b parts)
  { value := text, target := text, parameter := text, statement := block b parts }

end Actions

mutual

def actions : Node → Actions
  | .literal l => .ofText (return literal l)
  | .variable ⟨name, chain, scope, _⟩ =>
    let value : Writing String := do
      let base ← varName name scope
      if chain.isEmpty then return base
      else return callUserFunc ((← helper .dot) :: base :: (← chainKeys chain))
    { value
      target := do
        let base ← varName name scope
        let keys ← chainKeys chain
        return base ++ String.join (keys.map fun key => "[" ++ key ++ "]")
      parameter := varName name scope
      statement := Actions.closed value }
  | .binary op left right _ => .ofText do
    let left ← (actions left).value
    let right ← (actions right).value
    return left ++ (" " ++ op ++ " ") ++ right
  | .ternary condition whenTrue whenFalse _ => .ofText do
    let condition ← (actions condition).value
    let yes ← branch whenTrue (actions whenTrue).value
    let no ← branch whenFalse (actions whenFalse).value
    return condition ++ " ? " ++ yes ++ " : " ++ no
  | .assign op target value _ =>
    let written (op : String) : Writing String := do
      let target ← (actions target).target
      let value ← (actions value).value
      return target ++ (" " ++ op ++ " ") ++ value
    { Actions.ofText (written op) with parameter := written "=" }
  | .call callee arguments _ => .ofText do
    let arguments ← values arguments
    if ← isHostCall callee then return calleeName callee ++ parenthesized (commaSeparated arguments)
    else return callUserFunc ((← (actions callee).value) :: arguments)
  | .group ⟨items, separator, _⟩ => .ofText do
    return parenthesized (separator.text.intercalate (← values items))
  | .list items _ => .ofText do return "[" ++ commaSeparated (← positioned 0 items) ++ "]"
  | .record entries _ => .ofText do return "[" ++ commaSeparated (← keyed entries) ++ "]"
  | .unary op operand fixity _ => .ofText <|
    if op = "typeof" then do
      let operand ← (actions operand).value
      return callUserFunc [← helper .typeof, operand]
    else if op = "void" then do return "(" ++ (← (actions operand).value) ++ " ? null : null)"
    else if op = "delete" then do return "unset(" ++ (← (actions operand).target) ++ ")"
    else
      match fixity with
      | .trailing => do return (← (actions operand).target) ++ op
      | .leading =>
        if isStepOperator op then do return op ++ (← (actions operand).target)
        else do
          let operand ← (actions operand).value
          return op ++ (if gluesTo op operand then " " else "") ++ operand
  | .block ⟨kind, header, body, scope, name, delimited, span⟩ =>
    .ofBlock ⟨kind, header, body, scope, name, delimited, span⟩
      ⟨headerValue header, parameters header, bodyActions body⟩

def headerValue : Option Node → Writing (Option String)
  | none => return none
  | some header => return some (← (actions header).value)

def parameters : Option Node → Writing (List String)
  | some (.group ⟨items, _, _⟩) => parameterTexts items
  | _ => return []

def parameterTexts : List Node → Writing (List String)
  | [] => return []
  | node :: nodes => return (← (actions node).parameter) :: (← parameterTexts nodes)

def values : List Node → Writing (List String)
  | [] => return []
  | node :: nodes => return (← (actions node).value) :: (← values nodes)

def chainKeys : List Access → Writing (List String)
  | [] => return []
  | .property key :: chain => return literal key :: (← chainKeys chain)
  | .index value :: chain => return (← (actions value).value) :: (← chainKeys chain)

def positioned (i : Nat) : List Node → Writing (List String)
  | [] => return []
  | node :: nodes =>
    return (toString i ++ " => " ++ (← (actions node).value)) :: (← positioned (i + 1) nodes)

def keyed : List (Literal × Node) → Writing (List String)
  | [] => return []
  | (key, value) :: entries =>
    return (literal key ++ " => " ++ (← (actions value).value)) :: (← keyed entries)

def bodyActions : List Node → List (Writing Unit)
  | [] => []
  | node :: nodes => (actions node).statement :: bodyActions nodes

end

end Writing

namespace Writer

open Writing

def ofStyle (style : Style) : Writer := ⟨style, "", 0, .none, []⟩

def printScript (root : Block) : Writing String := do
  modify fun w => { w with output := "", callables := [functionNames root] }
  statements root.body (bodyActions root.body)
  let w ← get
  set { w with output := "" }
  return if w.style.trailingNewline then w.output else withoutSuffix w.output w.style.newline

def printExpression (node : Node) : Writing String := (actions node).value

end Writer

end ScriptToPhp.Php
