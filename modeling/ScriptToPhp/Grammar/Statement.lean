import ScriptToPhp.Grammar.Expression

/-!
# Statements

A statement is a declaration list, a block that a keyword begins, a named function or an expression.
The keyword decides what follows it: a value, a label, or a header in parentheses and a body.
-/

namespace ScriptToPhp

inductive HeaderPolicy
  | required
  | optional
  | forbidden
deriving DecidableEq, Repr

inductive BlockShape
  /-- An optional value on the same line. -/
  | jump
  | caseLabel
  | defaultLabel
  | headed (policy : HeaderPolicy)
  /-- A body, and a condition behind it. -/
  | doLoop
deriving DecidableEq, Repr

/-- What follows each keyword. An unknown one may take a header. -/
def BlockShape.ofKeyword (word : String) : BlockShape :=
  match word with
  | "return" | "break" | "continue" | "throw" => .jump
  | "case" => .caseLabel
  | "default" => .defaultLabel
  | "if" | "while" | "for" | "switch" => .headed .required
  | "else" | "try" | "finally" => .headed .forbidden
  | "do" => .doLoop
  | _ => .headed .optional

namespace Grammar

open Parse

variable (g : Grammar) (enclosing : List ScopeId)

def requireVariable : Parse Unit := do
  if !(← nextIs (·.kind == .variable)) then
    refuseNext "variable"

def declarationName (blockLocal : Bool) : Parse Unit :=
  if blockLocal then declareNext enclosing else requireVariable

/-- What is left of a declaration. A block-local name without a value becomes null; any other name
without a value leaves nothing. -/
def declared (blockLocal : Bool) (value : Node) : Parse (List Node) := do
  match value with
  | .variable v =>
    if v.isBare then
      if blockLocal then
        let null := Node.literal ⟨.named, "null", .empty v.span.stop⟩
        return [← assignment "=" value null]
      else
        return []
    else
      return [value]
  | value => return [value]

def declarations (blockLocal : Bool) : Nat → Parse (List Node)
  | 0 => exhausted
  | bound + 1 => do
    declarationName enclosing blockLocal
    let value ← g.nextValue enclosing
    let statements ← declared blockLocal value
    if ← nextIsMark ',' then
      skip
      return statements ++ (← declarations blockLocal bound)
    else
      return statements

/-! ### Blocks -/

/-- The value of a jump: an expression on the same line, if one stands there. -/
def jumpValue (block : Block) : Parse Block := do
  let hasValue ← nextIs fun t =>
    !(t.isMark ';' || t.isMark '\x7d' || t.kind == .keyword || t.newlineBefore)
  if hasValue then
    return block.withHeader (← g.nextValue enclosing)
  else
    return block

def caseLabel (block : Block) : Parse Block := do
  if !(← nextIs fun t => !t.isMark ':') then
    fail .caseIncomplete [] block.span
  else
    let block := block.withHeader (← g.nextValue enclosing)
    match ← next with
    | some colon =>
      if colon.isMark ':' then return block else fail .caseIncomplete [] colon.span
    | none => fail .caseIncomplete [] (← endSpan)

def defaultLabel (block : Block) : Parse Block := do
  match ← next with
  | some colon =>
    if colon.isMark ':' then return block else fail .defaultIncomplete [] colon.span
  | none => fail .defaultIncomplete [] block.span

def header (bound : Nat) (policy : HeaderPolicy) (block : Block) : Parse Block := do
  if ← nextIsMark '(' then
    let opening ← expectMark '('
    if policy == .forbidden then
      fail .parenthesesForbidden [block.kind.keyword] opening.span
    else
      return block.withHeader (.group (← g.group enclosing bound opening.span))
  else if policy == .required then
    let span ← match ← peek with
      | some t => pure t.span
      | none => endSpan
    fail .parenthesesNeeded [block.kind.keyword] span
  else
    return block

def endsWithIf (statements : List Node) : Bool :=
  match statements.getLast? with
  | some (.block b) => b.kind == .ifBranch
  | _ => false

/-- The `else` branches that belong to an `if` at the end of a body without braces. -/
def elseBranches : Nat → List Node → Parse (List Node)
  | 0, _ => exhausted
  | bound + 1, statements => do
    if endsWithIf statements then
      if ← nextIs (·.isKeyword "else") then
        let branch ← g.statement enclosing
        skipSemicolon
        elseBranches bound (statements ++ branch)
      else
        return statements
    else
      return statements

/-- The body of a block: statements in braces, or one statement and its semicolon. -/
def body (bound : Nat) (block : Block) : Parse Block := do
  if ← nextIsMark '\x7b' then
    let opening ← expectMark '\x7b'
    let (statements, closing) ← g.delimited enclosing opening.span bound
    return { block with delimited := true } |>.append statements |>.cover closing
  else
    let statements ← g.statement enclosing
    skipSemicolon
    return block.append (← g.elseBranches enclosing bound statements)

def loopCondition (bound : Nat) (block : Block) : Parse Block := do
  if ← nextIs (·.isKeyword "while") then
    skip
    let opening ← expectMark '('
    return block.withHeader (.group (← g.group enclosing bound opening.span))
  else
    return block

def blockRest (bound : Nat) (shape : BlockShape) (block : Block) : Parse Block := do
  match shape with
  | .jump => g.jumpValue enclosing block
  | .caseLabel => g.caseLabel enclosing block
  | .defaultLabel => defaultLabel block
  | .headed policy =>
    let headed ← g.header enclosing bound policy block
    g.body enclosing bound headed
  | .doLoop =>
    let headed ← g.header enclosing bound .forbidden block
    let looped ← g.body enclosing bound headed
    g.loopCondition enclosing bound looped

def keywordBlock (bound : Nat) (keyword : Token) : Parse Node := do
  let scope ← openScope enclosing
  let start := Block.ofKind (.ofKeyword keyword.value) scope keyword.span
  let block ← g.blockRest (scope :: enclosing) bound (.ofKeyword keyword.value) start
  note (.block keyword.value block.span)
  return .block block

def valueStatement (bound : Nat) (t : Token) : Parse (List Node) := do
  match ← g.valueOf enclosing bound t with
  | some value => return [value]
  | none => unexpected t

/-- The statements that the next token begins. A named function takes no continuation. -/
def statementOf (bound : Nat) : Parse (List Node) := do
  match ← next with
  | none => unexpectedEnd "statement"
  | some t =>
    if t.isMark ';' then
      return []
    else if t.kind == .keyword then
      if t.value == "let" || t.value == "const" then
        g.declarations enclosing true bound
      else if t.value == "var" then
        g.declarations enclosing false bound
      else
        return [← g.keywordBlock enclosing bound t]
    else if t.kind == .function then
      if ← nextIs (·.kind == .variable) then
        return [← g.functionLiteral enclosing bound t]
      else
        g.valueStatement enclosing bound t
    else
      g.valueStatement enclosing bound t

end Grammar

end ScriptToPhp
