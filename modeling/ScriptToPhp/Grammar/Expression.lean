import ScriptToPhp.Grammar.Parse

/-!
# Expressions

An expression is an operand and what continues it: calls, a ternary, an assignment, or an operator
whose right side is again a whole expression. There is no precedence.

A production that reads something nested inside itself is given the productions for it as a
`Grammar`. A production that repeats carries a bound on the number of repetitions. Each nested or
repeated step comes after a token has been consumed, so the number of tokens bounds both.
-/

namespace ScriptToPhp

/-- The productions for what is nested in another production. -/
structure Grammar where
  /-- The statements that the next token begins: several for a list of declarations, none for a lone
  semicolon. -/
  statement : List ScopeId → Parse (List Node)
  /-- The expression that a consumed token begins, or nothing if it begins none. -/
  value : List ScopeId → Token → Parse (Option Node)
  /-- The operand that a consumed token begins, or nothing if it begins none. -/
  operand : List ScopeId → Token → Parse (Option Node)

namespace Grammar

open Parse

variable (g : Grammar) (enclosing : List ScopeId)

def requireValue (t : Token) : Parse Node := do
  match ← g.value enclosing t with
  | some value => return value
  | none => unexpected t

def nextValue : Parse Node := do
  match ← next with
  | some t => g.requireValue enclosing t
  | none => valueExpected

/-! ### Groups and arrays -/

/-- The rest of a group opened at `opening`. After an item comes a separator or the end; a semicolon
anywhere makes the group one of clauses. -/
def groupItems (opening : Span) : Nat → (afterItem : Bool) → Parse (List Node × Separator × Span)
  | 0, _ => exhausted
  | bound + 1, afterItem => do
    match ← next with
    | none => fail .unclosedParenthesis [] opening
    | some t =>
      if t.isMark ')' then
        return ([], .comma, t.span)
      else if afterItem then
        if t.isMark ';' then
          let (items, _, closing) ← groupItems opening bound false
          return (items, .semicolon, closing)
        else if t.isMark ',' then
          groupItems opening bound false
        else
          unexpected t
      else if t.isKeyword "let" || t.isKeyword "const" then
        declareNext enclosing
        groupItems opening bound false
      else if t.isKeyword "var" then
        groupItems opening bound false
      else
        let item ← g.requireValue enclosing t
        let (items, separator, closing) ← groupItems opening bound true
        return (item :: items, separator, closing)

def group (bound : Nat) (opening : Span) : Parse Group := do
  let (items, separator, closing) ← g.groupItems enclosing opening bound false
  return ⟨items, separator, opening.union closing⟩

def listItems (opening : Span) : Nat → (afterItem : Bool) → Parse (List Node × Span)
  | 0, _ => exhausted
  | bound + 1, afterItem => do
    match ← next with
    | none => fail .unclosedBracket [] opening
    | some t =>
      if t.isMark ']' then
        return ([], t.span)
      else if afterItem then
        if t.isMark ',' then listItems opening bound false else unexpected t
      else
        let item ← g.requireValue enclosing t
        let (items, closing) ← listItems opening bound true
        return (item :: items, closing)

def recordKey? (t : Token) : Option Literal :=
  match t.kind with
  | .keyword | .variable | .function | .constant => some (.quoted t.text t.span)
  | .number => some ⟨.number, t.value, t.span⟩
  | .string => some ⟨.string, t.value, t.span⟩
  | _ => none

def recordEntries (opening : Span) :
    Nat → (afterEntry : Bool) → Parse (List (Literal × Node) × Span)
  | 0, _ => exhausted
  | bound + 1, afterEntry => do
    match ← next with
    | none => fail .unclosedBrace [] opening
    | some t =>
      if t.isMark '\x7d' then
        return ([], t.span)
      else if afterEntry then
        if t.isMark ',' then recordEntries opening bound false else unexpected t
      else
        match recordKey? t with
        | none => unexpected t
        | some key =>
          match ← next with
          | none => fail .missingEntryValue [t.text] t.span
          | some colon =>
            if colon.isMark ':' then
              let value ← g.nextValue enclosing
              let (entries, closing) ← recordEntries opening bound true
              return ((key, value) :: entries, closing)
            else
              unexpected colon

/-! ### Functions -/

def delimited (opening : Span) : Nat → Parse (List Node × Span)
  | 0 => exhausted
  | bound + 1 => do
    match ← peek with
    | none => fail .unclosedBrace [] opening
    | some t =>
      if t.isMark '\x7d' then
        skip
        return ([], t.span)
      else
        let first ← g.statement enclosing
        let (rest, closing) ← delimited opening bound
        return (first ++ rest, closing)

def functionName : Parse (Option String) := do
  if ← nextIs (·.kind == .variable) then
    return (← next).map (·.text)
  else
    return none

/-- A function whose keyword has been consumed: a name or none, parameters, and a body in braces.
The scope of the body is opened behind the parameters. -/
def functionLiteral (bound : Nat) (keyword : Token) : Parse Node := do
  let name ← functionName
  let opening ← expectMark '('
  let parameters ← g.group enclosing bound opening.span
  let scope ← openScope enclosing
  let brace ← expectMark '\x7b'
  let (body, closing) ← g.delimited (scope :: enclosing) brace.span bound
  let header := Block.ofKind .function scope keyword.span |>.withHeader (.group parameters)
  let function := { header with name, delimited := true } |>.append body |>.cover closing
  note (.function function.name function.span)
  return .block function

/-- A function whose arrow has been consumed. A body that is an expression is returned. -/
def lambda (bound : Nat) (parameters : Group) : Parse Node := do
  let scope ← openScope enclosing
  let inner := scope :: enclosing
  let function := Block.ofKind .function scope parameters.span |>.withHeader (.group parameters)
  if ← nextIsMark '\x7b' then
    let brace ← expectMark '\x7b'
    let (body, closing) ← g.delimited inner brace.span bound
    return .block ({ function with delimited := true } |>.append body |>.cover closing)
  else
    let arrow ← lastSpan
    let value ← g.nextValue inner
    let returnScope ← openScope inner
    let body := Block.ofKind .returnJump returnScope arrow |>.withHeader value
    return .block (function.push (.block body))

def parentheses (bound : Nat) (opening : Span) : Parse Node := do
  let group ← g.group enclosing bound opening
  if ← nextIs (·.kind == .lambda) then
    skip
    g.lambda enclosing bound group
  else
    return .group group

/-! ### Variables -/

def isPropertyName (t : Token) : Bool :=
  match t.kind with
  | .variable | .keyword | .function | .constant => true
  | _ => false

def accesses : Nat → Span → Parse (List Access × Span)
  | 0, _ => exhausted
  | bound + 1, span => do
    if ← nextIsMark '.' then
      skip
      match ← next with
      | none => unexpectedEnd "property name"
      | some t =>
        if isPropertyName t then
          let (chain, span) ← accesses bound (span.union t.span)
          return (.property (.quoted t.text t.span) :: chain, span)
        else
          unexpected t
    else if ← nextIsMark '[' then
      let opening ← expectMark '['
      let index ← g.nextValue enclosing
      let closing ← expectClosing ']' .unclosedBracket opening.span
      let (chain, span) ← accesses bound (span.union closing.span)
      return (.index index :: chain, span)
    else
      return ([], span)

/-- A variable with its accesses. Before an arrow it is the only parameter of a function. The name
is looked up behind the accesses. -/
def access (bound : Nat) (t : Token) : Parse Node := do
  let (chain, span) ← g.accesses enclosing bound t.span
  if ← nextIs (·.kind == .lambda) then
    skip
    let scope ← resolve enclosing t.text
    g.lambda enclosing bound ⟨[.variable ⟨t.text, chain, scope, span⟩], .comma, span⟩
  else
    let scope ← resolve enclosing t.text
    return .variable ⟨t.text, chain, scope, span⟩

/-! ### Operators -/

def requireAssignable (node : Node) : Parse Unit :=
  if node.isAssignable then pure () else fail .notAssignable [node.subject] node.span

def assignment (op : String) (target value : Node) : Parse Node := do
  requireAssignable target
  return .mkAssign op target value

def call (bound : Nat) (callee : Node) : Parse Node := do
  let opening ← expectMark '('
  let arguments ← g.group enclosing bound opening.span
  return .mkCall callee arguments.items arguments.span

def calls : Nat → Node → Parse Node
  | 0, _ => exhausted
  | bound + 1, callee => do
    if ← nextIsMark '(' then
      let called ← g.call enclosing bound callee
      calls bound called
    else
      return callee

/-- An operator that stands before its operand, the operator consumed. It takes an operand and the
calls that follow it. -/
def leadingUnary (bound : Nat) (op : Token) : Parse Node := do
  match ← next with
  | none => valueExpected
  | some t =>
    match ← g.operand enclosing t with
    | none => unexpected t
    | some operand =>
      let operand ← g.calls enclosing bound operand
      if isStepOperator op.value || op.value == "delete" then
        requireAssignable operand
      return .mkUnary op.value operand .leading op.span

def ternary (condition : Node) : Parse Node := do
  let question ← lastSpan
  match ← next with
  | none => fail .ternaryUnclosedAfterQuestion [] question
  | some t =>
    let whenTrue ← g.requireValue enclosing t
    match ← next with
    | none => fail .ternaryUnclosedAfterQuestion [] question
    | some colon =>
      if colon.isMark ':' then
        match ← next with
        | none => fail .ternaryUnclosedAfterColon [] colon.span
        | some t =>
          let whenFalse ← g.requireValue enclosing t
          return .mkTernary condition whenTrue whenFalse
      else
        fail .ternaryColonExpected [colon.describe] colon.span

def startsValue (t : Token) : Bool := t.isValue || t.isMark '\x7b' || t.refusesLeft

/-- What continues a value, from left to right. A value on a new line begins the next statement, and
so does a step operator on a new line. -/
def continuations : Nat → Node → Parse Node
  | 0, _ => exhausted
  | bound + 1, value => do
    match ← peek with
    | none => return value
    | some t =>
      if startsValue t then
        if t.newlineBefore then
          return value
        else
          skip
          unexpected t
      else if t.isOperator "?" then
        skip
        let value ← g.ternary enclosing value
        continuations bound value
      else if t.isMark '(' then
        let value ← g.call enclosing bound value
        continuations bound value
      else if t.kind != .operator then
        return value
      else if isStepOperator t.value then
        if t.newlineBefore then
          return value
        else
          skip
          requireAssignable value
          return .mkUnary t.value value .trailing t.span
      else
        skip
        let right ← g.nextValue enclosing
        if t.isAssignment then
          let value ← assignment t.value value right
          continuations bound value
        else
          continuations bound (.mkBinary t.value value right)

def operandOf (bound : Nat) (t : Token) : Parse (Option Node) := do
  match t.kind with
  | .function => return some (← g.functionLiteral enclosing bound t)
  | .punctuation =>
    if t.isMark '(' then
      return some (← g.parentheses enclosing bound t.span)
    else if t.isMark '[' then
      let (items, closing) ← g.listItems enclosing t.span bound false
      return some (.list items (t.span.union closing))
    else if t.isMark '\x7b' then
      let (entries, closing) ← g.recordEntries enclosing t.span bound false
      return some (.record entries (t.span.union closing))
    else
      return none
  | .operator =>
    if isLeadingOperator t.value then
      return some (← g.leadingUnary enclosing bound t)
    else
      return none
  | .variable => return some (← g.access enclosing bound t)
  | .constant => return some (.literal ⟨.named, t.value, t.span⟩)
  | .number => return some (.literal ⟨.number, t.value, t.span⟩)
  | .string => return some (.literal ⟨.string, t.value, t.span⟩)
  | _ => return none

def valueOf (bound : Nat) (t : Token) : Parse (Option Node) := do
  match ← g.operandOf enclosing bound t with
  | some operand => return some (← g.continuations enclosing bound operand)
  | none => return none

end Grammar

end ScriptToPhp
