import ScriptToPhp.Php.Captures
import ScriptToPhp.Php.Literal
import ScriptToPhp.Php.Style

/-!
# Rendering trees as PHP

Every node renders to a fragment that depends on the place where it stands: as a value, as the
target of a write, as a parameter or as a statement. Operands are rendered in the order of the
source, so that PHP applies its own precedence to the same sequence of operators.
-/

namespace ScriptToPhp.Php

inductive Place
  | value
  | target
  | parameter
  | statement
deriving DecidableEq, Repr

/-- An expression in a place. As a statement it ends with a semicolon. -/
def Place.close (place : Place) (f : Fragment) : Fragment :=
  match place with
  | .statement => f ++ ";"
  | _ => f

structure Setting where
  style : Style
  /-- The names bound to closures: named functions of the script and parameters of the functions
  around. -/
  callable : List String
  level : Nat

namespace Setting

def newline (s : Setting) : Fragment := s.style.newline

def indentation (s : Setting) : Fragment := s.style.indentation s.level

def varName (s : Setting) (name : String) (scope : Option ScopeId) : Fragment :=
  s.style.phpVariable name scope

def deeper (s : Setting) : Setting := { s with level := s.level + 1 }

def within (s : Setting) (function : Block) : Setting :=
  { s with callable := parameterNames function ++ s.callable }

def isHostCall (s : Setting) : Node → Bool
  | .variable v =>
    v.isBare && v.scope.isNone && v.name.toList.head? != some '$' && !s.callable.contains v.name
  | _ => false

end Setting

def calleeName : Node → String
  | .variable v => v.name
  | _ => ""

/-- Whether a node ends with a ternary that nothing encloses. PHP refuses such a node as the branch
of another ternary. -/
def endsInTernary : Node → Bool
  | .ternary .. => true
  | .binary _ _ right _ => endsInTernary right
  | .assign _ _ value _ => endsInTernary value
  | .unary _ operand .leading _ => endsInTernary operand
  | _ => false

def branch (node : Node) (text : Fragment) : Fragment :=
  if endsInTernary node then text.parenthesized else text

def isNamedFunction : Node → Bool
  | .block b => b.kind == .function && b.name.isSome
  | _ => false

def isLabel : Node → Bool
  | .block b => b.kind == .caseLabel || b.kind == .defaultLabel
  | _ => false

/-- The lines of a body in the order of printing. Named functions come first, so that they can be
called before they stand; but nothing may come before the first label of a switch. -/
def hoisted (body : List Node) (lines : List Fragment) : List Fragment :=
  if body.any isLabel then lines
  else
    let tagged := body.zip lines
    ((tagged.filter (isNamedFunction ·.1)) ++ (tagged.filter (!isNamedFunction ·.1))).map (·.2)

def gluesTo (op operand : String) : Bool :=
  let isSign (c : Char) : Bool := c == '-' || c == '+'
  operand.toList.head?.any isSign && op.toList.getLast?.any isSign

def catchBinding (s : Setting) (header : Option Node) : Fragment :=
  match header with
  | some (.group g) =>
    match g.items.head?.bind parameterName? with
    | some (name, scope) => " " ++ s.varName name scope
    | none => .empty
  | _ => .empty

def useClause (s : Setting) (function : Block) : Fragment :=
  let used := (captures s.callable function).map fun c => "&" ++ s.varName c.1 c.2
  if used.isEmpty then .empty else " use " ++ Fragment.parenthesized (.join ", " used)

def lines (s : Setting) (statements : List Fragment) : List Fragment :=
  statements.map fun statement => s.indentation ++ statement ++ s.newline

structure Inside where
  header : Setting → Option Fragment
  /-- The header of a function as its parameters. -/
  parameters : Setting → List Fragment
  statements : Setting → List Fragment

def braced (s : Setting) (body : List Node) (inner : Setting) (inside : Inside) : Fragment :=
  if body.isEmpty then "\x7b\x7d"
  else
    "\x7b" ++ s.newline ++ .concat (hoisted body (lines inner (inside.statements inner))) ++
      s.indentation ++ "\x7d"

def parenthesizedHeader (header : Option Node) (rendered : Option Fragment) : Fragment :=
  match rendered with
  | none => "()"
  | some rendered => if header.any Node.isGroup then rendered else rendered.parenthesized

def renderBlock (s : Setting) (place : Place) (b : Block) (inside : Inside) : Fragment :=
  match b.kind with
  | .main => .concat (hoisted b.body (lines s (inside.statements s)))
  | .function =>
    let closure := "function " ++ Fragment.parenthesized (.join ", " (inside.parameters s)) ++
      useClause s b ++ " " ++ braced s b.body (s.within b).deeper inside
    match place, b.name with
    | .statement, some name => s.varName name none ++ " = " ++ closure ++ ";"
    | .statement, none => closure ++ ";"
    | _, _ => closure
  | .returnJump | .breakJump | .continueJump | .throwJump =>
    let value := match inside.header s with
      | none => .empty
      | some value => " " ++ value
    b.kind.keyword ++ value ++ ";"
  | .caseLabel => "case " ++ (inside.header s).getD .empty ++ ":"
  | .defaultLabel => "default:"
  | .ifBranch | .whileLoop | .forLoop | .switch =>
    b.kind.keyword ++ " " ++ parenthesizedHeader b.header (inside.header s) ++ " " ++
      braced s b.body s.deeper inside
  | .elseBranch | .tryBlock | .finallyBlock =>
    b.kind.keyword ++ " " ++ braced s b.body s.deeper inside
  | .catchBlock =>
    "catch (\\Throwable" ++ catchBinding s b.header ++ ") " ++ braced s b.body s.deeper inside
  | .doLoop =>
    let condition :=
      if b.header.isSome then parenthesizedHeader b.header (inside.header s) else "(false)"
    "do " ++ braced s b.body s.deeper inside ++ " while " ++ condition ++ ";"
  | .other word =>
    let header :=
      if b.header.isSome then " " ++ parenthesizedHeader b.header (inside.header s) else .empty
    word ++ header ++
      if b.delimited then " " ++ braced s b.body s.deeper inside
      else
        match inside.statements s with
        | [] => ";"
        | statement :: _ => " " ++ statement

mutual

def render (s : Setting) (place : Place) : Node → Fragment
  | .literal l => place.close (literal l)
  | .variable ⟨name, chain, scope, _⟩ =>
    let base := s.varName name scope
    place.close <| match place with
      | .parameter => base
      | .target => base ++ .concat ((renderChain s chain).map fun key => "[" ++ key ++ "]")
      | _ =>
        if chain.isEmpty then base
        else .callUserFunc (s.style.helper .dot :: base :: renderChain s chain)
  | .binary op left right _ =>
    place.close (render s .value left ++ (" " ++ op ++ " ") ++ render s .value right)
  | .ternary condition whenTrue whenFalse _ =>
    place.close (render s .value condition ++ " ? " ++ branch whenTrue (render s .value whenTrue) ++
      " : " ++ branch whenFalse (render s .value whenFalse))
  | .assign op target value _ =>
    let written := if place = .parameter then "=" else op
    place.close (render s .target target ++ (" " ++ written ++ " ") ++ render s .value value)
  | .call callee arguments _ =>
    let arguments := renderNodes s .value arguments
    place.close <|
      if s.isHostCall callee then
        calleeName callee ++ Fragment.parenthesized (.join ", " arguments)
      else
        .callUserFunc (render s .value callee :: arguments)
  | .group ⟨items, separator, _⟩ =>
    place.close (.parenthesized (.join separator.text (renderNodes s .value items)))
  | .list items _ => place.close ("[" ++ .join ", " (renderItems s 0 items) ++ "]")
  | .record entries _ => place.close ("[" ++ .join ", " (renderEntries s entries) ++ "]")
  | .unary op operand fixity _ =>
    place.close <|
      if op = "typeof" then
        .callUserFunc [s.style.helper .typeof, render s .value operand]
      else if op = "void" then
        "(" ++ render s .value operand ++ " ? null : null)"
      else if op = "delete" then
        "unset(" ++ render s .target operand ++ ")"
      else
        match fixity with
        | .trailing => render s .target operand ++ op
        | .leading =>
          if isStepOperator op then
            op ++ render s .target operand
          else
            let operand := render s .value operand
            (op ++ if gluesTo op operand.text then " " else "") ++ operand
  | .block ⟨kind, header, body, scope, name, delimited, span⟩ =>
    renderBlock s place ⟨kind, header, body, scope, name, delimited, span⟩
      { header := fun s => renderHeader s header
        parameters := fun s => renderParameters s header
        statements := fun s => renderNodes s .statement body }

def renderHeader (s : Setting) : Option Node → Option Fragment
  | none => none
  | some header => some (render s .value header)

def renderParameters (s : Setting) : Option Node → List Fragment
  | some (.group ⟨items, _, _⟩) => renderNodes s .parameter items
  | _ => []

def renderNodes (s : Setting) (place : Place) : List Node → List Fragment
  | [] => []
  | node :: nodes => render s place node :: renderNodes s place nodes

def renderChain (s : Setting) : List Access → List Fragment
  | [] => []
  | .property key :: chain => .plain (literal key) :: renderChain s chain
  | .index value :: chain => render s .value value :: renderChain s chain

def renderItems (s : Setting) (i : Nat) : List Node → List Fragment
  | [] => []
  | node :: nodes => ((toString i ++ " => ") ++ render s .value node) :: renderItems s (i + 1) nodes

def renderEntries (s : Setting) : List (Literal × Node) → List Fragment
  | [] => []
  | (key, value) :: entries =>
    ((literal key ++ " => ") ++ render s .value value) :: renderEntries s entries

end

end ScriptToPhp.Php
