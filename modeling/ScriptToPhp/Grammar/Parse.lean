import ScriptToPhp.Grammar.Event
import ScriptToPhp.Tree.Basic
import ScriptToPhp.Token.Scanner

/-!
# Reading tokens

The steps from which the grammar is built. A step looks at the front of the tokens that are left,
and either goes on or halts with a fault. Behind the last token stands either the end of the text or
the fault that ended its scan.
-/

namespace ScriptToPhp

inductive Halt
  | fault (f : Fault)
  /-- The bound on nesting and repetition was too small. -/
  | exhausted
deriving DecidableEq, Repr

structure ParseState where
  /-- The meaningful tokens not consumed. -/
  rest : List Token
  /-- The fault behind the last token. Without one the text ends there. -/
  fault : Option Fault
  size : Nat
  last : Option Token
  scopes : ScopeTable
  /-- Whether the first token of `rest` has been noted. -/
  noted : Bool
  /-- What was noted, newest first. -/
  events : List ParseEvent
deriving DecidableEq, Repr

namespace ParseState

def noteToken (s : ParseState) (t : Token) : ParseState :=
  if s.noted then s else { s with noted := true, events := .token t :: s.events }

def lastSpan (s : ParseState) : Span := (s.last.map (·.span)).getD (.empty 0)

def lastText (s : ParseState) : String := (s.last.map (·.text)).getD ""

def endSpan (s : ParseState) : Span := .empty s.size

end ParseState

abbrev Parse := EStateM Halt ParseState

namespace Parse

def fail {α : Type} (message : Message) (arguments : List String) (span : Span) : Parse α :=
  throw (.fault ⟨message, arguments, span⟩)

def exhausted {α : Type} : Parse α := throw .exhausted

/-! ### Tokens -/

def peek : Parse (Option Token) := fun s =>
  match s.rest with
  | t :: _ => .ok (some t) (s.noteToken t)
  | [] =>
    match s.fault with
    | some f => .error (.fault f) s
    | none => .ok none s

def next : Parse (Option Token) := fun s =>
  match s.rest with
  | t :: ts => .ok (some t) { s.noteToken t with rest := ts, last := some t, noted := false }
  | [] =>
    match s.fault with
    | some f => .error (.fault f) s
    | none => .ok none s

def skip : Parse Unit := do
  let _ ← next

def nextIs (p : Token → Bool) : Parse Bool := return (← peek).any p

def nextIsMark (c : Char) : Parse Bool := nextIs (·.isMark c)

def lastSpan : Parse Span := return (← get).lastSpan

def endSpan : Parse Span := return (← get).endSpan

def note (event : ParseEvent) : Parse Unit :=
  modify fun s => { s with events := event :: s.events }

/-! ### Refusals -/

def unexpected {α : Type} (t : Token) : Parse α := fail .unexpected [t.describe] t.span

def unexpectedEnd {α : Type} (expected : String) : Parse α := do
  fail .unexpectedEnd [expected] (← endSpan)

def refuseNext {α : Type} (expected : String) : Parse α := do
  match ← next with
  | some t => unexpected t
  | none => unexpectedEnd expected

def valueExpected {α : Type} : Parse α := do
  fail .valueExpected [s!"'{(← get).lastText}'"] (← endSpan)

def quoteMark (c : Char) : String := "'" ++ c.toString ++ "'"

def expectMark (c : Char) : Parse Token := do
  match ← next with
  | some t =>
    if t.isMark c then return t
    else fail .unexpectedInstead [t.describe, quoteMark c] t.span
  | none => unexpectedEnd (quoteMark c)

def expectClosing (c : Char) (unclosed : Message) (opening : Span) : Parse Token := do
  match ← next with
  | some t => if t.isMark c then return t else unexpected t
  | none => fail unclosed [] opening

def skipSemicolon : Parse Unit := do
  if ← nextIsMark ';' then skip

/-! ### Scopes

`enclosing` lists the scopes of the blocks around the current place, from the inside out. -/

def openScope (enclosing : List ScopeId) : Parse ScopeId := fun s =>
  let (id, scopes) := s.scopes.extend enclosing.head?
  .ok id { s with scopes }

def resolve (enclosing : List ScopeId) (name : String) : Parse (Option ScopeId) :=
  return (← get).scopes.resolve enclosing name

def declare (enclosing : List ScopeId) (name : String) : Parse Unit :=
  match enclosing with
  | [] => pure ()
  | scope :: _ => modify fun s => { s with scopes := s.scopes.declare scope name }

/-- Declare the variable that comes next, leaving it in place. -/
def declareNext (enclosing : List ScopeId) : Parse Unit := do
  match ← peek with
  | some t =>
    if t.kind == .variable then declare enclosing t.text else refuseNext "variable"
  | none => refuseNext "variable"

end Parse

end ScriptToPhp
