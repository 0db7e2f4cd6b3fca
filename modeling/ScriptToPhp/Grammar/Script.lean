import ScriptToPhp.Grammar.Statement
import ScriptToPhp.Options
import ScriptToPhp.Token.Stream

/-!
# Scripts

A script is read by the grammar with a bound larger than the number of its tokens. Every nested or
repeated step consumes a token, so the bound is never reached.
-/

namespace ScriptToPhp

/-- The productions for nesting below `bound`. -/
def Grammar.upTo : Nat → Grammar
  | 0 => ⟨fun _ => Parse.exhausted, fun _ _ => Parse.exhausted, fun _ _ => Parse.exhausted⟩
  | bound + 1 =>
    let g := upTo bound
    { statement := fun enclosing => g.statementOf enclosing (bound + 1)
      value := fun enclosing t => g.valueOf enclosing (bound + 1) t
      operand := fun enclosing t => g.operandOf enclosing (bound + 1) t }

def Grammar.statements (g : Grammar) (enclosing : List ScopeId) : Nat → Parse (List Node)
  | 0 => Parse.exhausted
  | bound + 1 => do
    match ← Parse.peek with
    | none => return []
    | some t =>
      if t.isMark '\x7d' then
        Parse.refuseNext "statement"
      else
        let first ← g.statement enclosing
        return first ++ (← g.statements enclosing bound)

structure Script where
  file : String
  root : Block
  scopes : ScopeTable

/-- The outcome of reading a script, and what was noted on the way, oldest first. -/
structure Reading where
  outcome : Except Halt Script
  events : List ParseEvent

def Reading.result (reading : Reading) (source : Source) : Except Diagnostic Script :=
  match reading.outcome with
  | .ok script => .ok script
  | .error (.fault fault) => .error (fault.locate source)
  | .error .exhausted =>
    .error ((⟨.unexpectedEnd, ["statement"], source.endSpan⟩ : Fault).locate source)

namespace Script

def root? (file : String) (size bound : Nat) : Parse Script := do
  let scope ← Parse.openScope []
  let statements ← (Grammar.upTo bound).statements [scope] bound
  let root := Block.ofKind .main scope ⟨0, size⟩ |>.append statements
  let scopes := (← get).scopes
  Parse.note (.script file root.body.length scopes.size)
  return ⟨file, root, scopes⟩

/-- Read the meaningful tokens of a text of the given length, up to the fault behind them. -/
def ofTokens (file : String) (size : Nat) (tokens : List Token) (fault : Option Fault) : Reading :=
  let start : ParseState := ⟨tokens, fault, size, none, .empty, false, []⟩
  match (root? file size (tokens.length + 1)).run start with
  | .ok script s => ⟨.ok script, s.events.reverse⟩
  | .error halt s => ⟨.error halt, s.events.reverse⟩

def read (options : Options) (source : Source) : Reading :=
  let scan := source.scan options.reserved
  ofTokens source.file source.size (Token.meaningful scan.tokens) scan.fault

def parse (options : Options) (source : Source) : Except Diagnostic Script :=
  (read options source).result source

end Script

end ScriptToPhp
