import ScriptToPhp.Tree.Walk

/-!
# Captured variables

A PHP closure sees nothing of what is around it but what its `use` list names. A function captures
each variable it mentions, unless it is `this`, is declared in a block inside the function, or is a
parameter of the function or of one inside it around the mention. The name of a plain call to a host
function is no variable.
-/

namespace ScriptToPhp.Php

abbrev Capture := String × Option ScopeId

/-- The name that a parameter binds, with or without a default value. -/
def parameterName? : Node → Option Capture
  | .variable v => if v.isBare then some (v.name, v.scope) else none
  | .assign _ (.variable v) _ _ => if v.isBare then some (v.name, v.scope) else none
  | _ => none

def parameterNames (function : Block) : List String :=
  function.parameters.filterMap fun p => (parameterName? p).map (·.1)

structure CaptureContext where
  /-- The scopes of the blocks of the function. -/
  inner : List ScopeId
  /-- The names that call a closure. -/
  callable : List String
  /-- The parameters of the functions around the mention. -/
  parameters : List String

def CaptureContext.binds (context : CaptureContext) (name : String)
    (scope : Option ScopeId) : Bool :=
  name == "this" || scope.any context.inner.contains || context.parameters.contains name

def CaptureContext.within (context : CaptureContext) (parameters : List Node) : CaptureContext :=
  { context with
    parameters :=
      (parameters.filterMap fun p => (parameterName? p).map (·.1)) ++ context.parameters }

def CaptureContext.isHostCall (context : CaptureContext) : Node → Bool
  | .variable v => v.isBare && v.scope.isNone && !context.callable.contains v.name
  | _ => false

mutual

/-- The mentions below a node that need a capture, in source order. -/
def mentions (context : CaptureContext) : Node → List Capture
  | .literal _ => []
  | .variable ⟨name, chain, scope, _⟩ =>
    (if context.binds name scope then [] else [(name, scope)]) ++ mentionsOfChain context chain
  | .binary _ left right _ => mentions context left ++ mentions context right
  | .ternary condition whenTrue whenFalse _ =>
    mentions context condition ++ mentions context whenTrue ++ mentions context whenFalse
  | .assign _ target value _ => mentions context target ++ mentions context value
  | .call callee arguments _ =>
    (if context.isHostCall callee then [] else mentions context callee) ++
      mentionsOfNodes context arguments
  | .group ⟨items, _, _⟩ => mentionsOfNodes context items
  | .list items _ => mentionsOfNodes context items
  | .record entries _ => mentionsOfEntries context entries
  | .unary _ operand _ _ => mentions context operand
  | .block ⟨.function, header, body, _, _, _, _⟩ =>
    match header with
    | some (.group ⟨parameters, _, _⟩) =>
      mentionsOfDefaults (context.within parameters) parameters ++
        mentionsOfNodes (context.within parameters) body
    | _ => mentionsOfNodes context body
  | .block ⟨_, header, body, _, _, _, _⟩ =>
    (match header with
      | some header => mentions context header
      | none => []) ++ mentionsOfNodes context body

def mentionsOfNodes (context : CaptureContext) : List Node → List Capture
  | [] => []
  | node :: nodes => mentions context node ++ mentionsOfNodes context nodes

def mentionsOfChain (context : CaptureContext) : List Access → List Capture
  | [] => []
  | .property _ :: chain => mentionsOfChain context chain
  | .index value :: chain => mentions context value ++ mentionsOfChain context chain

def mentionsOfEntries (context : CaptureContext) : List (Literal × Node) → List Capture
  | [] => []
  | (_, value) :: entries => mentions context value ++ mentionsOfEntries context entries

def mentionsOfDefaults (context : CaptureContext) : List Node → List Capture
  | [] => []
  | .assign _ _ value _ :: parameters =>
    mentions context value ++ mentionsOfDefaults context parameters
  | _ :: parameters => mentionsOfDefaults context parameters

end

def firstUses : List Capture → List Capture
  | [] => []
  | c :: cs => c :: (firstUses cs).filter (· != c)

/-- The variables that a function captures, in the order of their first mention. -/
def captures (callable : List String) (function : Block) : List Capture :=
  let context : CaptureContext := ⟨function.blocks.map (·.scope), callable, []⟩
  firstUses (mentions context (.block function))

end ScriptToPhp.Php
