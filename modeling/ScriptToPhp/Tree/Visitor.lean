import ScriptToPhp.Tree.Basic

/-!
# Visitors

A visitor has a method for each kind of place in a tree. The method is handed the walk over what
lies below the place: it runs it to go on from there, before or after its own work, and leaves it
out to stop.
-/

namespace ScriptToPhp

/-- What is done at the places of a tree. A method that is not given goes on at once. -/
structure Visitor (m : Type → Type) [Monad m] where
  atNode : Node → m Unit → m Unit := fun _ walk => walk
  atVariable : Variable → m Unit → m Unit := fun _ walk => walk
  atBlock : Block → m Unit → m Unit := fun _ walk => walk
  atLiteral : Literal → m Unit := fun _ => pure ()

namespace Visitor

variable {m : Type → Type} [Monad m] (visitor : Visitor m)

mutual

def walkNode : Node → m Unit
  | .literal l => visitor.atLiteral l
  | .variable v => visitor.atVariable v (walkVariable v)
  | .binary _ left right _ => do
    visitor.atNode left (walkNode left)
    visitor.atNode right (walkNode right)
  | .ternary condition whenTrue whenFalse _ => do
    visitor.atNode condition (walkNode condition)
    visitor.atNode whenTrue (walkNode whenTrue)
    visitor.atNode whenFalse (walkNode whenFalse)
  | .assign _ target value _ => do
    visitor.atNode target (walkNode target)
    visitor.atNode value (walkNode value)
  | .call callee arguments _ => do
    visitor.atNode callee (walkNode callee)
    visitEach arguments
  | .group ⟨items, _, _⟩ => visitEach items
  | .list items _ => visitEach items
  | .record entries _ => visitEntries entries
  | .unary _ operand _ _ => visitor.atNode operand (walkNode operand)
  | .block b => visitor.atBlock b (walkBlock b)

def walkVariable : Variable → m Unit
  | ⟨_, chain, _, _⟩ => visitAccesses chain

def walkBlock : Block → m Unit
  | ⟨_, none, body, _, _, _, _⟩ => visitEach body
  | ⟨_, some header, body, _, _, _, _⟩ => do
    visitor.atNode header (walkNode header)
    visitEach body

def visitEach : List Node → m Unit
  | [] => pure ()
  | node :: nodes => do
    visitor.atNode node (walkNode node)
    visitEach nodes

def visitAccesses : List Access → m Unit
  | [] => pure ()
  | .property key :: chain => do
    visitor.atLiteral key
    visitAccesses chain
  | .index value :: chain => do
    visitor.atNode value (walkNode value)
    visitAccesses chain

def visitEntries : List (Literal × Node) → m Unit
  | [] => pure ()
  | (key, value) :: entries => do
    visitor.atLiteral key
    visitor.atNode value (walkNode value)
    visitEntries entries

end

def visitNode (node : Node) : m Unit := visitor.atNode node (visitor.walkNode node)

def visitVariable (v : Variable) : m Unit := visitor.atVariable v (visitor.walkVariable v)

def visitBlock (b : Block) : m Unit := visitor.atBlock b (visitor.walkBlock b)

end Visitor

end ScriptToPhp
