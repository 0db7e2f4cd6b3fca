import ScriptToPhp.Tree.Basic

/-!
# Walks over a tree

`Node.walk` lists every visit of a walk in source order. What a reader of the tree wants (all
blocks, all literals, counts) is a selection of those visits. `Node.variables` finds the variables
on its own, without visiting keys.
-/

namespace ScriptToPhp

inductive Visit
  | node
  | literal (l : Literal)
  | variable (v : Variable)
  | block (b : Block)

namespace Visit

def asLiteral? : Visit → Option Literal
  | .literal l => some l
  | _ => none

def asVariable? : Visit → Option Variable
  | .variable v => some v
  | _ => none

def asBlock? : Visit → Option Block
  | .block b => some b
  | _ => none

def isNode : Visit → Bool
  | .node => true
  | _ => false

end Visit

mutual

/-- The visits below a node, a variable before its chain, a header before its body. -/
def Node.walk : Node → List Visit
  | .literal l => [.node, .literal l]
  | .variable v => .node :: v.walk
  | .binary _ left right _ => .node :: left.walk ++ right.walk
  | .ternary condition whenTrue whenFalse _ =>
    .node :: condition.walk ++ whenTrue.walk ++ whenFalse.walk
  | .assign _ target value _ => .node :: target.walk ++ value.walk
  | .call callee arguments _ => .node :: callee.walk ++ walkNodes arguments
  | .group g => .node :: g.walk
  | .list items _ => .node :: walkNodes items
  | .record entries _ => .node :: walkEntries entries
  | .unary _ operand _ _ => .node :: operand.walk
  | .block b => .node :: b.walk

def Variable.walk : Variable → List Visit
  | ⟨name, chain, scope, span⟩ => .variable ⟨name, chain, scope, span⟩ :: walkChain chain

def Group.walk : Group → List Visit
  | ⟨items, _, _⟩ => walkNodes items

def Block.walk : Block → List Visit
  | ⟨kind, header, body, scope, name, delimited, span⟩ =>
    .block ⟨kind, header, body, scope, name, delimited, span⟩ :: walkHeader header ++ walkNodes body

def walkHeader : Option Node → List Visit
  | none => []
  | some header => header.walk

def walkNodes : List Node → List Visit
  | [] => []
  | node :: nodes => node.walk ++ walkNodes nodes

def walkChain : List Access → List Visit
  | [] => []
  | .property key :: chain => .literal key :: walkChain chain
  | .index value :: chain => value.walk ++ walkChain chain

def walkEntries : List (Literal × Node) → List Visit
  | [] => []
  | (key, value) :: entries => .literal key :: value.walk ++ walkEntries entries

end

mutual

def Node.variables : Node → List Variable
  | .literal _ => []
  | .variable ⟨name, chain, scope, span⟩ => ⟨name, chain, scope, span⟩ :: variablesOfChain chain
  | .binary _ left right _ => left.variables ++ right.variables
  | .ternary condition whenTrue whenFalse _ =>
    condition.variables ++ whenTrue.variables ++ whenFalse.variables
  | .assign _ target value _ => target.variables ++ value.variables
  | .call callee arguments _ => callee.variables ++ variablesOfNodes arguments
  | .group ⟨items, _, _⟩ => variablesOfNodes items
  | .list items _ => variablesOfNodes items
  | .record entries _ => variablesOfEntries entries
  | .unary _ operand _ _ => operand.variables
  | .block ⟨_, header, body, _, _, _, _⟩ =>
    (match header with
      | none => []
      | some header => header.variables) ++ variablesOfNodes body

def variablesOfNodes : List Node → List Variable
  | [] => []
  | node :: nodes => node.variables ++ variablesOfNodes nodes

def variablesOfChain : List Access → List Variable
  | [] => []
  | .property _ :: chain => variablesOfChain chain
  | .index value :: chain => value.variables ++ variablesOfChain chain

def variablesOfEntries : List (Literal × Node) → List Variable
  | [] => []
  | (_, value) :: entries => value.variables ++ variablesOfEntries entries

end

/-- The blocks of a tree, the outer before the inner. -/
def Node.blocks (node : Node) : List Block := node.walk.filterMap Visit.asBlock?

def Block.blocks (b : Block) : List Block := b.walk.filterMap Visit.asBlock?

end ScriptToPhp
