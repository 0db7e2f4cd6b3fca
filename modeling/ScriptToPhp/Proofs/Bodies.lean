import ScriptToPhp.Proofs.Ownership

/-!
# The bodies of blocks

The body of a block is a phrase of its own, statements in braces or one statement and its branches,
or it is a single return or empty. What holds of all of these holds of every block of a script.
-/

namespace ScriptToPhp

def Bodies (P : List Node → Prop) (visits : List Visit) : Prop := ∀ b, .block b ∈ visits → P b.body

/-- The property holds of short bodies, and of the statements that are derived somewhere behind a
place. -/
structure HoldsOfBodies (P : List Node → Prop) (origin : Cursor) : Prop where
  nil : P []
  single (node : Node) : P [node]
  body {enclosing : List ScopeId} {nodes : List Node} {closing : Option Span} {c c' : Cursor} :
    Derives enclosing (.body nodes closing) c c' → origin.Reaches c → P nodes
  braces {enclosing : List ScopeId} {nodes : List Node} {closing : Span} {c c' : Cursor} :
    Derives enclosing (.braces nodes closing) c c' → origin.Reaches c → P nodes

section

variable {P : List Node → Prop}

@[local grind .] theorem bodies_nil : Bodies P [] := fun _ hb => by cases hb

@[local grind =] theorem bodies_append :
    Bodies P (visits ++ visits') ↔ Bodies P visits ∧ Bodies P visits' := by
  simp [Bodies, or_imp, forall_and]

@[local grind =] theorem bodies_node : Bodies P (.node :: visits) ↔ Bodies P visits := by
  simp [Bodies]

@[local grind =] theorem bodies_literal : Bodies P (.literal l :: visits) ↔ Bodies P visits := by
  simp [Bodies]

@[local grind =] theorem bodies_variable : Bodies P (.variable v :: visits) ↔ Bodies P visits := by
  simp [Bodies]

@[local grind =] theorem bodies_block :
    Bodies P (.block b :: visits) ↔ P b.body ∧ Bodies P visits := by
  simp [Bodies]

attribute [local grind =] walkNodes walkHeader walkChain walkEntries Node.walk Variable.walk
  Block.walk_eq
  Group.walk_eq
attribute [local grind =] Node.mkBinary Node.mkAssign Node.mkTernary Node.mkCall Node.mkUnary
attribute [local grind =] Phrase.walk Phrase.given

attribute [local grind →] Derives.reaches

@[local grind =] theorem bodies_declared :
    Bodies P (walkNodes (node.declared blockLocal)) ↔ Bodies P (Node.walk node) := by
  unfold Node.declared
  split
  next v =>
    obtain ⟨name, chain, scope, span⟩ := v
    split
    next hbare =>
      simp only [Variable.isBare, List.isEmpty_iff] at hbare
      subst hbare
      split <;> grind
    next => grind
  next => grind

@[local grind =] theorem bodies_closure :
    Bodies P (((Block.closure owner front label parameters).withBody nodes closing).walk) ↔
      P nodes ∧ Bodies P parameters.walk ∧ Bodies P (walkNodes nodes) := by
  rw [Block.walk_eq, List.cons_append, bodies_block, bodies_append]
  simp [walkHeader, Node.walk, bodies_node]

@[local grind =] theorem bodies_returning :
    Bodies P (((Block.closure owner front label parameters).push
      (.block (.returning later arrow node))).walk) ↔
      P [.block (.returning later arrow node)] ∧ P [] ∧ Bodies P parameters.walk ∧
      Bodies P node.walk := by
  rw [Block.walk_eq, List.cons_append, bodies_block, bodies_append]
  simp [walkHeader, walkNodes, Node.walk, Block.walk_eq, bodies_node, bodies_block]
  grind

@[local grind =] theorem bodies_parameter :
    Bodies P (Group.walk ⟨[.variable ⟨name, chain, scope, span⟩], separator, whole⟩) ↔
    Bodies P (walkChain chain) := by
  simp [Group.walk, walkNodes, Node.walk, Variable.walk, bodies_node, bodies_variable]

attribute [local grind →] HoldsOfBodies.nil HoldsOfBodies.body HoldsOfBodies.braces

theorem Derives.bodies {origin : Cursor} (h : Derives enclosing phrase c c')
    (hP : HoldsOfBodies P origin) (hin : origin.Reaches c) (hgiven : Bodies P phrase.given) :
    Bodies P phrase.walk := by
  induction h with
  | @lambdaValue _ node arrow _ _ c₁ =>
    have hreturn := hP.single (.block (.returning c₁.scopes.size arrow node))
    grind
  | _ => grind

/-- What holds of all bodies and of the script as a whole holds of every block. -/
theorem Script.bodies {script : Script} (h : parse options source = .ok script)
    (hP : HoldsOfBodies P (start options source))
    (hscript : ∀ enclosing statements c,
      Derives enclosing (.script statements) (start options source) c → P statements)
    (hb : b ∈ script.root.blocks) : P b.body := by
  obtain ⟨statements, c, hderives, -, hroot⟩ := derives_of_parse h
  have hblocks : Bodies P script.root.walk := by
    rw [hroot, Block.walk_eq, List.cons_append, bodies_block, bodies_append]
    simp only [Block.append_body, Block.append_header]
    exact ⟨hscript _ _ _ hderives, bodies_nil, hderives.bodies hP (.refl _) bodies_nil⟩
  exact hblocks b (Block.mem_blocks.1 hb)

end

end ScriptToPhp
