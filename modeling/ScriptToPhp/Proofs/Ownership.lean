import Mathlib.Data.List.Nodup
import ScriptToPhp.Proofs.Reaches
import ScriptToPhp.Proofs.ReadingSound
import ScriptToPhp.Tree.Walk

/-!
# Owners of scopes

A phrase makes one block for each scope that is opened in it, so no two blocks of a script own the
same scope.
-/

namespace ScriptToPhp

def owned (visits : List Visit) : List ScopeId := (visits.filterMap Visit.asBlock?).map (·.scope)

@[simp, grind =] theorem owned_nil : owned [] = [] := rfl

@[simp, grind =] theorem owned_append :
    owned (visits ++ visits') = owned visits ++ owned visits' := by simp [owned]

@[simp, grind =] theorem owned_node : owned (.node :: visits) = owned visits := rfl

@[simp, grind =] theorem owned_literal : owned (.literal l :: visits) = owned visits := rfl

@[simp, grind =] theorem owned_variable : owned (.variable v :: visits) = owned visits := rfl

@[simp, grind =] theorem owned_block : owned (.block b :: visits) = b.scope :: owned visits := rfl

@[simp, grind =] theorem walkNodes_append :
    walkNodes (nodes ++ nodes') = walkNodes nodes ++ walkNodes nodes' := by
  induction nodes with
  | nil => simp [walkNodes]
  | cons node nodes ih => simp [walkNodes, ih]

theorem Block.walk_eq (b : Block) :
    b.walk = .block b :: walkHeader b.header ++ walkNodes b.body := by
  cases b
  simp [Block.walk]

theorem Group.walk_eq (g : Group) : g.walk = walkNodes g.items := by
  cases g
  simp [Group.walk]

theorem Block.mem_blocks {b b' : Block} : b' ∈ b.blocks ↔ .block b' ∈ b.walk := by
  simp only [blocks, List.mem_filterMap]
  constructor
  · rintro ⟨visit, hvisit, heq⟩
    cases visit <;> cases heq
    exact hvisit
  · exact fun h => ⟨_, h, rfl⟩

@[grind =] theorem owned_declared :
    owned (walkNodes (node.declared blockLocal)) = owned (Node.walk node) := by
  unfold Node.declared
  split
  next v =>
    obtain ⟨name, chain, scope, span⟩ := v
    split
    next hbare =>
      simp only [Variable.isBare, List.isEmpty_iff] at hbare
      subst hbare
      split <;> simp [walkNodes, Node.mkAssign, Node.walk, Variable.walk, walkChain]
    next => simp [walkNodes]
  next => simp [walkNodes]

def Phrase.walk : Phrase → List Visit
  | .script nodes | .statement nodes | .declarations _ nodes | .body nodes _ | .elseBranches _ nodes
  | .braces nodes _ | .items _ nodes _ _ | .listItems _ nodes _ => walkNodes nodes
  | .block _ b => b.walk
  | .header _ found | .loopCondition found => walkHeader found
  | .function _ node | .lambda _ _ node | .value node | .operand node | .calls _ node
  | .continuation _ node => node.walk
  | .accesses _ chain _ => walkChain chain
  | .recordEntries _ entries _ => walkEntries entries

def Phrase.given : Phrase → List Visit
  | .elseBranches nodes _ => walkNodes nodes
  | .lambda _ parameters _ => parameters.walk
  | .calls front _ | .continuation front _ => front.walk
  | _ => []

def Cursor.opened (c c' : Cursor) (s : ScopeId) : Nat :=
  if c.scopes.size ≤ s ∧ s < c'.scopes.size then 1 else 0

namespace Cursor

@[simp, grind =] theorem size_enter :
    (enter c enclosing).scopes.size = c.scopes.size + 1 := by simp [enter]

@[simp, grind =] theorem size_introduce :
    (introduce c blockLocal enclosing name).scopes.size = c.scopes.size := by
  cases blockLocal <;> cases enclosing <;> simp [introduce, declare]

@[simp, grind =] theorem size_declare : (declare c enclosing name).scopes.size = c.scopes.size := by
  cases enclosing <;> simp [declare]

@[simp, grind =] theorem size_before? : (before? c found).scopes.size = c.scopes.size := by
  cases found <;> rfl

def tally (c : Cursor) (s : ScopeId) : Nat := if s < c.scopes.size then 1 else 0

@[simp] theorem tally_before : (before c t).tally s = c.tally s := rfl

@[simp] theorem tally_before? : (before? c found).tally s = c.tally s := by simp [tally]

@[simp] theorem tally_skipSemicolon : (skipSemicolon c).tally s = c.tally s := rfl

@[simp] theorem tally_declare : (declare c enclosing name).tally s = c.tally s := by simp [tally]

@[simp] theorem tally_introduce :
    (introduce c blockLocal enclosing name).tally s = c.tally s := by simp [tally]

@[simp] theorem tally_enter :
    (enter c enclosing).tally s = c.tally s + if c.scopes.size == s then 1 else 0 := by
  simp only [tally, size_enter, beq_iff_eq]
  grind

end Cursor

@[grind →] theorem Derives.size_le (h : Derives enclosing phrase c c') :
    c.scopes.size ≤ c'.scopes.size :=
  h.reaches.size

section

attribute [local simp] Phrase.walk Phrase.given walkNodes walkHeader walkChain walkEntries Node.walk
  Variable.walk
  Block.walk_eq Group.walk_eq Node.mkBinary Node.mkAssign Node.mkTernary Node.mkCall Node.mkUnary
    owned_declared
  List.count_cons

/-- What a phrase owns makes up the difference between the places at its ends. -/
theorem Derives.count_owned_add (h : Derives enclosing phrase c c') (s : ScopeId) :
    (owned phrase.walk).count s + c.tally s = (owned phrase.given).count s + c'.tally s := by
  -- The end of one part of a rule is the start of the next, so that the sums of the parts add up.
  -- Where the rule itself opens a scope, the block that it makes owns it.
  induction h with
  | _ => simp at * <;> omega

end

/-- A phrase makes blocks for the scopes that are opened in it, one for each. -/
theorem Derives.count_owned (h : Derives enclosing phrase c c') (s : ScopeId) :
    (owned phrase.walk).count s = (owned phrase.given).count s + c.opened c' s := by
  have hsum := h.count_owned_add s
  have hsize := h.size_le
  unfold Cursor.tally at hsum
  unfold Cursor.opened
  grind

/-- Each scope of a script is owned by one of its blocks. -/
theorem Script.count_owned {script : Script} (h : parse options source = .ok script) (s : ScopeId) :
    (script.root.blocks.map (·.scope)).count s = if s < script.scopes.size then 1 else 0 := by
  obtain ⟨statements, c, hderives, hscopes, hroot⟩ := derives_of_parse h
  have howned : script.root.blocks.map (·.scope) = 0 :: owned (walkNodes statements) := by
    have hwalk : script.root.walk = .block script.root :: walkNodes statements := by
      simp [hroot, Block.walk_eq, Block.ofKind, walkHeader]
    have hscope : script.root.scope = 0 := by simp [hroot, Block.ofKind]
    rw [← hscope, ← owned_block, ← hwalk]
    rfl
  have hcount := hderives.count_owned s
  have hstart : (start options source).scopes.size = 1 := rfl
  have hsize := hderives.size_le
  simp only [Phrase.walk, Phrase.given, Cursor.opened, hstart, owned_nil, List.count_nil] at hcount
  rw [howned, List.count_cons, hcount, hscopes]
  grind

theorem Script.nodup_owned {script : Script} (h : parse options source = .ok script) :
    (script.root.blocks.map (·.scope)).Nodup := by
  rw [List.nodup_iff_count_le_one]
  intro s
  rw [count_owned h]
  split <;> omega

end ScriptToPhp
