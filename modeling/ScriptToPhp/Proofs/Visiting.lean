import ScriptToPhp.Tree.Visitor
import ScriptToPhp.Tree.Walk

/-!
# What a visitor meets

A visitor that notes something at each place and goes on ends up with what it notes of the walk of
the tree, visit by visit. The variables of a tree, which are collected without a visitor, are those
of its walk. So a visitor that notes the variables it is called on collects the same ones, in the
same order and each as often.
-/

namespace ScriptToPhp

-- ---------------------------------------------------------------------------
-- Visitors that note what they meet
-- ---------------------------------------------------------------------------

section

variable {σ α : Type}

/-- Whatever the state, the action adds to the record what is picked of these visits, in their
order. -/
def Notes (pick : Visit → Option α) (record : σ → List α) (action : StateM σ Unit)
    (visits : List Visit) : Prop :=
  ∀ s, record (action.run s).2 = record s ++ visits.filterMap pick

/-- Each method notes its visit and goes on. What else it does leaves the record as it is. -/
structure Visitor.Records (visitor : Visitor (StateM σ)) (pick : Visit → Option α)
    (record : σ → List α) : Prop where
  atNode (node : Node) {walk : StateM σ Unit} {visits : List Visit}
    (h : Notes pick record walk visits) :
    Notes pick record (visitor.atNode node walk) (.node :: visits)
  atVariable (v : Variable) {walk : StateM σ Unit} {visits : List Visit}
    (h : Notes pick record walk visits) :
    Notes pick record (visitor.atVariable v walk) (.variable v :: visits)
  atBlock (b : Block) {walk : StateM σ Unit} {visits : List Visit}
    (h : Notes pick record walk visits) :
    Notes pick record (visitor.atBlock b walk) (.block b :: visits)
  atLiteral (l : Literal) : Notes pick record (visitor.atLiteral l) [.literal l]

variable {pick : Visit → Option α} {record : σ → List α}

theorem Notes.pure : Notes pick record (pure ()) [] := fun _ => (List.append_nil _).symm

theorem Notes.bind {first second : StateM σ Unit} {visits later : List Visit}
    (h : Notes pick record first visits) (h' : Notes pick record second later) :
    Notes pick record (do first; second) (visits ++ later) := by
  intro s
  calc record (second.run (first.run s).2).2
      _ = record (first.run s).2 ++ later.filterMap pick := h' _
      _ = record s ++ (visits ++ later).filterMap pick := by
        rw [h s, List.filterMap_append, List.append_assoc]

theorem Notes.cons {visit : Visit} {note : σ → σ} {walk : StateM σ Unit} {visits : List Visit}
    (hnote : ∀ s, record (note s) = record s ++ (pick visit).toList)
    (h : Notes pick record walk visits) :
    Notes pick record (do modify note; walk) (visit :: visits) := by
  intro s
  calc record (walk.run (note s)).2
      _ = record (note s) ++ visits.filterMap pick := h _
      _ = record s ++ (visit :: visits).filterMap pick := by
        rw [hnote]
        cases hpick : pick visit <;> simp [hpick]

namespace Visitor.Records

variable {visitor : Visitor (StateM σ)}

mutual

/-- What a visit of a node adds is picked of the walk below the node. -/
theorem visitNode (h : visitor.Records pick record) :
    ∀ node : Node, Notes pick record (visitor.visitNode node) node.walk
  | .literal l => h.atNode _ (h.atLiteral l)
  | .variable v => h.atNode _ (h.visitVariable v)
  | .binary _ left right _ => h.atNode _ ((h.visitNode left).bind (h.visitNode right))
  | .ternary condition whenTrue whenFalse _ => by
    -- The walk is grouped to the left, the run to the right.
    have hbranches := (h.visitNode whenTrue).bind (h.visitNode whenFalse)
    have hparts := (h.visitNode condition).bind hbranches
    rw [← List.append_assoc] at hparts
    exact h.atNode _ hparts
  | .assign _ target value _ => h.atNode _ ((h.visitNode target).bind (h.visitNode value))
  | .call callee arguments _ => h.atNode _ ((h.visitNode callee).bind (h.visitEach arguments))
  | .group ⟨items, _, _⟩ => h.atNode _ (h.visitEach items)
  | .list items _ => h.atNode _ (h.visitEach items)
  | .record entries _ => h.atNode _ (h.visitEntries entries)
  | .unary _ operand _ _ => h.atNode _ (h.visitNode operand)
  | .block b => h.atNode _ (h.visitBlock b)

theorem visitVariable (h : visitor.Records pick record) :
    ∀ v : Variable, Notes pick record (visitor.visitVariable v) v.walk
  | ⟨_, chain, _, _⟩ => h.atVariable _ (h.visitAccesses chain)

theorem visitBlock (h : visitor.Records pick record) :
    ∀ b : Block, Notes pick record (visitor.visitBlock b) b.walk
  | ⟨_, none, body, _, _, _, _⟩ => h.atBlock _ (h.visitEach body)
  | ⟨_, some header, body, _, _, _, _⟩ => h.atBlock _ ((h.visitNode header).bind (h.visitEach body))

theorem visitEach (h : visitor.Records pick record) :
    ∀ nodes : List Node, Notes pick record (visitor.visitEach nodes) (walkNodes nodes)
  | [] => .pure
  | node :: nodes => (h.visitNode node).bind (h.visitEach nodes)

theorem visitAccesses (h : visitor.Records pick record) :
    ∀ chain : List Access, Notes pick record (visitor.visitAccesses chain) (walkChain chain)
  | [] => .pure
  | .property key :: chain => (h.atLiteral key).bind (h.visitAccesses chain)
  | .index value :: chain => (h.visitNode value).bind (h.visitAccesses chain)

theorem visitEntries (h : visitor.Records pick record) :
    ∀ entries : List (Literal × Node),
      Notes pick record (visitor.visitEntries entries) (walkEntries entries)
  | [] => .pure
  | (key, value) :: entries =>
    (h.atLiteral key).bind ((h.visitNode value).bind (h.visitEntries entries))

end

end Visitor.Records

end

-- ---------------------------------------------------------------------------
-- Variables
-- ---------------------------------------------------------------------------

section

attribute [local simp] Node.variables variablesOfNodes variablesOfChain variablesOfEntries
attribute [local simp] Node.walk Variable.walk Group.walk Block.walk walkHeader walkNodes
  walkChain walkEntries
attribute [local simp] Visit.asVariable? List.filterMap_cons

mutual

theorem Node.filterMap_walk : ∀ node : Node, node.walk.filterMap Visit.asVariable? = node.variables
  | .literal _ => by simp
  | .variable ⟨_, chain, _, _⟩ => by simp [filterMap_walkChain chain]
  | .binary _ left right _ => by simp [left.filterMap_walk, right.filterMap_walk]
  | .ternary condition whenTrue whenFalse _ => by
    simp [condition.filterMap_walk, whenTrue.filterMap_walk, whenFalse.filterMap_walk]
  | .assign _ target value _ => by simp [target.filterMap_walk, value.filterMap_walk]
  | .call callee arguments _ => by simp [callee.filterMap_walk, filterMap_walkNodes arguments]
  | .group ⟨items, _, _⟩ => by simp [filterMap_walkNodes items]
  | .list items _ => by simp [filterMap_walkNodes items]
  | .record entries _ => by simp [filterMap_walkEntries entries]
  | .unary _ operand _ _ => by simp [operand.filterMap_walk]
  | .block ⟨_, none, body, _, _, _, _⟩ => by simp [filterMap_walkNodes body]
  | .block ⟨_, some header, body, _, _, _, _⟩ => by
    simp [header.filterMap_walk, filterMap_walkNodes body]

theorem filterMap_walkNodes :
    ∀ nodes : List Node, (walkNodes nodes).filterMap Visit.asVariable? = variablesOfNodes nodes
  | [] => by simp
  | node :: nodes => by simp [node.filterMap_walk, filterMap_walkNodes nodes]

theorem filterMap_walkChain :
    ∀ chain : List Access, (walkChain chain).filterMap Visit.asVariable? = variablesOfChain chain
  | [] => by simp
  | .property _ :: chain => by simp [filterMap_walkChain chain]
  | .index value :: chain => by simp [value.filterMap_walk, filterMap_walkChain chain]

theorem filterMap_walkEntries :
    ∀ entries : List (Literal × Node),
      (walkEntries entries).filterMap Visit.asVariable? = variablesOfEntries entries
  | [] => by simp
  | (_, value) :: entries => by simp [value.filterMap_walk, filterMap_walkEntries entries]

end

end

theorem Node.mem_variables {v : Variable} (node : Node) :
    v ∈ node.variables ↔ .variable v ∈ node.walk := by
  rw [← node.filterMap_walk, List.mem_filterMap]
  constructor
  · rintro ⟨visit, hvisit, hv⟩
    cases visit <;> cases hv
    exact hvisit
  · exact fun h => ⟨_, h, rfl⟩

def Visitor.collector : Visitor (StateM (List Variable)) where
  atVariable v walk := do
    modify (· ++ [v])
    walk

theorem Visitor.collector_records : collector.Records Visit.asVariable? id where
  atNode _ _ _ h := h
  atVariable _ _ _ h := h.cons fun _ => rfl
  atBlock _ _ _ h := h
  atLiteral _ := fun s => (List.append_nil s).symm

/-- The variables that are collected from a tree are those of its walk, and those that the plain
collector is called on. Every visitor that notes the variables it is called on and goes on, whatever
else it does, notes the same ones. -/
theorem Node.variables_eq_visited (node : Node) :
    node.walk.filterMap Visit.asVariable? = node.variables ∧
    (Visitor.collector.visitNode node).run [] = ((), node.variables) ∧
    ∀ {σ : Type} (visitor : Visitor (StateM σ)) (record : σ → List Variable),
      visitor.Records Visit.asVariable? record →
        ∀ s, record ((visitor.visitNode node).run s).2 = record s ++ node.variables := by
  have hvisited {σ : Type} (visitor : Visitor (StateM σ)) (record : σ → List Variable)
      (h : visitor.Records Visit.asVariable? record) (s : σ) :
      record ((visitor.visitNode node).run s).2 = record s ++ node.variables := by
    rw [h.visitNode node s, node.filterMap_walk]
  exact ⟨node.filterMap_walk, Prod.ext rfl (hvisited _ id Visitor.collector_records []), hvisited⟩

/-- Notes the variables while it keeps count of the blocks around them. -/
def Visitor.nesting : Visitor (StateM (List Variable × Nat)) where
  atVariable v walk := do
    modify fun s => (s.1 ++ [v], s.2)
    walk
  atBlock _ walk := do
    modify fun s => (s.1, s.2 + 1)
    walk
    modify fun s => (s.1, s.2 - 1)

/-- An index in an access chain, a default value and the body of a function inside an expression are
all visited. -/
theorem Node.variables_eq_visited_closure : Visitor.nesting.Records Visit.asVariable? Prod.fst ∧
    ((Visitor.nesting.visitNode (.mkBinary "+"
      (.variable ⟨"a", [.index (.variable ⟨"b", [], none, default⟩),
        .property (.quoted "c" default)], none, default⟩)
      (.block ⟨.function, some (.group ⟨[.mkAssign "=" (.variable ⟨"p", [], some 1, default⟩)
        (.variable ⟨"a", [.index (.variable ⟨"b", [], none, default⟩)], none, default⟩)],
          .comma, default⟩),
        [.variable ⟨"p", [], some 1, default⟩], 1, none, true, default⟩))).run ([],
          0)).2.1.map (·.name) =
      ["a", "b", "p", "a", "b", "p"] := by
  have hrecords : Visitor.nesting.Records Visit.asVariable? Prod.fst :=
    { atNode _ _ _ h := h
      atVariable _ _ _ h := h.cons fun _ => rfl
      atBlock _ _ _ h := fun s => h (s.1, s.2 + 1)
      atLiteral _ := fun s => (List.append_nil s.1).symm }
  refine ⟨hrecords, ?_⟩
  rw [(variables_eq_visited _).2.2 _ Prod.fst hrecords]
  rfl

end ScriptToPhp
