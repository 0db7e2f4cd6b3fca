import ScriptToPhp.Tree.Walk

/-!
# Occurrences

The variables of a tree, each with the blocks around it from the inside out.
-/

namespace ScriptToPhp

structure Occurrence where
  found : Variable
  /-- The blocks around it, from the inside out. -/
  around : List Block

/-- The occurrence as the block around all of it has it. -/
def Occurrence.inside (o : Occurrence) (b : Block) : Occurrence :=
  { o with around := o.around ++ [b] }

mutual

def Node.occurrences : Node → List Occurrence
  | .literal _ => []
  | .variable ⟨name, chain, scope, span⟩ =>
    ⟨⟨name, chain, scope, span⟩, []⟩ :: occurrencesOfChain chain
  | .binary _ left right _ => left.occurrences ++ right.occurrences
  | .ternary condition whenTrue whenFalse _ =>
    condition.occurrences ++ whenTrue.occurrences ++ whenFalse.occurrences
  | .assign _ target value _ => target.occurrences ++ value.occurrences
  | .call callee arguments _ => callee.occurrences ++ occurrencesOfNodes arguments
  | .group g => g.occurrences
  | .list items _ => occurrencesOfNodes items
  | .record entries _ => occurrencesOfEntries entries
  | .unary _ operand _ _ => operand.occurrences
  | .block b => b.occurrences

def Group.occurrences : Group → List Occurrence
  | ⟨items, _, _⟩ => occurrencesOfNodes items

def Block.occurrences : Block → List Occurrence
  | ⟨kind, header, body, scope, name, delimited, span⟩ =>
    (occurrencesOfHeader header ++ occurrencesOfNodes body).map
      (·.inside ⟨kind, header, body, scope, name, delimited, span⟩)

def occurrencesOfHeader : Option Node → List Occurrence
  | none => []
  | some header => header.occurrences

def occurrencesOfNodes : List Node → List Occurrence
  | [] => []
  | node :: nodes => node.occurrences ++ occurrencesOfNodes nodes

def occurrencesOfChain : List Access → List Occurrence
  | [] => []
  | .property _ :: chain => occurrencesOfChain chain
  | .index value :: chain => value.occurrences ++ occurrencesOfChain chain

def occurrencesOfEntries : List (Literal × Node) → List Occurrence
  | [] => []
  | (_, value) :: entries => value.occurrences ++ occurrencesOfEntries entries

end

@[simp] theorem occurrencesOfNodes_append :
    occurrencesOfNodes (nodes ++ nodes') =
      occurrencesOfNodes nodes ++ occurrencesOfNodes nodes' := by
  induction nodes with
  | nil => simp [occurrencesOfNodes]
  | cons node nodes ih => simp [occurrencesOfNodes, ih]

theorem Block.occurrences_eq (b : Block) : b.occurrences =
    (occurrencesOfHeader b.header ++ occurrencesOfNodes b.body).map (·.inside b) := by
  cases b
  simp [Block.occurrences]

-- ---------------------------------------------------------------------------
-- What they are
-- ---------------------------------------------------------------------------

theorem Block.map_occurrences (b : Block) : b.occurrences.map (·.found) =
    (occurrencesOfHeader b.header).map (·.found) ++ (occurrencesOfNodes b.body).map (·.found) := by
  simp [b.occurrences_eq, Occurrence.inside, Function.comp_def]

section

attribute [local grind =] Node.variables variablesOfNodes variablesOfChain variablesOfEntries
attribute [local grind =] Node.occurrences Group.occurrences Block.map_occurrences
  occurrencesOfHeader
  occurrencesOfNodes occurrencesOfChain occurrencesOfEntries

mutual

theorem Node.map_occurrences : ∀ node : Node, node.occurrences.map (·.found) = node.variables
  | .literal _ => by grind
  | .variable ⟨_, chain, _, _⟩ => by grind [map_occurrencesOfChain chain]
  | .binary _ left right _ => by grind [left.map_occurrences, right.map_occurrences]
  | .ternary condition whenTrue whenFalse _ => by
    grind [condition.map_occurrences, whenTrue.map_occurrences, whenFalse.map_occurrences]
  | .assign _ target value _ => by grind [target.map_occurrences, value.map_occurrences]
  | .call callee arguments _ => by grind [callee.map_occurrences, map_occurrencesOfNodes arguments]
  | .group ⟨items, _, _⟩ => by grind [map_occurrencesOfNodes items]
  | .list items _ => by grind [map_occurrencesOfNodes items]
  | .record entries _ => by grind [map_occurrencesOfEntries entries]
  | .unary _ operand _ _ => by grind [operand.map_occurrences]
  | .block ⟨_, none, body, _, _, _, _⟩ => by grind [map_occurrencesOfNodes body]
  | .block ⟨_, some header, body, _, _, _, _⟩ => by
    grind [header.map_occurrences, map_occurrencesOfNodes body]

theorem map_occurrencesOfNodes :
    ∀ nodes : List Node, (occurrencesOfNodes nodes).map (·.found) = variablesOfNodes nodes
  | [] => by grind
  | node :: nodes => by grind [node.map_occurrences, map_occurrencesOfNodes nodes]

theorem map_occurrencesOfChain :
    ∀ chain : List Access, (occurrencesOfChain chain).map (·.found) = variablesOfChain chain
  | [] => by grind
  | .property _ :: chain => by grind [map_occurrencesOfChain chain]
  | .index value :: chain => by grind [value.map_occurrences, map_occurrencesOfChain chain]

theorem map_occurrencesOfEntries :
    ∀ entries : List (Literal × Node),
      (occurrencesOfEntries entries).map (·.found) = variablesOfEntries entries
  | [] => by grind
  | (_, value) :: entries => by grind [value.map_occurrences, map_occurrencesOfEntries entries]

end

end

-- ---------------------------------------------------------------------------
-- Where they are
-- ---------------------------------------------------------------------------

/-- The blocks around an occurrence are visited, and lie one inside the other. -/
structure Occurrence.Nested (visits : List Visit) (o : Occurrence) : Prop where
  visited : ∀ b ∈ o.around, .block b ∈ visits
  inside : o.around.Pairwise fun inner outer => .block inner ∈ outer.walk

theorem Occurrence.nested_iff {o : Occurrence} : o.Nested visits ↔
    (∀ b ∈ o.around, .block b ∈ visits) ∧ o.around.Pairwise fun inner outer =>
      .block inner ∈ outer.walk :=
  ⟨fun h => ⟨h.visited, h.inside⟩, fun h => ⟨h.1, h.2⟩⟩

theorem Occurrence.Nested.mono {o : Occurrence} (h : o.Nested visits) (hsub : visits ⊆ visits') :
    o.Nested visits' :=
  ⟨fun b hb => hsub (h.visited b hb), h.inside⟩

theorem Block.nested {b : Block}
    (hheader : ∀ o ∈ occurrencesOfHeader b.header, o.Nested (walkHeader b.header))
    (hbody : ∀ o ∈ occurrencesOfNodes b.body, o.Nested (walkNodes b.body)) :
    ∀ o ∈ b.occurrences, o.Nested b.walk := by
  have hwalk : b.walk = .block b :: walkHeader b.header ++ walkNodes b.body := by
    cases b
    simp [Block.walk]
  intro o ho
  rw [b.occurrences_eq, List.mem_map] at ho
  obtain ⟨o, ho, rfl⟩ := ho
  have hnested : o.Nested b.walk := by
    rw [hwalk]
    rcases List.mem_append.1 ho with ho | ho
    · exact (hheader o ho).mono (by grind)
    · exact (hbody o ho).mono (by grind)
  refine ⟨?_, ?_⟩
  · intro b' hb'
    rcases List.mem_append.1 hb' with hb' | hb'
    · exact hnested.visited b' hb'
    · simp [List.mem_singleton.1 hb', hwalk]
  · exact List.pairwise_append.2
      ⟨hnested.inside, List.pairwise_singleton .., by simpa using hnested.visited⟩

section

attribute [local grind =] Node.occurrences Group.occurrences occurrencesOfHeader occurrencesOfNodes
  occurrencesOfChain occurrencesOfEntries
attribute [local grind =] Node.walk Variable.walk Group.walk walkHeader walkNodes
  walkChain walkEntries
attribute [local grind =] Occurrence.nested_iff

mutual

theorem Node.nested : ∀ node : Node, ∀ o ∈ node.occurrences, o.Nested node.walk
  | .literal _ => by grind
  | .variable ⟨_, chain, _, _⟩ => by grind [→ nestedOfChain chain, List.Pairwise.nil]
  | .binary _ left right _ => by grind [→ left.nested, → right.nested]
  | .ternary condition whenTrue whenFalse _ => by
    grind [→ condition.nested, → whenTrue.nested, → whenFalse.nested]
  | .assign _ target value _ => by grind [→ target.nested, → value.nested]
  | .call callee arguments _ => by grind [→ callee.nested, → nestedOfNodes arguments]
  | .group ⟨items, _, _⟩ => by grind [→ nestedOfNodes items]
  | .list items _ => by grind [→ nestedOfNodes items]
  | .record entries _ => by grind [→ nestedOfEntries entries]
  | .unary _ operand _ _ => by grind [→ operand.nested]
  | .block ⟨kind, header, body, scope, name, delimited, span⟩ => by
    have hblock : ∀ o ∈ Block.occurrences ⟨kind, header, body, scope, name, delimited, span⟩,
        o.Nested _ :=
      Block.nested (nestedOfHeader header) (nestedOfNodes body)
    grind

theorem nestedOfHeader :
    ∀ header : Option Node, ∀ o ∈ occurrencesOfHeader header, o.Nested (walkHeader header)
  | none => by grind
  | some header => by grind [→ header.nested]

theorem nestedOfNodes : ∀ nodes :
    List Node, ∀ o ∈ occurrencesOfNodes nodes, o.Nested (walkNodes nodes)
  | [] => by grind
  | node :: nodes => by grind [→ node.nested, → nestedOfNodes nodes]

theorem nestedOfChain : ∀ chain :
    List Access, ∀ o ∈ occurrencesOfChain chain, o.Nested (walkChain chain)
  | [] => by grind
  | .property _ :: chain => by grind [→ nestedOfChain chain]
  | .index value :: chain => by grind [→ value.nested, → nestedOfChain chain]

theorem nestedOfEntries :
    ∀ entries : List (Literal × Node), ∀ o ∈ occurrencesOfEntries entries,
      o.Nested (walkEntries entries)
  | [] => by grind
  | (_, value) :: entries => by grind [→ value.nested, → nestedOfEntries entries]

end

end

end ScriptToPhp
