import ScriptToPhp.Tree.Walk

/-!
# Parts of a tree

The parts of a node are the nodes directly in it, each in its role. What lies below a node is
reached by a path of roles. The parameters of a function are its parts one level deeper: the default
value of a parameter has a role of its own.
-/

namespace ScriptToPhp

inductive Role
  | plain
  | callee
  /-- Among the parameters of a function, default values apart. -/
  | pattern (function : Block)
  /-- The default value of a parameter of a function. -/
  | default (function : Block)
  /-- A statement in the body of a function. -/
  | body (function : Block)

def Role.function? : Role → Option Block
  | .plain | .callee => none
  | .pattern f | .default f | .body f => some f

def functionsAlong (roles : List Role) : List Block := roles.filterMap Role.function?

theorem mem_functionsAlong (h : role ∈ roles) (hf : role.function? = some f) :
    f ∈ functionsAlong roles :=
  List.mem_filterMap.2 ⟨role, h, hf⟩

def Block.parameterParts (f : Block) : Node → List (Role × Node)
  | .assign _ target value _ => [(.pattern f, target), (.default f, value)]
  | parameter => [(.pattern f, parameter)]

def Block.headerParts (f : Block) : List (Role × Node) :=
  match f.header with
  | none => []
  | some (.group g) => g.items.flatMap f.parameterParts
  | some header => [(.pattern f, header)]

def Block.parts (b : Block) : List (Role × Node) :=
  if b.kind = .function then b.headerParts ++ b.body.map (.body b, ·)
  else (b.header.toList ++ b.body).map (.plain, ·)

def Access.index? : Access → Option Node
  | .property _ => none
  | .index value => some value

def Node.parts : Node → List (Role × Node)
  | .literal _ => []
  | .variable v => (v.chain.filterMap Access.index?).map (.plain, ·)
  | .binary _ left right _ => [(.plain, left), (.plain, right)]
  | .ternary condition whenTrue whenFalse _ =>
    [(.plain, condition), (.plain, whenTrue), (.plain, whenFalse)]
  | .assign _ target value _ => [(.plain, target), (.plain, value)]
  | .call callee arguments _ => (.callee, callee) :: arguments.map (.plain, ·)
  | .group g => g.items.map (.plain, ·)
  | .list items _ => items.map (.plain, ·)
  | .record entries _ => entries.map fun entry => (.plain, entry.2)
  | .unary _ operand _ _ => [(.plain, operand)]
  | .block b => b.parts

theorem Block.role_of_mem_headerParts {f : Block} (h : (role, part) ∈ f.headerParts) :
    role = .pattern f ∨ role = .default f := by
  unfold headerParts at h
  split at h
  next => cases h
  next =>
    obtain ⟨parameter, -, h⟩ := List.mem_flatMap.1 h
    unfold parameterParts at h
    grind
  next => simp_all

theorem Block.default_mem_headerParts {f : Block} (hkind : f.kind = .function) :
    (.default f, value) ∈ f.headerParts ↔
    (.default f, value) ∈ f.parameters.flatMap f.parameterParts := by
  unfold headerParts parameters
  rw [hkind]
  cases f.header with
  | none => simp
  | some header => cases header <;> simp

theorem Block.mem_parts_of_parameter {f : Block} (hkind : f.kind = .function)
    (hparameter : parameter ∈ f.parameters) (hentry : entry ∈ f.parameterParts parameter) :
    entry ∈ f.parts := by
  unfold parameters at hparameter
  split at hparameter
  next hheader =>
    rw [parts, if_pos hkind, headerParts, hheader]
    exact List.mem_append_left _ (List.mem_flatMap.2 ⟨_, hparameter, hentry⟩)
  next => cases hparameter

theorem Block.exists_part_of_mem_body {b : Block} (h : node ∈ b.body) :
    ∃ role, (role, node) ∈ b.parts := by
  rw [Block.parts]
  split
  next => exact ⟨_, List.mem_append_right _ (List.mem_map.2 ⟨node, h, rfl⟩)⟩
  next => exact ⟨_, List.mem_map.2 ⟨node, List.mem_append_right _ h, rfl⟩⟩

theorem Block.mem_parts_of_header {b : Block} (hkind : b.kind ≠ .function) (h : node ∈ b.header) :
    (.plain, node) ∈ b.parts := by
  rw [Block.parts, if_neg hkind]
  exact List.mem_map.2 ⟨node, List.mem_append_left _ (Option.mem_toList.2 h), rfl⟩

theorem Node.eq_call_of_mem_parts (h : (.callee, part) ∈ Node.parts node) :
    ∃ arguments span, node = .call part arguments span := by
  cases node with
  | call callee arguments span =>
    obtain rfl : part = callee := by simpa [parts] using h
    exact ⟨arguments, span, rfl⟩
  | block b =>
    simp only [parts, Block.parts] at h
    split at h
    next =>
      rcases List.mem_append.1 h with h | h
      · rcases Block.role_of_mem_headerParts h with h | h <;> cases h
      · simp at h
    next => simp at h
  | _ => simp [parts] at h

def Node.block? : Node → Option Block
  | .block b => some b
  | _ => none

theorem Node.eq_block (h : Node.block? node = some b) : node = .block b := by
  cases node <;> cases h
  rfl

def Node.called? : Node → Option Variable
  | .call (.variable v) _ _ => some v
  | _ => none

theorem Node.eq_call (h : Node.called? node = some v) :
    ∃ arguments span, node = .call (.variable v) arguments span := by
  unfold called? at h
  split at h
  next arguments span => exact ⟨arguments, span, by cases h; rfl⟩
  next => cases h

/-- `Below node roles target`: a path of these roles leads from the node to the target. -/
inductive Below : Node → List Role → Node → Prop
  | here (node : Node) : Below node [] node
  | inside {node part target : Node} {role : Role} {roles : List Role}
    (hpart : (role, part) ∈ node.parts)
      (h : Below part roles target) : Below node (role :: roles) target

theorem Below.inBody {f : Block} (hkind : f.kind = .function) (hpart : part ∈ f.body)
    (h : Below part roles target) :
    Below (.block f) (.body f :: roles) target :=
  .inside (by simp [Node.parts, Block.parts, hkind, hpart]) h

theorem Below.inBlock {b : Block} (hkind : b.kind ≠ .function)
    (hpart : part ∈ b.header.toList ++ b.body) (h : Below part roles target) :
    Below (.block b) (.plain :: roles) target := by
  refine .inside ?_ h
  rw [Node.parts, Block.parts, if_neg hkind]
  exact List.mem_map_of_mem hpart

theorem Below.trans (h : Below node roles part) (h' : Below part roles' target) :
    Below node (roles ++ roles') target := by
  induction h with
  | here => exact h'
  | inside hpart _ ih => exact .inside hpart (ih h')

-- ---------------------------------------------------------------------------
-- Every variable and every block lies below
-- ---------------------------------------------------------------------------

def Visit.target? : Visit → Option Node
  | .variable v => some (.variable v)
  | .block b => some (.block b)
  | _ => none

/-- The variables and blocks among some visits lie below the node. -/
def Node.Covers (node : Node) (visits : List Visit) : Prop :=
  ∀ visit ∈ visits, ∀ target ∈ visit.target?, ∃ roles, Below node roles target

/-- Whatever lies below the other node lies below the node. -/
def Node.Holds (node other : Node) : Prop := ∀ visits, other.Covers visits → node.Covers visits

section

variable {node part : Node}

theorem Node.covers_nil : node.Covers [] := fun _ hvisit => by cases hvisit

theorem Node.Covers.cons (h : node.Covers visits)
    (hvisit : ∀ target ∈ visit.target?, ∃ roles, Below node roles target) :
    node.Covers (visit :: visits) := List.forall_mem_cons.2 ⟨hvisit, h⟩

theorem Node.Covers.consNode (h : node.Covers visits) : node.Covers (.node :: visits) :=
  h.cons fun _ htarget => by cases htarget

theorem Node.Covers.consLiteral (h : node.Covers visits) : node.Covers (.literal l :: visits) :=
  h.cons fun _ htarget => by cases htarget

theorem Node.Covers.append (h : node.Covers visits) (h' : node.Covers visits') :
    node.Covers (visits ++ visits') :=
  List.forall_mem_append.2 ⟨h, h'⟩

theorem Node.holds_part (hpart : part ∈ node.parts.map (·.2)) : node.Holds part := by
  obtain ⟨⟨role, _⟩, hmem, rfl⟩ := List.mem_map.1 hpart
  intro visits hcovers visit hvisit target htarget
  obtain ⟨roles, h⟩ := hcovers visit hvisit target htarget
  exact ⟨role :: roles, .inside hmem h⟩

/-- A group is no variable or block, so what lies below it lies below its items. -/
theorem Node.holds_group {g : Group} (hitems : ∀ item ∈ g.items, node.Holds item) :
    node.Holds (.group g) := by
  intro visits hcovers visit hvisit target htarget
  obtain ⟨roles, h⟩ := hcovers visit hvisit target htarget
  cases h with
  | here => cases visit <;> cases htarget
  | inside hpart h =>
    obtain ⟨item, hitem, heq⟩ := List.mem_map.1 hpart
    cases heq
    refine hitems _ hitem [visit] ?_ visit List.mem_cons_self target htarget
    intro other hother target' htarget'
    cases List.mem_singleton.1 hother
    cases Option.mem_unique htarget htarget'
    exact ⟨_, h⟩

/-- A parameter with a default value is no variable or block, so what lies below it lies below its
parts. -/
theorem Block.holds_parameter {f : Block}
    (hparts : ∀ entry ∈ f.parameterParts parameter, entry ∈ f.parts) :
    (Node.block f).Holds parameter := by
  intro visits hcovers visit hvisit target htarget
  obtain ⟨roles, h⟩ := hcovers visit hvisit target htarget
  cases parameter with
  | assign op left right span =>
    cases h with
    | here => cases visit <;> cases htarget
    | inside hpart h =>
      simp only [Node.parts, List.mem_cons, Prod.mk.injEq, List.not_mem_nil, or_false] at hpart
      obtain ⟨-, rfl⟩ | ⟨-, rfl⟩ := hpart
      · exact ⟨_, .inside (hparts _ List.mem_cons_self) h⟩
      · exact ⟨_, .inside (hparts _ (List.mem_cons_of_mem _ List.mem_cons_self)) h⟩
  | _ => exact ⟨_, .inside (hparts _ List.mem_cons_self) h⟩

theorem Block.holds_header {b : Block} (hheader : part ∈ b.header) : (Node.block b).Holds part := by
  rw [Option.mem_def] at hheader
  -- Only in a function is the header taken apart, and there only a group.
  by_cases hkind : b.kind = .function
  · cases part with
    | group g =>
      refine Node.holds_group fun item hitem => holds_parameter fun entry hentry => ?_
      exact mem_parts_of_parameter hkind (by simp [parameters, hkind, hheader, hitem]) hentry
    | _ => exact Node.holds_part (by simp [Node.parts, Block.parts, hkind, headerParts, hheader])
  · exact Node.holds_part (by simp [Node.parts, Block.parts, hkind, hheader])

theorem Block.holds_body {b : Block} (hpart : part ∈ b.body) : (Node.block b).Holds part := by
  by_cases hkind : b.kind = .function
  · exact Node.holds_part (by simp [Node.parts, Block.parts, hkind, hpart])
  · exact Node.holds_part (by simp [Node.parts, Block.parts, hkind, hpart])

end

mutual

theorem Node.covers_walk : ∀ node : Node, node.Covers node.walk
  | .literal _ => by
    rw [Node.walk]
    exact Node.covers_nil.consLiteral.consNode
  | .variable ⟨name, chain, scope, span⟩ => by
    rw [Node.walk, Variable.walk]
    refine .consNode (.cons (covers_walkChain _ chain fun value hvalue => ?_) fun target htarget =>
      ?_)
    · exact Node.holds_part (by simpa [Node.parts] using hvalue)
    · cases htarget
      exact ⟨[], .here _⟩
  | .binary op left right span => by
    rw [Node.walk]
    refine .append (.consNode ?_) ?_
    · exact Node.holds_part (by simp [Node.parts]) _ left.covers_walk
    · exact Node.holds_part (by simp [Node.parts]) _ right.covers_walk
  | .ternary condition whenTrue whenFalse span => by
    rw [Node.walk]
    refine .append (.append (.consNode ?_) ?_) ?_
    · exact Node.holds_part (by simp [Node.parts]) _ condition.covers_walk
    · exact Node.holds_part (by simp [Node.parts]) _ whenTrue.covers_walk
    · exact Node.holds_part (by simp [Node.parts]) _ whenFalse.covers_walk
  | .assign op target value span => by
    rw [Node.walk]
    refine .append (.consNode ?_) ?_
    · exact Node.holds_part (by simp [Node.parts]) _ target.covers_walk
    · exact Node.holds_part (by simp [Node.parts]) _ value.covers_walk
  | .call callee arguments span => by
    rw [Node.walk]
    refine .append (.consNode ?_) (covers_walkNodes _ arguments fun part hpart => ?_)
    · exact Node.holds_part (by simp [Node.parts]) _ callee.covers_walk
    · exact Node.holds_part (by simp [Node.parts, hpart])
  | .group ⟨items, separator, span⟩ => by
    rw [Node.walk, Group.walk]
    exact .consNode (covers_walkNodes _ items fun part hpart =>
      Node.holds_part (by simp [Node.parts, hpart]))
  | .list items span => by
    rw [Node.walk]
    exact .consNode (covers_walkNodes _ items fun part hpart =>
      Node.holds_part (by simp [Node.parts, hpart]))
  | .record entries span => by
    rw [Node.walk]
    refine .consNode (covers_walkEntries _ entries fun entry hentry => Node.holds_part ?_)
    simpa [Node.parts] using ⟨entry.1, hentry⟩
  | .unary op operand fixity span => by
    rw [Node.walk]
    exact .consNode (Node.holds_part (by simp [Node.parts]) _ operand.covers_walk)
  | .block ⟨kind, header, body, scope, name, delimited, span⟩ => by
    rw [Node.walk, Block.walk]
    refine .consNode (.cons (.append (covers_walkHeader _ header fun part hpart => ?_)
      (covers_walkNodes _ body fun part hpart => ?_)) fun target htarget => ?_)
    · exact Block.holds_header hpart
    · exact Block.holds_body hpart
    · cases htarget
      exact ⟨[], .here _⟩
termination_by structural node => node

theorem covers_walkHeader (node : Node) :
    ∀ header : Option Node, (∀ part ∈ header, node.Holds part) → node.Covers (walkHeader header)
  | none, _ => Node.covers_nil
  | some header, hholds => hholds header rfl _ header.covers_walk
termination_by structural header => header

theorem covers_walkNodes (node : Node) :
    ∀ nodes : List Node, (∀ part ∈ nodes, node.Holds part) → node.Covers (walkNodes nodes)
  | [], _ => Node.covers_nil
  | part :: nodes, hholds => by
    rw [walkNodes]
    rw [List.forall_mem_cons] at hholds
    exact .append (hholds.1 _ part.covers_walk) (covers_walkNodes node nodes hholds.2)
termination_by structural nodes => nodes

theorem covers_walkChain (node : Node) :
    ∀ chain : List Access, (∀ part ∈ chain.filterMap Access.index?, node.Holds part) →
    node.Covers (walkChain chain)
  | [], _ => Node.covers_nil
  | .property _ :: chain, hholds => by
    rw [walkChain]
    exact .consLiteral (covers_walkChain node chain hholds)
  | .index value :: chain, hholds => by
    rw [walkChain]
    have hchain := List.forall_mem_cons.1 hholds
    exact .append (hchain.1 _ value.covers_walk) (covers_walkChain node chain hchain.2)
termination_by structural chain => chain

theorem covers_walkEntries (node : Node) :
    ∀ entries : List (Literal × Node), (∀ entry ∈ entries, node.Holds entry.2) →
    node.Covers (walkEntries entries)
  | [], _ => Node.covers_nil
  | (_, value) :: entries, hholds => by
    rw [walkEntries]
    rw [List.forall_mem_cons] at hholds
    exact .append (.consLiteral (hholds.1 _ value.covers_walk))
      (covers_walkEntries node entries hholds.2)
termination_by structural entries => entries

end

theorem exists_mem_walk (h : visit ∈ walkNodes nodes) : ∃ node ∈ nodes, visit ∈ node.walk := by
  induction nodes with
  | nil => cases h
  | cons node nodes ih =>
    rw [walkNodes] at h
    rcases List.mem_append.1 h with h | h
    · exact ⟨node, List.mem_cons_self, h⟩
    · obtain ⟨found, hfound, h⟩ := ih h
      exact ⟨found, List.mem_cons_of_mem _ hfound, h⟩

theorem Block.exists_below_body {f : Block} (hkind : f.kind = .function)
    (h : visit ∈ walkNodes f.body) (htarget : target ∈ visit.target?) :
    ∃ roles, Below (.block f) (.body f :: roles) target := by
  obtain ⟨part, hpart, hwalk⟩ := exists_mem_walk h
  obtain ⟨roles, hbelow⟩ := part.covers_walk visit hwalk target htarget
  exact ⟨roles, hbelow.inBody hkind hpart⟩

-- ---------------------------------------------------------------------------
-- Induction over parts
-- ---------------------------------------------------------------------------

theorem Block.sizeOf_parameterPart {f : Block} (h : (role, part) ∈ f.parameterParts parameter) :
    sizeOf part ≤ sizeOf parameter := by
  cases parameter with
  | assign op target value span =>
    simp only [parameterParts, List.mem_cons, Prod.mk.injEq, List.not_mem_nil, or_false] at h
    obtain ⟨-, rfl⟩ | ⟨-, rfl⟩ := h <;> simp only [Node.assign.sizeOf_spec] <;> omega
  | _ =>
    cases List.mem_singleton.1 h
    exact Nat.le_refl _

theorem Block.sizeOf_headerPart {f : Block} (h : (role, part) ∈ f.headerParts) :
    sizeOf part ≤ sizeOf f.header := by
  unfold headerParts at h
  split at h
  next => cases h
  next g hheader =>
    obtain ⟨items, separator, span⟩ := g
    obtain ⟨parameter, hparameter, hpart⟩ := List.mem_flatMap.1 h
    have hle := sizeOf_parameterPart hpart
    have hlt := List.sizeOf_lt_of_mem hparameter
    rw [hheader]
    simp only [Option.some.sizeOf_spec, Node.group.sizeOf_spec, Group.mk.sizeOf_spec] at hlt ⊢
    omega
  next header _ hheader =>
    cases List.mem_singleton.1 h
    rw [hheader]
    simp

theorem Block.sizeOf_part {b : Block} (h : (role, part) ∈ b.parts) : sizeOf part < sizeOf b := by
  have hle : sizeOf part ≤ sizeOf b.header + sizeOf b.body := by
    unfold parts at h
    split at h
    next =>
      rcases List.mem_append.1 h with h | h
      · exact Nat.le_add_right_of_le (sizeOf_headerPart h)
      · obtain ⟨node, hnode, heq⟩ := List.mem_map.1 h
        cases heq
        exact Nat.le_add_left_of_le (Nat.le_of_lt (List.sizeOf_lt_of_mem hnode))
    next =>
      obtain ⟨node, hnode, heq⟩ := List.mem_map.1 h
      cases heq
      rcases List.mem_append.1 hnode with hnode | hnode
      · rw [Option.mem_toList.1 hnode]
        simp only [Option.some.sizeOf_spec]
        omega
      · exact Nat.le_add_left_of_le (Nat.le_of_lt (List.sizeOf_lt_of_mem hnode))
  obtain ⟨kind, header, body, scope, name, delimited, span⟩ := b
  simp only [mk.sizeOf_spec] at hle ⊢
  omega

theorem sizeOf_plain {nodes : List Node} (h : (role, part) ∈ nodes.map (Role.plain, ·)) :
    sizeOf part < sizeOf nodes := by
  obtain ⟨node, hnode, heq⟩ := List.mem_map.1 h
  cases heq
  exact List.sizeOf_lt_of_mem hnode

theorem Node.sizeOf_part {node part : Node} (h : (role, part) ∈ node.parts) :
    sizeOf part < sizeOf node := by
  cases node with
  | literal l => cases h
  | «variable» v =>
    obtain ⟨name, chain, scope, span⟩ := v
    obtain ⟨value, hvalue, heq⟩ := List.mem_map.1 h
    cases heq
    obtain ⟨access, haccess, hindex⟩ := List.mem_filterMap.1 hvalue
    cases access with
    | property key => cases hindex
    | index value =>
      cases hindex
      have hlt := List.sizeOf_lt_of_mem haccess
      simp only [Node.variable.sizeOf_spec, Variable.mk.sizeOf_spec,
        Access.index.sizeOf_spec] at hlt ⊢
      omega
  | call callee arguments span =>
    rcases List.mem_cons.1 h with h | h
    · cases h
      simp only [Node.call.sizeOf_spec]
      omega
    · have hlt := sizeOf_plain h
      simp only [Node.call.sizeOf_spec]
      omega
  | group g =>
    obtain ⟨items, separator, span⟩ := g
    have hlt : sizeOf part < sizeOf items := sizeOf_plain h
    simp only [Node.group.sizeOf_spec, Group.mk.sizeOf_spec]
    omega
  | list items span =>
    have hlt := sizeOf_plain h
    simp only [Node.list.sizeOf_spec]
    omega
  | record entries span =>
    obtain ⟨⟨key, value⟩, hentry, heq⟩ := List.mem_map.1 h
    cases heq
    have hlt := List.sizeOf_lt_of_mem hentry
    simp only [Node.record.sizeOf_spec, Prod.mk.sizeOf_spec] at hlt ⊢
    omega
  | block b =>
    have hlt := Block.sizeOf_part h
    simp only [Node.block.sizeOf_spec]
    omega
  | _ =>
    simp only [Node.parts, List.mem_cons, Prod.mk.injEq, List.not_mem_nil, or_false] at h
    grind

/-- What holds of a node if it holds of its parts holds of every node. -/
theorem Node.induction_on_parts {motive : Node → Prop}
    (h : ∀ node, (∀ entry ∈ node.parts, motive entry.2) → motive node) (node : Node) :
    motive node :=
  h node fun ⟨_, part⟩ hpart =>
    have := Node.sizeOf_part hpart
    induction_on_parts h part
termination_by sizeOf node

end ScriptToPhp
