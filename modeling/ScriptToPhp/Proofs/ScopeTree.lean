import ScriptToPhp.Proofs.Ownership

/-!
# Scopes and blocks

The scopes of a script are numbered from zero without gaps, and each is owned by one block. The
parent of a scope is the scope of a block around its own: the reader opens a scope while it is
inside the blocks whose scopes are open, and what it makes there is put into those blocks.
-/

namespace ScriptToPhp

-- ---------------------------------------------------------------------------
-- Scope tables
-- ---------------------------------------------------------------------------

/-- The set and the list of a scope hold the same names, and the list holds none twice. -/
structure Scope.InStep (scope : Scope) : Prop where
  mem : ∀ name, name ∈ scope.declarations ↔ name ∈ scope.order
  nodup : scope.order.Nodup

namespace Scope.InStep

variable {scope : Scope}

theorem ofParent (outer : Option ScopeId) : (Scope.ofParent outer).InStep :=
  ⟨fun _ => .rfl, List.nodup_nil⟩

theorem declare (h : scope.InStep) (name : String) : (scope.declare name).InStep := by
  unfold Scope.declare
  split
  next => exact h
  next hnew =>
    have hname : name ∉ scope.order :=
      fun hmem => hnew (List.contains_iff_mem.2 ((h.mem name).2 hmem))
    constructor
    · intro other
      simp [h.mem other, or_comm]
    · refine List.nodup_append.2 ⟨h.nodup, List.pairwise_singleton _ _, ?_⟩
      rintro other hother _ hsame rfl
      exact hname (List.mem_singleton.1 hsame ▸ hother)

end Scope.InStep

namespace ScopeTable

variable {table : ScopeTable}

def parent? (table : ScopeTable) (s : ScopeId) : Option (Option ScopeId) :=
  (table.get? s).map (·.parent)

theorem lt_size_of_parent? (h : table.parent? s = some outer) : s < table.size := by
  obtain ⟨scope, hscope, -⟩ := Option.map_eq_some_iff.1 h
  exact (List.getElem?_eq_some_iff.1 hscope).1

theorem parent?_extend (outer : Option ScopeId) :
    (table.extend outer).2.parent? table.size = some outer := by
  simp [parent?, get?, extend, size, Scope.ofParent]

theorem parent?_extend_of_lt (h : s < table.size) :
    (table.extend outer).2.parent? s = table.parent? s := by
  rw [parent?, get?, extend, List.getElem?_append_left h]
  rfl

theorem parent?_declare : (table.declare scope name).parent? s = table.parent? s := by
  simp only [parent?, get?, declare, List.getElem?_modify]
  cases table.scopes[s]? with
  | none => rfl
  | some found =>
    simp only [Option.map_some, Option.map_eq_map]
    split
    · unfold Scope.declare
      split <;> rfl
    · rfl

def InStep (table : ScopeTable) : Prop := ∀ scope ∈ table.scopes, scope.InStep

theorem InStep.extend (h : table.InStep) (outer : Option ScopeId) :
    (table.extend outer).2.InStep := by
  intro scope hscope
  rcases List.mem_append.1 hscope with hscope | hscope
  · exact h scope hscope
  · rw [List.mem_singleton.1 hscope]
    exact .ofParent outer

theorem InStep.declare (h : table.InStep) (scope : ScopeId) (name : String) :
    (table.declare scope name).InStep := by
  intro found hfound
  obtain ⟨i, hi⟩ := List.mem_iff_getElem?.1 hfound
  simp only [ScopeTable.declare, List.getElem?_modify, Option.map_eq_map] at hi
  obtain ⟨old, hold, rfl⟩ := Option.map_eq_some_iff.1 hi
  have hstep := h old (List.mem_of_getElem? hold)
  split
  · exact hstep.declare name
  · exact hstep

end ScopeTable

-- ---------------------------------------------------------------------------
-- Places
-- ---------------------------------------------------------------------------

namespace Cursor

/-- Of the scopes of the first place none has another parent at the second, and sets and lists are
still in step. -/
structure Extends (c c' : Cursor) : Prop where
  size : c.scopes.size ≤ c'.scopes.size
  parents : ∀ s, s < c.scopes.size → c'.scopes.parent? s = c.scopes.parent? s
  inStep : c.scopes.InStep → c'.scopes.InStep

theorem Extends.refl (c : Cursor) : c.Extends c := ⟨Nat.le_refl _, fun _ _ => rfl, id⟩

theorem Extends.trans {c₁ c₂ c₃ : Cursor} (h : c₁.Extends c₂) (h' : c₂.Extends c₃) :
    c₁.Extends c₃ :=
  ⟨h.size.trans h'.size, fun s hs =>
    (h'.parents s (Nat.lt_of_lt_of_le hs h.size)).trans (h.parents s hs), h'.inStep ∘ h.inStep⟩

theorem extends_before (c : Cursor) (t : Token) : (c.before t).Extends c :=
  ⟨Nat.le_refl _, fun _ _ => rfl, id⟩

theorem extends_before? (c : Cursor) (t : Option Token) : (c.before? t).Extends c := by
  cases t with
  | none => exact .refl c
  | some t => exact extends_before c t

theorem extends_enter (c : Cursor) (enclosing : List ScopeId) : c.Extends (c.enter enclosing) :=
  ⟨by simp, fun _ hs => ScopeTable.parent?_extend_of_lt hs, fun h => h.extend _⟩

theorem extends_declare (c : Cursor) (enclosing : List ScopeId) (name : String) :
    c.Extends (c.declare enclosing name) := by
  cases enclosing with
  | nil => exact .refl c
  | cons scope enclosing =>
    exact ⟨by simp, fun _ _ => ScopeTable.parent?_declare, fun h => h.declare scope name⟩

theorem extends_introduce (c : Cursor) (blockLocal : Bool) (enclosing : List ScopeId)
    (name : String) :
    c.Extends (c.introduce blockLocal enclosing name) := by
  cases blockLocal with
  | false => exact .refl c
  | true => exact extends_declare c enclosing name

theorem extends_skipSemicolon (c : Cursor) : c.Extends c.skipSemicolon :=
  ⟨Nat.le_refl _, fun _ _ => rfl, id⟩

grind_pattern extends_before => before c t
grind_pattern extends_before? => before? c t
grind_pattern extends_enter => enter c enclosing
grind_pattern extends_declare => declare c enclosing name
grind_pattern extends_introduce => introduce c blockLocal enclosing name
grind_pattern extends_skipSemicolon => skipSemicolon c

attribute [grind .] Extends.refl
attribute [grind →] Extends.trans

end Cursor

@[grind →] theorem Derives.extends (h : Derives enclosing phrase c c') : c.Extends c' := by
  induction h <;> grind

-- ---------------------------------------------------------------------------
-- Blocks in blocks
-- ---------------------------------------------------------------------------

/-- The blocks among some visits own scopes of the table. The parent of such a scope is the given
one, or the scope of a block among the visits that is around it. -/
def Hangs (table : ScopeTable) (outer : Option ScopeId) (visits : List Visit) : Prop :=
  ∀ b, .block b ∈ visits →
    (table.parent? b.scope = some outer ∧ ∀ s ∈ outer, s < b.scope) ∨
      ∃ around, .block around ∈ visits ∧ .block b ∈ around.walk ∧
        table.parent? b.scope = some (some around.scope) ∧ around.scope < b.scope

namespace Hangs

@[grind .] theorem nil : Hangs table outer [] := fun _ hb => by cases hb

theorem mono (h : Hangs table outer visits) (hsub : visits ⊆ visits') :
    ∀ b, .block b ∈ visits → (table.parent? b.scope = some outer ∧ ∀ s ∈ outer, s < b.scope) ∨
      ∃ around, .block around ∈ visits' ∧ .block b ∈ around.walk ∧
        table.parent? b.scope = some (some around.scope) ∧ around.scope < b.scope := by
  intro b hb
  rcases h b hb with hparent | ⟨around, haround, hrest⟩
  · exact .inl hparent
  · exact .inr ⟨around, hsub haround, hrest⟩

@[grind ←] theorem append (h : Hangs table outer visits) (h' : Hangs table outer visits') :
    Hangs table outer (visits ++ visits') := by
  intro b hb
  rcases List.mem_append.1 hb with hb | hb
  · exact h.mono (List.subset_append_left _ _) b hb
  · exact h'.mono (List.subset_append_right _ _) b hb

@[grind ←] theorem consNode (h : Hangs table outer visits) :
    Hangs table outer (.node :: visits) := fun b hb =>
  h.mono (List.subset_cons_self _ _) b (by simpa using hb)

@[grind ←] theorem consLiteral (h : Hangs table outer visits) :
    Hangs table outer (.literal l :: visits) := fun b hb =>
  h.mono (List.subset_cons_self _ _) b (by simpa using hb)

@[grind ←] theorem consVariable (h : Hangs table outer visits) :
    Hangs table outer (.variable v :: visits) := fun b hb =>
  h.mono (List.subset_cons_self _ _) b (by simpa using hb)

@[grind →] theorem later {c c' : Cursor} (h : Hangs c.scopes outer visits) (hc : c.Extends c') :
    Hangs c'.scopes outer visits := by
  intro b hb
  rcases h b hb with ⟨hparent, hlt⟩ | ⟨around, haround, hwalk, hparent, hlt⟩
  · exact .inl ⟨(hc.parents _ (ScopeTable.lt_size_of_parent? hparent)).trans hparent, hlt⟩
  · exact .inr ⟨around, haround, hwalk,
      (hc.parents _ (ScopeTable.lt_size_of_parent? hparent)).trans hparent, hlt⟩

theorem inside {b : Block} (h : Hangs table (some b.scope) visits) (hsub : visits ⊆ b.walk) :
    ∀ b', .block b' ∈ visits → ∃ around, .block around ∈ b.walk ∧ .block b' ∈ around.walk ∧
      table.parent? b'.scope = some (some around.scope) ∧ around.scope < b'.scope := by
  intro b' hb'
  rcases h.mono hsub b' hb' with ⟨hparent, hlt⟩ | haround
  · exact ⟨b, by simp [Block.walk_eq], hsub hb', hparent, hlt b.scope rfl⟩
  · exact haround

/-- A block whose header was read before or after its scope was opened, and whose body after it. -/
theorem block {b : Block} (hb : table.parent? b.scope = some outer) (hlt : ∀ s ∈ outer, s < b.scope)
    (hheader : Hangs table outer (walkHeader b.header) ∨
      Hangs table (some b.scope) (walkHeader b.header))
    (hbody : Hangs table (some b.scope) (walkNodes b.body)) : Hangs table outer b.walk := by
  have hsub₁ : walkHeader b.header ⊆ b.walk := fun visit h => by simp [Block.walk_eq, h]
  have hsub₂ : walkNodes b.body ⊆ b.walk := fun visit h => by simp [Block.walk_eq, h]
  intro b' hb'
  rw [Block.walk_eq, List.cons_append, List.mem_cons, List.mem_append] at hb'
  rcases hb' with heq | hb' | hb'
  · cases heq
    exact .inl ⟨hb, hlt⟩
  · rcases hheader with hheader | hheader
    · exact hheader.mono hsub₁ b' hb'
    · exact .inr (hheader.inside hsub₁ b' hb')
  · exact .inr (hbody.inside hsub₂ b' hb')

@[grind ←] theorem declared (h : Hangs table outer (Node.walk node)) :
    Hangs table outer (walkNodes (node.declared blockLocal)) := by
  unfold Node.declared
  split
  next v =>
    obtain ⟨name, chain, scope, span⟩ := v
    split
    next hbare =>
      simp only [Variable.isBare, List.isEmpty_iff] at hbare
      subst hbare
      split <;> simp only [walkNodes, Node.mkAssign, Node.walk, Variable.walk, walkChain,
        List.append_nil] <;> grind
    next => simpa [walkNodes] using h
  next => simpa [walkNodes] using h

end Hangs

def Cursor.IsIn (c : Cursor) (enclosing : List ScopeId) : Prop :=
  ∀ s ∈ enclosing.head?, s < c.scopes.size

@[grind →] theorem Cursor.IsIn.later {c c' : Cursor} (h : c.IsIn enclosing) (hc : c.Extends c') :
    c'.IsIn enclosing :=
  fun s hs => Nat.lt_of_lt_of_le (h s hs) hc.size

@[grind .] theorem Cursor.isIn_enter (c : Cursor) (enclosing : List ScopeId) :
    (c.enter enclosing).IsIn (c.scopes.size :: enclosing) := by
  intro s hs
  cases hs
  simp

/-- A block whose scope is opened at a place, and which is complete at a later one. -/
theorem Hangs.opened {b : Block} {c c' : Cursor} (hb : b.scope = c.scopes.size)
    (hc : (c.enter enclosing).Extends c') (hin : c.IsIn enclosing)
    (hheader : Hangs c'.scopes enclosing.head? (walkHeader b.header) ∨
      Hangs c'.scopes (some c.scopes.size) (walkHeader b.header))
    (hbody : Hangs c'.scopes (some c.scopes.size) (walkNodes b.body)) :
    Hangs c'.scopes enclosing.head? b.walk := by
  rw [← hb] at hheader hbody
  refine .block ?_ (fun s hs => hb ▸ hin s hs) hheader hbody
  rw [hb, hc.parents _ (by simp)]
  exact ScopeTable.parent?_extend _

section

attribute [local grind =] walkNodes walkHeader walkChain walkEntries Node.walk Variable.walk
  Group.walk_eq
attribute [local grind =] Node.mkBinary Node.mkAssign Node.mkTernary Node.mkCall Node.mkUnary

theorem Derives.hangs (h : Derives enclosing phrase c c') (hin : c.IsIn enclosing)
    (hgiven : Hangs c.scopes enclosing.head? phrase.given) :
    Hangs c'.scopes enclosing.head? phrase.walk := by
  induction h with
  -- Blocks
  | jump => exact .opened rfl (.refl _) hin (.inr .nil) .nil
  | jumpValue _ _ h₁ ih =>
    exact .opened rfl h₁.extends hin (.inr (ih (Cursor.isIn_enter _ _) .nil)) .nil
  | @caseLabel _ _ _ c₁ _ colon _ _ h₁ _ ih =>
    have hvalue := (ih (Cursor.isIn_enter _ _) .nil).later (c₁.extends_before colon)
    exact .opened rfl (h₁.extends.trans (c₁.extends_before colon)) hin (.inr hvalue) .nil
  | defaultLabel => exact .opened rfl (.refl _) hin (.inr .nil) .nil
  | @headed _ enclosing _ _ _ _ _ c _ _ h₁ h₂ ih₁ ih₂ =>
    have hopen := c.isIn_enter enclosing
    refine .opened (by simp) (h₁.extends.trans h₂.extends) hin (.inr ?_) ?_
    · simpa [Phrase.walk] using (ih₁ hopen .nil).later h₂.extends
    · simpa [Phrase.walk] using ih₂ (hopen.later h₁.extends) .nil
  | @doLoop enclosing _ _ _ _ _ c _ _ _ h₁ h₂ ih₁ ih₂ =>
    have hopen := c.isIn_enter enclosing
    refine .opened (by simp) (h₁.extends.trans h₂.extends) hin (.inr ?_) ?_
    · simpa [Phrase.walk] using ih₂ (hopen.later h₁.extends) .nil
    · simpa [Phrase.walk] using (ih₁ hopen .nil).later h₂.extends
  -- Functions
  | @function enclosing _ _ _ _ _ _ c c₁ opening brace _ name _ _ h₁ _ h₂ ih₁ ih₂ =>
    have hfront := ((c.before opening).extends_before? name).trans (c.extends_before opening)
    have hin₁ := hin.later ((hfront.trans h₁.extends).trans (c₁.extends_before brace))
    have hlater := (c₁.extends_before brace).trans ((c₁.extends_enter enclosing).trans h₂.extends)
    refine .consNode (.opened (by simp) h₂.extends hin₁ (.inl ?_) ?_)
    · simpa [Phrase.walk, walkHeader, Node.walk, Group.walk_eq] using
        ((ih₁ (hin.later hfront) .nil).later hlater).consNode
    · simpa [Phrase.walk] using ih₂ (c₁.isIn_enter enclosing) .nil
  | @lambdaBraces enclosing _ _ _ _ _ c brace _ h₁ ih =>
    have hlater := (c.extends_before brace).trans ((c.extends_enter enclosing).trans h₁.extends)
    refine .consNode (.opened (by simp) h₁.extends (hin.later (c.extends_before brace))
      (.inl ?_) ?_)
    · simpa [Phrase.given, walkHeader, Node.walk] using (hgiven.later hlater).consNode
    · simpa [Phrase.walk] using ih (c.isIn_enter enclosing) .nil
  | @lambdaValue enclosing node arrow _ c c₁ _ h₁ ih =>
    have hopen := c.isIn_enter enclosing
    have hreturn := c₁.extends_enter (c.scopes.size :: enclosing)
    have hlater := h₁.extends.trans hreturn
    have hbody : Hangs _ (some c.scopes.size) (Block.returning c₁.scopes.size arrow node).walk :=
      .opened rfl (.refl _) (hopen.later h₁.extends) (.inl ((ih hopen .nil).later hreturn)) .nil
    refine .consNode (.opened (by simp) hlater hin (.inl ?_) ?_)
    · simpa [Phrase.given, walkHeader, Node.walk] using
        (hgiven.later ((c.extends_enter enclosing).trans hlater)).consNode
    · simpa [walkNodes, Node.walk] using hbody.consNode
  | @nameArrow _ chain _ _ _ c c₁ t arrow _ h₁ _ _ ih₁ ih₂ =>
    have hin₁ := hin.later (c.extends_before t)
    have hchain : Hangs c₁.scopes _ (walkChain chain) :=
      (ih₁ hin₁ .nil).later (c₁.extends_before arrow)
    refine ih₂ (hin₁.later (h₁.extends.trans (c₁.extends_before arrow))) ?_
    simpa [Phrase.given, Group.walk, walkNodes, Node.walk,
      Variable.walk] using hchain.consVariable.consNode
  -- Everything else keeps the blocks of its parts.
  | _ => grind [Phrase.walk, Phrase.given]

end

-- ---------------------------------------------------------------------------
-- Scripts
-- ---------------------------------------------------------------------------

namespace Script

theorem hangs_of_parse {script : Script} (h : parse options source = .ok script) :
    script.root.scope = 0 ∧ script.scopes.parent? 0 = some none ∧ script.scopes.InStep ∧
      script.root.walk = .block script.root :: walkNodes script.root.body ∧
      Hangs script.scopes (some 0) (walkNodes script.root.body) := by
  obtain ⟨statements, c, hderives, hscopes, hroot⟩ := derives_of_parse h
  have hscope : script.root.scope = 0 := by simp [hroot, Block.ofKind]
  have hheader : script.root.header = none := by simp [hroot, Block.ofKind]
  have hbody : script.root.body = statements := by simp [hroot, Block.ofKind]
  have hextends := hderives.extends
  rw [hscopes, hbody]
  refine ⟨hscope, ?_, ?_, by simp [Block.walk_eq, hheader, hbody, walkHeader], ?_⟩
  · rw [hextends.parents 0 Nat.one_pos]
    rfl
  · refine hextends.inStep fun scope hmem => ?_
    rw [List.mem_singleton.1 hmem]
    exact .ofParent none
  · refine hderives.hangs (fun s hs => ?_) .nil
    cases hs
    exact Nat.one_pos

/-- The blocks own the scopes of the table, one each. -/
theorem owned_perm {script : Script} (h : parse options source = .ok script) :
    (script.root.blocks.map (·.scope)).Perm (List.range script.scopes.size) := by
  rw [List.perm_iff_count]
  intro s
  rw [count_owned h, List.nodup_range.count]
  simp

/-- The parent of a scope is owned by a block around its owner. -/
theorem exists_around {script : Script} (h : parse options source = .ok script)
    (hscope : script.scopes.get? s = some scope) (hne : s ≠ 0) :
    ∃ b ∈ script.root.blocks, ∃ around ∈ script.root.blocks, b.scope = s ∧ b ∈ around.blocks ∧
      scope.parent = some around.scope ∧ around.scope < s := by
  obtain ⟨hroot, -, -, hwalk, hhangs⟩ := hangs_of_parse h
  have hlt : s < script.scopes.size := (List.getElem?_eq_some_iff.1 hscope).1
  obtain ⟨b, hb, rfl⟩ := List.mem_map.1 ((owned_perm h).mem_iff.2 (List.mem_range.2 hlt))
  have hparent : script.scopes.parent? b.scope = some scope.parent := by
    rw [ScopeTable.parent?, hscope]; rfl
  have hinside : .block b ∈ walkNodes script.root.body := by
    have hvisit := Block.mem_blocks.1 hb
    rw [hwalk] at hvisit
    rcases List.mem_cons.1 hvisit with heq | hvisit
    · cases heq
      exact absurd hroot hne
    · exact hvisit
  rcases hhangs b hinside with ⟨hzero, hpos⟩ | ⟨around, haround, hmem, hinner, hless⟩
  · refine ⟨b, hb, script.root, Block.mem_blocks.2 (by simp [hwalk]), rfl, hb, ?_, ?_⟩
    · rw [hroot]
      exact Option.some.inj (hparent.symm.trans hzero)
    · rw [hroot]
      exact hpos 0 rfl
  · refine ⟨b, hb, around, Block.mem_blocks.2 (by simp [hwalk, haround]), rfl,
      Block.mem_blocks.2 hmem, ?_, hless⟩
    exact Option.some.inj (hparent.symm.trans hinner)

/-- Scopes and blocks correspond one to one: the blocks own the scopes from zero on, each one of
them, and the root owns the first, which has no parent. The parent of any other scope is a smaller
one, owned by a block around its owner. No scope lists a name twice, and it declares the names it
lists. -/
theorem scopes_match_blocks {options : Options} {source : Source} {script : Script}
    (h : parse options source = .ok script) :
    (script.root.blocks.map (·.scope)).Perm (List.range script.scopes.size) ∧
      script.root.scope = 0 ∧ script.scopes.parent? 0 = some none ∧
      (∀ s scope, script.scopes.get? s = some scope → s ≠ 0 →
        ∃ b ∈ script.root.blocks, ∃ around ∈ script.root.blocks, b.scope = s ∧ b ∈ around.blocks ∧
          scope.parent = some around.scope ∧ around.scope < s) ∧
      ∀ s scope, script.scopes.get? s = some scope →
        scope.names.Nodup ∧ ∀ name, script.scopes.declares s name = true ↔ name ∈ scope.names := by
  obtain ⟨hroot, hnone, hnames, -, -⟩ := hangs_of_parse h
  refine ⟨owned_perm h, hroot, hnone, fun s scope hscope hne => exists_around h hscope hne,
    fun s scope hscope => ?_⟩
  have hstep := hnames scope (List.mem_of_getElem? hscope)
  refine ⟨hstep.nodup, fun name => ?_⟩
  simpa [ScopeTable.declares, hscope, Scope.declares, Scope.names] using hstep.mem name

/-- A function in a parameter list: its scope is opened before that of the function around it, and
its parent is the scope of the script. -/
theorem scopes_match_blocks_parameter :
    ∃ script scope, parse {} (.ofText "" "function f(p = x => p) \x7b return p \x7d") = .ok script ∧
      script.scopes.get? 1 = some scope ∧ (script.root.blocks.map (·.scope)).Perm (List.range 5) ∧
      ∃ b ∈ script.root.blocks, ∃ around ∈ script.root.blocks, b.scope = 1 ∧ b ∈ around.blocks ∧
        scope.parent = some around.scope ∧ around.scope < 1 := by
  have hfacts : (parse {} (.ofText "" "function f(p = x => p) \x7b return p \x7d")).toOption.any
      (fun script =>
        script.scopes.size == 5) = true := by
    decide +kernel
  obtain ⟨script, h, hsize⟩ := exists_of_any_parse hfacts
  rw [beq_iff_eq] at hsize
  obtain ⟨howned, -, -, hparents, -⟩ := scopes_match_blocks h
  have hlt : 1 < script.scopes.scopes.length := by
    show 1 < script.scopes.size
    omega
  obtain ⟨scope, hscope⟩ : ∃ scope, script.scopes.get? 1 = some scope :=
    ⟨_, List.getElem?_eq_getElem hlt⟩
  exact ⟨script, scope, h, hscope, hsize ▸ howned, hparents 1 scope hscope Nat.one_ne_zero⟩

end Script

end ScriptToPhp
