import ScriptToPhp.Proofs.DeclarationSite
import ScriptToPhp.Proofs.Occurrence
import ScriptToPhp.Proofs.Ownership
import ScriptToPhp.Proofs.TextOrder

/-!
# Resolution of names

A variable belongs to the innermost block around it that declares its name, as far as the text
before it has declared anything. The reader asks for the scopes it is in at a place of the text; the
tree has blocks instead. The two agree: where a block is around a variable in the tree only, its
scope declares nothing yet.
-/

namespace ScriptToPhp

-- ---------------------------------------------------------------------------
-- One variable
-- ---------------------------------------------------------------------------

theorem ScopeTable.resolve_insert {table : ScopeTable} {inner outer : List ScopeId}
    (h : table.declares s name = false) :
    table.resolve (inner ++ s :: outer) name = table.resolve (inner ++ outer) name := by
  simp [resolve, List.find?_append, h]

theorem ScopeTable.resolve_eq_some {table : ScopeTable}
    (h : table.resolve enclosing name = some s) :
    s ∈ enclosing ∧ table.declares s name = true := by
  unfold resolve at h
  exact ⟨List.mem_of_find?_eq_some h, by simpa using List.find?_some h⟩

/-- At some place in the tokens `ts` before `c'`, behind its name, the variable got the innermost
scope around it that declares its name there. The places go on to `c'`. -/
def Resolves (lead : List Token) (enclosing : List ScopeId) (ts : List Token) (c' : Cursor)
    (o : Occurrence) : Prop :=
  ∃ (used : List Token) (c : Cursor), ts = used ++ c.rest ∧
    (∃ t ∈ used, t.kind = .variable ∧ t.text = o.found.name ∧
      (ts.Pairwise (·.span.start < ·.span.start) → t.span.start = o.found.span.start)) ∧
    o.found.scope = c.scopes.resolve (o.around.map (·.scope) ++ enclosing) o.found.name ∧
    c.Follows (lead ++ used) c'

namespace Resolves

theorem imp (h : Resolves lead enclosing ts c' o)
    (himp : ∀ front, Introduces (lead ++ front) → Introduces (lead' ++ front)) :
    Resolves lead' enclosing ts c' o := by
  obtain ⟨used, c, hts, ht, hscope, hfollows⟩ := h
  refine ⟨used, c, hts, ht, hscope, hfollows.imp fun front hfront => ?_⟩
  rw [List.append_assoc] at hfront ⊢
  exact himp _ hfront

theorem trans (h : Resolves lead enclosing ts c₁ o) (hts : ts = us ++ c₁.rest)
    (h' : c₁.Follows (lead ++ us) c₂) : Resolves lead enclosing ts c₂ o := by
  obtain ⟨used, c, hused, ht, hscope, hfollows⟩ := h
  obtain ⟨later, hlater⟩ := hfollows.reaches.rest
  have hus : us = used ++ later := by
    rw [hts, ← hlater, ← List.append_assoc] at hused
    exact List.append_cancel_right hused
  rw [hus, ← List.append_assoc] at h'
  exact ⟨used, c, hused, ht, hscope, hfollows.trans hlater.symm h'⟩

theorem andThen (h : Resolves lead enclosing ts c₁ o) (h' : c₁.Follows [] c₂) :
    Resolves lead enclosing ts c₂ o := by
  obtain ⟨used, c, hused, ht, hscope, hfollows⟩ := h
  exact ⟨used, c, hused, ht, hscope, hfollows.andThen h'⟩

theorem behind (h : Resolves (lead ++ us) enclosing ts c' o) :
    Resolves lead enclosing (us ++ ts) c' o := by
  obtain ⟨used, c, rfl, ⟨t, ht, hkind, htext, hstart⟩, hscope, hfollows⟩ := h
  refine ⟨us ++ used, c, by simp, ⟨t, List.mem_append_right _ ht, hkind, htext, fun hordered => ?_⟩,
    hscope, ?_⟩
  · exact hstart (List.pairwise_append.1 hordered).2.1
  · rwa [← List.append_assoc]

theorem inside (h : Resolves lead (s :: enclosing) ts c' o) (hb : b.scope = s) :
    Resolves lead enclosing ts c' (o.inside b) := by
  obtain ⟨used, c, hts, ht, hscope, hfollows⟩ := h
  exact ⟨used, c, hts, ht, by simpa [Occurrence.inside, hb] using hscope, hfollows⟩

theorem insideLater (h : Resolves lead enclosing ts c' o) (hb : c'.scopes.size ≤ b.scope) :
    Resolves lead enclosing ts c' (o.inside b) := by
  obtain ⟨used, c, hts, ht, hscope, hfollows⟩ := h
  refine ⟨used, c, hts, ht, ?_, hfollows⟩
  have hnot : c.scopes.declares b.scope o.found.name = false := by
    rw [← Bool.not_eq_true]
    intro hdeclares
    exact absurd (ScopeTable.lt_size_of_declares hdeclares)
      (Nat.not_lt.2 (hfollows.reaches.size.trans hb))
  simpa [Occurrence.inside, ScopeTable.resolve_insert hnot] using hscope

theorem name (hkind : t.kind = .variable)
    (h : Derives enclosing (.accesses t.span chain span) c c') :
    Resolves [] enclosing (t :: c.rest) c'
      ⟨⟨t.text, chain, c'.scopes.resolve enclosing t.text, span⟩, []⟩ := by
  obtain ⟨us, hus⟩ := h.reaches.rest
  refine ⟨t :: us, c', by simp [hus],
    ⟨t, List.mem_cons_self, hkind, rfl, fun hordered => ?_⟩, rfl, ?_⟩
  · have hle := fun u hu => Nat.le_of_lt ((List.pairwise_cons.1 hordered).1 u hu)
    exact (h.start_accesses hle).symm
  · exact (Cursor.Follows.refl c').weaken

end Resolves

-- ---------------------------------------------------------------------------
-- All variables of a tree
-- ---------------------------------------------------------------------------

def ResolvesAll (lead : List Token) (enclosing : List ScopeId) (ts : List Token) (c' : Cursor)
    (os : List Occurrence) : Prop :=
  ∀ o ∈ os, Resolves lead enclosing ts c' o

namespace ResolvesAll

theorem nil : ResolvesAll lead enclosing ts c' [] := fun _ ho => nomatch ho

theorem append (h : ResolvesAll lead enclosing ts c' os)
    (h' : ResolvesAll lead enclosing ts c' os') :
    ResolvesAll lead enclosing ts c' (os ++ os') :=
  fun o ho => (List.mem_append.1 ho).elim (h o) (h' o)

theorem subset (h : ResolvesAll lead enclosing ts c' os) (hsub : os' ⊆ os) :
    ResolvesAll lead enclosing ts c' os' :=
  fun o ho => h o (hsub ho)

theorem weaken (h : ResolvesAll [] enclosing ts c' os) : ResolvesAll lead enclosing ts c' os :=
  fun o ho => (h o ho).imp fun _ hfront => hfront.append_left lead

theorem andThen (h : ResolvesAll lead enclosing ts c₁ os) (h' : c₁.Follows [] c₂) :
    ResolvesAll lead enclosing ts c₂ os :=
  fun o ho => (h o ho).andThen h'

theorem of_suffix (h : ResolvesAll [] enclosing ts c' os) (hts : ts <:+ ts') :
    ResolvesAll [] enclosing ts' c' os := by
  obtain ⟨us, rfl⟩ := hts
  exact fun o ho => (h.weaken o ho).behind

theorem after (h : ResolvesAll [] enclosing ts c' os) : ResolvesAll [] enclosing (t :: ts) c' os :=
  h.of_suffix (List.suffix_cons _ _)

theorem behind (h : ResolvesAll (lead ++ us) enclosing ts c' os) :
    ResolvesAll lead enclosing (us ++ ts) c' os :=
  fun o ho => (h o ho).behind

theorem inside (h : ResolvesAll lead (s :: enclosing) ts c' os) (hb : b.scope = s) :
    ResolvesAll lead enclosing ts c' (os.map (·.inside b)) := by
  intro o hmem
  obtain ⟨o, ho, rfl⟩ := List.mem_map.1 hmem
  exact (h o ho).inside hb

theorem insideLater (h : ResolvesAll lead enclosing ts c' os) (hb : c'.scopes.size ≤ b.scope) :
    ResolvesAll lead enclosing ts c' (os.map (·.inside b)) := by
  intro o hmem
  obtain ⟨o, ho, rfl⟩ := List.mem_map.1 hmem
  exact (h o ho).insideLater hb

theorem block {b : Block} (hb : b.scope = s)
    (hheader : ResolvesAll lead (s :: enclosing) ts c' (occurrencesOfHeader b.header))
    (hbody : ResolvesAll lead (s :: enclosing) ts c' (occurrencesOfNodes b.body)) :
    ResolvesAll lead enclosing ts c' b.occurrences := by
  rw [b.occurrences_eq]
  exact (hheader.append hbody).inside hb

theorem closure {b : Block} (hb : b.scope = c₁.scopes.size)
    (hheader : ResolvesAll lead enclosing ts c₁ (occurrencesOfHeader b.header))
    (hfollows : c₁.Follows [] c₂)
    (hbody : ResolvesAll lead (c₁.scopes.size :: enclosing) ts c₂ (occurrencesOfNodes b.body)) :
    ResolvesAll lead enclosing ts c₂ b.occurrences := by
  rw [b.occurrences_eq, List.map_append]
  exact ((hheader.insideLater hb.ge).andThen hfollows).append (hbody.inside hb)

theorem name (hkind : t.kind = .variable) (h : Derives enclosing (.accesses t.span chain span) c c')
    (hchain : ResolvesAll [] enclosing c.rest c' (occurrencesOfChain chain)) :
    ResolvesAll [] enclosing (t :: c.rest) c'
      (Node.occurrences (.variable ⟨t.text, chain, c'.scopes.resolve enclosing t.text, span⟩)) := by
  rw [Node.occurrences]
  exact List.forall_mem_cons.2 ⟨Resolves.name hkind h, hchain.of_suffix (List.suffix_cons _ _)⟩

theorem declared {node : Node} (h : ResolvesAll lead enclosing ts c' node.occurrences) :
    ResolvesAll lead enclosing ts c' (occurrencesOfNodes (node.declared blockLocal)) := by
  refine h.subset ?_
  unfold Node.declared
  split
  next v =>
    obtain ⟨name, chain, scope, span⟩ := v
    split
    next => split <;> simp [occurrencesOfNodes, Node.mkAssign, Node.occurrences]
    next => simp [occurrencesOfNodes]
  next => simp [occurrencesOfNodes]

end ResolvesAll

-- ---------------------------------------------------------------------------
-- What is derived
-- ---------------------------------------------------------------------------

/-- What a phrase goes on from resolves in the tokens `ts` before it, and so does what it makes. -/
def GoesOn (enclosing : List ScopeId) (c c' : Cursor) (os os' : List Occurrence) : Prop :=
  ∀ ts, c.rest <:+ ts → ResolvesAll [] enclosing ts c os → ResolvesAll [] enclosing ts c' os'

theorem GoesOn.step {c : Cursor} (h : GoesOn enclosing c₁ c₂ (os ++ os') all)
    (hos' : ResolvesAll [] enclosing c.rest c₁ os')
    (hfollows : c.Follows [] c₁) : GoesOn enclosing (c.before t) c₂ os all := by
  intro ts hts hos
  have hrest : c.rest <:+ ts := (List.suffix_cons _ _).trans hts
  refine h ts (hfollows.reaches.rest.trans hrest) ?_
  exact (hos.andThen ((c.follows_before t).andThen hfollows)).append (hos'.of_suffix hrest)

def Phrase.Resolved (enclosing : List ScopeId) (c c' : Cursor) : Phrase → Prop
  | .declarations true nodes =>
    ∀ t, t.declaresLocal = true → ResolvesAll [t] enclosing c.rest c' (occurrencesOfNodes nodes)
  | .script nodes | .statement nodes | .declarations false nodes | .body nodes _ | .braces nodes _
  | .items _ nodes _ _ | .listItems _ nodes _ =>
    ResolvesAll [] enclosing c.rest c' (occurrencesOfNodes nodes)
  | .block _ b => ResolvesAll [] enclosing c.rest c' b.occurrences
  | .header _ found | .loopCondition found =>
    ResolvesAll [] enclosing c.rest c' (occurrencesOfHeader found)
  | .function _ node | .value node | .operand node =>
    ResolvesAll [] enclosing c.rest c' node.occurrences
  | .accesses _ chain _ => ResolvesAll [] enclosing c.rest c' (occurrencesOfChain chain)
  | .recordEntries _ entries _ => ResolvesAll [] enclosing c.rest c' (occurrencesOfEntries entries)
  | .elseBranches nodes all =>
    GoesOn enclosing c c' (occurrencesOfNodes nodes) (occurrencesOfNodes all)
  | .lambda _ parameters node => GoesOn enclosing c c' parameters.occurrences node.occurrences
  | .calls front node | .continuation front node =>
    GoesOn enclosing c c' front.occurrences node.occurrences

theorem Derives.resolved (h : Derives enclosing phrase c c') : phrase.Resolved enclosing c c' := by
  induction h with
  -- The script
  | scriptEnd => exact .nil
  | scriptMore _ h₁ h₂ ih₁ ih₂ =>
    simp only [Phrase.Resolved, occurrencesOfNodes_append]
    exact (ih₁.andThen h₂.declares).append (ih₂.of_suffix h₁.reaches.rest)
  -- Statements
  | empty => exact .nil
  | @locals _ _ _ _ t hkind hvalue _ ih =>
    have hwords : ResolvesAll ([] ++ [t]) _ _ _ _ :=
      ih t (Token.declaresLocal_of_value hkind hvalue)
    exact hwords.behind
  | globals _ _ ih => exact ih.after
  | keyword _ _ _ ih =>
    simp only [Phrase.Resolved, occurrencesOfNodes, Node.occurrences, List.append_nil]
    exact ih.after
  | named _ _ _ ih =>
    simp only [Phrase.Resolved, occurrencesOfNodes, List.append_nil]
    exact ih.after
  | expression _ _ _ _ ih =>
    simp only [Phrase.Resolved, occurrencesOfNodes, List.append_nil]
    exact ih
  | @declarationsEnd _ _ blockLocal _ _ _ _ _ _ ih =>
    cases blockLocal with
    | false => exact ih.declared
    | true => exact fun word _ => ih.weaken.declared
  | @declarationsMore _ _ blockLocal _ _ c c₁ t comma _ h₁ hcomma h₂ ih₁ ih₂ =>
    cases blockLocal with
    | false =>
      simp only [Phrase.Resolved, occurrencesOfNodes_append]
      have hfirst := (ih₁.andThen (c₁.follows_before comma)).andThen h₂.declares
      exact hfirst.declared.append (ih₂.of_suffix ((List.suffix_cons _ _).trans h₁.reaches.rest))
    | true =>
      intro word hword
      simp only [occurrencesOfNodes_append]
      -- What the list declares later has its site behind the tokens of the first declaration.
      obtain ⟨first, hrest, hfirst⟩ := h₁.balances.exists_append
      have hrest : (c.before t).rest = (first ++ [comma]) ++ c₁.rest := by simpa using hrest
      have hlater := (h₂.declares word hword).inList hword hcomma hfirst
      have hnames : ResolvesAll [word] _ (c.before t).rest c₁ _ :=
        ih₁.weaken.andThen (c₁.follows_before comma)
      refine ResolvesAll.append (ResolvesAll.declared fun o ho =>
        (hnames o ho).trans hrest hlater) ?_
      rw [hrest]
      exact ResolvesAll.behind fun o ho =>
        (ih₂ word hword o ho).imp fun front hfront => by
          simpa using hfront.inList hword hcomma hfirst
  -- Blocks
  | jump => exact .block rfl .nil .nil
  | jumpValue _ _ _ ih => exact .block rfl ih .nil
  | caseLabel _ _ _ _ ih => exact .block rfl (ih.andThen (Cursor.follows_before _ _)) .nil
  | defaultLabel => exact .block rfl .nil .nil
  | headed _ h₁ h₂ ih₁ ih₂ =>
    refine .block ((Block.withBody_scope _).trans (Block.withHeader?_scope _)) ?_ ?_
    · simpa using ih₁.andThen h₂.declares
    · simpa using ih₂.of_suffix h₁.reaches.rest
  | doLoop _ _ h₁ h₂ ih₁ ih₂ =>
    refine .block ((Block.withHeader?_scope _).trans (Block.withBody_scope _)) ?_ ?_
    · simpa using ih₂.of_suffix h₁.reaches.rest
    · simpa using ih₁.andThen h₂.declares
  | noHeader => exact .nil
  | header _ _ _ ih =>
    simp only [Phrase.Resolved, occurrencesOfHeader, Node.occurrences, Group.occurrences]
    exact ih.after
  | noCondition => exact .nil
  | condition _ _ _ ih =>
    simp only [Phrase.Resolved, occurrencesOfHeader, Node.occurrences, Group.occurrences]
    exact ih.after.after
  | bodyBraces _ _ ih => exact ih.after
  | @bodyStatement _ _ _ _ _ c₁ _ h₁ _ ih₁ ih₂ =>
    have hskip := c₁.follows_skipSemicolon
    exact ih₂ _ (hskip.reaches.rest.trans h₁.reaches.rest) (ih₁.andThen hskip)
  | noElse => exact fun _ _ h => h
  | @elseBranch _ _ _ _ _ _ c₁ _ _ h₁ _ ih₁ ih₂ =>
    intro ts hts hstatements
    have hskip := c₁.follows_skipSemicolon
    refine ih₂ ts ((hskip.reaches.rest.trans h₁.reaches.rest).trans hts) ?_
    rw [occurrencesOfNodes_append]
    exact ((hstatements.andThen h₁.declares).append (ih₁.of_suffix hts)).andThen hskip
  | bracesEnd => exact .nil
  | bracesMore _ h₁ h₂ ih₁ ih₂ =>
    simp only [Phrase.Resolved, occurrencesOfNodes_append]
    exact (ih₁.andThen h₂.declares).append (ih₂.of_suffix h₁.reaches.rest)
  -- Functions
  | @function _ _ _ _ _ _ _ c c₁ opening brace _ name _ _ h₁ _ h₂ ih₁ ih₂ =>
    have hopening := ((c.before opening).reaches_before? name).trans (c.reaches_before opening)
    have hbrace := hopening.trans (h₁.reaches.trans (c₁.reaches_before brace))
    simp only [Phrase.Resolved, Node.occurrences]
    refine .closure (Block.withBody_scope _) ?_ ((c₁.follows_enter _).andThen h₂.declares) ?_
    · simpa [occurrencesOfHeader, Node.occurrences, Group.occurrences] using
        (ih₁.andThen (c₁.follows_before brace)).of_suffix hopening.rest
    · simpa using ih₂.of_suffix hbrace.rest
  | @lambdaBraces _ _ _ _ _ _ c brace _ h₁ ih =>
    intro ts hts hparameters
    simp only [Node.occurrences]
    refine .closure (Block.withBody_scope _) ?_ ((c.follows_enter _).andThen h₁.declares) ?_
    · simpa [occurrencesOfHeader, Node.occurrences] using hparameters.andThen
        (c.follows_before brace)
    · simpa using ih.of_suffix ((List.suffix_cons _ _).trans hts)
  | @lambdaValue _ node arrow _ c c₁ _ h₁ ih =>
    intro ts hts hparameters
    simp only [Node.occurrences]
    refine .closure (Block.push_scope _) ?_
      (((c.follows_enter _).andThen h₁.declares).andThen (c₁.follows_enter _)) ?_
    · simpa [occurrencesOfHeader, Node.occurrences] using hparameters
    · have hvalue :=
        (ih.of_suffix hts).insideLater (b := .returning c₁.scopes.size arrow node) (Nat.le_refl _)
      simpa [occurrencesOfNodes, Node.occurrences, Block.occurrences_eq, occurrencesOfHeader] using
        hvalue.andThen (c₁.follows_enter _)
  -- Values
  | value h₁ _ ih₁ ih₂ => exact ih₂ _ h₁.reaches.rest ih₁
  | literal => exact .nil
  | name hkind h₁ _ ih => exact ResolvesAll.name hkind h₁ ih
  | @nameArrow _ _ _ _ _ c c₁ t arrow hkind h₁ _ _ ih₁ ih₂ =>
    refine ih₂ _ ((List.suffix_cons arrow _).trans
      (h₁.reaches.rest.trans (List.suffix_cons t _))) ?_
    have hname := (ResolvesAll.name hkind h₁ ih₁).andThen (c₁.follows_before arrow)
    simpa [Group.occurrences, occurrencesOfNodes] using hname
  | group _ _ _ ih =>
    simp only [Phrase.Resolved, Node.occurrences, Group.occurrences]
    exact ih.after
  | @groupArrow _ _ _ _ _ _ c c₁ opening arrow _ h₁ _ _ ih₁ ih₂ =>
    refine ih₂ _ ((List.suffix_cons arrow _).trans
      (h₁.reaches.rest.trans (List.suffix_cons opening _))) ?_
    rw [Group.occurrences]
    exact (ih₁.andThen (c₁.follows_before arrow)).after
  | list _ _ ih =>
    simp only [Phrase.Resolved, Node.occurrences]
    exact ih.after
  | record _ _ ih =>
    simp only [Phrase.Resolved, Node.occurrences]
    exact ih.after
  | leading _ _ h₁ _ _ ih₁ ih₂ =>
    simp only [Phrase.Resolved, Node.mkUnary, Node.occurrences]
    exact (ih₂ _ h₁.reaches.rest ih₁).after
  | functionLiteral _ _ ih => exact ih.after
  | callsEnd => exact fun _ _ h => h
  | callsMore _ h₁ _ ih₁ ih₂ =>
    simp only [Phrase.Resolved, Node.mkCall, Node.occurrences] at ih₂ ⊢
    exact ih₂.step ih₁ h₁.declares
  | continuationEnd => exact fun _ _ h => h
  | ternary _ h₁ _ h₂ _ ih₁ ih₂ ih₃ =>
    simp only [Phrase.Resolved, Node.mkTernary, Node.occurrences] at ih₃ ⊢
    exact (ih₃.step ih₂ h₂.declares).step ih₁ h₁.declares
  | call _ h₁ _ ih₁ ih₂ =>
    simp only [Phrase.Resolved, Node.mkCall, Node.occurrences] at ih₂ ⊢
    exact ih₂.step ih₁ h₁.declares
  | trailing =>
    simp only [Phrase.Resolved, Node.mkUnary, Node.occurrences]
    exact fun _ _ h => h.andThen (Cursor.follows_before _ _)
  | assign _ h₁ _ _ ih₁ ih₂ =>
    simp only [Phrase.Resolved, Node.mkAssign, Node.occurrences] at ih₂ ⊢
    exact ih₂.step ih₁ h₁.declares
  | binary _ h₁ _ ih₁ ih₂ =>
    simp only [Phrase.Resolved, Node.mkBinary, Node.occurrences] at ih₂ ⊢
    exact ih₂.step ih₁ h₁.declares
  -- Accesses
  | accessesEnd => exact .nil
  | property _ _ _ ih =>
    simp only [Phrase.Resolved, occurrencesOfChain]
    exact ih.after.after
  | @index _ _ _ _ _ _ _ c₁ opening closing _ h₁ _ h₂ ih₁ ih₂ =>
    simp only [Phrase.Resolved, occurrencesOfChain]
    have hvalue := ih₁.andThen ((c₁.follows_before closing).andThen h₂.declares)
    have hchain := ih₂.of_suffix ((List.suffix_cons closing _).trans h₁.reaches.rest)
    exact (hvalue.append hchain).after
  -- Groups and arrays
  | itemsEnd => exact .nil
  | itemsComma _ _ ih => exact ih.after
  | itemsSemicolon _ _ ih => exact ih.after
  | itemsLocal _ _ _ _ ih => exact ih.after
  | itemsGlobal _ _ ih => exact ih.after
  | itemsMore h₁ h₂ ih₁ ih₂ =>
    simp only [Phrase.Resolved, occurrencesOfNodes]
    exact (ih₁.andThen h₂.declares).append (ih₂.of_suffix h₁.reaches.rest)
  | listEnd => exact .nil
  | listComma _ _ ih => exact ih.after
  | listMore h₁ h₂ ih₁ ih₂ =>
    simp only [Phrase.Resolved, occurrencesOfNodes]
    exact (ih₁.andThen h₂.declares).append (ih₂.of_suffix h₁.reaches.rest)
  | recordEnd => exact .nil
  | recordComma _ _ ih => exact ih.after
  | recordMore _ _ h₁ h₂ ih₁ ih₂ =>
    simp only [Phrase.Resolved, occurrencesOfEntries]
    have hentry := (ih₁.andThen h₂.declares).append (ih₂.of_suffix h₁.reaches.rest)
    exact hentry.after.after

-- ---------------------------------------------------------------------------
-- Scripts
-- ---------------------------------------------------------------------------

theorem ScopeTable.resolve_of_declares {table : ScopeTable} (inner outer : List ScopeId)
    (h : table.declares s name = true) :
    ∃ s' ∈ inner ++ [s], table.resolve (inner ++ s :: outer) name = some s' := by
  simp only [resolve, List.find?_append, List.find?_cons, h]
  cases hfind : inner.find? (table.declares · name) with
  | none => exact ⟨s, by simp, rfl⟩
  | some s' => exact ⟨s', List.mem_append_left _ (List.mem_of_find?_eq_some hfind), rfl⟩

/-- If a block around the variable declares its name where it is resolved, it belongs to that block
or to one inside it. -/
theorem Occurrence.Nested.scope_mem_blocks {o : Occurrence} {c : Cursor} (h : o.Nested visits)
    (hscope : o.found.scope = c.scopes.resolve (o.around.map (·.scope)) o.found.name)
    (hb : b ∈ o.around) (hdeclares : c.scopes.declares b.scope o.found.name = true) :
    ∃ b' ∈ b.blocks, o.found.scope = some b'.scope := by
  obtain ⟨inner, outer, heq⟩ := List.append_of_mem hb
  have hinside := h.inside
  rw [heq] at hscope hinside
  rw [List.map_append, List.map_cons] at hscope
  obtain ⟨s, hs, hresolve⟩ :=
    ScopeTable.resolve_of_declares (inner.map (·.scope)) (outer.map (·.scope)) hdeclares
  rw [hresolve] at hscope
  rcases List.mem_append.1 hs with hs | hs
  · obtain ⟨b', hb', rfl⟩ := List.mem_map.1 hs
    refine ⟨b', Block.mem_blocks.2 ?_, hscope⟩
    exact (List.pairwise_append.1 hinside).2.2 b' hb' b List.mem_cons_self
  · rw [List.mem_singleton.1 hs] at hscope
    refine ⟨b, Block.mem_blocks.2 ?_, hscope⟩
    cases b
    simp [Block.walk]

namespace Script

theorem resolves_of_parse {script : Script} (h : parse options source = .ok script) :
    ∃ c, script.scopes = c.scopes ∧
      ResolvesAll [] [] (source.tokens options.reserved) c script.root.occurrences := by
  obtain ⟨statements, c, hderives, hscopes, hroot⟩ := derives_of_parse h
  have hscope : script.root.scope = 0 := by simp [hroot, Block.ofKind]
  have hheader : script.root.header = none := by simp [hroot, Block.ofKind]
  have hbody : script.root.body = statements := by simp [hroot, Block.ofKind]
  refine ⟨c, hscopes, .block hscope ?_ ?_⟩
  · rw [hheader]
    exact .nil
  · rw [hbody]
    exact hderives.resolved

/-- Names resolve soundly, and completely up to the order of the text. A variable with a scope has
the block that owns it around it, and the scope declares its name. If a block around a variable
declares its name, but the variable belongs neither to it nor to a block inside it, then the name is
declared behind the variable. -/
theorem names_resolve_in_order {options : Options} {source : Source} {script : Script}
    (h : parse options source = .ok script) :
    script.root.occurrences.map (·.found) = (Node.block script.root).variables ∧
      ∀ o ∈ script.root.occurrences,
        (∀ s, o.found.scope = some s → script.scopes.declares s o.found.name = true ∧
          ∃ b ∈ o.around, ∀ b' ∈ script.root.blocks, b'.scope = s ↔ b' = b) ∧
        (∀ b ∈ o.around, script.scopes.declares b.scope o.found.name = true →
          (∀ b' ∈ b.blocks, o.found.scope ≠ some b'.scope) →
          ∃ front name post, source.tokens options.reserved = front ++ name :: post ∧
            (∃ t ∈ front, t.kind = .variable ∧ t.span.start = o.found.span.start) ∧
            name.kind = .variable ∧ name.text = o.found.name ∧ Introduces front) := by
  have hvariables := Node.map_occurrences (.block script.root)
  rw [Node.occurrences] at hvariables
  refine ⟨hvariables, fun o ho => ?_⟩
  obtain ⟨c', hscopes, hresolves⟩ := resolves_of_parse h
  obtain ⟨used, c, hts, ⟨t, ht, hkind, -, hstart⟩, hscope, hfollows⟩ := hresolves o ho
  have hnested : o.Nested (.node :: script.root.walk) := by
    simpa [Node.walk] using Node.nested (.block script.root) o
      (by simpa [Node.occurrences] using ho)
  rw [List.append_nil] at hscope
  rw [hscopes]
  constructor
  · intro s hs
    rw [hs] at hscope
    obtain ⟨hmem, hdeclares⟩ := ScopeTable.resolve_eq_some hscope.symm
    obtain ⟨b, hb, rfl⟩ := List.mem_map.1 hmem
    have hroot : b ∈ script.root.blocks := Block.mem_blocks.2 (by simpa using hnested.visited b hb)
    refine ⟨hfollows.reaches.declares _ _ hdeclares, b, hb,
      fun b' hb' => ⟨fun heq => ?_, fun heq => by rw [heq]⟩⟩
    exact List.inj_on_of_nodup_map (nodup_owned h) hb' hroot heq
  · intro b hb hdeclares hnone
    rcases hfollows.sites _ _ hdeclares with
      hbefore | ⟨front, name, post, hrest, hname, htext, hfront⟩
    · obtain ⟨b', hb', heq⟩ := hnested.scope_mem_blocks hscope hb hbefore
      exact absurd heq (hnone b' hb')
    · refine ⟨used ++ front, name, post, ?_, ?_, hname, htext, hfront⟩
      · rw [hts, hrest, List.append_assoc]
      · exact ⟨t, List.mem_append_left _ ht, hkind, hstart (source.tokens_ordered _)⟩

/-- A name that is used before its declaration in the same list. -/
theorem names_resolve_in_order_list :
    ∃ script o, parse {} (.ofText "" "let a = b, b = a") = .ok script ∧
    o ∈ script.root.occurrences ∧
      o.found.name = "b" ∧ o.found.scope = none ∧ script.scopes.declares 0 "b" = true ∧
      ∃ front name post,
        (Source.ofText "" "let a = b, b = a").tokens (Options.reserved {}) = front ++ name :: post ∧
        (∃ t ∈ front, t.kind = .variable ∧ t.span.start = o.found.span.start) ∧
        name.kind = .variable ∧ name.text = "b" ∧ Introduces front := by
  have hfacts : (parse {} (.ofText "" "let a = b, b = a")).toOption.any (fun script =>
      script.scopes.declares 0 "b" && script.root.occurrences.any fun o =>
        o.found.name == "b" && o.found.scope == none && o.around.any (·.scope == 0)) = true := by
    decide +kernel
  obtain ⟨script, h, hfound⟩ := exists_of_any_parse hfacts
  simp only [Bool.and_eq_true, List.any_eq_true, beq_iff_eq] at hfound
  obtain ⟨hdeclares, o, ho, ⟨hname, hscope⟩, b, hb, howner⟩ := hfound
  obtain ⟨-, hall⟩ := names_resolve_in_order h
  obtain ⟨front, name, post, hsite⟩ :=
    (hall o ho).2 b hb (by rw [howner, hname]; exact hdeclares) (by simp [hscope])
  rw [hname] at hsite
  exact ⟨script, o, h, ho, hname, hscope, hdeclares, front, name, post, hsite⟩

theorem mem_zip_tail (front : List Token) :
    (word, name) ∈ (front ++ word :: name :: post).zip (front ++ word :: name :: post).tail := by
  induction front with
  | nil => simp
  | cons t front ih =>
    cases hrest : front ++ word :: name :: post with
    | nil => simp at hrest
    | cons u rest =>
      rw [hrest] at ih
      simp only [List.cons_append, List.tail_cons, hrest, List.zip_cons_cons]
      exact List.mem_cons_of_mem _ ih

/-- A later declaration in a list has no word before its name. -/
theorem declared_behind_comma :
    ∃ script o b, parse {} (.ofText "" "b; let a = 1, b = 2") = .ok script ∧
    o ∈ script.root.occurrences ∧
      b ∈ o.around ∧ script.scopes.declares b.scope o.found.name = true ∧
      (∀ b' ∈ b.blocks, o.found.scope ≠ some b'.scope) ∧
      ∀ front word name post,
        (Source.ofText "" "b; let a = 1, b = 2").tokens
          (Options.reserved {}) = front ++ word :: name :: post →
        word.declaresLocal = true → name.text ≠ o.found.name := by
  have hfacts : (parse {} (.ofText "" "b; let a = 1, b = 2")).toOption.any (fun script =>
        script.scopes.declares 0 "b" && script.root.occurrences.any fun o =>
          o.found.name == "b" && o.found.scope == none && o.around.any (·.scope == 0)) = true ∧
      ∀ p ∈ ((Source.ofText "" "b; let a = 1, b = 2").tokens (Options.reserved {})).zip
        ((Source.ofText "" "b; let a = 1, b = 2").tokens (Options.reserved {})).tail,
        p.1.declaresLocal = true → p.2.text ≠ "b" := by
    decide +kernel
  obtain ⟨hscript, hwords⟩ := hfacts
  obtain ⟨script, h, hfound⟩ := exists_of_any_parse hscript
  simp only [Bool.and_eq_true, List.any_eq_true, beq_iff_eq] at hfound
  obtain ⟨hdeclares, o, ho, ⟨hname, hscope⟩, b, hb, howner⟩ := hfound
  refine ⟨script, o, b, h, ho, hb, by rw [howner, hname]; exact hdeclares, by simp [hscope], ?_⟩
  intro front word name post htokens
  rw [htokens] at hwords
  rw [hname]
  exact hwords _ (mem_zip_tail front)

end Script

end ScriptToPhp
