import Mathlib.Data.List.Chain
import ScriptToPhp.Proofs.Bodies
import ScriptToPhp.Proofs.SpanNesting
import ScriptToPhp.Proofs.TextOrder

/-!
# The `if` that an `else` belongs to

Behind a body without braces that ends with an `if`, and behind the semicolon of that body, an
`else` is looked for before the body is left. If none is there, whatever follows the body comes
behind that place. So no branch directly behind a block, or behind one semicolon, could have
belonged to an `if` at the end of the block.
-/

namespace ScriptToPhp

def Node.isKind (kind : BlockKind) : Node → Bool
  | .block b => b.kind == kind
  | _ => false

/-- A block without braces, not a `do`, whose last statement is an `if` or again such a block. -/
inductive Node.EndsInIf : Node → Prop
  | last {b : Block} {node : Node} (hopen : b.delimited = false) (hkind : b.kind ≠ .doLoop)
      (hlast : node ∈ b.body.getLast?) (hif : node.isKind .ifBranch = true) : EndsInIf (.block b)
  | inner {b : Block} {node : Node} (hopen : b.delimited = false) (hkind : b.kind ≠ .doLoop)
      (hlast : node ∈ b.body.getLast?) (hnode : EndsInIf node) : EndsInIf (.block b)

/-- Behind a position and behind a semicolon there was no `else`, and the tokens `ts` come behind
that place. -/
def ElseRefused (all : List Token) (size stop : Nat) (ts : List Token) : Prop :=
  ∃ c : Cursor, c.rest <:+ all ∧ stop ≤ nextStart size c.rest ∧ ts <:+ c.skipSemicolon.rest ∧
    c.skipSemicolon.nextIs (·.isKeyword "else") = false

def Node.BeginsIn (ts : List Token) (node : Node) : Prop :=
  node.isKind .elseBranch = true → ∃ t ts', t :: ts' <:+ ts ∧ t.isKeyword "else" = true ∧
    t.span.start = node.span.start

/-- No branch that follows belongs to an `if` at the end of the first node. -/
def Detached (all : List Token) (size : Nat) (first second : Node) : Prop :=
  first.EndsInIf → ∃ ts, ElseRefused all size first.span.stop ts ∧ second.BeginsIn ts

namespace Node

theorem endsInIf_block {b : Block} (h : (block b).EndsInIf) :
    b.delimited = false ∧ b.kind ≠ .doLoop ∧
      ∃ node ∈ b.body.getLast?, node.isKind .ifBranch = true ∨ node.EndsInIf := by
  cases h with
  | last hopen hkind hlast hif => exact ⟨hopen, hkind, _, hlast, .inl hif⟩
  | inner hopen hkind hlast hnode => exact ⟨hopen, hkind, _, hlast, .inr hnode⟩

theorem not_endsInIf_of_body {b : Block} (h : b.body = []) : ¬(block b).EndsInIf := by
  intro hends
  obtain ⟨-, -, node, hlast, -⟩ := endsInIf_block hends
  simp [h] at hlast

theorem not_endsInIf_of_delimited {b : Block} (h : b.delimited = true) : ¬(block b).EndsInIf := by
  intro hends
  cases h.symm.trans (endsInIf_block hends).1

/-- A node that is a value on its own is neither a branch nor does it end in an `if`. -/
def Inert (node : Node) : Prop := node.isKind .elseBranch = false ∧ ¬node.EndsInIf

theorem inert_of_isBlock {node : Node} (h : ∀ b, node ≠ .block b) : node.Inert := by
  cases node with
  | block b => exact absurd rfl (h b)
  | _ => exact ⟨rfl, fun hends => by cases hends⟩

end Node

theorem Grammar.endsWithIf_iff {nodes : List Node} :
    endsWithIf nodes = true ↔ ∃ node ∈ nodes.getLast?, node.isKind .ifBranch = true := by
  unfold endsWithIf
  cases hlast : nodes.getLast? with
  | none => simp
  | some node => cases node <;> simp [Node.isKind]

@[simp] theorem Block.append_delimited (b : Block) (nodes : List Node) :
    (b.append nodes).delimited = b.delimited := by
  induction nodes generalizing b with
  | nil => rfl
  | cons node nodes ih => exact ih (b.push node)

@[simp] theorem Block.withBody_delimited (b : Block) (nodes : List Node) (closing : Span) :
    (b.withBody nodes (some closing)).delimited = true := by
  simp [withBody, cover]

-- ---------------------------------------------------------------------------
-- Places
-- ---------------------------------------------------------------------------

section

variable {all ts ts' : List Token} {size stop : Nat} {first later nodes : List Node}

theorem ElseRefused.mono (h : ElseRefused all size stop ts) (hts : ts' <:+ ts) :
    ElseRefused all size stop ts' := by
  obtain ⟨c, hin, hstop, hbehind, hnext⟩ := h
  exact ⟨c, hin, hstop, hts.trans hbehind, hnext⟩

theorem ElseRefused.lower (h : ElseRefused all size stop ts) (hstop : stop' ≤ stop) :
    ElseRefused all size stop' ts := by
  obtain ⟨c, hin, hle, hbehind, hnext⟩ := h
  exact ⟨c, hin, Nat.le_trans hstop hle, hbehind, hnext⟩

theorem Node.BeginsIn.mono {node : Node} (h : node.BeginsIn ts') (hts : ts' <:+ ts) :
    node.BeginsIn ts := by
  intro helse
  obtain ⟨t, rest, hin, hword⟩ := h helse
  exact ⟨t, rest, hin.trans hts, hword⟩

theorem Node.Inert.beginsIn {node : Node} (h : node.Inert) : node.BeginsIn ts := by
  intro helse
  cases h.1.symm.trans helse

def Fronted (ts : List Token) (nodes : List Node) : Prop := ∀ node ∈ nodes.head?, node.BeginsIn ts

def AllDetached (all : List Token) (size : Nat) (nodes : List Node) : Prop :=
  nodes.IsChain (Detached all size)

/-- No branch behind some statements, among the tokens `ts`, belongs to an `if` at the end of the
last one. -/
def EndDetached (all : List Token) (size : Nat) (ts : List Token) (nodes : List Node) : Prop :=
  ∀ node ∈ nodes.getLast?, node.EndsInIf → ElseRefused all size node.span.stop ts

def BodyEndDetached (all : List Token) (size : Nat) (ts : List Token) (nodes : List Node) : Prop :=
  ∀ node ∈ nodes.getLast?, node.isKind .ifBranch = true ∨ node.EndsInIf →
    ElseRefused all size node.span.stop ts

theorem AllDetached.append (h : AllDetached all size first) (hend : EndDetached all size ts first)
    (h' : AllDetached all size later) (hfront : Fronted ts later) :
    AllDetached all size (first ++ later) :=
  List.IsChain.append h h' fun node hnode next hnext hends =>
    ⟨ts, hend node hnode hends, hfront next hnext⟩

theorem Fronted.append (h : Fronted ts first) (h' : Fronted ts' later) (hts : ts' <:+ ts) :
    Fronted ts (first ++ later) := by
  cases first with
  | nil => exact fun node hnode => (h' node hnode).mono hts
  | cons node nodes => exact h

theorem AllDetached.ofInert (h : ∀ node ∈ nodes, node.Inert) : AllDetached all size nodes := by
  refine List.isChain_iff_forall_rel_of_append_cons_cons.2 fun {first second front back}
    hnodes hends => ?_
  exact absurd hends (h first (by simp [hnodes])).2

theorem EndDetached.ofInert (h : ∀ node ∈ nodes, node.Inert) : EndDetached all size ts nodes :=
  fun node hnode hends => absurd hends (h node (List.mem_of_mem_getLast? hnode)).2

theorem mem_getLast?_append {node : Node} (h : node ∈ (first ++ later).getLast?) :
    node ∈ first.getLast? ∨ node ∈ later.getLast? := by
  rw [List.getLast?_append] at h
  rcases Option.or_eq_some_iff.1 h with hlater | ⟨-, hfirst⟩
  · exact .inr hlater
  · exact .inl hfirst

theorem EndDetached.append (h : EndDetached all size ts first) (hts : ts' <:+ ts)
    (h' : EndDetached all size ts' later) : EndDetached all size ts' (first ++ later) := by
  intro node hnode hends
  rcases mem_getLast?_append hnode with hfirst | hlater
  · exact (h node hfirst hends).mono hts
  · exact h' node hlater hends

theorem Block.stop_append_le {b : Block} {last : Node}
    (hb : ∀ node ∈ nodes, b.span.stop ≤ node.span.start)
    (hordered : ∀ node ∈ nodes, node.span.start ≤ node.span.stop)
    (hapart : nodes.Pairwise (·.span.stop ≤ ·.span.start)) (hlast : last ∈ nodes.getLast?) :
    (b.append nodes).span.stop ≤ last.span.stop := by
  induction nodes generalizing b with
  | nil => cases hlast
  | cons node nodes ih =>
    obtain ⟨hbehind, hapart⟩ := List.pairwise_cons.1 hapart
    obtain ⟨hnode, hnodes⟩ := List.forall_mem_cons.1 hordered
    obtain ⟨hstart, hstarts⟩ := List.forall_mem_cons.1 hb
    have hpush : (b.push node).span.stop = node.span.stop :=
      Nat.max_eq_right (Nat.le_trans hstart hnode)
    cases nodes with
    | nil =>
      cases hlast
      exact Nat.le_of_eq hpush
    | cons next nodes =>
      refine ih (fun other hother => ?_) hnodes hapart (by simpa using hlast)
      rw [hpush]
      exact hbehind other hother

-- ---------------------------------------------------------------------------
-- What is derived
-- ---------------------------------------------------------------------------

theorem Block.withHeader?_start_le {b : Block} :
    (b.withHeader? found).span.start ≤ b.span.start := by
  cases found with
  | none => exact Nat.le_refl _
  | some node => exact Nat.min_le_left _ _

theorem BlockKind.ofKeyword_eq_elseBranch (h : ofKeyword word = .elseBranch) : word = "else" := by
  unfold ofKeyword at h
  split at h <;> first | rfl | cases h

theorem Derives.start_block {c c' : Cursor} {b : Block} (h : Derives enclosing (.block t b) c c')
    (hlaid : LaidOut spans size (t :: c.rest)) :
    b.kind = .ofKeyword t.value ∧ b.span.start = t.span.start := by
  have hfrom : t.span.start ≤ b.span.start := (h.nests hlaid.tail _ hlaid.head).between.starts
  cases h with
  | jump => exact ⟨rfl, rfl⟩
  | jumpValue | caseLabel => exact ⟨rfl, Nat.le_antisymm (Nat.min_le_left _ _) hfrom⟩
  | defaultLabel => exact ⟨rfl, rfl⟩
  | headed =>
    exact ⟨by simp,
      Nat.le_antisymm (Nat.le_trans Block.withBody_start_le Block.withHeader?_start_le) hfrom⟩
  | doLoop =>
    exact ⟨by simp,
      Nat.le_antisymm (Nat.le_trans Block.withHeader?_start_le Block.withBody_start_le) hfrom⟩

theorem Block.stop_withHeader?_le {b : Block} (h : b.span.stop ≤ k)
    (hfound : ∀ node ∈ found, node.span.stop ≤ k) :
    (b.withHeader? found).span.stop ≤ k := by
  cases found with
  | none => exact h
  | some node => exact Nat.max_le.2 ⟨h, hfound node rfl⟩

theorem Node.Inert.declared {node : Node} (h : node.Inert) :
    ∀ made ∈ node.declared blockLocal, made.Inert := by
  unfold Node.declared
  split
  next v =>
    split
    next =>
      split
      next => exact List.forall_mem_singleton.2 (inert_of_isBlock fun b => by simp [mkAssign])
      next => simp
    next => exact List.forall_mem_singleton.2 h
  next => exact List.forall_mem_singleton.2 h

theorem Node.inert_closure {nodes : List Node} {closing : Span} :
    (Node.block ((Block.closure owner front label parameters).withBody nodes
      (some closing))).Inert :=
  ⟨by simp [isKind], not_endsInIf_of_delimited (Block.withBody_delimited ..)⟩

theorem Node.inert_returning {node : Node} :
    (Node.block ((Block.closure owner front label parameters).push
    (.block (.returning returnScope arrow node)))).Inert := by
  refine ⟨by simp [isKind], fun hends => ?_⟩
  obtain ⟨-, -, last, hlast, hlastIf⟩ := endsInIf_block hends
  obtain rfl : last = .block (.returning returnScope arrow node) := by simpa using hlast.symm
  rcases hlastIf with hif | hends
  · simp [isKind] at hif
  · exact not_endsInIf_of_body (by simp) hends

/-- Where the statements of a phrase leave no `if` behind that a branch could still belong to. -/
def Phrase.Detaches (all : List Token) (size : Nat) (ts ts' : List Token) : Phrase → Prop
  | .script nodes | .braces nodes _ => AllDetached all size nodes ∧ Fronted ts nodes
  | .statement nodes =>
    AllDetached all size nodes ∧ Fronted ts nodes ∧ EndDetached all size ts' nodes
  | .declarations _ nodes => ∀ node ∈ nodes, node.Inert
  | .block keyword b => keyword.span.stop ≤ nextStart size ts → (Node.block b).EndsInIf →
      ElseRefused all size b.span.stop ts'
  | .body nodes closing =>
    AllDetached all size nodes ∧ (closing = none → BodyEndDetached all size ts' nodes)
  | .elseBranches given nodes => ∀ c : Cursor, c.rest <:+ all → ts = c.skipSemicolon.rest →
      AllDetached all size given → EndDetached all size c.rest given →
      (∀ node ∈ given.getLast?, node.span.stop ≤ nextStart size c.rest) →
      AllDetached all size nodes ∧ BodyEndDetached all size ts' nodes
  | .function _ node | .lambda _ _ node | .value node | .operand node => node.Inert
  | .calls front node | .continuation front node => front.Inert → node.Inert
  | _ => True

theorem Phrase.detaches_inert {nodes : List Node} (h : ∀ node ∈ nodes, node.Inert) :
    Phrase.Detaches all size ts ts' (.statement nodes) :=
  ⟨.ofInert h, fun node hnode => (h node (List.mem_of_mem_head? hnode)).beginsIn, .ofInert h⟩

theorem Phrase.Detaches.more (h : Phrase.Detaches all size ts ts' (.statement first))
    (hts : ts' <:+ ts) (hlater : AllDetached all size later ∧ Fronted ts' later) :
    AllDetached all size (first ++ later) ∧ Fronted ts (first ++ later) :=
  ⟨h.1.append h.2.2 hlater.1 hlater.2, h.2.1.append hlater.2 hts⟩

theorem Derives.detaches {c c' : Cursor} (h : Derives enclosing phrase c c')
    (hlaid : LaidOut spans size all) (hin : c.rest <:+ all) :
    phrase.Detaches all size c.rest c'.rest := by
  have htail {t : Token} {ts : List Token} (hin : t :: ts <:+ all) : ts <:+ all :=
    (List.suffix_cons t ts).trans hin
  have hinert {node : Node} (hnode : ∀ b, node ≠ .block b) : node.Inert :=
    Node.inert_of_isBlock hnode
  induction h with
  | scriptEnd => exact ⟨.nil, fun _ hnode => by cases hnode⟩
  | scriptMore _ h₁ _ ih₁ ih₂ =>
    exact (ih₁ hin).more h₁.reaches.rest (ih₂ (h₁.reaches.rest.trans hin))
  | empty => exact Phrase.detaches_inert (by simp)
  | locals _ _ _ ih | globals _ _ ih => exact Phrase.detaches_inert (ih (htail hin))
  | @keyword _ b _ c t hkind _ hblock ih =>
    have hlaid₁ := hlaid.suffix hin
    obtain ⟨hof, hstart⟩ := hblock.start_block hlaid₁
    refine ⟨.singleton _, fun node hnode helse => ?_, fun node hnode hends => ?_⟩
    · cases hnode
      have hword := BlockKind.ofKeyword_eq_elseBranch (hof.symm.trans (beq_iff_eq.1 helse))
      exact ⟨t, c.rest, List.suffix_refl _, Token.isKeyword_iff.2 ⟨hkind, hword⟩, hstart.symm⟩
    · cases hnode
      exact ih (htail hin) hlaid₁.head.between.stops hends
  | named _ _ _ ih => exact Phrase.detaches_inert (List.forall_mem_singleton.2 (ih (htail hin)))
  | expression _ _ _ _ ih => exact Phrase.detaches_inert (List.forall_mem_singleton.2 (ih hin))
  | declarationsEnd _ _ _ ih => exact Node.Inert.declared (ih (by simpa using hin))
  | declarationsMore _ h _ _ ih ihmore =>
    have hcomma := h.reaches.rest.trans (by simpa using hin)
    exact List.forall_mem_append.2
      ⟨Node.Inert.declared (ih (by simpa using hin)), ihmore (htail hcomma)⟩
  | jump | jumpValue | caseLabel | defaultLabel =>
    exact fun _ hends => absurd hends (Node.not_endsInIf_of_body (by simp))
  | @headed policy enclosing header c₁ statements closing _ c t _ hheader hbody _ ihbody =>
    intro hkeyword hends
    have hlaid₁ := hlaid.suffix hin
    have hin₁ := hheader.reaches.rest.trans hin
    obtain ⟨hopen, -, node, hlast, hnode⟩ := Node.endsInIf_block hends
    cases closing with
    | some closing => cases (Block.withBody_delimited _ statements closing).symm.trans hopen
    | none =>
      obtain ⟨hrow, -⟩ := hbody.nests (hlaid.suffix hin₁)
      have hheaded : ((Block.begin c.scopes.size t).withHeader? header).span.stop ≤
          nextStart size c₁.rest :=
        Block.stop_withHeader?_le (Nat.le_trans hkeyword (hheader.nextStart_le hlaid₁))
          fun node hnode => (hheader.nests hlaid₁ node hnode).between.stops
      have hlast : node ∈ statements.getLast? := by simpa using hlast
      have hstop := Block.stop_append_le (fun other hother =>
        Nat.le_trans hheaded (hrow.stands other hother).between.starts)
        (fun other hother => (hrow.stands other hother).between.ordered) hrow.apart hlast
      exact ((ihbody hin₁).2 rfl node hlast hnode).lower hstop
  | doLoop hshape =>
    intro _ hends
    obtain ⟨-, hkind, -⟩ := Node.endsInIf_block hends
    refine absurd ?_ hkind
    simp [BlockShape.ofKeyword_eq_doLoop hshape, BlockKind.ofKeyword]
  | bodyBraces _ _ ih => exact ⟨(ih (htail hin)).1, fun hnone => by cases hnone⟩
  | @bodyStatement _ _ _ _ _ c₁ _ h₁ _ ih₁ ih₂ =>
    obtain ⟨hdetached, -, hend⟩ := ih₁ hin
    have hin₁ := h₁.reaches.rest.trans hin
    have hrow := h₁.nests (hlaid.suffix hin)
    obtain ⟨hall, hleft⟩ :=
      ih₂ (c₁.reaches_skipSemicolon.rest.trans hin₁) c₁ hin₁ rfl hdetached hend
      fun node hnode => (hrow.stands node (List.mem_of_mem_getLast? hnode)).between.stops
    exact ⟨hall, fun _ => hleft⟩
  | @noElse _ statements c hnone =>
    intro c₀ hin₀ hts hdetached hend hstop
    refine ⟨hdetached, fun node hnode hlast => ?_⟩
    rcases hlast with hif | hends
    · rw [Grammar.endsWithIf_iff.2 ⟨node, hnode, hif⟩, Bool.true_and] at hnone
      refine ⟨c₀, hin₀, hstop node hnode, hts ▸ List.suffix_refl _, ?_⟩
      rw [Cursor.nextIs, ← hts]
      exact hnone
    · exact (hend node hnode hends).mono (hts ▸ c₀.reaches_skipSemicolon.rest)
  | @elseBranch given enclosing branch _ _ c c₁ _ _ h₁ _ ih₁ ih₂ =>
    intro c₀ hin₀ hts hdetached hend hstop
    obtain ⟨hbranch, hfront, hbranchEnd⟩ := ih₁ hin
    have hin₁ := h₁.reaches.rest.trans hin
    have hrow := h₁.nests (hlaid.suffix hin)
    -- The statements so far have left the place behind their semicolon, where the branch begins.
    have hend : EndDetached all size c.rest given := fun node hnode hends =>
      (hend node hnode hends).mono (hts ▸ c₀.reaches_skipSemicolon.rest)
    refine ih₂ (c₁.reaches_skipSemicolon.rest.trans hin₁) c₁ hin₁
      rfl (hdetached.append hend hbranch hfront)
      (hend.append h₁.reaches.rest hbranchEnd) fun node hnode => ?_
    rcases mem_getLast?_append hnode with hgiven | hbranch
    · refine Nat.le_trans (hstop node hgiven) (Nat.le_trans ?_ (h₁.nextStart_le (hlaid.suffix hin)))
      rw [hts]
      exact (hlaid.suffix hin₀).nextStart_le c₀.reaches_skipSemicolon.rest
    · exact (hrow.stands node (List.mem_of_mem_getLast? hbranch)).between.stops
  | bracesEnd => exact ⟨.nil, fun _ hnode => by cases hnode⟩
  | bracesMore _ h₁ _ ih₁ ih₂ =>
    exact (ih₁ hin).more h₁.reaches.rest (ih₂ (h₁.reaches.rest.trans hin))
  | function | lambdaBraces => exact Node.inert_closure
  | lambdaValue => exact Node.inert_returning
  | value h₁ _ ih₁ ih₂ => exact ih₂ (h₁.reaches.rest.trans hin) (ih₁ hin)
  | literal | name | group | list | record | leading => exact hinert fun b => by simp [Node.mkUnary]
  | nameArrow _ h₁ _ _ _ ih | groupArrow _ h₁ _ _ _ ih =>
    exact ih (htail (h₁.reaches.rest.trans (htail hin)))
  | functionLiteral _ _ ih => exact ih (htail hin)
  | callsEnd | continuationEnd => exact id
  | callsMore _ h₁ _ _ ih | call _ h₁ _ _ ih =>
    exact fun _ => ih (h₁.reaches.rest.trans (htail hin)) (hinert fun b => by simp [Node.mkCall])
  | ternary _ h₁ _ h₂ _ _ _ ih =>
    exact fun _ => ih (h₂.reaches.rest.trans (htail (h₁.reaches.rest.trans (htail hin))))
      (hinert fun b => by simp [Node.mkTernary])
  | trailing => exact fun _ => hinert fun b => by simp [Node.mkUnary]
  | assign _ h₁ _ _ _ ih =>
    exact fun _ => ih (h₁.reaches.rest.trans (htail hin)) (hinert fun b => by simp [Node.mkAssign])
  | binary _ h₁ _ _ ih =>
    exact fun _ => ih (h₁.reaches.rest.trans (htail hin)) (hinert fun b => by simp [Node.mkBinary])
  | _ => trivial

-- ---------------------------------------------------------------------------
-- Scripts
-- ---------------------------------------------------------------------------

theorem Token.eq_of_start {t u : Token} {us : List Token}
    (hordered : all.Pairwise (·.span.start < ·.span.start)) (ht : t :: ts <:+ all)
    (hu : u :: us <:+ all) (hstart : t.span.start = u.span.start) : t :: ts = u :: us := by
  have hbehind {t u : Token} {us : List Token} (hu : u :: us <:+ all) (ht : t ∈ us) :
      u.span.start < t.span.start :=
    (List.pairwise_cons.1 (hordered.sublist hu.sublist)).1 t ht
  rcases List.suffix_or_suffix_of_suffix ht hu with h | h
  · rcases List.suffix_cons_iff.1 h with h | h
    · exact h
    · exact absurd hstart (Nat.ne_of_gt (hbehind hu (h.subset List.mem_cons_self)))
  · rcases List.suffix_cons_iff.1 h with h | h
    · exact h.symm
    · exact absurd hstart (Nat.ne_of_lt (hbehind ht (h.subset List.mem_cons_self)))

/-- Directly behind a token, or behind one semicolon, an `else` is found. -/
theorem not_elseRefused {before between after : List Token} {last word : Token}
    (hlaid : LaidOut spans size all) (hlast : last.span.start < last.span.stop)
    (hall : all = before ++ last :: (between ++ word :: after))
    (hbetween : between = [] ∨ ∃ semicolon : Token,
    between = [semicolon] ∧ semicolon.isMark ';' = true)
    (hword : word.isKeyword "else" = true) (hts : word :: after <:+ ts) :
    ¬ElseRefused all size last.span.stop ts := by
  rintro ⟨c, hin, hstop, hbehind, hnext⟩
  have hfound (hrest : c.skipSemicolon.rest = word :: after) : False := by
    simp [Cursor.nextIs, hrest, hword] at hnext
  have hsuffix : last :: (between ++ word :: after) <:+ all := ⟨before, hall.symm⟩
  -- The place lies behind the token, for it stops before the place.
  have hlater : c.rest <:+ between ++ word :: after := by
    have hne : ¬last :: (between ++ word :: after) <:+ c.rest := fun h =>
      absurd (Nat.le_trans hstop ((hlaid.suffix hin).nextStart_le h)) (Nat.not_le_of_lt hlast)
    rcases List.suffix_or_suffix_of_suffix hin hsuffix with h | h
    · rcases List.suffix_cons_iff.1 h with h | h
      · exact absurd (h ▸ List.suffix_refl _) hne
      · exact h
    · exact absurd h hne
  have hdirect (h : c.rest <:+ word :: after) : False := by
    have hle := (c.reaches_skipSemicolon.rest.trans h).length_le
    have hge := hts.trans hbehind
    exact hfound (hge.eq_of_length (Nat.le_antisymm hge.length_le hle)).symm
  rcases hbetween with rfl | ⟨semicolon, rfl, hsemicolon⟩
  · exact hdirect hlater
  · rcases List.suffix_cons_iff.1 hlater with h | h
    · exact hfound (by simp [Cursor.skipSemicolon, Cursor.nextIs, h, hsemicolon])
    · exact hdirect h

end

namespace Script

/-- A branch belongs to the nearest `if`: where it follows a statement of a body, its `else`
directly behind the last token of the statement or behind one semicolon, no `if` is left open at the
end of the statement. -/
theorem else_belongs_to_nearest_if {options : Options} {source : Source} {script : Script}
    (h : parse options source = .ok script) {b branch : Block} (hb : b ∈ script.root.blocks)
    {front back : List Node} {statement : Node}
    (hbody : b.body = front ++ statement :: .block branch :: back)
    (hkind : branch.kind = .elseBranch) {before between after : List Token} {last word : Token}
    (htokens : source.tokens options.reserved = before ++ last :: (between ++ word :: after))
    (hlast : last.span.stop = statement.span.stop)
    (hbetween : between = [] ∨ ∃ semicolon : Token,
    between = [semicolon] ∧ semicolon.isMark ';' = true)
    (hword : word.span.start = branch.span.start) : ¬statement.EndsInIf := by
  have hlaid := source.laidOut options.reserved
  have hordered := source.tokens_ordered options.reserved
  have hdetached : AllDetached (source.tokens options.reserved) source.size b.body :=
    bodies h ⟨.nil, .singleton, fun h hin => (h.detaches hlaid hin.rest).1,
      fun h hin => (h.detaches hlaid hin.rest).1⟩
      (fun _ _ _ h => (h.detaches hlaid (List.suffix_refl _)).1) hb
  intro hends
  obtain ⟨ts, hrefused, hbegins⟩ :=
    List.isChain_iff_forall_rel_of_append_cons_cons.1 hdetached hbody hends
  obtain ⟨t, ts', hin, helse, hstart⟩ := hbegins (beq_iff_eq.2 hkind)
  have hsuffix : word :: after <:+ source.tokens options.reserved :=
    ⟨before ++ last :: between, by simp [htokens]⟩
  have hall : t :: ts' <:+ source.tokens options.reserved := by
    obtain ⟨c, hc, -, hbehind, -⟩ := hrefused
    exact hin.trans (hbehind.trans (c.reaches_skipSemicolon.rest.trans hc))
  obtain ⟨rfl, rfl⟩ := List.cons.inj
    (Token.eq_of_start hordered hall hsuffix (hstart.trans hword.symm))
  obtain ⟨-, pre, hlexed⟩ := Source.mem_tokens
    (htokens ▸ by simp : last ∈ source.tokens options.reserved)
  exact not_elseRefused hlaid hlexed.start_lt_stop htokens hbetween helse hin (hlast ▸ hrefused)

/-- The second `else` is a branch of the outer `if`, at the end of which the inner one has its
own. -/
theorem else_belongs_to_nearest_if_nested : ∃ script statement branch,
    parse {} (.ofText "" "if (a) if (b) c; else d; else e") = .ok script ∧
      script.root.body = [statement, .block branch] ∧ statement.isKind .ifBranch = true ∧
      branch.kind = .elseBranch ∧ ¬statement.EndsInIf := by
  have hfacts : (parse {} (.ofText "" "if (a) if (b) c; else d; else e")).toOption.any
      (fun script =>
        script.root.body.map (fun node =>
          (node.isKind .ifBranch, node.isKind .elseBranch, node.span)) ==
          [(true, false, ⟨0, 23⟩), (false, true, ⟨25, 31⟩)]) = true ∧
        ((Source.ofText "" "if (a) if (b) c; else d; else e").tokens
          ({} : Options).reserved |>.drop 11 |>.map fun t =>
          (t.isMark ';', t.span)) =
          [(false, ⟨22, 23⟩), (true, ⟨23, 24⟩), (false, ⟨25, 29⟩), (false, ⟨30, 31⟩)] := by
    decide +kernel
  obtain ⟨script, h, hbody⟩ := exists_of_any_parse hfacts.1
  obtain ⟨statement, rest, hbody, hstatement, hrest⟩ := List.map_eq_cons_iff.1 (eq_of_beq hbody)
  obtain ⟨node, rest, rfl, hnode, hrest⟩ := List.map_eq_cons_iff.1 hrest
  obtain rfl := List.map_eq_nil_iff.1 hrest
  simp only [Prod.mk.injEq] at hstatement hnode
  obtain ⟨last, _, htokens, hlast, hmore⟩ := List.map_eq_cons_iff.1 hfacts.2
  obtain ⟨semicolon, _, rfl, hsemicolon, hmore⟩ := List.map_eq_cons_iff.1 hmore
  obtain ⟨word, after, rfl, hword, -⟩ := List.map_eq_cons_iff.1 hmore
  simp only [Prod.mk.injEq] at hlast hsemicolon hword
  cases node with
  | block branch =>
    have hkind : branch.kind = .elseBranch := beq_iff_eq.1 hnode.2.1
    have hroot : script.root ∈ script.root.blocks := Block.mem_blocks.2 (by simp [Block.walk_eq])
    have hpair : script.root.body = [] ++ statement :: .block branch :: [] := hbody
    have hsplit :=
      (List.take_append_drop 11 ((Source.ofText "" "if (a) if (b) c; else d; else e").tokens
      ({} : Options).reserved)).symm
    rw [htokens, ← List.singleton_append (l := word :: after)] at hsplit
    refine ⟨script, statement, branch, h, hbody, hstatement.1, hkind, ?_⟩
    refine else_belongs_to_nearest_if h hroot hpair hkind hsplit ?_
      (.inr ⟨semicolon, rfl, hsemicolon.1⟩) ?_
    · rw [hlast.2, hstatement.2.2]
    · rw [hword.2]
      exact (congrArg Span.start hnode.2.2).symm
  | _ => cases hnode.2.1

end Script

end ScriptToPhp
