import ScriptToPhp.Proofs.TextOrder

/-!
# Where values start

A value starts at its first token: nothing in it starts before, and it is widened by what comes
behind.
-/

namespace ScriptToPhp

-- ---------------------------------------------------------------------------
-- Nothing starts before its tokens
-- ---------------------------------------------------------------------------

structure Span.From (k : Nat) (s : Span) : Prop where
  start : k ≤ s.start
  stop : k ≤ s.stop

namespace Span

theorem From.union {a b : Span} (ha : a.From k) (hb : b.From k) : (a.union b).From k :=
  ⟨Nat.le_min.2 ⟨ha.start, hb.start⟩, Nat.le_trans ha.stop (Nat.le_max_left ..)⟩

theorem union_start_le (a b : Span) : (a.union b).start ≤ a.start := Nat.min_le_left ..

theorem union_start_le_right (a b : Span) : (a.union b).start ≤ b.start := Nat.min_le_right ..

end Span

section

variable {b : Block} {nodes : List Node} {closing : Option Span} {found : Option Node}
  {parameters : Group}

theorem Block.from_append (h : b.span.From k) (hnodes : ∀ node ∈ nodes, node.span.From k) :
    (b.append nodes).span.From k := by
  induction nodes generalizing b with
  | nil => exact h
  | cons node nodes ih =>
    rw [List.forall_mem_cons] at hnodes
    exact ih (b := b.push node) (h.union hnodes.1) hnodes.2

theorem Block.from_withBody (h : b.span.From k) (hnodes : ∀ node ∈ nodes, node.span.From k)
    (hclosing : ∀ s ∈ closing, s.From k) : (b.withBody nodes closing).span.From k := by
  cases closing with
  | none => exact from_append h hnodes
  | some closing =>
    exact (from_append (b := { b with delimited := true }) h hnodes).union (hclosing _ rfl)

theorem Block.from_withHeader? (h : b.span.From k) (hfound : ∀ node ∈ found, node.span.From k) :
    (b.withHeader? found).span.From k := by
  cases found with
  | none => exact h
  | some node => exact h.union (hfound node rfl)

theorem Block.append_start_le : (b.append nodes).span.start ≤ b.span.start := by
  induction nodes generalizing b with
  | nil => exact Nat.le_refl _
  | cons node nodes ih => exact Nat.le_trans (ih (b := b.push node)) (Span.union_start_le ..)

theorem Block.withBody_start_le : (b.withBody nodes closing).span.start ≤ b.span.start := by
  cases closing with
  | none => exact append_start_le
  | some closing =>
    exact Nat.le_trans (Span.union_start_le ..)
      (append_start_le (b := { b with delimited := true }))

theorem Block.closure_start_le : (closure owner front label parameters).span.start ≤ front.start :=
  Span.union_start_le ..

end

theorem Node.from_declared {node : Node} (h : node.span.From k) :
    ∀ made ∈ node.declared blockLocal, made.span.From k := by
  intro made hmade
  unfold declared at hmade
  split at hmade
  next v =>
    split at hmade
    next =>
      split at hmade
      next =>
        rw [List.mem_singleton.1 hmade]
        exact h.union ⟨h.stop, h.stop⟩
      next => cases hmade
    next => rwa [List.mem_singleton.1 hmade]
  next => rwa [List.mem_singleton.1 hmade]

theorem Token.span_of_literal? {t : Token} (h : t.literal? = some l) : l.span = t.span := by
  unfold literal? at h
  split at h <;> cases h <;> rfl

def Cursor.From (k : Nat) (c : Cursor) : Prop := ∀ t ∈ c.rest, t.span.From k

namespace Cursor

@[grind =] theorem from_before : (before c t).From k ↔ t.span.From k ∧ c.From k := by simp [From]

@[grind =] theorem from_enter : (enter c enclosing).From k ↔ c.From k := Iff.rfl

@[grind =] theorem from_declare : (declare c enclosing name).From k ↔ c.From k := Iff.rfl

@[grind =] theorem from_introduce :
    (introduce c blockLocal enclosing name).From k ↔ c.From k := by simp [From]

theorem Reaches.from {c c' : Cursor} (h : c.Reaches c') (hc : c.From k) : c'.From k :=
  fun t ht => hc t (h.rest.subset ht)

@[grind →] theorem from_before? (h : (before? c name).From k) : c.From k :=
  (c.reaches_before? name).from h

@[grind ←] theorem from_skipSemicolon (h : From k c) : c.skipSemicolon.From k :=
  c.reaches_skipSemicolon.from h

end Cursor

@[grind →] theorem Derives.from_rest (h : Derives enclosing phrase c c') (hc : c.From k) :
    c'.From k :=
  h.reaches.from hc

@[grind =] def Phrase.GivenFrom (k : Nat) : Phrase → Prop
  | .elseBranches nodes _ => ∀ node ∈ nodes, node.span.From k
  | .block keyword _ | .function keyword _ => keyword.span.From k
  | .lambda arrow parameters _ => arrow.From k ∧ parameters.span.From k
  | .calls front _ | .continuation front _ => front.span.From k
  | .accesses name _ _ => name.From k
  | _ => True

@[grind =] def Phrase.From (k : Nat) : Phrase → Prop
  | .script nodes | .statement nodes | .declarations _ nodes | .elseBranches _ nodes =>
    ∀ node ∈ nodes, node.span.From k
  | .body nodes closing => (∀ node ∈ nodes, node.span.From k) ∧ ∀ s ∈ closing, s.From k
  | .braces nodes closing => (∀ node ∈ nodes, node.span.From k) ∧ closing.From k
  | .block _ b => b.span.From k
  | .header _ found | .loopCondition found => ∀ node ∈ found, node.span.From k
  | .function _ node | .lambda _ _ node | .value node | .operand node | .calls _ node
  | .continuation _ node => node.span.From k
  | .accesses _ _ span => span.From k
  | .items _ _ _ closing | .listItems _ _ closing | .recordEntries _ _ closing => closing.From k

section

attribute [local grind ←] Span.From.union Block.from_append Block.from_withBody
  Block.from_withHeader?
attribute [local grind →] Node.from_declared Token.span_of_literal?
attribute [local grind =] Node.span Node.mkBinary Node.mkAssign Node.mkTernary Node.mkCall
  Node.mkUnary
attribute [local grind =] Block.ofKind Block.begin Block.returning Block.closure Block.cover
  Block.withHeader
  Block.push

/-- What a phrase makes lies where its tokens lie. -/
theorem Derives.from (h : Derives enclosing phrase c c') (hc : c.From k)
    (hgiven : phrase.GivenFrom k) :
    phrase.From k := by
  induction h <;> grind

end

-- ---------------------------------------------------------------------------
-- A value starts no later than its first token
-- ---------------------------------------------------------------------------

/-- What a phrase makes starts no later than its first token, or than what it starts from. -/
@[grind =] def Phrase.StartsBy (ts : List Token) : Phrase → Prop
  | .value node | .operand node => ∀ t ∈ ts.head?, node.span.start ≤ t.span.start
  | .function keyword node => node.span.start ≤ keyword.span.start
  | .lambda _ parameters node => node.span.start ≤ parameters.span.start
  | .calls front node | .continuation front node => node.span.start ≤ front.span.start
  | .accesses name _ span => span.start ≤ name.start
  | _ => True

section

grind_pattern Span.union_start_le => Span.union a b
grind_pattern Span.union_start_le_right => Span.union a b
grind_pattern Block.withBody_start_le => Block.withBody b nodes closing
grind_pattern Block.closure_start_le => Block.closure owner front label parameters

attribute [local grind →] Token.span_of_literal?
attribute [local grind =] Node.span Node.mkBinary Node.mkAssign Node.mkTernary Node.mkCall
  Node.mkUnary
attribute [local grind =] Block.cover Block.push Cursor.before_rest

theorem Derives.startsBy (h : Derives enclosing phrase c c') : phrase.StartsBy c.rest := by
  induction h <;> grind

end

theorem Derives.from_value {c : Cursor} (h : Derives enclosing (.value node) (c.before t) c')
    (hr : Regular drops (t :: c.rest)) : node.span.From t.span.start := by
  refine h.from (k := t.span.start) (fun u hu => ?_) trivial
  have hstart : t.span.start ≤ u.span.start := by
    rcases List.mem_cons.1 hu with rfl | hu
    · exact Nat.le_refl _
    · exact hr.start_le u hu
  exact ⟨hstart, Nat.le_trans hstart (Nat.le_of_lt (hr.nonempty u hu))⟩

/-- A value starts at its first token. -/
theorem Derives.start_value {c : Cursor} (h : Derives enclosing (.value node) (c.before t) c')
    (hr : Regular drops (t :: c.rest)) : node.span.start = t.span.start :=
  Nat.le_antisymm (h.startsBy t rfl) (h.from_value hr).start

end ScriptToPhp
