import ScriptToPhp.Proofs.SpanArithmetic
import ScriptToPhp.Proofs.Starts
import ScriptToPhp.Proofs.WellFormed

/-!
# Nested spans

A phrase stands between the tokens before it and those behind it, and so does the span of what is
made of it. From this follows where spans lie to each other: what is in a node lies in the span of
the node, and the statements of a body follow one another.
-/

namespace ScriptToPhp

-- ---------------------------------------------------------------------------
-- One span in another
-- ---------------------------------------------------------------------------

structure Span.Holds (outer inner : Span) : Prop where
  start : outer.start ≤ inner.start
  stop : inner.stop ≤ outer.stop

namespace Span.Holds

theorem refl (s : Span) : s.Holds s := ⟨Nat.le_refl _, Nat.le_refl _⟩

theorem trans {a b c : Span} (h : a.Holds b) (h' : b.Holds c) : a.Holds c :=
  ⟨Nat.le_trans h.start h'.start, Nat.le_trans h'.stop h.stop⟩

theorem union_left (a b : Span) : (a.union b).Holds a := ⟨Nat.min_le_left _ _, Nat.le_max_left _ _⟩

theorem union_right (a b : Span) : (a.union b).Holds b :=
  ⟨Nat.min_le_right _ _, Nat.le_max_right _ _⟩

end Span.Holds

def Access.key? : Access → Option Literal
  | .property key => some key
  | .index _ => none

def Node.keys : Node → List Literal
  | .variable v => v.chain.filterMap Access.key?
  | .record entries _ => entries.map (·.1)
  | _ => []

def Node.innerSpans (node : Node) : List Span :=
  node.children.map Node.span ++ node.keys.map (·.span)

/-- The spans in a node are computed and lie in the span of the node, and those of statements follow
one another. -/
structure Node.SpansNest (spans : List Span) (size : Nat) (node : Node) : Prop where
  computed : node.span.Computed spans size
  inner : ∀ s ∈ node.innerSpans, s.Computed spans size ∧ node.span.Holds s
  apart : node.statements.Pairwise (·.span.stop ≤ ·.span.start)

abbrev Node.AllNest (spans : List Span) (size : Nat) (node : Node) : Prop :=
  node.Throughout (SpansNest spans size)

section

variable {spans : List Span} {size : Nat} {node : Node}

theorem Node.AllNest.intro (hcomputed : node.span.Computed spans size)
    (hchildren : ∀ child ∈ node.children, child.AllNest spans size ∧ node.span.Holds child.span)
    (hkeys : ∀ key ∈ node.keys, key.span.Computed spans size ∧ node.span.Holds key.span)
    (hapart : node.statements.Pairwise (·.span.stop ≤ ·.span.start)) : node.AllNest spans size := by
  refine Node.throughout_iff.2 ⟨⟨hcomputed, ?_, hapart⟩,
    fun child hchild => (hchildren child hchild).1⟩
  refine List.forall_mem_append.2
    ⟨List.forall_mem_map.2 fun child hchild => ?_, List.forall_mem_map.2 hkeys⟩
  obtain ⟨hnest, hholds⟩ := hchildren child hchild
  exact ⟨(hnest child .root).computed, hholds⟩

end

-- ---------------------------------------------------------------------------
-- Spans between positions
-- ---------------------------------------------------------------------------

structure Span.Between (lo hi : Nat) (s : Span) : Prop where
  starts : lo ≤ s.start
  ordered : s.start ≤ s.stop
  stops : s.stop ≤ hi

namespace Span.Between

variable {lo mid hi : Nat} {a b s : Span}

theorem le (h : s.Between lo hi) : lo ≤ hi := Nat.le_trans h.starts (Nat.le_trans h.ordered h.stops)

theorem lower (h : s.Between lo hi) (hlo : lo' ≤ lo) : s.Between lo' hi :=
  ⟨Nat.le_trans hlo h.starts, h.ordered, h.stops⟩

theorem raise (h : s.Between lo hi) (hhi : hi ≤ hi') : s.Between lo hi' :=
  ⟨h.starts, h.ordered, Nat.le_trans h.stops hhi⟩

theorem union (ha : a.Between lo hi) (hb : b.Between lo hi) : (a.union b).Between lo hi where
  starts := Nat.le_min.2 ⟨ha.starts, hb.starts⟩
  ordered := Nat.le_trans (Nat.min_le_left _ _) (Nat.le_trans ha.ordered (Nat.le_max_left _ _))
  stops := Nat.max_le.2 ⟨ha.stops, hb.stops⟩

theorem union_holds (ha : a.Between lo mid) (hs : s.Between mid mid') (hb : b.Between mid' hi) :
    (a.union b).Holds s where
  start :=
    calc min a.start b.start ≤ a.start := Nat.min_le_left _ _
      _ ≤ a.stop := ha.ordered
      _ ≤ mid := ha.stops
      _ ≤ s.start := hs.starts
  stop :=
    calc s.stop ≤ mid' := hs.stops
      _ ≤ b.start := hb.starts
      _ ≤ b.stop := hb.ordered
      _ ≤ max a.stop b.stop := Nat.le_max_right _ _

end Span.Between

/-- Where the next token starts, or the text stops. -/
def nextStart (size : Nat) : List Token → Nat
  | [] => size
  | t :: _ => t.span.start

inductive LaidOut (spans : List Span) (size : Nat) : List Token → Prop
  | nil : LaidOut spans size []
  | cons (hspan : t.span ∈ spans) (hbetween : t.span.Between t.span.start (nextStart size ts))
      (hts : LaidOut spans size ts) : LaidOut spans size (t :: ts)

structure Span.Stands (spans : List Span) (size lo hi : Nat) (s : Span) : Prop where
  computed : s.Computed spans size
  between : s.Between lo hi

structure Node.Stands (spans : List Span) (size lo hi : Nat) (node : Node) : Prop where
  nested : node.AllNest spans size
  between : node.span.Between lo hi

structure Row (spans : List Span) (size lo hi : Nat) (nodes : List Node) : Prop where
  stands : ∀ node ∈ nodes, node.Stands spans size lo hi
  apart : nodes.Pairwise (·.span.stop ≤ ·.span.start)

structure Enclosed (spans : List Span) (size lo hi : Nat) (mark : Span)
    (nodes : List Node) : Prop where
  closing : mark.Stands spans size lo hi
  stands : ∀ node ∈ nodes, node.Stands spans size lo mark.start

section

variable {spans : List Span} {size lo mid hi : Nat} {a b s mark : Span} {node : Node}
  {nodes : List Node} {ts ts' : List Token} {t opening : Token}

namespace LaidOut

theorem tail (h : LaidOut spans size (t :: ts)) : LaidOut spans size ts := by
  cases h with
  | cons _ _ hts => exact hts

theorem head (h : LaidOut spans size (t :: ts)) :
    t.span.Stands spans size t.span.start (nextStart size ts) := by
  cases h with
  | cons hspan hbetween => exact ⟨.token hspan, hbetween⟩

theorem head_le (h : LaidOut spans size (t :: ts)) : t.span.start ≤ nextStart size ts :=
  h.head.between.le

theorem suffix (h : LaidOut spans size ts) (hsuffix : ts' <:+ ts) : LaidOut spans size ts' := by
  induction h with
  | nil =>
    rw [List.suffix_nil.1 hsuffix]
    exact .nil
  | cons hspan hbetween hts ih =>
    rcases List.suffix_cons_iff.1 hsuffix with rfl | hsuffix
    · exact .cons hspan hbetween hts
    · exact ih hsuffix

theorem nextStart_le (h : LaidOut spans size ts) (hsuffix : ts' <:+ ts) :
    nextStart size ts ≤ nextStart size ts' := by
  induction h with
  | nil =>
    rw [List.suffix_nil.1 hsuffix]
  | cons _ hbetween _ ih =>
    rcases List.suffix_cons_iff.1 hsuffix with rfl | hsuffix
    · exact Nat.le_refl _
    · exact Nat.le_trans hbetween.le (ih hsuffix)

end LaidOut

theorem Span.Stands.lower (h : s.Stands spans size lo hi) (hlo : lo' ≤ lo) :
    s.Stands spans size lo' hi :=
  ⟨h.computed, h.between.lower hlo⟩

theorem Span.Stands.raise (h : s.Stands spans size lo hi) (hhi : hi ≤ hi') :
    s.Stands spans size lo hi' :=
  ⟨h.computed, h.between.raise hhi⟩

theorem Span.Stands.union (ha : a.Stands spans size lo hi) (hb : b.Stands spans size lo hi) :
    (a.union b).Stands spans size lo hi :=
  ⟨ha.computed.union hb.computed, ha.between.union hb.between⟩

theorem Span.Stands.behind (h : s.Stands spans size lo hi) :
    (Span.empty s.stop).Stands spans size lo hi :=
  ⟨h.computed.behind, Nat.le_trans h.between.starts h.between.ordered, Nat.le_refl _,
    h.between.stops⟩

theorem Node.Stands.lower (h : node.Stands spans size lo hi) (hlo : lo' ≤ lo) :
    node.Stands spans size lo' hi :=
  ⟨h.nested, h.between.lower hlo⟩

theorem Node.Stands.raise (h : node.Stands spans size lo hi) (hhi : hi ≤ hi') :
    node.Stands spans size lo hi' :=
  ⟨h.nested, h.between.raise hhi⟩

theorem Node.Stands.span (h : node.Stands spans size lo hi) : node.span.Stands spans size lo hi :=
  ⟨(h.nested node .root).computed, h.between⟩

theorem Row.nil : Row spans size lo hi [] := ⟨by simp, List.Pairwise.nil⟩

theorem Row.single (h : node.Stands spans size lo hi) : Row spans size lo hi [node] :=
  ⟨List.forall_mem_singleton.2 h, List.pairwise_singleton _ _⟩

theorem Row.lower (h : Row spans size lo hi nodes) (hlo : lo' ≤ lo) : Row spans size lo' hi nodes :=
  ⟨fun node hnode => (h.stands node hnode).lower hlo, h.apart⟩

theorem Row.raise (h : Row spans size lo hi nodes) (hhi : hi ≤ hi') : Row spans size lo hi' nodes :=
  ⟨fun node hnode => (h.stands node hnode).raise hhi, h.apart⟩

theorem Row.append {later : List Node} (h : Row spans size lo mid nodes)
    (h' : Row spans size mid hi later) (hlo : lo ≤ mid) (hhi : mid ≤ hi) :
    Row spans size lo hi (nodes ++ later) where
  stands := List.forall_mem_append.2 ⟨(h.raise hhi).stands, (h'.lower hlo).stands⟩
  apart := by
    refine List.pairwise_append.2 ⟨h.apart, h'.apart, fun first hfirst second hsecond => ?_⟩
    exact Nat.le_trans (h.stands first hfirst).between.stops
      (h'.stands second hsecond).between.starts

namespace Enclosed

theorem nil (h : mark.Stands spans size lo hi) : Enclosed spans size lo hi mark [] := ⟨h, by simp⟩

theorem lower (h : Enclosed spans size lo hi mark nodes) (hlo : lo' ≤ lo) :
    Enclosed spans size lo' hi mark nodes :=
  ⟨h.closing.lower hlo, fun node hnode => (h.stands node hnode).lower hlo⟩

theorem cons (hnode : node.Stands spans size lo mid) (h : Enclosed spans size mid hi mark nodes) :
    Enclosed spans size lo hi mark (node :: nodes) where
  closing := (h.lower hnode.between.le).closing
  stands := List.forall_mem_cons.2
    ⟨hnode.raise h.closing.between.starts, (h.lower hnode.between.le).stands⟩

theorem holds (h : Enclosed spans size mid hi mark nodes) (hopening : s.Between lo mid)
    (hnode : node ∈ nodes) :
    (s.union mark).Holds node.span :=
  hopening.union_holds (h.stands node hnode).between
    ⟨Nat.le_refl _, h.closing.between.ordered, h.closing.between.stops⟩

theorem span (h : Enclosed spans size mid hi mark nodes) (hopening : s.Stands spans size lo mid) :
    (s.union mark).Stands spans size lo hi :=
  (hopening.raise h.closing.between.le).union (h.closing.lower hopening.between.le)

end Enclosed

-- ---------------------------------------------------------------------------
-- Values
-- ---------------------------------------------------------------------------

namespace Node

theorem Stands.intro (hspan : node.span.Stands spans size lo hi)
    (hoperands : ∀ operand ∈ node.operands,
      operand.AllNest spans size ∧ node.span.Holds operand.span)
    (hkeys : ∀ key ∈ node.keys, key.span.Computed spans size ∧ node.span.Holds key.span)
    (hstatements : node.statements = []) : node.Stands spans size lo hi := by
  refine ⟨.intro hspan.computed ?_ hkeys (by simp [hstatements]), hspan.between⟩
  rwa [children, hstatements, List.append_nil]

theorem Stands.ofOperands (hspan : node.span.Stands spans size lo hi) (hkeys : node.keys = [])
    (hstatements : node.statements = [])
    (hoperands : ∀ operand ∈ node.operands,
      operand.AllNest spans size ∧ node.span.Holds operand.span) :
    node.Stands spans size lo hi :=
  .intro hspan hoperands (by simp [hkeys]) hstatements

theorem stands_literal {l : Literal} (h : l.span.Stands spans size lo hi) :
    (literal l).Stands spans size lo hi :=
  .ofOperands h rfl rfl (by simp [operands])

theorem Stands.ofPair {left right : Node} (hspan : node.span = left.span.union right.span)
    (hoperands : node.operands = [left, right]) (hkeys : node.keys = [])
    (hstatements : node.statements = []) (hleft : left.Stands spans size lo hi)
    (hright : right.Stands spans size lo hi) : node.Stands spans size lo hi := by
  refine .ofOperands (hspan ▸ hleft.span.union hright.span) hkeys hstatements ?_
  rw [hoperands, hspan]
  exact List.forall_mem_cons.2 ⟨⟨hleft.nested, .union_left _ _⟩,
    List.forall_mem_singleton.2 ⟨hright.nested, .union_right _ _⟩⟩

theorem stands_unary {operand : Node} (hoperand : operand.Stands spans size lo hi)
    (hmark : mark.Stands spans size lo hi) :
    (mkUnary op operand fixity mark).Stands spans size lo hi :=
  .ofOperands (hoperand.span.union hmark)
    rfl rfl (List.forall_mem_singleton.2 ⟨hoperand.nested, .union_left _ _⟩)

/-- Only the outer parts of a ternary are united. The middle one lies between them. -/
theorem stands_ternary {condition whenTrue whenFalse : Node}
    (hcondition : condition.Stands spans size lo mid) (htrue : whenTrue.Stands spans size mid mid')
    (hfalse : whenFalse.Stands spans size mid' hi) :
    (mkTernary condition whenTrue whenFalse).Stands spans size lo hi := by
  have hspan := (hcondition.raise (Nat.le_trans htrue.between.le hfalse.between.le)).span.union
    (hfalse.lower (Nat.le_trans hcondition.between.le htrue.between.le)).span
  refine .ofOperands hspan rfl rfl ?_
  simp only [mkTernary, operands, List.forall_mem_cons, List.not_mem_nil, false_imp_iff,
    implies_true, and_true]
  exact ⟨⟨hcondition.nested, .union_left _ _⟩,
    ⟨htrue.nested, hcondition.between.union_holds htrue.between hfalse.between⟩, hfalse.nested,
      .union_right _ _⟩

theorem Stands.ofEnclosed (hspan : node.span = s.union mark) (hoperands : node.operands = nodes)
    (hkeys : node.keys = []) (hstatements : node.statements = [])
    (hopening : s.Stands spans size lo mid) (h : Enclosed spans size mid hi mark nodes) :
    node.Stands spans size lo hi := by
  refine .ofOperands (hspan ▸ h.span hopening) hkeys hstatements fun item hitem => ?_
  rw [hoperands] at hitem
  rw [hspan]
  exact ⟨(h.stands item hitem).nested, h.holds hopening.between hitem⟩

theorem stands_group (separator : Separator) (hopening : s.Stands spans size lo mid)
    (h : Enclosed spans size mid hi mark nodes) :
    (group ⟨nodes, separator, s.union mark⟩).Stands spans size lo hi :=
  .ofEnclosed rfl rfl rfl rfl hopening h

/-- A name before an arrow is the only parameter, without parentheses. -/
theorem stands_parameter (h : node.Stands spans size lo hi) :
    (group ⟨[node], separator, node.span⟩).Stands spans size lo hi :=
  .ofOperands h.span rfl rfl (List.forall_mem_singleton.2 ⟨h.nested, .refl _⟩)

theorem stands_call {callee : Node} (hcallee : callee.Stands spans size lo s.start)
    (hopening : s.Stands spans size s.start mid) (h : Enclosed spans size mid hi mark nodes) :
    (mkCall callee nodes (s.union mark)).Stands spans size lo hi := by
  have hmarks := h.span hopening
  have hspan := (hcallee.raise hmarks.between.le).span.union (hmarks.lower hcallee.between.le)
  refine .ofOperands hspan rfl rfl (List.forall_mem_cons.2 ⟨⟨hcallee.nested, .union_left _ _⟩, ?_⟩)
  intro argument hargument
  exact ⟨(h.stands argument hargument).nested,
    (Span.Holds.union_right _ _).trans (h.holds hopening.between hargument)⟩

end Node

def Access.Nests (spans : List Span) (size : Nat) (whole : Span) : Access → Prop
  | .property key => key.span.Computed spans size ∧ whole.Holds key.span
  | .index value => value.AllNest spans size ∧ whole.Holds value.span

theorem Node.stands_variable (hspan : s.Stands spans size lo hi)
    (hchain : ∀ access ∈ chain, access.Nests spans size s) :
    (Node.variable ⟨name, chain, owner, s⟩).Stands spans size lo hi := by
  refine .intro hspan ?_ ?_ rfl
  · intro value hvalue
    obtain ⟨access, haccess, hindex⟩ := List.mem_filterMap.1 hvalue
    cases access with
    | property key => cases hindex
    | index value =>
      cases hindex
      exact hchain _ haccess
  · intro key hkey
    obtain ⟨access, haccess, hproperty⟩ := List.mem_filterMap.1 hkey
    cases access with
    | index value => cases hproperty
    | property key =>
      cases hproperty
      exact hchain _ haccess

structure EntriesEnclosed (spans : List Span) (size lo hi : Nat) (mark : Span)
    (entries : List (Literal × Node)) : Prop
    extends Enclosed spans size lo hi mark (entries.map (·.2)) where
  keys : ∀ entry ∈ entries, entry.1.span.Stands spans size lo mark.start

theorem EntriesEnclosed.lower (h : EntriesEnclosed spans size lo hi mark entries) (hlo : lo' ≤ lo) :
    EntriesEnclosed spans size lo' hi mark entries :=
  ⟨h.toEnclosed.lower hlo, fun entry hentry => (h.keys entry hentry).lower hlo⟩

theorem EntriesEnclosed.cons {key : Literal} (hkey : key.span.Stands spans size lo mid)
    (hnode : node.Stands spans size mid mid')
    (h : EntriesEnclosed spans size mid' hi mark entries) :
    EntriesEnclosed spans size lo hi mark ((key, node) :: entries) where
  toEnclosed := (h.toEnclosed.cons hnode).lower hkey.between.le
  keys := by
    have hclosing := h.closing.between.starts
    refine List.forall_mem_cons.2 ⟨hkey.raise (Nat.le_trans hnode.between.le hclosing), ?_⟩
    exact (h.lower (Nat.le_trans hkey.between.le hnode.between.le)).keys

theorem Node.stands_record (hopening : s.Stands spans size lo mid)
    (h : EntriesEnclosed spans size mid hi mark entries) :
    (Node.record entries (s.union mark)).Stands spans size lo hi := by
  refine .intro (h.span hopening) (fun value hvalue => ?_)
    (List.forall_mem_map.2 fun entry hentry => ?_) rfl
  · exact ⟨(h.stands value hvalue).nested, h.holds hopening.between hvalue⟩
  · have hkey := h.keys entry hentry
    exact ⟨hkey.computed, hopening.between.union_holds hkey.between
      ⟨Nat.le_refl _, h.closing.between.ordered, h.closing.between.stops⟩⟩

-- ---------------------------------------------------------------------------
-- Blocks
-- ---------------------------------------------------------------------------

/-- A block that may not be complete yet: its span holds what it has so far. -/
structure Block.Nests (spans : List Span) (size lo hi : Nat) (b : Block) : Prop where
  span : b.span.Stands spans size lo hi
  children : ∀ child ∈ (Node.block b).children, child.AllNest spans size ∧ b.span.Holds child.span

namespace Block.Nests

variable {b : Block}

theorem ofKind {kind : BlockKind} (h : s.Stands spans size lo hi) :
    (Block.ofKind kind owner s).Nests spans size lo hi :=
  ⟨h, by simp [Block.ofKind, Node.children, Node.operands, Node.statements]⟩

theorem raise (h : b.Nests spans size lo hi) (hhi : hi ≤ hi') : b.Nests spans size lo hi' :=
  ⟨h.span.raise hhi, h.children⟩

theorem widen {b' : Block} (h : b.Nests spans size lo hi) (hs : s.Stands spans size lo hi)
    (hspan : b'.span = b.span.union s)
    (hchildren : ∀ child ∈ (Node.block b').children, child ∈ (Node.block b).children ∨
      child.AllNest spans size ∧ s.Holds child.span) : b'.Nests spans size lo hi where
  span := hspan ▸ h.span.union hs
  children child hchild := by
    rw [hspan]
    rcases hchildren child hchild with hold | ⟨hnest, hholds⟩
    · obtain ⟨hnest, hholds⟩ := h.children child hold
      exact ⟨hnest, (Span.Holds.union_left _ _).trans hholds⟩
    · exact ⟨hnest, (Span.Holds.union_right _ _).trans hholds⟩

theorem cover (h : b.Nests spans size lo hi) (hs : s.Stands spans size lo hi) :
    (b.cover s).Nests spans size lo hi :=
  h.widen hs rfl fun _ hchild => .inl hchild

theorem withHeader (h : b.Nests spans size lo hi) (hnode : node.Stands spans size lo hi) :
    (b.withHeader node).Nests spans size lo hi := by
  refine h.widen hnode.span rfl fun child hchild => ?_
  rcases List.mem_append.1 hchild with hheader | hbody
  · rw [List.mem_singleton.1 hheader]
    exact .inr ⟨hnode.nested, .refl _⟩
  · exact .inl (List.mem_append_right _ hbody)

theorem headed (h : b.Nests spans size lo mid) (hnode : node.Stands spans size mid hi) :
    (b.withHeader node).Nests spans size lo hi :=
  (h.raise hnode.between.le).withHeader (hnode.lower h.span.between.le)

theorem withHeader? (h : b.Nests spans size lo mid)
    (hfound : ∀ node ∈ found, node.Stands spans size mid hi) (hle : mid ≤ hi) :
    (b.withHeader? found).Nests spans size lo hi := by
  cases found with
  | none => exact h.raise hle
  | some node => exact h.headed (hfound node rfl)

theorem push (h : b.Nests spans size lo hi) (hnode : node.Stands spans size lo hi) :
    (b.push node).Nests spans size lo hi := by
  refine h.widen hnode.span rfl fun child hchild => ?_
  rw [Node.children, Node.statements, Block.push_body, ← List.append_assoc] at hchild
  rcases List.mem_append.1 hchild with hold | hnew
  · exact .inl hold
  · rw [List.mem_singleton.1 hnew]
    exact .inr ⟨hnode.nested, .refl _⟩

theorem append (h : b.Nests spans size lo hi)
    (hnodes : ∀ node ∈ nodes, node.Stands spans size lo hi) :
    (b.append nodes).Nests spans size lo hi := by
  induction nodes generalizing b with
  | nil => exact h
  | cons node nodes ih =>
    obtain ⟨hnode, hnodes⟩ := List.forall_mem_cons.1 hnodes
    exact ih (h.push hnode) hnodes

theorem withBody {closing : Option Span} (h : b.Nests spans size lo mid)
    (hrow : Row spans size mid hi nodes) (hclosing : ∀ s ∈ closing, s.Stands spans size mid hi)
    (hle : mid ≤ hi) :
    (b.withBody nodes closing).Nests spans size lo hi := by
  have hlo := h.span.between.le
  have hraised := h.raise hle
  cases closing with
  | none => exact hraised.append (hrow.lower hlo).stands
  | some s =>
    have hdelimited : { b with delimited := true }.Nests spans size lo hi :=
      ⟨hraised.span, hraised.children⟩
    exact (hdelimited.append (hrow.lower hlo).stands).cover ((hclosing s rfl).lower hlo)

theorem closure {parameters : Group} (hspan : s.Stands spans size lo hi)
    (hparameters : (Node.group parameters).Stands spans size lo hi) :
    (Block.closure owner s label parameters).Nests spans size lo hi := by
  obtain ⟨hspan, hchildren⟩ := (ofKind hspan).withHeader hparameters
  exact ⟨hspan, hchildren⟩

theorem stands (h : b.Nests spans size lo hi)
    (hapart : b.body.Pairwise (·.span.stop ≤ ·.span.start)) :
    (Node.block b).Stands spans size lo hi :=
  ⟨.intro h.span.computed h.children (by simp [Node.keys]) hapart, h.span.between⟩

end Block.Nests

-- ---------------------------------------------------------------------------
-- Phrases
-- ---------------------------------------------------------------------------

/-- What is made of a phrase stands between the positions of the phrase. Where a phrase goes on from
something, the whole stands from where that does. -/
def Phrase.Nests (spans : List Span) (size lo hi : Nat) : Phrase → Prop
  | .script nodes | .statement nodes | .declarations _ nodes => Row spans size lo hi nodes
  | .block keyword b =>
    ∀ start, keyword.span.Stands spans size start lo → (Node.block b).Stands spans size start hi
  | .header _ found | .loopCondition found => ∀ node ∈ found, node.Stands spans size lo hi
  | .body nodes closing => Row spans size lo hi nodes ∧ ∀ s ∈ closing, s.Stands spans size lo hi
  | .elseBranches given all =>
    ∀ start ≤ lo, Row spans size start lo given → Row spans size start hi all
  | .braces nodes closing => Row spans size lo hi nodes ∧ closing.Stands spans size lo hi
  | .function keyword node =>
    ∀ start, keyword.span.Stands spans size start lo → node.Stands spans size start hi
  | .lambda arrow parameters node => ∀ start, arrow.Stands spans size start lo →
      (Node.group parameters).Stands spans size start lo → node.Stands spans size start hi
  | .value node | .operand node => node.Stands spans size lo hi
  | .calls front node | .continuation front node => ∀ start, front.Stands spans size start lo →
      node.Stands spans size start hi
  | .accesses name chain whole => ∀ start, name.Stands spans size start lo →
      whole.Stands spans size start hi ∧ whole.Holds name ∧
        ∀ access ∈ chain, access.Nests spans size whole
  | .items _ nodes _ mark | .listItems _ nodes mark => Enclosed spans size lo hi mark nodes
  | .recordEntries _ entries mark => EntriesEnclosed spans size lo hi mark entries

theorem Node.Stands.declared (h : node.Stands spans size lo hi) :
    Row spans size lo hi (node.declared blockLocal) := by
  unfold Node.declared
  split
  next v =>
    split
    · split
      · exact .single (.ofPair rfl rfl rfl rfl h (stands_literal h.span.behind))
      · exact .nil
    · exact .single h
  next => exact .single h

theorem Grammar.span_of_recordKey? {key : Literal} (h : recordKey? t = some key) :
    key.span = t.span := by
  unfold recordKey? at h
  split at h <;> cases h <;> rfl

theorem Derives.laidOut (h : Derives enclosing phrase c c') (hlaid : LaidOut spans size c.rest) :
    LaidOut spans size c'.rest := hlaid.suffix h.reaches.rest

theorem Derives.nextStart_le (h : Derives enclosing phrase c c')
    (hlaid : LaidOut spans size c.rest) :
    nextStart size c.rest ≤ nextStart size c'.rest := hlaid.nextStart_le h.reaches.rest

theorem Derives.nests (h : Derives enclosing phrase c c') (hlaid : LaidOut spans size c.rest) :
    phrase.Nests spans size (nextStart size c.rest) (nextStart size c'.rest) := by
  induction h with
  | scriptEnd | empty => exact .nil
  | scriptMore _ hfirst hlater ihfirst ihlater =>
    have hlaid₁ := hfirst.laidOut hlaid
    exact (ihfirst hlaid).append (ihlater hlaid₁) (hfirst.nextStart_le hlaid)
      (hlater.nextStart_le hlaid₁)
  | locals _ _ _ ih | globals _ _ ih => exact (ih hlaid.tail).lower hlaid.head_le
  | keyword _ _ _ ih | named _ _ _ ih => exact .single (ih hlaid.tail _ hlaid.head)
  | expression _ _ _ _ ih => exact .single (ih hlaid)
  | declarationsEnd _ _ _ ih =>
    rw [Cursor.introduce_rest] at ih
    exact (ih hlaid).declared
  | declarationsMore _ hvalue _ hmore ih ihmore =>
    rw [Cursor.introduce_rest] at ih
    have hcomma := hvalue.laidOut (by rwa [Cursor.introduce_rest])
    have hnode := ih hlaid
    have hrow := (ihmore hcomma.tail).lower hcomma.head_le
    exact hnode.declared.append hrow hnode.between.le
      (Nat.le_trans hcomma.head_le (hmore.nextStart_le hcomma.tail))
  | jump =>
    intro start hkeyword
    exact (Block.Nests.ofKind hkeyword).stands List.Pairwise.nil
  | jumpValue _ _ _ ih =>
    intro start hkeyword
    exact ((Block.Nests.ofKind hkeyword).headed (ih hlaid)).stands List.Pairwise.nil
  | caseLabel _ _ hvalue _ ih =>
    intro start hkeyword
    have hcolon := (hvalue.laidOut hlaid).head_le
    exact ((Block.Nests.ofKind hkeyword).headed ((ih hlaid).raise hcolon)).stands List.Pairwise.nil
  | defaultLabel =>
    intro start hkeyword
    exact (Block.Nests.ofKind (hkeyword.raise hlaid.head_le)).stands List.Pairwise.nil
  | headed _ hheader hbody ihheader ihbody =>
    intro start hkeyword
    have hlaid₁ := hheader.laidOut hlaid
    obtain ⟨hrow, hclosing⟩ := ihbody hlaid₁
    refine (((Block.Nests.ofKind hkeyword).withHeader? (ihheader hlaid)
      (hheader.nextStart_le hlaid)).withBody
      hrow hclosing (hbody.nextStart_le hlaid₁)).stands ?_
    simpa [Block.ofKind] using hrow.apart
  | doLoop _ _ hbody hcondition ihbody ihcondition =>
    intro start hkeyword
    have hlaid₁ := hbody.laidOut hlaid
    obtain ⟨hrow, hclosing⟩ := ihbody hlaid
    refine (((Block.Nests.ofKind hkeyword).withBody hrow hclosing
      (hbody.nextStart_le hlaid)).withHeader?
      (ihcondition hlaid₁) (hcondition.nextStart_le hlaid₁)).stands ?_
    simpa [Block.ofKind] using hrow.apart
  | noHeader | noCondition => exact fun node hnode => by cases hnode
  | header _ _ _ ih =>
    rintro node ⟨⟩
    exact Node.stands_group _ hlaid.head (ih hlaid.tail)
  | condition _ _ _ ih =>
    rintro node ⟨⟩
    exact (Node.stands_group _ hlaid.tail.head (ih hlaid.tail.tail)).lower hlaid.head_le
  | bodyBraces _ _ ih =>
    obtain ⟨hrow, hclosing⟩ := ih hlaid.tail
    refine ⟨hrow.lower hlaid.head_le, ?_⟩
    rintro s ⟨⟩
    exact hclosing.lower hlaid.head_le
  | @bodyStatement _ _ _ _ _ c₁ _ hstatement _ ih ihelse =>
    have hlaid₁ := hstatement.laidOut hlaid
    have hskip := hlaid₁.nextStart_le c₁.reaches_skipSemicolon.rest
    have hle := Nat.le_trans (hstatement.nextStart_le hlaid) hskip
    refine ⟨?_, fun s hs => by cases hs⟩
    exact ihelse (hlaid₁.suffix c₁.reaches_skipSemicolon.rest) _ hle ((ih hlaid).raise hskip)
  | noElse => exact fun start _ hgiven => hgiven
  | @elseBranch _ _ _ _ _ _ c₁ _ _ hbranch _ ih ihelse =>
    intro start hstart hgiven
    have hlaid₁ := hbranch.laidOut hlaid
    have hskip := hlaid₁.nextStart_le c₁.reaches_skipSemicolon.rest
    have hle := Nat.le_trans (hbranch.nextStart_le hlaid) hskip
    refine ihelse (hlaid₁.suffix c₁.reaches_skipSemicolon.rest) start (Nat.le_trans hstart hle) ?_
    exact hgiven.append ((ih hlaid).raise hskip) hstart hle
  | bracesEnd => exact ⟨.nil, hlaid.head⟩
  | bracesMore _ hfirst hlater ihfirst ihlater =>
    have hlaid₁ := hfirst.laidOut hlaid
    have hle := hfirst.nextStart_le hlaid
    obtain ⟨hrow, hclosing⟩ := ihlater hlaid₁
    exact ⟨(ihfirst hlaid).append hrow hle (hlater.nextStart_le hlaid₁), hclosing.lower hle⟩
  | @function _ _ separator _ _ _ _ c c₁ opening brace keyword name _ _ hitems _ hbraces
    ihitems ihbraces =>
    intro start hkeyword
    have hname := ((c.before opening).reaches_before? name).rest
    have hopening := hlaid.suffix hname
    have hbrace := hitems.laidOut hopening.tail
    have hparameters :=
      (Node.stands_group separator hopening.head (ihitems hopening.tail)).raise hbrace.head_le
    have hkeyword := hkeyword.raise (hlaid.nextStart_le hname)
    obtain ⟨hrow, hclosing⟩ := ihbraces hbrace.tail
    refine ((Block.Nests.closure (hkeyword.raise hparameters.between.le)
      (hparameters.lower hkeyword.between.le)).withBody hrow ?_
        (hbraces.nextStart_le hbrace.tail)).stands
      (by simpa using hrow.apart)
    rintro s ⟨⟩
    exact hclosing
  | lambdaBraces _ hbraces ih =>
    intro start harrow hparameters
    obtain ⟨hrow, hclosing⟩ := ih hlaid.tail
    refine (((Block.Nests.closure hparameters.span hparameters).raise hlaid.head_le).withBody
      hrow ?_
      (hbraces.nextStart_le hlaid.tail)).stands (by simpa using hrow.apart)
    rintro s ⟨⟩
    exact hclosing
  | lambdaValue _ hvalue ih =>
    intro start harrow hparameters
    refine (((Block.Nests.closure hparameters.span hparameters).raise
      (hvalue.nextStart_le hlaid)).push ?_).stands
      (List.pairwise_singleton _ _)
    exact ((Block.Nests.ofKind harrow).headed (ih hlaid)).stands List.Pairwise.nil
  | value hoperand _ ih ihmore => exact ihmore (hoperand.laidOut hlaid) _ (ih hlaid)
  | literal hliteral =>
    refine Node.stands_literal ?_
    rw [Token.span_of_literal? hliteral]
    exact hlaid.head
  | name _ _ _ ih =>
    obtain ⟨hwhole, -, hchain⟩ := ih hlaid.tail _ hlaid.head
    exact Node.stands_variable hwhole hchain
  | nameArrow _ haccesses _ _ ih ihlambda =>
    have harrow := haccesses.laidOut hlaid.tail
    obtain ⟨hwhole, -, hchain⟩ := ih hlaid.tail _ hlaid.head
    refine ihlambda harrow.tail _ (harrow.head.lower hwhole.between.le) (Node.stands_parameter ?_)
    exact (Node.stands_variable hwhole hchain).raise harrow.head_le
  | group _ _ _ ih => exact Node.stands_group _ hlaid.head (ih hlaid.tail)
  | @groupArrow _ _ separator _ _ _ _ _ _ _ _ hitems _ _ ih ihlambda =>
    have harrow := hitems.laidOut hlaid.tail
    have hparameters := Node.stands_group separator hlaid.head (ih hlaid.tail)
    exact ihlambda harrow.tail _ (harrow.head.lower hparameters.between.le)
      (hparameters.raise harrow.head_le)
  | list _ _ ih => exact .ofEnclosed rfl rfl rfl rfl hlaid.head (ih hlaid.tail)
  | record _ _ ih => exact Node.stands_record hlaid.head (ih hlaid.tail)
  | leading _ _ hoperand _ _ ih ihcalls =>
    have hnode := ihcalls (hoperand.laidOut hlaid.tail) _ (ih hlaid.tail)
    exact Node.stands_unary (hnode.lower hlaid.head_le) (hlaid.head.raise hnode.between.le)
  | functionLiteral _ _ ih => exact ih hlaid.tail _ hlaid.head
  | callsEnd | continuationEnd => exact fun start hfront => hfront
  | callsMore _ hitems _ ih ihmore | call _ hitems _ ih ihmore =>
    intro start hfront
    exact ihmore (hitems.laidOut hlaid.tail) start
      (Node.stands_call hfront hlaid.head (ih hlaid.tail))
  | ternary _ htrue _ hfalse _ ihtrue ihfalse ihmore =>
    intro start hfront
    have hcolon := htrue.laidOut hlaid.tail
    have hmiddle := ((ihtrue hlaid.tail).lower hlaid.head_le).raise hcolon.head_le
    exact ihmore (hfalse.laidOut hcolon.tail) start
      (Node.stands_ternary hfront hmiddle (ihfalse hcolon.tail))
  | trailing =>
    intro start hfront
    exact Node.stands_unary (hfront.raise hlaid.head_le) (hlaid.head.lower hfront.between.le)
  | assign _ hright _ _ ih ihmore | binary _ hright _ ih ihmore =>
    intro start hfront
    have hvalue := (ih hlaid.tail).lower hlaid.head_le
    refine ihmore (hright.laidOut hlaid.tail) start ?_
    exact .ofPair rfl rfl rfl rfl (hfront.raise hvalue.between.le) (hvalue.lower hfront.between.le)
  | accessesEnd => exact fun start hname => ⟨hname, .refl _, by simp⟩
  | property _ _ _ ih =>
    intro start hname
    have hkey := hlaid.tail.head.lower hlaid.head_le
    have hfront := (hname.raise hkey.between.le).union (hkey.lower hname.between.le)
    obtain ⟨hwhole, hholds, hchain⟩ := ih hlaid.tail.tail start hfront
    refine ⟨hwhole, hholds.trans (.union_left _ _),
      List.forall_mem_cons.2 ⟨⟨hkey.computed, ?_⟩, hchain⟩⟩
    exact hholds.trans (.union_right _ _)
  | index _ hvalue _ _ ih ihmore =>
    intro start hname
    have hclosing := hvalue.laidOut hlaid.tail
    have hnode := (ih hlaid.tail).lower hlaid.head_le
    have hfront := (hname.raise (Nat.le_trans hnode.between.le hclosing.head_le)).union
      (hclosing.head.lower (Nat.le_trans hname.between.le hnode.between.le))
    obtain ⟨hwhole, hholds, hchain⟩ := ihmore hclosing.tail start hfront
    refine ⟨hwhole, hholds.trans (.union_left _ _),
      List.forall_mem_cons.2 ⟨⟨hnode.nested, ?_⟩, hchain⟩⟩
    exact hholds.trans (hname.between.union_holds hnode.between hclosing.head.between)
  | itemsEnd | listEnd => exact .nil hlaid.head
  | itemsComma _ _ ih | itemsSemicolon _ _ ih | itemsGlobal _ _ ih | listComma _ _ ih
  | itemsLocal _ _ _ _ ih =>
    exact (ih hlaid.tail).lower hlaid.head_le
  | itemsMore hvalue _ ih ihmore | listMore hvalue _ ih ihmore =>
    exact (ihmore (hvalue.laidOut hlaid)).cons (ih hlaid)
  | recordEnd => exact ⟨.nil hlaid.head, by simp⟩
  | recordComma _ _ ih => exact (ih hlaid.tail).lower hlaid.head_le
  | recordMore hkey _ hvalue _ ih ihmore =>
    have hmore := ihmore (hvalue.laidOut hlaid.tail.tail)
    have hnode := (ih hlaid.tail.tail).lower hlaid.tail.head_le
    refine hmore.cons ?_ hnode
    rw [Grammar.span_of_recordKey? hkey]
    exact hlaid.head

end

-- ---------------------------------------------------------------------------
-- Scripts
-- ---------------------------------------------------------------------------

theorem LaidOut.ofPairwise {ts : List Token} (hapart : ts.Pairwise (·.span.stop ≤ ·.span.start))
    (hspans : ∀ t ∈ ts, t.span ∈ spans) (hbetween : ∀ t ∈ ts, t.span.Between 0 size) :
    LaidOut spans size ts := by
  induction ts with
  | nil => exact .nil
  | cons t ts ih =>
    obtain ⟨hnext, hapart⟩ := List.pairwise_cons.1 hapart
    obtain ⟨hspan, hspans⟩ := List.forall_mem_cons.1 hspans
    obtain ⟨hfirst, hbetween⟩ := List.forall_mem_cons.1 hbetween
    refine .cons hspan ⟨Nat.le_refl _, hfirst.ordered, ?_⟩ (ih hapart hspans hbetween)
    cases ts with
    | nil => exact hfirst.stops
    | cons next ts => exact hnext next List.mem_cons_self

theorem Source.laidOut (source : Source) (reserved : ReservedPrefixes) :
    LaidOut (source.spans reserved) source.size (source.tokens reserved) := by
  refine .ofPairwise (source.tokens_apart reserved)
    (fun t ht => Source.span_mem_spans ht) fun t ht => ?_
  have hin := Source.inText_spans (Source.span_mem_spans ht)
  exact ⟨Nat.zero_le _, hin.ordered, hin.bounded⟩

theorem Script.root_allNest {script : Script} (h : parse options source = .ok script) :
    (Node.block script.root).AllNest (source.spans options.reserved) source.size := by
  obtain ⟨statements, c, hderives, -, hroot⟩ := derives_of_parse h
  have hrow : Row (source.spans options.reserved) source.size _ _ statements :=
    hderives.nests (source.laidOut options.reserved)
  rw [hderives.rest_eq_nil] at hrow
  have htext : (⟨0, source.size⟩ : Span).Stands
      (source.spans options.reserved) source.size 0 source.size :=
    ⟨.text, Nat.le_refl _, Nat.zero_le _, Nat.le_refl _⟩
  rw [hroot]
  refine (((Block.Nests.ofKind htext).append (hrow.lower (Nat.zero_le _)).stands).stands ?_).nested
  simpa [Block.ofKind] using hrow.apart

namespace Script

/-- Every span of a script's tree is a stretch of the text, holds the spans in its node and is
computed from those of the tokens; statements follow one another; and whatever is computed from the
spans of tokens, words do for it. -/
theorem spans_nested {options : Options} {source : Source} {script : Script}
    (h : parse options source = .ok script) (hsize : source.size < UInt32.size) :
    (∀ node, (Node.block script.root).Within node →
      (∀ s ∈ node.span :: node.innerSpans, s.InText source.chars ∧ node.span.Holds s ∧
        s.Computed (source.spans options.reserved) source.size) ∧
      node.statements.Pairwise (·.span.stop ≤ ·.span.start)) ∧
    ∀ term : SpanTerm, term.Over (source.spans options.reserved) →
      ∃ e, term.extent? source.size = some e ∧ e.Represents (term.span source.size) := by
  refine ⟨fun node hnode => ?_, fun term hterm => SpanTerm.represents hterm hsize⟩
  obtain ⟨hcomputed, hinner, hapart⟩ := root_allNest h node hnode
  refine ⟨List.forall_mem_cons.2 ⟨⟨hcomputed.inText, .refl _, hcomputed⟩, fun s hs => ?_⟩, hapart⟩
  obtain ⟨hinside, hholds⟩ := hinner s hs
  exact ⟨hinside.inText, hholds, hinside⟩

/-- A loop whose condition stands behind its body, and a lambda whose span starts with its
parameters. -/
theorem spans_nested_loop : ∃ (source : Source) (script : Script),
    source = .ofText "" "do \x7b x = (a, b) => a.b['ü'] \x7d while (c ? 1 : 2); let y" ∧
    source.size = 55 ∧
    parse {} source = .ok script ∧
    script.root.blocks.map (·.span) = [⟨0, 55⟩, ⟨0, 48⟩, ⟨9, 28⟩, ⟨16, 28⟩] ∧
    (∀ node, (Node.block script.root).Within node →
      (∀ s ∈ node.span :: node.innerSpans, s.InText source.chars ∧ node.span.Holds s ∧
        s.Computed (source.spans ({} : Options).reserved) source.size) ∧
      node.statements.Pairwise (·.span.stop ≤ ·.span.start)) ∧
    ∀ term : SpanTerm, term.Over (source.spans ({} : Options).reserved) →
      ∃ e, term.extent? source.size = some e ∧ e.Represents (term.span source.size) := by
  have hfacts :
      (parse {} (.ofText ""
        "do \x7b x = (a, b) => a.b['ü'] \x7d while (c ? 1 : 2); let y")).toOption.any
        (fun script => script.root.blocks.map (·.span) ==
          [⟨0, 55⟩, ⟨0, 48⟩, ⟨9, 28⟩, ⟨16, 28⟩]) = true := by
    decide +kernel
  have hsize : (Source.ofText ""
      "do \x7b x = (a, b) => a.b['ü'] \x7d while (c ? 1 : 2); let y").size = 55 := by
    decide +kernel
  obtain ⟨script, h, hspans⟩ := exists_of_any_parse hfacts
  exact ⟨_, script, rfl, hsize, h, eq_of_beq hspans, spans_nested h (hsize ▸ by decide)⟩

end Script

end ScriptToPhp
