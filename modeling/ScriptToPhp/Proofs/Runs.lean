import ScriptToPhp.Proofs.Derivation
import ScriptToPhp.Proofs.Totality

/-!
# Steps that are bound to happen

From the tokens in front of it, what a step does follows: `Runs` says which result it gives and
where it ends, `Fails` which fault it halts with. There is one rule for each step of reading, and
one for each way through a production that a line of operands and operators takes.
-/

namespace ScriptToPhp

namespace Parse

variable {α β : Type} {a : α} {x : Parse α} {f : α → Parse β} {c c₁ : Cursor} {fault : Fault}

/-- What follows, from every state at the place, from carrying out the step. -/
def Leads (x : Parse α) (c : Cursor) (outcome : EStateM.Result Halt ParseState α → Prop) : Prop :=
  ∀ s, s.cursor = c → outcome (x s)

/-- From the place `c`, the step gives `a` and ends at the place `c'`. -/
def Runs (x : Parse α) (c : Cursor) (a : α) (c' : Cursor) : Prop :=
  Leads x c fun result => ∃ s', result = .ok a s' ∧ s'.cursor = c'

/-- From the place `c`, the step halts with the fault. -/
def Fails (x : Parse α) (c : Cursor) (fault : Fault) : Prop :=
  Leads x c fun result => ∃ s', result = .error (.fault fault) s'

theorem Runs.pure : Runs (Pure.pure a) c a c := fun s hs => ⟨s, rfl, hs⟩

theorem Runs.bind {outcome : EStateM.Result Halt ParseState β → Prop} (hx : Runs x c a c₁)
    (hf : Leads (f a) c₁ outcome) : Leads (x >>= f) c outcome := by
  intro s hs
  obtain ⟨s₁, hx, hs₁⟩ := hx s hs
  show outcome (EStateM.bind x f s)
  rw [EStateM.bind, hx]
  exact hf s₁ hs₁

theorem Fails.bind (hx : Fails x c fault) : Fails (x >>= f) c fault := by
  intro s hs
  obtain ⟨s₁, hx⟩ := hx s hs
  refine ⟨s₁, ?_⟩
  show EStateM.bind x f s = _
  rw [EStateM.bind, hx]

theorem fails_fail {message : Message} {arguments : List String} {span : Span} :
    Fails (fail message arguments span : Parse α) c ⟨message, arguments, span⟩ :=
  fun s _ => ⟨s, rfl⟩

-- ---------------------------------------------------------------------------
-- Tokens
-- ---------------------------------------------------------------------------

section

variable {t : Token} {ts : List Token} {behind : Option Fault} {table : ScopeTable}
  {p : Token → Bool} {m : Char}

theorem runs_next : Runs next ⟨t :: ts, behind, table⟩ (some t) ⟨ts, behind, table⟩ := by
  intro s hs
  obtain ⟨rest, fault, size, last, scopes, noted, events⟩ := s
  cases hs
  cases noted <;> exact ⟨_, rfl, rfl⟩

theorem runs_peek : Runs peek ⟨t :: ts, behind, table⟩ (some t) ⟨t :: ts, behind, table⟩ := by
  intro s hs
  obtain ⟨rest, fault, size, last, scopes, noted, events⟩ := s
  cases hs
  exact ⟨_, rfl, noteToken_cursor⟩

theorem runs_peek_end : Runs peek ⟨[], none, table⟩ none ⟨[], none, table⟩ := by
  intro s hs
  obtain ⟨rest, fault, size, last, scopes, noted, events⟩ := s
  cases hs
  exact ⟨_, rfl, rfl⟩

theorem runs_skip : Runs skip ⟨t :: ts, behind, table⟩ () ⟨ts, behind, table⟩ :=
  runs_next.bind Runs.pure

theorem runs_nextIs : Runs (nextIs p) ⟨ts, none, table⟩ (ts.head?.any p) ⟨ts, none, table⟩ := by
  cases ts with
  | nil => exact runs_peek_end.bind Runs.pure
  | cons t ts => exact runs_peek.bind Runs.pure

theorem runs_expectMark (h : t.isMark m = true) :
    Runs (expectMark m) ⟨t :: ts, behind, table⟩ t ⟨ts, behind, table⟩ := by
  refine runs_next.bind ?_
  dsimp only
  rw [if_pos h]
  exact Runs.pure

-- ---------------------------------------------------------------------------
-- Scopes and notes
-- ---------------------------------------------------------------------------

variable {enclosing : List ScopeId} {scope : ScopeId} {name : String}

theorem runs_openScope :
    Runs (openScope enclosing) ⟨ts, behind, table⟩ table.size
      ⟨ts, behind, (table.extend enclosing.head?).2⟩ := by
  intro s hs
  obtain ⟨rest, fault, size, last, scopes, noted, events⟩ := s
  cases hs
  exact ⟨_, rfl, rfl⟩

theorem runs_resolve :
    Runs (resolve enclosing name) ⟨ts, behind, table⟩ (table.resolve enclosing name)
    ⟨ts, behind, table⟩ := by
  intro s hs
  obtain ⟨rest, fault, size, last, scopes, noted, events⟩ := s
  cases hs
  exact ⟨_, rfl, rfl⟩

theorem runs_note {event : ParseEvent} : Runs (note event) c () c := by
  intro s hs
  exact ⟨_, rfl, hs⟩

theorem runs_declareNext (ht : t.kind = .variable) (hname : t.text = name) :
    Runs (declareNext (scope :: enclosing)) ⟨t :: ts, behind, table⟩ ()
      ⟨t :: ts, behind, table.declare scope name⟩ := by
  subst hname
  refine runs_peek.bind ?_
  dsimp only
  rw [if_pos (beq_iff_eq.2 ht)]
  intro s hs
  obtain ⟨rest, fault, size, last, scopes, noted, events⟩ := s
  cases hs
  exact ⟨_, rfl, rfl⟩

end

end Parse

-- ---------------------------------------------------------------------------
-- Operands
-- ---------------------------------------------------------------------------

def Token.closesValue (t : Token) : Bool := t.isMark ',' || t.isMark ';' || t.isMark ')'

def Token.closesOperand (t : Token) : Bool := t.kind == .operator || t.closesValue

def Token.atom (owner : String → Option ScopeId) (t : Token) : Node :=
  match t.literal? with
  | some l => .literal l
  | none => .variable ⟨t.text, [], owner t.text, t.span⟩

theorem Token.closesValue_facts {t : Token} (h : t.closesValue = true) :
    t.kind = .punctuation ∧ (t.text = "," ∨ t.text = ";" ∨ t.text = ")") := by
  simp only [closesValue, isMark, Bool.or_eq_true, Bool.and_eq_true, beq_iff_eq] at h
  rcases h with (⟨hkind, htext⟩ | ⟨hkind, htext⟩) | ⟨hkind, htext⟩
  · exact ⟨hkind, .inl htext⟩
  · exact ⟨hkind, .inr (.inl htext)⟩
  · exact ⟨hkind, .inr (.inr htext)⟩

theorem Token.closesOperand_facts {t : Token} (h : t.closesOperand = true) :
    t.isMark '.' = false ∧ t.isMark '[' = false ∧ (t.kind == .lambda) = false := by
  simp only [closesOperand, Bool.or_eq_true, beq_iff_eq] at h
  rcases h with hkind | hclosed
  · simp [isMark, hkind]
  · obtain ⟨hkind, htext⟩ := closesValue_facts hclosed
    rcases htext with htext | htext | htext <;> rw [isMark, isMark, hkind, htext] <;> decide

@[simp] theorem Token.span_atom (t : Token) (owner : String → Option ScopeId) :
    (t.atom owner).span = t.span := by
  obtain ⟨kind, text, value, span, newline⟩ := t
  cases kind <;> rfl

theorem Token.isMark_of_isValue {t : Token} (h : t.isValue = true) (m : Char) :
    t.isMark m = false := by
  cases hkind : t.kind <;> simp_all [isValue, TokenKind.isValue, isMark]

theorem Token.isAssignable_atom {t : Token} (owner : String → Option ScopeId)
    (h : t.isValue = true) :
    (t.atom owner).isAssignable = (t.kind == .variable) := by
  obtain ⟨kind, text, value, span, newline⟩ := t
  cases kind <;> first | rfl | cases h

namespace Grammar

open Parse

variable {g : Grammar} {enclosing : List ScopeId} {bound : Nat} {t : Token} {ts : List Token}
  {table : ScopeTable}

theorem not_any_head {p : Token → Bool} (h : ts.head?.all Token.closesOperand = true)
    (hp : ∀ u : Token, u.closesOperand = true → p u = false) : ¬ts.head?.any p = true := by
  cases ts with
  | nil => simp
  | cons u ts => simpa using hp u (by simpa using h)

theorem runs_access (h : ts.head?.all Token.closesOperand = true) :
    Runs (g.access enclosing (bound + 1) t) ⟨ts, none, table⟩
      (.variable ⟨t.text, [], table.resolve enclosing t.text, t.span⟩) ⟨ts, none, table⟩ := by
  have haccesses : Runs (g.accesses enclosing (bound + 1) t.span) ⟨ts, none, table⟩ ([], t.span)
      ⟨ts, none, table⟩ := by
    refine runs_nextIs.bind ?_
    rw [if_neg (not_any_head h fun u hu => (Token.closesOperand_facts hu).1)]
    refine runs_nextIs.bind ?_
    rw [if_neg (not_any_head h fun u hu => (Token.closesOperand_facts hu).2.1)]
    exact Runs.pure
  refine haccesses.bind (runs_nextIs.bind ?_)
  rw [if_neg (not_any_head h fun u hu => (Token.closesOperand_facts hu).2.2)]
  exact runs_resolve.bind Runs.pure

theorem runs_operandOf (ht : t.isValue = true) (h : ts.head?.all Token.closesOperand = true) :
    Runs (g.operandOf enclosing (bound + 1) t) ⟨ts, none, table⟩
      (some (t.atom (table.resolve enclosing)))
      ⟨ts, none, table⟩ := by
  have haccess : Runs (g.access enclosing (bound + 1) t) ⟨ts, none, table⟩ _ ⟨ts, none, table⟩ :=
    runs_access h
  obtain ⟨kind, text, value, span, newline⟩ := t
  cases kind <;> first | exact Runs.pure | exact haccess.bind Runs.pure | cases ht

-- ---------------------------------------------------------------------------
-- Operators
-- ---------------------------------------------------------------------------

variable {value : Node}

/-- Nothing continues a value in front of a mark that closes it, nor at the end. -/
theorem runs_continuations_closed (h : ts.head?.all Token.closesValue = true) :
    Runs (g.continuations enclosing (bound + 1) value) ⟨ts, none, table⟩ value
      ⟨ts, none, table⟩ := by
  cases ts with
  | nil => exact runs_peek_end.bind Runs.pure
  | cons u ts =>
    obtain ⟨hkind, htext⟩ := Token.closesValue_facts (t := u) (by simpa using h)
    have hstarts : startsValue u = false ∧ u.isOperator "?" = false ∧ u.isMark '(' = false := by
      rcases htext with htext | htext | htext <;>
        simp [startsValue, Token.isValue, Token.isMark, Token.refusesLeft, Token.isOperator,
          hkind, htext, TokenKind.isValue]
    obtain ⟨hstarts, hquestion, hopening⟩ := hstarts
    refine runs_peek.bind ?_
    dsimp only
    rw [if_neg (by simp [hstarts]), if_neg (by simp [hquestion]), if_neg (by simp [hopening]),
      if_pos (by simp [hkind])]
    exact Runs.pure

end Grammar

/-- The operators that take an operand on either side and are not part of a ternary. -/
def Token.joins (t : Token) : Bool :=
  t.kind == .operator && !t.refusesLeft && t.value != "?" && !isStepOperator t.value

def Node.join (op : String) (left right : Node) : Node :=
  if isAssignmentOperator op then .mkAssign op left right else .mkBinary op left right

namespace Grammar

open Parse

variable {g : Grammar} {enclosing : List ScopeId} {bound : Nat} {value right : Node} {op : Token}
  {ts us : List Token} {table table' : ScopeTable} {fault : Fault}

/-- Behind an operator, the value that follows is read first. -/
theorem leads_continuations {outcome : EStateM.Result Halt ParseState Node → Prop}
    (hop : op.joins = true) (h : Leads (do
        let right ← g.nextValue enclosing
        if op.isAssignment then
          let value ← assignment op.value value right
          g.continuations enclosing bound value
        else
          g.continuations enclosing bound (.mkBinary op.value value right))
            ⟨ts, none, table⟩ outcome) :
    Leads (g.continuations enclosing (bound + 1) value) ⟨op :: ts, none, table⟩ outcome := by
  simp only [Token.joins, Bool.and_eq_true, Bool.not_eq_true', bne_iff_ne, beq_iff_eq] at hop
  obtain ⟨⟨⟨hkind, hrefuses⟩, hquestion⟩, hstep⟩ := hop
  have hstarts : startsValue op = false := by
    simp [startsValue, Token.isValue, Token.isMark, hkind, hrefuses, TokenKind.isValue]
  refine runs_peek.bind ?_
  dsimp only
  rw [if_neg (by simp [hstarts]), if_neg (by simp [Token.isOperator, hquestion]),
    if_neg (by simp [Token.isMark, hkind]), if_neg (by simp [hkind]), if_neg (by simp [hstep])]
  exact runs_skip.bind h

/-- An operator and the value behind it continue a value, if an operator that assigns finds a target
in it. -/
theorem runs_continuations_join (hop : op.joins = true)
    (hright : Runs (g.nextValue enclosing) ⟨ts, none, table⟩ right ⟨us, none, table'⟩)
    (htarget : isAssignmentOperator op.value = true → value.isAssignable = true)
    (hclosed : us.head?.all Token.closesValue = true) :
    Runs (g.continuations enclosing (bound + 2) value) ⟨op :: ts, none, table⟩
      (.join op.value value right)
      ⟨us, none, table'⟩ := by
  have hkind : op.kind = .operator := by simp_all [Token.joins]
  refine leads_continuations hop (hright.bind ?_)
  cases hassign : isAssignmentOperator op.value with
  | true =>
    rw [if_pos (by simp [Token.isAssignment, hkind, hassign]), Node.join, if_pos hassign]
    have hassignment : Runs (assignment op.value value right) ⟨us, none, table'⟩
        (.mkAssign op.value value right)
          ⟨us, none, table'⟩ := by
      refine Runs.bind (a := ()) ?_ Runs.pure
      rw [requireAssignable, if_pos (htarget hassign)]
      exact Runs.pure
    exact hassignment.bind (runs_continuations_closed hclosed)
  | false =>
    rw [if_neg (by simp [Token.isAssignment, hassign]), Node.join, if_neg (by simp [hassign])]
    exact runs_continuations_closed hclosed

/-- What cannot be assigned to is refused once the value to assign has been read. -/
theorem fails_continuations_target (hop : op.joins = true)
    (hright : Runs (g.nextValue enclosing) ⟨ts, none, table⟩ right ⟨us, none, table'⟩)
    (hassign : isAssignmentOperator op.value = true) (htarget : value.isAssignable = false) :
    Fails (g.continuations enclosing (bound + 1) value) ⟨op :: ts, none, table⟩
      ⟨.notAssignable, [value.subject], value.span⟩ := by
  have hkind : op.kind = .operator := by simp_all [Token.joins]
  refine leads_continuations hop (hright.bind ?_)
  rw [if_pos (by simp [Token.isAssignment, hkind, hassign])]
  refine Fails.bind (Fails.bind ?_)
  rw [requireAssignable, if_neg (by simp [htarget])]
  exact fails_fail

theorem fails_continuations_right (hop : op.joins = true)
    (hright : Fails (g.nextValue enclosing) ⟨ts, none, table⟩ fault) :
    Fails (g.continuations enclosing (bound + 1) value) ⟨op :: ts, none, table⟩ fault :=
  leads_continuations hop hright.bind

-- ---------------------------------------------------------------------------
-- Values and statements
-- ---------------------------------------------------------------------------

variable {t : Token} {operand : Node} {c c₁ c₂ : Cursor} {first rest : List Node}

theorem runs_valueOf (hoperand : Runs (g.operandOf enclosing bound t) c (some operand) c₁)
    (hvalue : Runs (g.continuations enclosing bound operand) c₁ value c₂) :
    Runs (g.valueOf enclosing bound t) c (some value) c₂ :=
  hoperand.bind (hvalue.bind Runs.pure)

theorem fails_valueOf (hoperand : Runs (g.operandOf enclosing bound t) c (some operand) c₁)
    (hvalue : Fails (g.continuations enclosing bound operand) c₁ fault) :
    Fails (g.valueOf enclosing bound t) c fault :=
  hoperand.bind hvalue.bind

theorem runs_nextValue (h : Runs (g.value enclosing t) ⟨ts, none, table⟩ (some value) c) :
    Runs (g.nextValue enclosing) ⟨t :: ts, none, table⟩ value c :=
  runs_next.bind (h.bind Runs.pure)

theorem fails_nextValue (h : Fails (g.value enclosing t) ⟨ts, none, table⟩ fault) :
    Fails (g.nextValue enclosing) ⟨t :: ts, none, table⟩ fault :=
  runs_next.bind h.bind

theorem leads_statement {outcome : EStateM.Result Halt ParseState (List Node) → Prop}
    (ht : t.isValue = true)
    (h : Leads (g.valueStatement enclosing bound t) ⟨ts, none, table⟩ outcome) :
    Leads (g.statementOf enclosing bound) ⟨t :: ts, none, table⟩ outcome := by
  have hkind : t.kind ≠ .keyword ∧ t.kind ≠ .function := by
    constructor <;> intro hkind <;> simp [Token.isValue, TokenKind.isValue, hkind] at ht
  obtain ⟨hkeyword, hfunction⟩ := hkind
  refine runs_next.bind ?_
  dsimp only
  rw [if_neg (by simp [Token.isMark_of_isValue ht]), if_neg (by simp [hkeyword]),
    if_neg (by simp [hfunction])]
  exact h

theorem runs_statement (ht : t.isValue = true)
    (h : Runs ((upTo (bound + 1)).value enclosing t) ⟨ts, none, table⟩ (some value) c) :
    Runs ((upTo (bound + 1)).statement enclosing) ⟨t :: ts, none, table⟩ [value] c :=
  leads_statement ht (h.bind Runs.pure)

theorem fails_statement (ht : t.isValue = true)
    (h : Fails ((upTo (bound + 1)).value enclosing t) ⟨ts, none, table⟩ fault) :
    Fails ((upTo (bound + 1)).statement enclosing) ⟨t :: ts, none, table⟩ fault :=
  leads_statement ht h.bind

theorem runs_statements_end : Runs (g.statements enclosing (bound + 1)) ⟨[], none, table⟩ []
    ⟨[], none, table⟩ :=
  runs_peek_end.bind Runs.pure

theorem runs_statements (ht : t.isMark '\x7d' = false)
    (hfirst : Runs (g.statement enclosing) ⟨t :: ts, none, table⟩ first c)
    (hrest : Runs (g.statements enclosing bound) c rest c₁) :
    Runs (g.statements enclosing (bound + 1)) ⟨t :: ts, none, table⟩ (first ++ rest) c₁ := by
  refine runs_peek.bind ?_
  dsimp only
  rw [if_neg (by simp [ht])]
  exact hfirst.bind (hrest.bind Runs.pure)

theorem fails_statements (ht : t.isMark '\x7d' = false)
    (hfirst : Fails (g.statement enclosing) ⟨t :: ts, none, table⟩ fault) :
    Fails (g.statements enclosing (bound + 1)) ⟨t :: ts, none, table⟩ fault := by
  refine runs_peek.bind ?_
  dsimp only
  rw [if_neg (by simp [ht])]
  exact hfirst.bind

-- ---------------------------------------------------------------------------
-- Declarations
-- ---------------------------------------------------------------------------

variable {scope : ScopeId} {name : String} {comma : Token}

theorem runs_declared (blockLocal : Bool) (value : Node) :
    Runs (declared blockLocal value) c (value.declared blockLocal) c := by
  unfold declared
  split
  next v =>
    rw [Node.declared]
    by_cases hbare : v.isBare = true
    · rw [if_pos hbare, if_pos hbare]
      cases blockLocal with
      | false => exact Runs.pure
      | true => exact Runs.bind (Runs.bind Runs.pure Runs.pure) Runs.pure
    · rw [if_neg hbare, if_neg hbare]
      exact Runs.pure
  next hother => cases value <;> first | exact Runs.pure | exact absurd rfl (hother _)

theorem runs_declarations_last (ht : t.kind = .variable) (hname : t.text = name)
    (hvalue : Runs (g.nextValue (scope :: enclosing))
      ⟨t :: ts, none, table.declare scope name⟩ value
      ⟨us, none, table'⟩)
    (hlast : us.head?.any (·.isMark ',') = false) :
    Runs (g.declarations (scope :: enclosing) true (bound + 1)) ⟨t :: ts, none, table⟩
      (value.declared true)
      ⟨us, none, table'⟩ := by
  refine (runs_declareNext ht hname).bind
    (hvalue.bind ((runs_declared true value).bind (runs_nextIs.bind ?_)))
  rw [if_neg (by simp [hlast])]
  exact Runs.pure

theorem runs_declarations_more (ht : t.kind = .variable) (hname : t.text = name)
    (hvalue : Runs (g.nextValue (scope :: enclosing))
      ⟨t :: ts, none, table.declare scope name⟩ value
      ⟨comma :: us, none, table'⟩) (hcomma : comma.isMark ',' = true)
    (hrest : Runs (g.declarations (scope :: enclosing) true bound) ⟨us, none, table'⟩ rest c) :
    Runs (g.declarations (scope :: enclosing) true (bound + 1)) ⟨t :: ts, none, table⟩
      (value.declared true ++ rest)
      c := by
  refine (runs_declareNext ht hname).bind
    (hvalue.bind ((runs_declared true value).bind (runs_nextIs.bind ?_)))
  rw [if_pos (by simpa using hcomma)]
  exact runs_skip.bind (hrest.bind Runs.pure)

theorem runs_statement_let (hkind : t.kind = .keyword) (hword : t.value = "let")
    (h : Runs ((upTo bound).declarations enclosing true (bound + 1)) ⟨ts, none, table⟩ first c) :
    Runs ((upTo (bound + 1)).statement enclosing) ⟨t :: ts, none, table⟩ first c := by
  refine runs_next.bind ?_
  dsimp only
  rw [if_neg (by simp [Token.isMark, hkind]), if_pos (by simp [hkind]), if_pos (by simp [hword])]
  exact h

theorem runs_statement_semicolon (ht : t.isMark ';' = true) :
    Runs ((upTo (bound + 1)).statement enclosing) ⟨t :: ts, none, table⟩ [] ⟨ts, none, table⟩ := by
  refine runs_next.bind ?_
  dsimp only
  rw [if_pos ht]
  exact Runs.pure

-- ---------------------------------------------------------------------------
-- Groups and blocks
-- ---------------------------------------------------------------------------

variable {opening : Span} {item : Node} {items : List Node} {separator : Separator} {closing : Span}
  {afterItem : Bool}

theorem runs_groupItems_close (ht : t.isMark ')' = true) :
    Runs (g.groupItems enclosing opening (bound + 1) afterItem) ⟨t :: ts, none, table⟩
      ([], .comma, t.span)
      ⟨ts, none, table⟩ := by
  refine runs_next.bind ?_
  dsimp only
  rw [if_pos ht]
  exact Runs.pure

theorem runs_groupItems_comma (ht : t.isMark ',' = true)
    (h : Runs (g.groupItems enclosing opening bound false) ⟨ts, none, table⟩
      (items, separator, closing) c) :
    Runs (g.groupItems enclosing opening (bound + 1) true) ⟨t :: ts, none, table⟩
      (items, separator, closing) c := by
  have hmark : t.isMark ')' = false ∧ t.isMark ';' = false := by
    simp only [Token.isMark, Bool.and_eq_true, beq_iff_eq] at ht
    simp only [Token.isMark, ht]
    decide
  refine runs_next.bind ?_
  dsimp only
  rw [if_neg (by simp [hmark]), if_pos rfl, if_neg (by simp [hmark]), if_pos ht]
  exact h

theorem runs_groupItems_semicolon (ht : t.isMark ';' = true)
    (h : Runs (g.groupItems enclosing opening bound false) ⟨ts, none, table⟩
      (items, separator, closing) c) :
    Runs (g.groupItems enclosing opening (bound + 1) true) ⟨t :: ts, none, table⟩
      (items, .semicolon, closing) c := by
  have hmark : t.isMark ')' = false := by
    simp only [Token.isMark, Bool.and_eq_true, beq_iff_eq] at ht
    simp only [Token.isMark, ht]
    decide
  refine runs_next.bind ?_
  dsimp only
  rw [if_neg (by simp [hmark]), if_pos rfl, if_pos ht]
  exact h.bind Runs.pure

theorem runs_groupItems_let {u : Token} (ht : t.isKeyword "let" = true) (hu : u.kind = .variable)
    (hname : u.text = name)
    (h : Runs (g.groupItems (scope :: enclosing) opening bound false)
      ⟨u :: ts, none, table.declare scope name⟩
      (items, separator, closing) c) :
    Runs (g.groupItems (scope :: enclosing) opening (bound + 1) false) ⟨t :: u :: ts, none, table⟩
      (items, separator, closing) c := by
  have hkind : t.kind = .keyword := by
    simp only [Token.isKeyword, Bool.and_eq_true, beq_iff_eq] at ht
    exact ht.1
  refine runs_next.bind ?_
  dsimp only
  rw [if_neg (by simp [Token.isMark, hkind]), if_neg (by simp), if_pos (by simp [ht])]
  exact (runs_declareNext hu hname).bind h

theorem runs_groupItems_item (ht : t.isValue = true)
    (hitem : Runs (g.value enclosing t) ⟨ts, none, table⟩ (some item) c)
    (h : Runs (g.groupItems enclosing opening bound true) c (items, separator, closing) c₁) :
    Runs (g.groupItems enclosing opening (bound + 1) false) ⟨t :: ts, none, table⟩
      (item :: items, separator, closing)
      c₁ := by
  have hkind : ∀ word, t.isKeyword word = false := by
    intro word
    cases hkind : t.kind <;> simp_all [Token.isValue, TokenKind.isValue, Token.isKeyword]
  have hrequire : Runs (g.requireValue enclosing t) ⟨ts, none, table⟩ item c := hitem.bind Runs.pure
  refine runs_next.bind ?_
  dsimp only
  rw [if_neg (by simp [Token.isMark_of_isValue ht]), if_neg (by simp), if_neg (by simp [hkind]),
    if_neg (by simp [hkind])]
  exact hrequire.bind (h.bind Runs.pure)

variable {keyword brace closingBrace : Token} {policy : HeaderPolicy} {block headed : Block}

theorem runs_header (ht : t.isMark '(' = true)
    (hgroup : Runs (g.groupItems enclosing t.span bound false) ⟨ts, none, table⟩
      (items, separator, closing) c) :
    Runs (g.header enclosing bound .required block) ⟨t :: ts, none, table⟩
      (block.withHeader (.group ⟨items, separator, t.span.union closing⟩)) c := by
  refine runs_nextIs.bind ?_
  rw [if_pos (by simpa using ht)]
  refine (runs_expectMark ht).bind ?_
  rw [if_neg (by decide)]
  exact Runs.bind (hgroup.bind Runs.pure) Runs.pure

theorem runs_body_empty (hbrace : brace.isMark '\x7b' = true)
    (hclosing : closingBrace.isMark '\x7d' = true) :
    Runs (g.body enclosing (bound + 1) block) ⟨brace :: closingBrace :: ts, none, table⟩
      (block.withBody [] (some closingBrace.span)) ⟨ts, none, table⟩ := by
  have hdelimited : Runs (g.delimited enclosing brace.span (bound + 1))
      ⟨closingBrace :: ts, none, table⟩ ([], closingBrace.span)
        ⟨ts, none, table⟩ := by
    refine runs_peek.bind ?_
    dsimp only
    rw [if_pos hclosing]
    exact runs_skip.bind Runs.pure
  refine runs_nextIs.bind ?_
  rw [if_pos (by simpa using hbrace)]
  exact (runs_expectMark hbrace).bind (hdelimited.bind Runs.pure)

/-- A block that a keyword begins: its scope is opened in front of its header. -/
theorem runs_statement_headed (hkind : keyword.kind = .keyword)
    (hword : ["let", "const", "var"].contains keyword.value = false)
    (hshape : BlockShape.ofKeyword keyword.value = .headed policy)
    (hheader : Runs ((upTo bound).header (table.size :: enclosing) (bound + 1) policy
      (.begin table.size keyword))
      ⟨ts, none, (table.extend enclosing.head?).2⟩ headed c)
    (hbody : Runs ((upTo bound).body (table.size :: enclosing) (bound + 1) headed) c block c₁) :
    Runs ((upTo (bound + 1)).statement enclosing) ⟨keyword :: ts, none, table⟩
      [.block block] c₁ := by
  have hblock : Runs ((upTo bound).keywordBlock enclosing (bound + 1) keyword) ⟨ts, none, table⟩
      (.block block) c₁ := by
    refine runs_openScope.bind ?_
    rw [hshape]
    exact Runs.bind (hheader.bind hbody) (runs_note.bind Runs.pure)
  simp only [List.contains_cons, List.contains_nil, Bool.or_false, Bool.or_eq_false_iff] at hword
  refine runs_next.bind ?_
  dsimp only
  rw [if_neg (by simp [Token.isMark, hkind]), if_pos (by simp [hkind]), if_neg (by simp [hword]),
    if_neg (by simp [hword])]
  exact hblock.bind Runs.pure

end Grammar

-- ---------------------------------------------------------------------------
-- Scripts
-- ---------------------------------------------------------------------------

namespace Script

open Parse

variable {options : Options} {source : Source} {bound : Nat}

def rootScope : ScopeTable := (ScopeTable.empty.extend none).2

theorem cursor_initial (hfault : (source.scan options.reserved).fault = none) :
    (initial options source).cursor = ⟨source.tokens options.reserved, none, .empty⟩ := by
  rw [ParseState.cursor, initial, hfault]

theorem parse_of_runs {statements : List Node} {table : ScopeTable}
    (hfault : (source.scan options.reserved).fault = none)
    (hb : (source.tokens options.reserved).length < bound)
    (h : Runs ((Grammar.upTo bound).statements [0] bound)
    ⟨source.tokens options.reserved, none, rootScope⟩ statements
      ⟨[], none, table⟩) :
    ∃ script, parse options source = .ok script ∧ script.root.body = statements ∧
    script.root.scope = 0 ∧
      script.scopes = table := by
  have hroot : Leads (root? source.file source.size bound)
      ⟨source.tokens options.reserved, none, .empty⟩ fun result =>
        ∃ script s, result = .ok script s ∧ script.root.body = statements ∧ script.root.scope = 0 ∧
          script.scopes = table := by
    refine runs_openScope.bind (h.bind fun s hs => ?_)
    exact ⟨_, _, rfl, by simp [Block.ofKind], by rw [Block.append_scope]; rfl,
      congrArg Cursor.scopes hs⟩
  obtain ⟨script, s, hrun, hfacts⟩ := hroot _ (cursor_initial hfault)
  refine ⟨script, ?_, hfacts⟩
  rw [parse, read_eq hb, hrun]
  rfl

theorem parse_of_fails {fault : Fault}
    (hfault : (source.scan options.reserved).fault = none)
    (hb : (source.tokens options.reserved).length < bound)
    (h : Fails ((Grammar.upTo bound).statements [0] bound)
    ⟨source.tokens options.reserved, none, rootScope⟩ fault) :
    parse options source = .error (fault.locate source) := by
  have hroot : Fails (root? source.file source.size bound)
      ⟨source.tokens options.reserved, none, .empty⟩ fault :=
    runs_openScope.bind h.bind
  obtain ⟨s, hrun⟩ := hroot _ (cursor_initial hfault)
  rw [parse, read_eq hb, hrun]
  rfl

end Script

end ScriptToPhp
