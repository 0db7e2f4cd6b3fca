import ScriptToPhp.Proofs.Below
import ScriptToPhp.Proofs.Lexeme
import ScriptToPhp.Proofs.Reaches
import ScriptToPhp.Proofs.ReadingSound

/-!
# What the nodes of a tree are

Each node of a script's tree is made in one of a few ways, and what it is made of is known: its
operator, the kinds of its parts, the tokens behind its names and keys. A part that stands in front
of more of a value was read as an operand, or ends in a step: elsewhere a value goes on as long as
it can.
-/

namespace ScriptToPhp

-- ---------------------------------------------------------------------------
-- All nodes below a node
-- ---------------------------------------------------------------------------

def Node.Everywhere (P : Node → Prop) (node : Node) : Prop :=
  ∀ roles target, Below node roles target → P target

namespace Node

variable {P : Node → Prop} {node : Node}

theorem everywhere_iff : node.Everywhere P ↔ P node ∧
    ∀ entry ∈ node.parts, entry.2.Everywhere P := by
  constructor
  · intro h
    refine ⟨h [] node (.here node), ?_⟩
    rintro ⟨role, part⟩ hpart roles target hbelow
    exact h (role :: roles) target (.inside hpart hbelow)
  · rintro ⟨hnode, hparts⟩ roles target hbelow
    cases hbelow with
    | here => exact hnode
    | inside hpart hbelow => exact hparts _ hpart _ _ hbelow

theorem Everywhere.here (h : node.Everywhere P) : P node := (everywhere_iff.1 h).1

theorem Everywhere.part {part : Node} (h : node.Everywhere P) (hpart : (role, part) ∈ node.parts) :
    part.Everywhere P :=
  (everywhere_iff.1 h).2 _ hpart

theorem Everywhere.below {target : Node} (h : node.Everywhere P)
    (hbelow : Below node roles target) :
    target.Everywhere P :=
  fun _ _ hbelow' => h _ _ (hbelow.trans hbelow')

-- ---------------------------------------------------------------------------
-- Kinds of nodes
-- ---------------------------------------------------------------------------

def isValue : Node → Bool
  | .block b => b.kind == .function
  | _ => true

def isOperand : Node → Bool
  | .binary .. | .ternary .. | .assign .. | .unary _ _ .trailing _ => false
  | _ => true

/-- Whether the node ends with a step of a variable that nothing encloses. -/
def endsInStep : Node → Bool
  | .binary _ _ right _ => right.endsInStep
  | .ternary _ _ whenFalse _ => whenFalse.endsInStep
  | .assign _ _ value _ => value.endsInStep
  | .unary _ _ .trailing _ => true
  | _ => false

def isFront (node : Node) : Bool := node.isOperand || node.endsInStep

inductive Made (tokens : List Token) : Node → Prop
  | literal {t : Token} (hmem : t ∈ tokens) (hliteral : t.literal? = some l) :
  Made tokens (.literal l)
  /-- The value of a block-local name that is declared without one. -/
  | null {span : Span} : Made tokens (.literal ⟨.named, "null", span⟩)
  | variable {t : Token} {span : Span} (hmem : t ∈ tokens) (hkind : t.kind = .variable)
      (hkeys : ∀ key, .property key ∈ chain → ∃ t ∈ tokens, key = .quoted t.text t.span)
      (hindices : ∀ value, .index value ∈ chain → value.isValue = true) :
      Made tokens (.variable ⟨t.text, chain, scope, span⟩)
  | binary {t : Token} {left right : Node} {span : Span} (hmem : t ∈ tokens)
    (hop : t.isInfix = true)
      (hfront : left.isFront = true) (hleft : left.isValue = true) (hright : right.isValue = true) :
      Made tokens (.binary t.value left right span)
  | ternary {condition whenTrue whenFalse : Node} {span : Span} (hfront : condition.isFront = true)
      (hcondition : condition.isValue = true) (htrue : whenTrue.isValue = true)
      (hfalse : whenFalse.isValue = true) : Made tokens (.ternary condition whenTrue whenFalse span)
  | assign {target value : Node} {span : Span} (hop : isAssignmentOperator op = true)
      (htarget : target.isAssignable = true) (hvalue : value.isValue = true) :
      Made tokens (.assign op target value span)
  | call {callee : Node} {span : Span} (hcallee : callee.isValue = true)
      (harguments : ∀ argument ∈ arguments, argument.isValue = true) :
        Made tokens (.call callee arguments span)
  | group {g : Group} (hitems : ∀ item ∈ g.items, item.isValue = true) : Made tokens (.group g)
  | list {span : Span} (hitems : ∀ item ∈ items, item.isValue = true) :
    Made tokens (.list items span)
  | record {entries : List (Literal × Node)} {span : Span}
      (hkeys : ∀ entry ∈ entries, ∃ t ∈ tokens, Grammar.recordKey? t = some entry.1)
      (hvalues : ∀ entry ∈ entries, entry.2.isValue = true) : Made tokens (.record entries span)
  | leading {operand : Node} {span : Span} (hop : isLeadingOperator op = true)
      (hfront : operand.isOperand = true) (hoperand : operand.isValue = true)
      (hvariable : (isStepOperator op || op == "delete") = true → operand.isAssignable = true) :
      Made tokens (.unary op operand .leading span)
  | trailing {operand : Node} {span : Span} (hop : isStepOperator op = true)
      (hvariable : operand.isAssignable = true) : Made tokens (.unary op operand .trailing span)
  | function {b : Block} {g : Group} (hkind : b.kind = .function)
    (hheader : b.header = some (.group g))
      (hname : ∀ name ∈ b.name, ∃ t ∈ tokens, t.kind = .variable ∧ t.text = name)
      (hvalues : ∀ item ∈ g.items, item.isValue = true)
        (hitems : ∀ item ∈ g.items, Made tokens item) :
      Made tokens (.block b)
  /-- The jump that returns the value of a lambda. -/
  | returning {b : Block} (hkind : b.kind = .returnJump)
    (hheader : ∀ header ∈ b.header, header.isValue = true)
      (hbody : b.body = []) : Made tokens (.block b)
  | keyword {b : Block} {t : Token} {c c' : Cursor} (hmem : t ∈ tokens) (hkind : t.kind = .keyword)
      (hheader : ∀ header ∈ b.header, header.isValue = true)
      (hblock : Derives enclosing (.block t b) c c') (hin : c.rest <:+ tokens) :
        Made tokens (.block b)

abbrev AllMade (tokens : List Token) (node : Node) : Prop := node.Everywhere (Made tokens)

end Node

structure Node.MadeValue (tokens : List Token) (node : Node) : Prop where
  all : node.AllMade tokens
  isValue : node.isValue = true

/-- No value goes on with the tokens behind a node, unless the node ends in a step. -/
def Node.EndsBefore (node : Node) (ts : List Token) : Prop :=
  node.endsInStep = true ∨ ts.head?.all Token.endsValue = true

-- ---------------------------------------------------------------------------
-- Where a value ends
-- ---------------------------------------------------------------------------

namespace Token

variable {t : Token}

theorem endsValue_of_question (h : t.isOperator "?" = true) : t.endsValue = false := by
  obtain ⟨hkind, hvalue⟩ := isOperator_iff.1 h
  have hstarts : Grammar.startsValue t = false := by
    simp [Grammar.startsValue, isValue, TokenKind.isValue, isMark, refusesLeft, unaryOnlyOperators,
      hkind, hvalue]
  simp [endsValue, hstarts, h]

theorem endsValue_of_parenthesis (h : t.isMark '(' = true) : t.endsValue = false := by
  obtain ⟨hkind, htext⟩ := isMark_iff.1 h
  have hstarts : Grammar.startsValue t = false := by
    simp [Grammar.startsValue, isValue, TokenKind.isValue, isMark, refusesLeft, hkind, htext]
  simp [endsValue, hstarts, h]

theorem endsValue_of_step (hkind : t.kind = .operator) (hstep : isStepOperator t.value = true)
    (hline : t.newlineBefore = false) : t.endsValue = false := by
  have hstarts : Grammar.startsValue t = false := by
    simp only [isStepOperator, Bool.or_eq_true, beq_iff_eq] at hstep
    rcases hstep with hvalue | hvalue <;>
      simp [Grammar.startsValue, isValue, TokenKind.isValue, isMark, refusesLeft,
        unaryOnlyOperators, hkind, hvalue]
  simp [endsValue, hstarts, hkind, hline]

theorem endsValue_of_assignment (h : t.isAssignment = true) : t.endsValue = false := by
  obtain ⟨hkind, hop⟩ := isAssignment_iff.1 h
  have hvalue : t.value ∈ assignmentOperators := List.contains_iff_mem.1 hop
  have hfacts : ∀ op ∈ assignmentOperators, unaryOnlyOperators.contains op = false ∧
      isStepOperator op = false := by
    decide
  have hstarts : Grammar.startsValue t = false := by
    simp [Grammar.startsValue, isValue, TokenKind.isValue, isMark, refusesLeft, hkind,
      -List.contains_eq_mem, (hfacts _ hvalue).1]
  simp [endsValue, hstarts, hkind, (hfacts _ hvalue).2]

theorem endsValue_of_isInfix (h : t.isInfix = true) : t.endsValue = false := by
  have hkind := kind_of_isInfix h
  simp only [isInfix, Bool.and_eq_true, Bool.not_eq_true', bne_iff_ne] at h
  obtain ⟨⟨⟨⟨-, hleft⟩, -⟩, hstep⟩, -⟩ := h
  have hstarts : Grammar.startsValue t = false := by
    simp [Grammar.startsValue, isValue, TokenKind.isValue, isMark, hkind, hleft]
  simp [endsValue, hstarts, hkind, hstep]

end Token

theorem Derives.eq_of_endsValue {c c' : Cursor}
    (h : Derives enclosing (.continuation front node) c c')
    (hends : c.rest.head?.all Token.endsValue = true) : node = front ∧ c' = c := by
  cases h with
  | continuationEnd => exact ⟨rfl, rfl⟩
  | ternary hmark => simp [Cursor.before, Token.endsValue_of_question hmark] at hends
  | call hmark => simp [Cursor.before, Token.endsValue_of_parenthesis hmark] at hends
  | trailing hkind hstep hline =>
    simp [Cursor.before, Token.endsValue_of_step hkind hstep hline] at hends
  | assign hop => simp [Cursor.before, Token.endsValue_of_assignment hop] at hends
  | binary hop => simp [Cursor.before, Token.endsValue_of_isInfix hop] at hends

-- ---------------------------------------------------------------------------
-- Blocks and functions
-- ---------------------------------------------------------------------------

section

variable {tokens : List Token} {b : Block}

@[simp] theorem Block.append_name (nodes : List Node) : (b.append nodes).name = b.name := by
  induction nodes generalizing b with
  | nil => rfl
  | cons node nodes ih => exact ih

@[simp] theorem Block.withBody_name : (b.withBody nodes closing).name = b.name := by
  cases closing <;> simp [Block.withBody, Block.cover]

@[simp] theorem Block.push_name : (b.push node).name = b.name := rfl

@[simp] theorem Block.closure_name : (Block.closure owner front label params).name = label := rfl

theorem Node.AllMade.block (hmade : Node.Made tokens (.block b)) (hkind : b.kind ≠ .function)
    (hheader : ∀ node ∈ b.header, node.AllMade tokens)
    (hbody : ∀ node ∈ b.body, node.AllMade tokens) :
    (Node.block b).AllMade tokens := by
  refine Node.everywhere_iff.2 ⟨hmade, ?_⟩
  rw [Node.parts, Block.parts, if_neg hkind]
  simp only [List.forall_mem_map, List.forall_mem_append, Option.mem_toList]
  exact ⟨hheader, hbody⟩

theorem Node.MadeValue.function {g : Group} (hkind : b.kind = .function)
    (hheader : b.header = some (.group g))
    (hname : ∀ name ∈ b.name, ∃ t ∈ tokens, t.kind = .variable ∧ t.text = name)
    (hitems : ∀ item ∈ g.items, item.MadeValue tokens)
    (hbody : ∀ node ∈ b.body, node.AllMade tokens) :
    (Node.block b).MadeValue tokens := by
  refine ⟨Node.everywhere_iff.2 ⟨?_, ?_⟩, by simp [Node.isValue, hkind]⟩
  · exact .function hkind hheader hname (fun item hitem => (hitems item hitem).isValue)
      fun item hitem => (hitems item hitem).all.here
  · rw [Node.parts, Block.parts, if_pos hkind, Block.headerParts, hheader]
    simp only [List.forall_mem_append, List.forall_mem_map, List.forall_mem_flatMap]
    refine ⟨fun item hitem => ?_, hbody⟩
    -- A parameter with a default value is taken apart; any other is a part itself.
    have hitem := (hitems item hitem).all
    cases item with
    | assign op target value span =>
      simp only [Block.parameterParts, List.forall_mem_cons, List.not_mem_nil, false_imp_iff,
        implies_true, and_true]
      have htarget : (Role.plain, target) ∈ (Node.assign op target value span).parts := by
        simp [Node.parts]
      have hvalue : (Role.plain, value) ∈ (Node.assign op target value span).parts := by
        simp [Node.parts]
      exact ⟨hitem.part htarget, hitem.part hvalue⟩
    | _ => simpa [Block.parameterParts] using hitem

end

-- ---------------------------------------------------------------------------
-- What is derived
-- ---------------------------------------------------------------------------

/-- The nodes of a phrase are made of the tokens, if those that it takes up are. -/
def Phrase.Made (tokens ts : List Token) : Phrase → Prop
  | .script nodes | .statement nodes | .declarations _ nodes | .braces nodes _ | .body nodes _ =>
    ∀ node ∈ nodes, node.AllMade tokens
  | .elseBranches given nodes =>
    (∀ node ∈ given, node.AllMade tokens) → ∀ node ∈ nodes, node.AllMade tokens
  | .block _ b => (∀ node ∈ b.header, node.MadeValue tokens) ∧ ∀ node ∈ b.body, node.AllMade tokens
  | .header _ found | .loopCondition found => ∀ node ∈ found, node.MadeValue tokens
  | .function _ node | .operand node => node.MadeValue tokens ∧ node.isOperand = true
  | .lambda _ parameters node =>
    (∀ item ∈ parameters.items, item.MadeValue tokens) → node.MadeValue tokens ∧
      node.isOperand = true
  | .value node => node.MadeValue tokens ∧ node.EndsBefore ts
  | .calls callee node =>
    callee.MadeValue tokens ∧ callee.isOperand = true → node.MadeValue tokens ∧
      node.isOperand = true
  | .continuation front node =>
    front.MadeValue tokens → front.isFront = true → node.MadeValue tokens ∧ node.EndsBefore ts
  | .accesses _ chain _ =>
    (∀ key, .property key ∈ chain → ∃ t ∈ tokens, key = .quoted t.text t.span) ∧
      ∀ value, .index value ∈ chain → value.MadeValue tokens
  | .items _ nodes _ _ | .listItems _ nodes _ => ∀ item ∈ nodes, item.MadeValue tokens
  | .recordEntries _ entries _ =>
    ∀ entry ∈ entries, (∃ t ∈ tokens, Grammar.recordKey? t = some entry.1) ∧
      entry.2.MadeValue tokens

section

variable {tokens : List Token}

theorem Node.MadeValue.group {g : Group} (h : ∀ item ∈ g.items, item.MadeValue tokens) :
    (Node.group g).MadeValue tokens := by
  refine ⟨Node.everywhere_iff.2 ⟨.group fun item hitem => (h item hitem).isValue, ?_⟩, rfl⟩
  simp only [Node.parts, List.forall_mem_map]
  exact fun item hitem => (h item hitem).all

theorem Node.MadeValue.call {callee : Node} {span : Span} (hcallee : callee.MadeValue tokens)
    (harguments : ∀ argument ∈ arguments, argument.MadeValue tokens) :
    (Node.call callee arguments span).MadeValue tokens := by
  refine ⟨Node.everywhere_iff.2 ⟨.call hcallee.isValue fun node hnode =>
    (harguments node hnode).isValue, ?_⟩, rfl⟩
  simp only [Node.parts, List.forall_mem_cons, List.forall_mem_map]
  exact ⟨hcallee.all, fun node hnode => (harguments node hnode).all⟩

theorem Node.MadeValue.variable {t : Token} {span : Span} (hmem : t ∈ tokens)
    (hkind : t.kind = .variable) (h : Phrase.Made tokens ts (.accesses place chain whole)) :
    (Node.variable ⟨t.text, chain, scope, span⟩).MadeValue tokens := by
  obtain ⟨hkeys, hindices⟩ := h
  refine ⟨Node.everywhere_iff.2 ⟨.variable hmem hkind hkeys fun value h =>
    (hindices value h).isValue, ?_⟩, rfl⟩
  simp only [Node.parts, List.forall_mem_map]
  intro value hvalue
  obtain ⟨access, haccess, hindex⟩ := List.mem_filterMap.1 hvalue
  cases access with
  | property key => cases hindex
  | index value =>
    cases hindex
    exact (hindices _ haccess).all

theorem Node.AllMade.declared {node made : Node} (h : node.AllMade tokens)
    (hmade : made ∈ node.declared blockLocal) :
    made.AllMade tokens := by
  unfold Node.declared at hmade
  split at hmade
  next v =>
    split at hmade
    next =>
      split at hmade
      next =>
        rw [List.mem_singleton.1 hmade]
        refine Node.everywhere_iff.2 ⟨.assign (by decide) rfl rfl, ?_⟩
        simp only [Node.mkAssign, Node.parts, List.forall_mem_cons, List.not_mem_nil, false_imp_iff,
          implies_true, and_true]
        exact ⟨h, Node.everywhere_iff.2 ⟨.null, by simp [Node.parts]⟩⟩
      next => cases hmade
    next => rwa [List.mem_singleton.1 hmade]
  next => rwa [List.mem_singleton.1 hmade]

/-- A value that was made in front of some tokens goes on as long as it can. -/
theorem Phrase.Made.resume {c c' : Cursor} (h : Derives enclosing (.continuation front node) c c')
    (hmade : Phrase.Made tokens c'.rest (.continuation front node))
    (hfront : front.MadeValue tokens) (hends : front.EndsBefore c.rest) :
    node.MadeValue tokens ∧ node.EndsBefore c'.rest := by
  rcases hends with hstep | hends
  · exact hmade hfront (by simp [Node.isFront, hstep])
  · obtain ⟨rfl, rfl⟩ := h.eq_of_endsValue hends
    exact ⟨hfront, .inr hends⟩

theorem BlockKind.ofKeyword_ne_function (h : word ∈ keywords) :
    BlockKind.ofKeyword word ≠ .function := by
  revert word
  decide

theorem Derives.kind_block {c c' : Cursor} (h : Derives enclosing (.block t b) c c') :
    b.kind = .ofKeyword t.value := by
  cases h <;> simp

theorem Derives.makesNodes {c c' : Cursor} (h : Derives enclosing phrase c c')
    (hkeywords : ∀ t ∈ tokens, t.kind = .keyword → t.value ∈ keywords) (hin : c.rest <:+ tokens) :
    phrase.Made tokens c'.rest := by
  have htail {t : Token} {ts : List Token} (hin : t :: ts <:+ tokens) : ts <:+ tokens :=
    (List.suffix_cons t ts).trans hin
  have hhead {t : Token} {ts : List Token} (hin : t :: ts <:+ tokens) : t ∈ tokens :=
    hin.subset List.mem_cons_self
  induction h with
  -- The script
  | scriptEnd => exact fun _ hnode => by cases hnode
  | scriptMore _ h₁ _ ih₁ ih₂ =>
    exact List.forall_mem_append.2 ⟨ih₁ hin, ih₂ (h₁.reaches.rest.trans hin)⟩
  -- Statements
  | empty => exact fun _ hnode => by cases hnode
  | locals _ _ _ ih => exact ih (htail hin)
  | globals _ _ ih => exact ih (htail hin)
  | keyword hkind _ hblock ih =>
    obtain ⟨hheader, hbody⟩ := ih (htail hin)
    have hmade := Node.Made.keyword (hhead hin) hkind
      (fun node hnode => (hheader node hnode).isValue) hblock (htail hin)
    have hfunction : _ ≠ BlockKind.function :=
      BlockKind.ofKeyword_ne_function (hkeywords _ (hhead hin) hkind)
    rw [← hblock.kind_block] at hfunction
    exact List.forall_mem_singleton.2
      (.block hmade hfunction (fun node hnode => (hheader node hnode).all) hbody)
  | named _ _ _ ih => exact List.forall_mem_singleton.2 (ih (htail hin)).1.all
  | expression _ _ _ _ ih => exact List.forall_mem_singleton.2 (ih hin).1.all
  | declarationsEnd _ _ _ ih =>
    rw [Cursor.introduce_rest] at ih
    exact fun node hnode => (ih hin).1.all.declared hnode
  | declarationsMore _ h _ _ ih₁ ih₂ =>
    have hrest := h.reaches.rest
    rw [Cursor.introduce_rest] at ih₁ hrest
    refine List.forall_mem_append.2
      ⟨fun node hnode => (ih₁ hin).1.all.declared hnode, ih₂ (htail (hrest.trans hin))⟩
  -- Blocks
  | jump => exact ⟨by simp, by simp⟩
  | jumpValue _ _ _ ih => exact ⟨by simpa using (ih hin).1, by simp⟩
  | caseLabel _ _ _ _ ih => exact ⟨by simpa using (ih hin).1, by simp⟩
  | defaultLabel => exact ⟨by simp, by simp⟩
  | headed _ h₁ _ ih₁ ih₂ =>
    have hheader := ih₁ hin
    have hbody := ih₂ (h₁.reaches.rest.trans hin)
    simp only [Phrase.Made] at hheader hbody ⊢
    exact ⟨by simpa using hheader, by simpa using hbody⟩
  | doLoop _ _ h₁ _ ih₁ ih₂ =>
    have hheader := ih₂ (h₁.reaches.rest.trans hin)
    have hbody := ih₁ hin
    simp only [Phrase.Made] at hheader hbody ⊢
    exact ⟨by simpa using hheader, by simpa using hbody⟩
  | noHeader => exact fun _ hnode => by cases hnode
  | header _ _ _ ih =>
    rintro node ⟨⟩
    exact .group (ih (htail hin))
  | noCondition => exact fun _ hnode => by cases hnode
  | condition _ _ _ ih =>
    rintro node ⟨⟩
    exact .group (ih (htail (htail hin)))
  | bodyBraces _ _ ih => exact ih (htail hin)
  | bodyStatement _ h₁ _ ih₁ ih₂ =>
    exact ih₂ ((Cursor.reaches_skipSemicolon _).rest.trans (h₁.reaches.rest.trans hin)) (ih₁ hin)
  | noElse => exact id
  | elseBranch _ _ h₁ _ ih₁ ih₂ =>
    intro hgiven
    refine ih₂ ((Cursor.reaches_skipSemicolon _).rest.trans (h₁.reaches.rest.trans hin)) ?_
    exact List.forall_mem_append.2 ⟨hgiven, ih₁ hin⟩
  | bracesEnd => exact fun _ hnode => by cases hnode
  | bracesMore _ h₁ _ ih₁ ih₂ =>
    exact List.forall_mem_append.2 ⟨ih₁ hin, ih₂ (h₁.reaches.rest.trans hin)⟩
  -- Functions
  | @function _ _ _ _ _ _ _ c _ opening _ _ name hname _ h₁ _ _ ih₁ ih₂ =>
    have hopening : (c.before opening).rest <:+ tokens :=
      ((c.before opening).reaches_before? name).rest.trans hin
    refine ⟨.function (by simp) (Block.withBody_header _) ?_ (ih₁ (htail hopening)) ?_, rfl⟩
    · intro label hlabel
      rw [Block.withBody_name, Block.closure_name] at hlabel
      obtain ⟨t, rfl, rfl⟩ := Option.map_eq_some_iff.1 hlabel
      exact ⟨t, hhead hin, hname t rfl, rfl⟩
    · have hbody := ih₂ (htail (h₁.reaches.rest.trans (htail hopening)))
      simp only [Phrase.Made] at hbody
      simpa using hbody
  | lambdaBraces _ _ ih =>
    intro hparameters
    have hbody := ih (htail hin)
    simp only [Phrase.Made] at hbody
    exact ⟨.function (by simp) (by simp) (by simp) hparameters (by simpa using hbody), rfl⟩
  | lambdaValue _ _ ih =>
    intro hparameters
    refine ⟨.function (by simp) (by simp) (by simp) hparameters ?_, rfl⟩
    simp only [Block.push_body, Block.closure_body, List.nil_append, List.forall_mem_singleton]
    obtain ⟨hvalue, -⟩ := ih hin
    refine .block (.returning (by simp) ?_ (by simp)) (by simp) ?_ (by simp)
    · simpa using hvalue.isValue
    · simpa using hvalue.all
  -- Values
  | value h₁ h₂ ih₁ ih₂ =>
    obtain ⟨hfront, hoperand⟩ := ih₁ hin
    exact ih₂ (h₁.reaches.rest.trans hin) hfront (by simp [Node.isFront, hoperand])
  | literal hliteral =>
    exact ⟨⟨Node.everywhere_iff.2 ⟨.literal (hhead hin) hliteral, by simp [Node.parts]⟩, rfl⟩, rfl⟩
  | name hkind _ _ ih => exact ⟨.variable (hhead hin) hkind (ih (htail hin)), rfl⟩
  | nameArrow hkind h₁ _ _ ih₁ ih₂ =>
    refine ih₂ (htail (h₁.reaches.rest.trans (htail hin))) (List.forall_mem_singleton.2 ?_)
    exact .variable (hhead hin) hkind (ih₁ (htail hin))
  | group _ _ _ ih => exact ⟨.group (ih (htail hin)), rfl⟩
  | groupArrow _ h₁ _ _ ih₁ ih₂ =>
    exact ih₂ (htail (h₁.reaches.rest.trans (htail hin))) (ih₁ (htail hin))
  | list _ _ ih =>
    have hitems := ih (htail hin)
    refine ⟨⟨Node.everywhere_iff.2 ⟨.list fun item hitem => (hitems item hitem).isValue, ?_⟩, rfl⟩,
      rfl⟩
    simp only [Node.parts, List.forall_mem_map]
    exact fun item hitem => (hitems item hitem).all
  | record _ _ ih =>
    have hentries := ih (htail hin)
    refine ⟨⟨Node.everywhere_iff.2 ⟨.record (fun entry hentry => (hentries entry hentry).1)
      fun entry hentry => (hentries entry hentry).2.isValue, ?_⟩, rfl⟩, rfl⟩
    simp only [Node.parts, List.forall_mem_map]
    exact fun entry hentry => (hentries entry hentry).2.all
  | leading _ hop h₁ _ hvariable ih₁ ih₂ =>
    obtain ⟨hoperand, hfront⟩ := ih₂ (h₁.reaches.rest.trans (htail hin)) (ih₁ (htail hin))
    refine ⟨⟨Node.everywhere_iff.2 ⟨.leading hop hfront hoperand.isValue hvariable, ?_⟩, rfl⟩, rfl⟩
    exact List.forall_mem_singleton.2 hoperand.all
  | functionLiteral _ _ ih => exact ih (htail hin)
  | callsEnd => exact id
  | callsMore _ h₁ _ ih₁ ih₂ =>
    intro hcallee
    exact ih₂ (h₁.reaches.rest.trans (htail hin)) ⟨.call hcallee.1 (ih₁ (htail hin)), rfl⟩
  | continuationEnd hends => exact fun hfront _ => ⟨hfront, .inr hends⟩
  | ternary _ h₁ _ h₂ h₃ ih₁ ih₂ ih₃ =>
    intro hcondition hfront
    have hrest := htail (h₁.reaches.rest.trans (htail hin))
    obtain ⟨htrue, -⟩ := ih₁ (htail hin)
    obtain ⟨hfalse, hends⟩ := ih₂ hrest
    refine Phrase.Made.resume h₃ (ih₃ (h₂.reaches.rest.trans hrest)) ⟨?_, rfl⟩ hends
    refine Node.everywhere_iff.2 ⟨.ternary hfront hcondition.isValue htrue.isValue hfalse.isValue,
      ?_⟩
    simp only [Node.mkTernary, Node.parts, List.forall_mem_cons, List.not_mem_nil, false_imp_iff,
      implies_true, and_true]
    exact ⟨hcondition.all, htrue.all, hfalse.all⟩
  | call _ h₁ _ ih₁ ih₂ =>
    intro hfront _
    exact ih₂ (h₁.reaches.rest.trans (htail hin)) (.call hfront (ih₁ (htail hin))) rfl
  | trailing _ hstep _ hvariable =>
    intro hfront _
    refine ⟨⟨Node.everywhere_iff.2 ⟨.trailing hstep hvariable, ?_⟩, rfl⟩, .inl rfl⟩
    exact List.forall_mem_singleton.2 hfront.all
  | assign hop h₁ hvariable h₂ ih₁ ih₂ =>
    intro htarget _
    obtain ⟨hvalue, hends⟩ := ih₁ (htail hin)
    refine Phrase.Made.resume h₂ (ih₂ (h₁.reaches.rest.trans (htail hin))) ⟨?_, rfl⟩ hends
    refine Node.everywhere_iff.2 ⟨.assign (Token.isAssignment_iff.1 hop).2 hvariable hvalue.isValue,
      ?_⟩
    simp only [Node.mkAssign, Node.parts, List.forall_mem_cons, List.not_mem_nil, false_imp_iff,
      implies_true, and_true]
    exact ⟨htarget.all, hvalue.all⟩
  | binary hop h₁ h₂ ih₁ ih₂ =>
    intro hleft hfront
    obtain ⟨hright, hends⟩ := ih₁ (htail hin)
    refine Phrase.Made.resume h₂ (ih₂ (h₁.reaches.rest.trans (htail hin))) ⟨?_, rfl⟩ hends
    refine Node.everywhere_iff.2 ⟨.binary (hhead hin) hop hfront hleft.isValue hright.isValue, ?_⟩
    simp only [Node.mkBinary, Node.parts, List.forall_mem_cons, List.not_mem_nil, false_imp_iff,
      implies_true, and_true]
    exact ⟨hleft.all, hright.all⟩
  -- Accesses
  | accessesEnd => exact ⟨by simp, by simp⟩
  | property _ _ _ ih =>
    obtain ⟨hkeys, hindices⟩ := ih (htail (htail hin))
    refine ⟨fun key hkey => ?_, fun value hvalue => hindices value (by simpa using hvalue)⟩
    rcases List.mem_cons.1 hkey with heq | hkey
    · cases heq
      exact ⟨_, hhead (htail hin), rfl⟩
    · exact hkeys key hkey
  | index _ h₁ _ _ ih₁ ih₂ =>
    obtain ⟨hkeys, hindices⟩ := ih₂ (htail (h₁.reaches.rest.trans (htail hin)))
    refine ⟨fun key hkey => hkeys key (by simpa using hkey), fun value hvalue => ?_⟩
    rcases List.mem_cons.1 hvalue with heq | hvalue
    · cases heq
      exact (ih₁ (htail hin)).1
    · exact hindices value hvalue
  -- Groups and arrays
  | itemsEnd => exact fun _ hitem => by cases hitem
  | itemsComma _ _ ih => exact ih (htail hin)
  | itemsSemicolon _ _ ih => exact ih (htail hin)
  | itemsLocal _ _ _ _ ih => exact ih (htail hin)
  | itemsGlobal _ _ ih => exact ih (htail hin)
  | itemsMore h₁ _ ih₁ ih₂ =>
    exact List.forall_mem_cons.2 ⟨(ih₁ hin).1, ih₂ (h₁.reaches.rest.trans hin)⟩
  | listEnd => exact fun _ hitem => by cases hitem
  | listComma _ _ ih => exact ih (htail hin)
  | listMore h₁ _ ih₁ ih₂ =>
    exact List.forall_mem_cons.2 ⟨(ih₁ hin).1, ih₂ (h₁.reaches.rest.trans hin)⟩
  | recordEnd => exact fun _ hitem => by cases hitem
  | recordComma _ _ ih => exact ih (htail hin)
  | recordMore hkey _ h₁ _ ih₁ ih₂ =>
    have hrest := htail (htail hin)
    refine List.forall_mem_cons.2 ⟨⟨⟨_, hhead hin, hkey⟩, (ih₁ hrest).1⟩,
      ih₂ (h₁.reaches.rest.trans hrest)⟩

end

/-- The statements of a script are made of the tokens of its source. -/
theorem Script.made {options : Options} {source : Source} {script : Script}
    (h : parse options source = .ok script) :
    script.root.kind = .main ∧ script.root.header = none ∧
      ∀ node ∈ script.root.body, node.AllMade (source.tokens options.reserved) := by
  obtain ⟨statements, c, hderives, -, hroot⟩ := derives_of_parse h
  have hkeywords : ∀ t ∈ source.tokens options.reserved, t.kind = .keyword →
      t.value ∈ keywords := by
    intro t ht hkind
    obtain ⟨-, pre, hlexed⟩ := Source.mem_tokens ht
    exact hlexed.mem_keywords hkind
  have hmade := hderives.makesNodes hkeywords (List.suffix_refl _)
  simp only [Phrase.Made] at hmade
  rw [hroot]
  simpa [Block.ofKind] using hmade

end ScriptToPhp
