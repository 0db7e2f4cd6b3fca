import ScriptToPhp.Proofs.Reading

/-!
# Derivations

The grammar as a relation. `Derives enclosing phrase c c'` says that the tokens between the places
`c` and `c'` make up `phrase`, with `enclosing` the scopes around it from the inside out. A phrase
carries what is made of its tokens. Every rule states all that the grammar checks, what it looks at
behind the phrase included, so that a fact about all scripts is one induction over the rules.
-/

namespace ScriptToPhp

def Block.withHeader? (b : Block) : Option Node → Block
  | none => b
  | some header => b.withHeader header

/-- A block with its body, which stands in braces if it has a closing one. -/
def Block.withBody (b : Block) (statements : List Node) : Option Span → Block
  | none => b.append statements
  | some closing => { b with delimited := true } |>.append statements |>.cover closing

def Block.begin (scope : ScopeId) (keyword : Token) : Block :=
  .ofKind (.ofKeyword keyword.value) scope keyword.span

def Block.closure (scope : ScopeId) (span : Span) (name : Option String)
    (parameters : Group) : Block :=
  { Block.ofKind .function scope span |>.withHeader (.group parameters) with name }

def Block.returning (scope : ScopeId) (arrow : Span) (value : Node) : Block :=
  Block.ofKind .returnJump scope arrow |>.withHeader value

section

variable (b : Block)

@[simp] theorem Block.append_kind (nodes : List Node) : (b.append nodes).kind = b.kind := by
  induction nodes generalizing b with
  | nil => rfl
  | cons node nodes ih => exact ih (b.push node)

@[simp] theorem Block.append_header (nodes : List Node) : (b.append nodes).header = b.header := by
  induction nodes generalizing b with
  | nil => rfl
  | cons node nodes ih => exact ih (b.push node)

@[simp] theorem Block.append_scope (nodes : List Node) : (b.append nodes).scope = b.scope := by
  induction nodes generalizing b with
  | nil => rfl
  | cons node nodes ih => exact ih (b.push node)

@[simp] theorem Block.append_body (nodes : List Node) :
    (b.append nodes).body = b.body ++ nodes := by
  induction nodes generalizing b with
  | nil => simp [append]
  | cons node nodes ih =>
    have h := ih (b.push node)
    simpa [append, push] using h

@[simp] theorem Block.withBody_kind : (b.withBody nodes closing).kind = b.kind := by
  cases closing <;> simp [withBody, cover]

@[simp, grind =] theorem Block.withBody_header : (b.withBody nodes closing).header = b.header := by
  cases closing <;> simp [withBody, cover]

@[simp, grind =] theorem Block.withBody_scope : (b.withBody nodes closing).scope = b.scope := by
  cases closing <;> simp [withBody, cover]

@[simp, grind =] theorem Block.withBody_body :
    (b.withBody nodes closing).body = b.body ++ nodes := by
  cases closing <;> simp [withBody, cover]

@[simp] theorem Block.withHeader?_kind : (b.withHeader? found).kind = b.kind := by
  cases found <;> rfl

@[simp, grind =] theorem Block.withHeader?_header :
    (b.withHeader? found).header = found.or b.header := by
  cases found <;> rfl

@[simp, grind =] theorem Block.withHeader?_scope : (b.withHeader? found).scope = b.scope := by
  cases found <;> rfl

@[simp, grind =] theorem Block.withHeader?_body : (b.withHeader? found).body = b.body := by
  cases found <;> rfl

@[simp] theorem Block.withHeader_kind : (b.withHeader node).kind = b.kind := rfl
@[simp, grind =] theorem Block.withHeader_header : (b.withHeader node).header = some node := rfl
@[simp, grind =] theorem Block.withHeader_scope : (b.withHeader node).scope = b.scope := rfl
@[simp, grind =] theorem Block.withHeader_body : (b.withHeader node).body = b.body := rfl

@[simp] theorem Block.push_kind : (b.push node).kind = b.kind := rfl
@[simp, grind =] theorem Block.push_header : (b.push node).header = b.header := rfl
@[simp, grind =] theorem Block.push_scope : (b.push node).scope = b.scope := rfl
@[simp, grind =] theorem Block.push_body : (b.push node).body = b.body ++ [node] := rfl

end

section

variable (owned : ScopeId)

@[simp] theorem Block.begin_kind : (Block.begin owned t).kind = .ofKeyword t.value := rfl
@[simp, grind =] theorem Block.begin_header : (Block.begin owned t).header = none := rfl
@[simp, grind =] theorem Block.begin_scope : (Block.begin owned t).scope = owned := rfl
@[simp, grind =] theorem Block.begin_body : (Block.begin owned t).body = [] := rfl

@[simp] theorem Block.closure_kind : (closure owned front label params).kind = .function := rfl
@[simp, grind =] theorem Block.closure_header :
    (closure owned front label params).header = some (.group params) := rfl
@[simp, grind =] theorem Block.closure_scope :
    (closure owned front label params).scope = owned := rfl
@[simp, grind =] theorem Block.closure_body : (closure owned front label params).body = [] := rfl

@[simp] theorem Block.returning_kind : (returning owned arrow node).kind = .returnJump := rfl
@[simp, grind =] theorem Block.returning_header :
    (returning owned arrow node).header = some node := rfl
@[simp, grind =] theorem Block.returning_scope : (returning owned arrow node).scope = owned := rfl
@[simp, grind =] theorem Block.returning_body : (returning owned arrow node).body = [] := rfl

end

/-- What is left of a declaration: a bare name becomes null if it is block-local, and nothing
otherwise. -/
def Node.declared (blockLocal : Bool) : Node → List Node
  | .variable v =>
    if v.isBare then
      if blockLocal then [.mkAssign "=" (.variable v)
        (.literal ⟨.named, "null", .empty v.span.stop⟩)]
      else []
    else [.variable v]
  | node => [node]

def Token.literal? (t : Token) : Option Literal :=
  match t.kind with
  | .constant => some ⟨.named, t.value, t.span⟩
  | .number => some ⟨.number, t.value, t.span⟩
  | .string => some ⟨.string, t.value, t.span⟩
  | _ => none

def Token.isInfix (t : Token) : Bool :=
  t.kind == .operator && !t.refusesLeft && t.value != "?" && !isStepOperator t.value &&
    !isAssignmentOperator t.value

def Token.beginsJumpValue (t : Token) : Bool :=
  !(t.isMark ';' || t.isMark '\x7d' || t.kind == .keyword || t.newlineBefore)

/-- Whether no value goes on with the token: another statement begins, or what is around the value
goes on. -/
def Token.endsValue (t : Token) : Bool :=
  if Grammar.startsValue t then t.newlineBefore
  else
    !t.isOperator "?" && !t.isMark '(' &&
      (t.kind != .operator || (isStepOperator t.value && t.newlineBefore))

namespace Token

variable {t : Token}

theorem isMark_iff : t.isMark c = true ↔ t.kind = .punctuation ∧ t.text = c.toString := by
  simp [isMark]

theorem isKeyword_iff : t.isKeyword word = true ↔ t.kind = .keyword ∧ t.value = word := by
  simp [isKeyword]

theorem isOperator_iff : t.isOperator op = true ↔ t.kind = .operator ∧ t.value = op := by
  simp [isOperator]

theorem isAssignment_iff :
    t.isAssignment = true ↔ t.kind = .operator ∧ isAssignmentOperator t.value = true := by
  simp [isAssignment]

theorem kind_of_literal? (h : t.literal? = some l) : t.kind ≠ .punctuation := by
  intro hkind
  simp [literal?, hkind] at h

theorem kind_of_isInfix (h : t.isInfix = true) : t.kind = .operator := by
  simp only [isInfix, Bool.and_eq_true, beq_iff_eq] at h
  exact h.1.1.1.1

end Token

def Cursor.introduce (c : Cursor) (blockLocal : Bool) (enclosing : List ScopeId)
    (name : String) : Cursor :=
  if blockLocal then c.declare enclosing name else c

@[simp] theorem Cursor.introduce_rest (c : Cursor) :
    (c.introduce blockLocal enclosing name).rest = c.rest := by
  cases blockLocal <;> rfl

def Cursor.before? (c : Cursor) : Option Token → Cursor
  | none => c
  | some t => c.before t

/-- The parts of a script, each with what is made of it. -/
inductive Phrase
  | script (statements : List Node)
  | statement (statements : List Node)
  | declarations (blockLocal : Bool) (statements : List Node)
  | block (keyword : Token) (b : Block)
  | header (policy : HeaderPolicy) (header : Option Node)
  | body (statements : List Node) (closing : Option Span)
  /-- The branches that are added to some statements. -/
  | elseBranches (statements all : List Node)
  | loopCondition (header : Option Node)
  /-- Statements and the brace behind them. -/
  | braces (statements : List Node) (closing : Span)
  /-- What follows the keyword of a function. -/
  | function (keyword : Token) (node : Node)
  /-- What follows the arrow of a function. -/
  | lambda (arrow : Span) (parameters : Group) (node : Node)
  | value (node : Node)
  | operand (node : Node)
  /-- The calls that turn a callee into a node. -/
  | calls (callee node : Node)
  /-- What turns the front of a value into the whole of it. -/
  | continuation (front node : Node)
  | accesses (name : Span) (chain : List Access) (span : Span)
  /-- The rest of a group, its closing parenthesis included. -/
  | items (afterItem : Bool) (items : List Node) (separator : Separator) (closing : Span)
  | listItems (afterItem : Bool) (items : List Node) (closing : Span)
  | recordEntries (afterEntry : Bool) (entries : List (Literal × Node)) (closing : Span)

inductive Derives : List ScopeId → Phrase → Cursor → Cursor → Prop
  -- The script
  | scriptEnd {c : Cursor} : c.rest = [] → c.fault = none → Derives enclosing (.script []) c c
  | scriptMore {c : Cursor} :
      c.nextIs (·.isMark '\x7d') = false →
      Derives enclosing (.statement first) c c₁ → Derives enclosing (.script later) c₁ c₂ →
      Derives enclosing (.script (first ++ later)) c c₂
  -- Statements
  | empty {c : Cursor} {t : Token} : t.isMark ';' = true →
    Derives enclosing (.statement []) (c.before t) c
  | locals {c : Cursor} {t : Token} :
      t.kind = .keyword → t.value = "let" ∨ t.value = "const" →
      Derives enclosing (.declarations true statements) c c₁ →
      Derives enclosing (.statement statements) (c.before t) c₁
  | globals {c : Cursor} {t : Token} :
      t.isKeyword "var" = true → Derives enclosing (.declarations false statements) c c₁ →
      Derives enclosing (.statement statements) (c.before t) c₁
  | keyword {c : Cursor} {t : Token} :
      t.kind = .keyword → t.value ∉ ["let", "const", "var"] → Derives enclosing (.block t b) c c₁ →
      Derives enclosing (.statement [.block b]) (c.before t) c₁
  | named {c : Cursor} {t : Token} :
      t.kind = .function → c.nextIs (·.kind == .variable) = true →
      Derives enclosing (.function t node) c c₁ →
      Derives enclosing (.statement [node]) (c.before t) c₁
  | expression {c : Cursor} {t : Token} :
      t.isMark ';' = false → t.kind ≠ .keyword →
      (t.kind = .function → c.nextIs (·.kind == .variable) = false) →
      Derives enclosing (.value node) (c.before t) c₁ →
      Derives enclosing (.statement [node]) (c.before t) c₁
  | declarationsEnd {c c₁ : Cursor} {t : Token} :
      t.kind = .variable →
      Derives enclosing (.value node) ((c.before t).introduce blockLocal enclosing t.text) c₁ →
      c₁.nextIs (·.isMark ',') = false →
      Derives enclosing (.declarations blockLocal (node.declared blockLocal)) (c.before t) c₁
  | declarationsMore {c c₁ : Cursor} {t comma : Token} :
      t.kind = .variable →
      Derives enclosing (.value node) ((c.before t).introduce blockLocal enclosing t.text)
        (c₁.before comma) →
      comma.isMark ',' = true → Derives enclosing (.declarations blockLocal statements) c₁ c₂ →
      Derives enclosing (.declarations blockLocal (node.declared blockLocal ++ statements))
        (c.before t) c₂
  -- Blocks
  | jump {c : Cursor} {t : Token} :
      BlockShape.ofKeyword t.value = .jump → c.nextIs Token.beginsJumpValue = false →
      Derives enclosing (.block t (.begin c.scopes.size t)) c (c.enter enclosing)
  | jumpValue {c : Cursor} {t : Token} :
      BlockShape.ofKeyword t.value = .jump → c.nextIs Token.beginsJumpValue = true →
      Derives (c.scopes.size :: enclosing) (.value node) (c.enter enclosing) c₁ →
      Derives enclosing (.block t ((Block.begin c.scopes.size t).withHeader node)) c c₁
  | caseLabel {c c₁ : Cursor} {t colon : Token} :
      BlockShape.ofKeyword t.value = .caseLabel → c.nextIs (!·.isMark ':') = true →
      Derives (c.scopes.size :: enclosing) (.value node) (c.enter enclosing) (c₁.before colon) →
      colon.isMark ':' = true →
      Derives enclosing (.block t ((Block.begin c.scopes.size t).withHeader node)) c c₁
  | defaultLabel {c : Cursor} {t colon : Token} :
      BlockShape.ofKeyword t.value = .defaultLabel → colon.isMark ':' = true →
      Derives enclosing (.block t (.begin c.scopes.size t)) (c.before colon) (c.enter enclosing)
  | headed {c : Cursor} {t : Token} :
      BlockShape.ofKeyword t.value = .headed policy →
      Derives (c.scopes.size :: enclosing) (.header policy header) (c.enter enclosing) c₁ →
      Derives (c.scopes.size :: enclosing) (.body statements closing) c₁ c₂ →
      Derives enclosing
        (.block t (((Block.begin c.scopes.size t).withHeader? header).withBody statements closing))
          c c₂
  | doLoop {c : Cursor} {t : Token} :
      BlockShape.ofKeyword t.value = .doLoop → c.nextIs (·.isMark '(') = false →
      Derives (c.scopes.size :: enclosing) (.body statements closing) (c.enter enclosing) c₁ →
      Derives (c.scopes.size :: enclosing) (.loopCondition header) c₁ c₂ →
      Derives enclosing
        (.block t (((Block.begin c.scopes.size t).withBody statements closing).withHeader? header))
          c c₂
  | noHeader {c : Cursor} :
      policy ≠ .required → c.nextIs (·.isMark '(') = false →
        Derives enclosing (.header policy none) c c
  | header {c : Cursor} {opening : Token} :
      policy ≠ .forbidden → opening.isMark '(' = true →
      Derives enclosing (.items false items separator closing) c c₁ →
      Derives enclosing (.header policy
        (some (.group ⟨items, separator, opening.span.union closing⟩)))
        (c.before opening) c₁
  | noCondition {c : Cursor} :
      c.nextIs (·.isKeyword "while") = false → Derives enclosing (.loopCondition none) c c
  | condition {c : Cursor} {opening word : Token} :
      word.isKeyword "while" = true → opening.isMark '(' = true →
      Derives enclosing (.items false items separator closing) c c₁ →
      Derives enclosing (.loopCondition
        (some (.group ⟨items, separator, opening.span.union closing⟩)))
        ((c.before opening).before word) c₁
  | bodyBraces {c : Cursor} {opening : Token} :
      opening.isMark '\x7b' = true → Derives enclosing (.braces statements closing) c c₁ →
      Derives enclosing (.body statements (some closing)) (c.before opening) c₁
  | bodyStatement {c c₁ : Cursor} :
      c.nextIs (·.isMark '\x7b') = false → Derives enclosing (.statement statements) c c₁ →
      Derives enclosing (.elseBranches statements all) c₁.skipSemicolon c₂ →
      Derives enclosing (.body all none) c c₂
  | noElse {c : Cursor} :
      (Grammar.endsWithIf statements && c.nextIs (·.isKeyword "else")) = false →
      Derives enclosing (.elseBranches statements statements) c c
  | elseBranch {c c₁ : Cursor} :
      Grammar.endsWithIf statements = true → c.nextIs (·.isKeyword "else") = true →
      Derives enclosing (.statement branch) c c₁ →
      Derives enclosing (.elseBranches (statements ++ branch) all) c₁.skipSemicolon c₂ →
      Derives enclosing (.elseBranches statements all) c c₂
  | bracesEnd {c : Cursor} {t : Token} :
      t.isMark '\x7d' = true → Derives enclosing (.braces [] t.span) (c.before t) c
  | bracesMore {c : Cursor} :
      c.nextIs (·.isMark '\x7d') = false →
      Derives enclosing (.statement first) c c₁ → Derives enclosing (.braces later closing) c₁ c₂ →
      Derives enclosing (.braces (first ++ later) closing) c c₂
  -- Functions
  | function {c c₁ : Cursor} {opening brace keyword : Token} {name : Option Token} :
      (∀ t ∈ name, t.kind = .variable) → opening.isMark '(' = true →
      Derives enclosing (.items false items separator closing) c (c₁.before brace) →
      brace.isMark '\x7b' = true →
      Derives (c₁.scopes.size :: enclosing) (.braces statements stop) (c₁.enter enclosing) c₂ →
      Derives enclosing
        (.function keyword (.block ((Block.closure c₁.scopes.size keyword.span (name.map (·.text))
          ⟨items, separator, opening.span.union closing⟩).withBody statements (some stop))))
        ((c.before opening).before? name) c₂
  | lambdaBraces {c : Cursor} {brace : Token} :
      brace.isMark '\x7b' = true →
      Derives (c.scopes.size :: enclosing) (.braces statements stop) (c.enter enclosing) c₁ →
      Derives enclosing
        (.lambda arrow parameters (.block
          ((Block.closure c.scopes.size parameters.span none parameters).withBody statements
            (some stop))))
        (c.before brace) c₁
  | lambdaValue {c c₁ : Cursor} :
      c.nextIs (·.isMark '\x7b') = false →
      Derives (c.scopes.size :: enclosing) (.value node) (c.enter enclosing) c₁ →
      Derives enclosing
        (.lambda arrow parameters (.block
          ((Block.closure c.scopes.size parameters.span none parameters).push
            (.block (.returning c₁.scopes.size arrow node)))))
        c (c₁.enter (c.scopes.size :: enclosing))
  -- Values
  | value :
      Derives enclosing (.operand front) c c₁ → Derives enclosing (.continuation front node) c₁ c₂ →
      Derives enclosing (.value node) c c₂
  | literal {c : Cursor} {t : Token} :
      t.literal? = some l → Derives enclosing (.operand (.literal l)) (c.before t) c
  | name {c c₁ : Cursor} {t : Token} :
      t.kind = .variable → Derives enclosing (.accesses t.span chain span) c c₁ →
      c₁.nextIs (·.kind == .lambda) = false →
      Derives enclosing
        (.operand (.variable ⟨t.text, chain, c₁.scopes.resolve enclosing t.text, span⟩))
        (c.before t) c₁
  | nameArrow {c c₁ : Cursor} {t arrow : Token} :
      t.kind = .variable → Derives enclosing (.accesses t.span chain span) c (c₁.before arrow) →
      arrow.kind = .lambda →
      Derives enclosing
        (.lambda arrow.span
          ⟨[.variable ⟨t.text, chain, c₁.scopes.resolve enclosing t.text, span⟩], .comma,
            span⟩ node) c₁ c₂ →
      Derives enclosing (.operand node) (c.before t) c₂
  | group {c c₁ : Cursor} {opening : Token} :
      opening.isMark '(' = true → Derives enclosing (.items false items separator closing) c c₁ →
      c₁.nextIs (·.kind == .lambda) = false →
      Derives enclosing (.operand (.group ⟨items, separator, opening.span.union closing⟩))
        (c.before opening) c₁
  | groupArrow {c c₁ : Cursor} {opening arrow : Token} :
      opening.isMark '(' = true →
      Derives enclosing (.items false items separator closing) c (c₁.before arrow) →
      arrow.kind = .lambda →
      Derives enclosing (.lambda arrow.span
        ⟨items, separator, opening.span.union closing⟩ node) c₁ c₂ →
      Derives enclosing (.operand node) (c.before opening) c₂
  | list {c : Cursor} {opening : Token} :
      opening.isMark '[' = true → Derives enclosing (.listItems false items closing) c c₁ →
      Derives enclosing (.operand (.list items (opening.span.union closing))) (c.before opening) c₁
  | record {c : Cursor} {opening : Token} :
      opening.isMark '\x7b' = true → Derives enclosing (.recordEntries false entries closing) c c₁ →
      Derives enclosing (.operand (.record entries (opening.span.union closing)))
        (c.before opening) c₁
  | leading {c : Cursor} {t : Token} :
      t.kind = .operator → isLeadingOperator t.value = true →
      Derives enclosing (.operand callee) c c₁ → Derives enclosing (.calls callee node) c₁ c₂ →
      ((isStepOperator t.value || t.value == "delete") = true → node.isAssignable = true) →
      Derives enclosing (.operand (.mkUnary t.value node .leading t.span)) (c.before t) c₂
  | functionLiteral {c : Cursor} {t : Token} :
      t.kind = .function → Derives enclosing (.function t node) c c₁ →
      Derives enclosing (.operand node) (c.before t) c₁
  | callsEnd {c : Cursor} : c.nextIs (·.isMark '(') = false →
    Derives enclosing (.calls node node) c c
  | callsMore {c : Cursor} {opening : Token} :
      opening.isMark '(' = true →
        Derives enclosing (.items false arguments separator closing) c c₁ →
      Derives enclosing (.calls (.mkCall callee arguments (opening.span.union closing)) node) c₁
        c₂ →
      Derives enclosing (.calls callee node) (c.before opening) c₂
  | continuationEnd {c : Cursor} :
      c.rest.head?.all Token.endsValue = true → Derives enclosing (.continuation node node) c c
  | ternary {c c₁ : Cursor} {t colon : Token} :
      t.isOperator "?" = true → Derives enclosing (.value whenTrue) c (c₁.before colon) →
      colon.isMark ':' = true → Derives enclosing (.value whenFalse) c₁ c₂ →
      Derives enclosing (.continuation (.mkTernary front whenTrue whenFalse) node) c₂ c₃ →
      Derives enclosing (.continuation front node) (c.before t) c₃
  | call {c : Cursor} {opening : Token} :
      opening.isMark '(' = true →
        Derives enclosing (.items false arguments separator closing) c c₁ →
      Derives enclosing (.continuation
        (.mkCall front arguments (opening.span.union closing)) node) c₁ c₂ →
      Derives enclosing (.continuation front node) (c.before opening) c₂
  | trailing {c : Cursor} {t : Token} :
      t.kind = .operator → isStepOperator t.value = true → t.newlineBefore = false →
      front.isAssignable = true →
      Derives enclosing (.continuation front (.mkUnary t.value front .trailing t.span))
        (c.before t) c
  | assign {c : Cursor} {t : Token} :
      t.isAssignment = true → Derives enclosing (.value right) c c₁ → front.isAssignable = true →
      Derives enclosing (.continuation (.mkAssign t.value front right) node) c₁ c₂ →
      Derives enclosing (.continuation front node) (c.before t) c₂
  | binary {c : Cursor} {t : Token} :
      t.isInfix = true → Derives enclosing (.value right) c c₁ →
      Derives enclosing (.continuation (.mkBinary t.value front right) node) c₁ c₂ →
      Derives enclosing (.continuation front node) (c.before t) c₂
  -- Accesses
  | accessesEnd {c : Cursor} :
      c.nextIs (·.isMark '.') = false → c.nextIs (·.isMark '[') = false →
      Derives enclosing (.accesses span [] span) c c
  | property {c : Cursor} {t point : Token} :
      point.isMark '.' = true → Grammar.isPropertyName t = true →
      Derives enclosing (.accesses (span.union t.span) chain whole) c c₁ →
      Derives enclosing (.accesses span (.property (.quoted t.text t.span) :: chain) whole)
        ((c.before t).before point) c₁
  | index {c c₁ : Cursor} {opening closing : Token} :
      opening.isMark '[' = true → Derives enclosing (.value node) c (c₁.before closing) →
      closing.isMark ']' = true →
      Derives enclosing (.accesses (span.union closing.span) chain whole) c₁ c₂ →
      Derives enclosing (.accesses span (.index node :: chain) whole) (c.before opening) c₂
  -- Groups and arrays
  | itemsEnd {c : Cursor} {t : Token} :
      t.isMark ')' = true → Derives enclosing (.items afterItem [] .comma t.span) (c.before t) c
  | itemsComma {c : Cursor} {t : Token} :
      t.isMark ',' = true → Derives enclosing (.items false items separator closing) c c₁ →
      Derives enclosing (.items true items separator closing) (c.before t) c₁
  | itemsSemicolon {c : Cursor} {t : Token} :
      t.isMark ';' = true → Derives enclosing (.items false items separator closing) c c₁ →
      Derives enclosing (.items true items .semicolon closing) (c.before t) c₁
  | itemsLocal {c : Cursor} {t name : Token} :
      t.kind = .keyword → t.value = "let" ∨ t.value = "const" → name.kind = .variable →
      Derives enclosing (.items false items separator closing)
        ((c.before name).declare enclosing name.text) c₁ →
      Derives enclosing (.items false items separator closing) ((c.before name).before t) c₁
  | itemsGlobal {c : Cursor} {t : Token} :
      t.isKeyword "var" = true → Derives enclosing (.items false items separator closing) c c₁ →
      Derives enclosing (.items false items separator closing) (c.before t) c₁
  | itemsMore :
      Derives enclosing (.value node) c c₁ →
        Derives enclosing (.items true items separator closing) c₁ c₂ →
      Derives enclosing (.items false (node :: items) separator closing) c c₂
  | listEnd {c : Cursor} {t : Token} :
      t.isMark ']' = true → Derives enclosing (.listItems afterItem [] t.span) (c.before t) c
  | listComma {c : Cursor} {t : Token} :
      t.isMark ',' = true → Derives enclosing (.listItems false items closing) c c₁ →
      Derives enclosing (.listItems true items closing) (c.before t) c₁
  | listMore :
      Derives enclosing (.value node) c c₁ →
        Derives enclosing (.listItems true items closing) c₁ c₂ →
      Derives enclosing (.listItems false (node :: items) closing) c c₂
  | recordEnd {c : Cursor} {t : Token} :
      t.isMark '\x7d' = true → Derives enclosing (.recordEntries afterEntry [] t.span)
        (c.before t) c
  | recordComma {c : Cursor} {t : Token} :
      t.isMark ',' = true → Derives enclosing (.recordEntries false entries closing) c c₁ →
      Derives enclosing (.recordEntries true entries closing) (c.before t) c₁
  | recordMore {c : Cursor} {colon : Token} :
      Grammar.recordKey? t = some key → colon.isMark ':' = true →
      Derives enclosing (.value node) c c₁ →
        Derives enclosing (.recordEntries true entries closing) c₁ c₂ →
      Derives enclosing (.recordEntries false ((key, node) :: entries) closing)
        ((c.before colon).before t) c₂

end ScriptToPhp
