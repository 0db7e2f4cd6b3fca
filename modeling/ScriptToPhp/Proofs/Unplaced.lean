import ScriptToPhp.Grammar.Script
import ScriptToPhp.Proofs.Derivation

/-!
# Forgetting places

Every node, token and fault carries a span. `unplaced` forgets the spans and keeps the rest. Reading
decides nothing by a span: tokens without their places are read to the same script without its
places, or refused with the same message.
-/

namespace ScriptToPhp

class Unplace (α : Type) where
  /-- The same thing with every span empty at the front of the text. -/
  unplaced : α → α

export Unplace (unplaced)

section

variable {α β : Type} [Unplace α] [Unplace β]

instance : Unplace Span := ⟨fun _ => .empty 0⟩
instance : Unplace Unit := ⟨fun u => u⟩
instance : Unplace Bool := ⟨fun b => b⟩
instance : Unplace String := ⟨fun text => text⟩
instance : Unplace ScopeId := ⟨fun id => id⟩
instance : Unplace Separator := ⟨fun separator => separator⟩
instance : Unplace (Option α) := ⟨Option.map unplaced⟩
instance : Unplace (List α) := ⟨List.map unplaced⟩
instance : Unplace (α × β) := ⟨fun p => (unplaced p.1, unplaced p.2)⟩
instance : Unplace Literal := ⟨fun l => { l with span := unplaced l.span }⟩
instance : Unplace Token := ⟨fun t => { t with span := unplaced t.span }⟩
instance : Unplace Fault := ⟨fun f => { f with span := unplaced f.span }⟩

@[simp] theorem unplaced_union (a b : Span) :
    unplaced (a.union b) = (unplaced a).union (unplaced b) := rfl

@[simp] theorem unplaced_pair (a : α) (b : β) : unplaced (a, b) = (unplaced a, unplaced b) := rfl

@[simp] theorem unplaced_append (as bs : List α) :
    unplaced (as ++ bs) = unplaced as ++ unplaced bs :=
  List.map_append

@[simp] theorem unplaced_cons (a : α) (as : List α) :
    unplaced (a :: as) = unplaced a :: unplaced as := rfl

theorem unplaced_scope (scope : Option ScopeId) : unplaced scope = scope := by cases scope <;> rfl

theorem unplaced_name (name : Option String) : unplaced name = name := by cases name <;> rfl

end

-- ---------------------------------------------------------------------------
-- Trees
-- ---------------------------------------------------------------------------

mutual

def Node.erased : Node → Node
  | .literal l => .literal (unplaced l)
  | .variable v => .variable v.erased
  | .binary op left right span => .binary op left.erased right.erased (unplaced span)
  | .ternary condition whenTrue whenFalse span =>
    .ternary condition.erased whenTrue.erased whenFalse.erased (unplaced span)
  | .assign op target value span => .assign op target.erased value.erased (unplaced span)
  | .call callee arguments span => .call callee.erased (erasedNodes arguments) (unplaced span)
  | .group g => .group g.erased
  | .list items span => .list (erasedNodes items) (unplaced span)
  | .record entries span => .record (erasedEntries entries) (unplaced span)
  | .unary op operand fixity span => .unary op operand.erased fixity (unplaced span)
  | .block b => .block b.erased

def Variable.erased : Variable → Variable
  | ⟨name, chain, scope, span⟩ => ⟨name, erasedChain chain, scope, unplaced span⟩

def Group.erased : Group → Group
  | ⟨items, separator, span⟩ => ⟨erasedNodes items, separator, unplaced span⟩

def Block.erased : Block → Block
  | ⟨kind, header, body, scope, name, delimited, span⟩ =>
    ⟨kind, erasedHeader header, erasedNodes body, scope, name, delimited, unplaced span⟩

def erasedHeader : Option Node → Option Node
  | none => none
  | some header => some header.erased

def erasedNodes : List Node → List Node
  | [] => []
  | node :: nodes => node.erased :: erasedNodes nodes

def erasedChain : List Access → List Access
  | [] => []
  | .property key :: chain => .property (unplaced key) :: erasedChain chain
  | .index value :: chain => .index value.erased :: erasedChain chain

def erasedEntries : List (Literal × Node) → List (Literal × Node)
  | [] => []
  | (key, value) :: entries => (unplaced key, value.erased) :: erasedEntries entries

end

instance : Unplace Node := ⟨Node.erased⟩
instance : Unplace Variable := ⟨Variable.erased⟩
instance : Unplace Group := ⟨Group.erased⟩
instance : Unplace Block := ⟨Block.erased⟩

instance : Unplace Access where
  unplaced
    | .property key => .property (unplaced key)
    | .index value => .index (unplaced value)

theorem erasedHeader_eq (header : Option Node) : erasedHeader header = unplaced header := by
  cases header <;> rfl

theorem erasedNodes_eq (nodes : List Node) : erasedNodes nodes = unplaced nodes := by
  induction nodes with
  | nil => rfl
  | cons node nodes ih => rw [erasedNodes, ih]; rfl

theorem erasedChain_eq (chain : List Access) : erasedChain chain = unplaced chain := by
  induction chain with
  | nil => rfl
  | cons access chain ih => cases access <;> rw [erasedChain, ih] <;> rfl

theorem erasedEntries_eq (entries : List (Literal × Node)) :
    erasedEntries entries = unplaced entries := by
  induction entries with
  | nil => rfl
  | cons entry entries ih => rw [erasedEntries, ih]; rfl

@[simp] theorem unplaced_literal (l : Literal) :
    unplaced (Node.literal l) = .literal (unplaced l) := rfl

@[simp] theorem unplaced_block (b : Block) : unplaced (Node.block b) = .block (unplaced b) := rfl

@[simp] theorem unplaced_variable (name : String) (chain : List Access) (scope : Option ScopeId)
    (span : Span) :
    unplaced (Node.variable ⟨name, chain, scope, span⟩) =
      .variable ⟨name, unplaced chain, scope, unplaced span⟩ := by
  rw [← erasedChain_eq]; rfl

@[simp] theorem unplaced_group (items : List Node) (separator : Separator) (span : Span) :
    unplaced (⟨items, separator, span⟩ : Group) = ⟨unplaced items, separator, unplaced span⟩ := by
  rw [← erasedNodes_eq]; rfl

@[simp] theorem Group.span_unplaced (g : Group) :
    (unplaced g).span = unplaced g.span := by cases g; rfl

@[simp] theorem unplaced_list (items : List Node) (span : Span) :
    unplaced (Node.list items span) = .list (unplaced items) (unplaced span) := by
  rw [← erasedNodes_eq]; rfl

@[simp] theorem unplaced_record (entries : List (Literal × Node)) (span : Span) :
    unplaced (Node.record entries span) = .record (unplaced entries) (unplaced span) := by
  rw [← erasedEntries_eq]; rfl

namespace Node

@[simp] theorem span_unplaced (node : Node) : (unplaced node).span = unplaced node.span := by
  cases node with
  | «variable» v => cases v; rfl
  | group g => cases g; rfl
  | block b => cases b; rfl
  | _ => rfl

@[simp] theorem isAssignable_unplaced (node : Node) :
    (unplaced node).isAssignable = node.isAssignable := by
  cases node <;> rfl

@[simp] theorem subject_unplaced (node : Node) : (unplaced node).subject = node.subject := by
  cases node with
  | «variable» v => cases v; rfl
  | block b => cases b; rfl
  | _ => rfl

@[simp] theorem unplaced_mkBinary (op : String) (left right : Node) :
    unplaced (mkBinary op left right) = mkBinary op (unplaced left) (unplaced right) := by
  simp only [mkBinary, span_unplaced]; rfl

@[simp] theorem unplaced_mkTernary (condition whenTrue whenFalse : Node) :
    unplaced (mkTernary condition whenTrue whenFalse) =
      mkTernary (unplaced condition) (unplaced whenTrue) (unplaced whenFalse) := by
  simp only [mkTernary, span_unplaced]; rfl

@[simp] theorem unplaced_mkAssign (op : String) (target value : Node) :
    unplaced (mkAssign op target value) = mkAssign op (unplaced target) (unplaced value) := by
  simp only [mkAssign, span_unplaced]; rfl

@[simp] theorem unplaced_mkCall (callee : Node) (arguments : List Node) (closing : Span) :
    unplaced (mkCall callee arguments closing) =
      mkCall (unplaced callee) (unplaced arguments) (unplaced closing) := by
  simp only [mkCall, span_unplaced, ← erasedNodes_eq]; rfl

@[simp] theorem unplaced_mkUnary (op : String) (operand : Node) (fixity : Fixity) (mark : Span) :
    unplaced (mkUnary op operand fixity mark) =
      mkUnary op (unplaced operand) fixity (unplaced mark) := by
  simp only [mkUnary, span_unplaced]; rfl

end Node

namespace Block

variable (b : Block)

theorem unplaced_eq : unplaced b =
    ⟨b.kind, unplaced b.header, unplaced b.body, b.scope, b.name, b.delimited,
      unplaced b.span⟩ := by
  cases b
  rw [← erasedHeader_eq, ← erasedNodes_eq]
  rfl

@[simp] theorem span_unplaced : (unplaced b).span = unplaced b.span := by rw [unplaced_eq]

@[simp] theorem kind_unplaced : (unplaced b).kind = b.kind := by rw [unplaced_eq]

@[simp] theorem unplaced_ofKind (kind : BlockKind) (scope : ScopeId) (span : Span) :
    unplaced (ofKind kind scope span) = ofKind kind scope (unplaced span) := rfl

@[simp] theorem unplaced_cover (span : Span) :
    unplaced (b.cover span) = (unplaced b).cover (unplaced span) := by
  simp [unplaced_eq, cover]

@[simp] theorem unplaced_withHeader (header : Node) :
    unplaced (b.withHeader header) = (unplaced b).withHeader (unplaced header) := by
  rw [withHeader, withHeader, Node.span_unplaced, ← unplaced_cover, unplaced_eq, unplaced_eq]
  rfl

@[simp] theorem unplaced_push (node : Node) :
    unplaced (b.push node) = (unplaced b).push (unplaced node) := by
  rw [push, push, Node.span_unplaced, ← unplaced_cover, unplaced_eq, unplaced_eq, unplaced_eq]
  simp only [ScriptToPhp.unplaced_append]
  rfl

@[simp] theorem unplaced_append (nodes : List Node) :
    unplaced (b.append nodes) = (unplaced b).append (unplaced nodes) := by
  induction nodes generalizing b with
  | nil => rfl
  | cons node nodes ih =>
    have hpush := ih (b.push node)
    rwa [unplaced_push] at hpush

@[simp] theorem unplaced_withBody (nodes : List Node) (closing : Option Span) :
    unplaced (b.withBody nodes closing) =
      (unplaced b).withBody (unplaced nodes) (unplaced closing) := by
  cases closing with
  | none => exact b.unplaced_append nodes
  | some closing =>
    have hdelimited : unplaced { b with delimited := true } =
      { unplaced b with delimited := true } := by
      rw [unplaced_eq, unplaced_eq]
    rw [withBody, unplaced_cover, unplaced_append, hdelimited]
    rfl

@[simp] theorem unplaced_closure (scope : ScopeId) (span : Span) (name : Option String)
    (parameters : Group) :
    unplaced (closure scope span name parameters) =
      closure scope (unplaced span) name (unplaced parameters) := by
  cases parameters
  rw [unplaced_eq]
  rfl

@[simp] theorem unplaced_returning (scope : ScopeId) (arrow : Span) (value : Node) :
    unplaced (returning scope arrow value) = returning scope (unplaced arrow) (unplaced value) :=
  unplaced_withHeader ..

end Block

-- ---------------------------------------------------------------------------
-- States
-- ---------------------------------------------------------------------------

instance : Unplace Halt where
  unplaced
    | .fault f => .fault (unplaced f)
    | .exhausted => .exhausted

instance : Unplace ParseEvent where
  unplaced
    | .token t => .token (unplaced t)
    | .block word span => .block word (unplaced span)
    | .function name span => .function name (unplaced span)
    | .script file statements scopes => .script file statements scopes

instance : Unplace ParseState where
  unplaced s :=
    { s with
      rest := unplaced s.rest
      fault := unplaced s.fault
      size := 0
      last := unplaced s.last
      events := unplaced s.events }

instance {α : Type} [Unplace α] : Unplace (EStateM.Result Halt ParseState α) where
  unplaced
    | .ok a s => .ok (unplaced a) (unplaced s)
    | .error halt s => .error (unplaced halt) (unplaced s)

namespace Parse

/-- Without places the second step does what the first does with them. -/
def Blind {α : Type} [Unplace α] (x y : Parse α) : Prop := ∀ s, y (unplaced s) = unplaced (x s)

section

variable {α β : Type} [Unplace α] [Unplace β]

theorem Blind.pure (a : α) : Blind (pure a) (pure (unplaced a)) := fun _ => rfl

theorem Blind.return {a b : α} (h : unplaced a = b) :
    Blind (Pure.pure a) (Pure.pure b) := h ▸ .pure a

theorem Blind.bind {x y : Parse α} {f f' : α → Parse β} (hx : Blind x y)
    (hf : ∀ a, Blind (f a) (f' (unplaced a))) : Blind (x >>= f) (y >>= f') := by
  intro s
  show EStateM.bind y f' (unplaced s) = unplaced (EStateM.bind x f s)
  unfold EStateM.bind
  rw [hx s]
  cases x s with
  | ok a s' => exact hf a s'
  | error halt s' => rfl

theorem Blind.ite {c : Prop} [Decidable c] {x y x' y' : Parse α} (h : Blind x y)
    (h' : Blind x' y') :
    Blind (if c then x else x') (if c then y else y') := by
  split
  · exact h
  · exact h'

theorem blind_fail {message : Message} {arguments : List String} {span : Span} :
    Blind (fail message arguments span : Parse α) (fail message arguments (unplaced span)) :=
  fun _ => rfl

theorem blind_exhausted : Blind (exhausted : Parse α) exhausted := fun _ => rfl

theorem blind_peek : Blind peek peek := by
  rintro ⟨rest, fault, size, last, scopes, noted, events⟩
  cases rest with
  | cons t ts => cases noted <;> rfl
  | nil => cases fault <;> rfl

theorem blind_next : Blind next next := by
  rintro ⟨rest, fault, size, last, scopes, noted, events⟩
  cases rest with
  | cons t ts => cases noted <;> rfl
  | nil => cases fault <;> rfl

theorem blind_skip : Blind skip skip := .bind blind_next fun _ => .pure ()

theorem blind_nextIs {p : Token → Bool} (hp : ∀ t, p (unplaced t) = p t) :
    Blind (nextIs p) (nextIs p) := by
  refine .bind blind_peek fun o => ?_
  cases o with
  | none => exact .pure _
  | some t =>
    show Blind (Pure.pure (p t)) (Pure.pure (p (unplaced t)))
    rw [hp]
    exact .pure _

theorem blind_nextIsMark {c : Char} : Blind (nextIsMark c) (nextIsMark c) :=
  blind_nextIs fun _ => rfl

theorem blind_lastSpan : Blind lastSpan lastSpan := by
  rintro ⟨rest, fault, size, last, scopes, noted, events⟩
  cases last <;> rfl

theorem blind_endSpan : Blind endSpan endSpan := fun _ => rfl

theorem blind_note {event : ParseEvent} : Blind (note event) (note (unplaced event)) := fun _ => rfl

theorem blind_unexpected {t : Token} : Blind (unexpected t : Parse α) (unexpected (unplaced t)) :=
  fun _ => rfl

theorem blind_unexpectedEnd {expected : String} :
    Blind (unexpectedEnd expected : Parse α) (unexpectedEnd expected) := fun _ => rfl

theorem blind_refuseNext {expected : String} :
    Blind (refuseNext expected : Parse α) (refuseNext expected) := by
  refine .bind blind_next fun o => ?_
  cases o with
  | none => exact blind_unexpectedEnd
  | some t => exact blind_unexpected

theorem blind_valueExpected : Blind (valueExpected : Parse α) valueExpected := by
  rintro ⟨rest, fault, size, last, scopes, noted, events⟩
  cases last <;> rfl

theorem blind_expectMark {c : Char} : Blind (expectMark c) (expectMark c) := by
  refine .bind blind_next fun o => ?_
  cases o with
  | none => exact blind_unexpectedEnd
  | some t => exact .ite (.pure t) blind_fail

theorem blind_expectClosing {c : Char} {unclosed : Message} {opening : Span} :
    Blind (expectClosing c unclosed opening) (expectClosing c unclosed (unplaced opening)) := by
  refine .bind blind_next fun o => ?_
  cases o with
  | none => exact blind_fail
  | some t => exact .ite (.pure t) blind_unexpected

theorem blind_skipSemicolon : Blind skipSemicolon skipSemicolon :=
  .bind blind_nextIsMark fun _ => .ite blind_skip (.pure ())

theorem blind_openScope {enclosing : List ScopeId} :
    Blind (openScope enclosing) (openScope enclosing) :=
  fun _ => rfl

theorem blind_resolve {enclosing : List ScopeId} {name : String} :
    Blind (resolve enclosing name) (resolve enclosing name) := by
  intro s
  show EStateM.Result.ok _ _ = EStateM.Result.ok (unplaced (s.scopes.resolve enclosing name)) _
  cases s.scopes.resolve enclosing name <;> rfl

theorem blind_declare {enclosing : List ScopeId} {name : String} :
    Blind (declare enclosing name) (declare enclosing name) := by
  cases enclosing with
  | nil => exact .pure ()
  | cons scope enclosing => exact fun _ => rfl

theorem blind_declareNext {enclosing : List ScopeId} :
    Blind (declareNext enclosing) (declareNext enclosing) := by
  refine .bind blind_peek fun o => ?_
  cases o with
  | none => exact blind_refuseNext
  | some t => exact .ite blind_declare blind_refuseNext

end

end Parse

-- ---------------------------------------------------------------------------
-- Productions
-- ---------------------------------------------------------------------------

namespace Grammar

open Parse

/-- The productions for nested parts decide nothing by a span. -/
structure Blind (g : Grammar) : Prop where
  statement : Parse.Blind (g.statement enclosing) (g.statement enclosing)
  value : Parse.Blind (g.value enclosing t) (g.value enclosing (unplaced t))
  operand : Parse.Blind (g.operand enclosing t) (g.operand enclosing (unplaced t))

variable {g : Grammar} {enclosing : List ScopeId}

theorem Blind.requireValue (hg : g.Blind) (t : Token) :
    Parse.Blind (g.requireValue enclosing t) (g.requireValue enclosing (unplaced t)) := by
  refine .bind hg.value fun o => ?_
  cases o with
  | none => exact blind_unexpected
  | some value => exact .pure value

theorem Blind.nextValue (hg : g.Blind) :
    Parse.Blind (g.nextValue enclosing) (g.nextValue enclosing) := by
  refine .bind blind_next fun o => ?_
  cases o with
  | none => exact blind_valueExpected
  | some t => exact hg.requireValue t

-- ---------------------------------------------------------------------------
-- Groups and arrays
-- ---------------------------------------------------------------------------

theorem Blind.groupItems (hg : g.Blind) (opening : Span) (bound : Nat) (afterItem : Bool) :
    Parse.Blind (g.groupItems enclosing opening bound afterItem)
      (g.groupItems enclosing (unplaced opening) bound afterItem) := by
  induction bound generalizing afterItem with
  | zero => exact blind_exhausted
  | succ bound ih =>
    refine .bind blind_next fun o => ?_
    cases o with
    | none => exact blind_fail
    | some t =>
      refine .ite (.pure _) (.ite ?_ (.ite ?_ (.ite (ih false) ?_)))
      · exact .ite (.bind (ih false) fun _ => .pure _) (.ite (ih false) blind_unexpected)
      · exact .bind blind_declareNext fun _ => ih false
      · exact .bind (hg.requireValue t) fun _ => .bind (ih true) fun _ => .pure _

theorem Blind.group (hg : g.Blind) (bound : Nat) (opening : Span) :
    Parse.Blind (g.group enclosing bound opening) (g.group enclosing bound (unplaced opening)) := by
  refine .bind (hg.groupItems opening bound false) fun ⟨items, separator, closing⟩ => .return ?_
  rw [unplaced_group]
  rfl

theorem Blind.listItems (hg : g.Blind) (opening : Span) (bound : Nat) (afterItem : Bool) :
    Parse.Blind (g.listItems enclosing opening bound afterItem)
      (g.listItems enclosing (unplaced opening) bound afterItem) := by
  induction bound generalizing afterItem with
  | zero => exact blind_exhausted
  | succ bound ih =>
    refine .bind blind_next fun o => ?_
    cases o with
    | none => exact blind_fail
    | some t =>
      refine .ite (.pure _) (.ite (.ite (ih false) blind_unexpected) ?_)
      exact .bind (hg.requireValue t) fun _ => .bind (ih true) fun _ => .pure _

theorem recordKey?_unplaced (t : Token) : recordKey? (unplaced t) = unplaced (recordKey? t) := by
  obtain ⟨kind, text, value, span, newlineBefore⟩ := t
  cases kind <;> rfl

theorem Blind.recordEntries (hg : g.Blind) (opening : Span) (bound : Nat) (afterEntry : Bool) :
    Parse.Blind (g.recordEntries enclosing opening bound afterEntry)
      (g.recordEntries enclosing (unplaced opening) bound afterEntry) := by
  induction bound generalizing afterEntry with
  | zero => exact blind_exhausted
  | succ bound ih =>
    refine .bind blind_next fun o => ?_
    cases o with
    | none => exact blind_fail
    | some t =>
      refine .ite (.pure _) (.ite (.ite (ih false) blind_unexpected) ?_)
      dsimp only
      rw [recordKey?_unplaced]
      cases recordKey? t with
      | none => exact blind_unexpected
      | some key =>
        refine .bind blind_next fun o => ?_
        cases o with
        | none => exact blind_fail
        | some colon =>
          refine .ite ?_ blind_unexpected
          exact .bind hg.nextValue fun _ => .bind (ih true) fun _ => .pure _

-- ---------------------------------------------------------------------------
-- Functions
-- ---------------------------------------------------------------------------

theorem Blind.delimited (hg : g.Blind) (opening : Span) (bound : Nat) :
    Parse.Blind (g.delimited enclosing opening bound)
    (g.delimited enclosing (unplaced opening) bound) := by
  induction bound with
  | zero => exact blind_exhausted
  | succ bound ih =>
    refine .bind blind_peek fun o => ?_
    cases o with
    | none => exact blind_fail
    | some t =>
      refine .ite (.bind blind_skip fun _ => .pure _) ?_
      refine .bind hg.statement fun first => .bind ih fun ⟨rest, closing⟩ => .return ?_
      rw [unplaced_pair, unplaced_append]

theorem blind_functionName : Parse.Blind functionName functionName := by
  refine .bind (blind_nextIs fun _ => rfl) fun _ => .ite ?_ (.pure _)
  refine .bind blind_next fun o => ?_
  cases o with
  | none => exact .pure _
  | some t => exact .pure _

theorem blind_noted (b : Block) :
    Parse.Blind (do note (.function b.name b.span); return Node.block b)
    (do note (.function (unplaced b).name (unplaced b).span); return Node.block (unplaced b)) := by
  refine .bind ?_ fun _ => .pure (Node.block b)
  rw [b.unplaced_eq]
  exact blind_note

theorem Blind.functionLiteral (hg : g.Blind) (bound : Nat) (keyword : Token) :
    Parse.Blind (g.functionLiteral enclosing bound keyword)
      (g.functionLiteral enclosing bound (unplaced keyword)) := by
  refine .bind blind_functionName fun name => .bind blind_expectMark fun opening => ?_
  refine .bind (hg.group bound _) fun parameters => .bind blind_openScope fun scope => ?_
  refine .bind blind_expectMark fun brace => .bind (hg.delimited _ bound) fun ⟨body, closing⟩ => ?_
  have h :=
    blind_noted ((Block.closure scope keyword.span name parameters).withBody body (some closing))
  rw [Block.unplaced_withBody, Block.unplaced_closure] at h
  rw [unplaced_name]
  exact h

theorem Blind.lambda (hg : g.Blind) (bound : Nat) (parameters : Group) :
    Parse.Blind (g.lambda enclosing bound parameters)
    (g.lambda enclosing bound (unplaced parameters)) := by
  refine .bind blind_openScope fun scope => .bind blind_nextIsMark fun _ => .ite ?_ ?_
  · refine .bind blind_expectMark fun brace =>
      .bind (hg.delimited _ bound) fun ⟨body, closing⟩ => ?_
    have h := Parse.Blind.pure
      (Node.block ((Block.closure scope parameters.span none parameters).withBody body
        (some closing)))
    rw [unplaced_block, Block.unplaced_withBody, Block.unplaced_closure, ← Group.span_unplaced] at h
    exact h
  · refine .bind blind_lastSpan fun arrow => .bind hg.nextValue fun value => ?_
    refine .bind blind_openScope fun returnScope => ?_
    have h := Parse.Blind.pure (Node.block
      ((Block.closure scope parameters.span none parameters).push
        (.block (.returning returnScope arrow value))))
    rw [unplaced_block, Block.unplaced_push, Block.unplaced_closure, unplaced_block,
      Block.unplaced_returning, ← Group.span_unplaced] at h
    exact h

theorem Blind.parentheses (hg : g.Blind) (bound : Nat) (opening : Span) :
    Parse.Blind (g.parentheses enclosing bound opening)
    (g.parentheses enclosing bound (unplaced opening)) := by
  refine .bind (hg.group bound opening) fun group =>
    .bind (blind_nextIs fun _ => rfl) fun _ => .ite ?_ ?_
  · exact .bind blind_skip fun _ => hg.lambda bound group
  · exact .pure (Node.group group)

-- ---------------------------------------------------------------------------
-- Variables
-- ---------------------------------------------------------------------------

theorem Blind.accesses (hg : g.Blind) (bound : Nat) (span : Span) :
    Parse.Blind (g.accesses enclosing bound span) (g.accesses enclosing bound (unplaced span)) := by
  induction bound generalizing span with
  | zero => exact blind_exhausted
  | succ bound ih =>
    refine .bind blind_nextIsMark fun _ =>
      .ite (.bind blind_skip fun _ => .bind blind_next fun o => ?_)
      (.bind blind_nextIsMark fun _ => .ite ?_ (.pure ([], span)))
    · cases o with
      | none => exact blind_unexpectedEnd
      | some t => exact .ite (.bind (ih _) fun _ => .pure _) blind_unexpected
    · refine .bind blind_expectMark fun opening => .bind hg.nextValue fun index => ?_
      exact .bind blind_expectClosing fun closing => .bind (ih _) fun _ => .pure _

theorem Blind.access (hg : g.Blind) (bound : Nat) (t : Token) :
    Parse.Blind (g.access enclosing bound t) (g.access enclosing bound (unplaced t)) := by
  refine .bind (hg.accesses bound t.span) fun ⟨chain, span⟩ =>
    .bind (blind_nextIs fun _ => rfl) fun _ => .ite ?_ ?_
  · refine .bind blind_skip fun _ => .bind blind_resolve fun scope => ?_
    have h : Parse.Blind (g.lambda enclosing bound _) _ :=
      hg.lambda bound ⟨[.variable ⟨t.text, chain, scope, span⟩], .comma, span⟩
    rw [unplaced_group, unplaced_cons, unplaced_variable] at h
    rw [unplaced_scope]
    exact h
  · refine .bind blind_resolve fun scope => .return ?_
    rw [unplaced_variable]
    cases scope <;> rfl

-- ---------------------------------------------------------------------------
-- Operators
-- ---------------------------------------------------------------------------

theorem blind_requireAssignable {node : Node} :
    Parse.Blind (requireAssignable node) (requireAssignable (unplaced node)) := by
  unfold Grammar.requireAssignable
  rw [node.isAssignable_unplaced, node.subject_unplaced, node.span_unplaced]
  exact .ite (.pure ()) blind_fail

theorem blind_assignment {op : String} {target value : Node} :
    Parse.Blind (assignment op target value) (assignment op (unplaced target) (unplaced value)) :=
  .bind blind_requireAssignable fun _ => .return (Node.unplaced_mkAssign ..)

theorem Blind.call (hg : g.Blind) (bound : Nat) (callee : Node) :
    Parse.Blind (g.call enclosing bound callee) (g.call enclosing bound (unplaced callee)) := by
  refine .bind blind_expectMark fun opening =>
    .bind (hg.group bound _) fun ⟨items, separator, span⟩ => .return ?_
  rw [Node.unplaced_mkCall, unplaced_group]

theorem Blind.calls (hg : g.Blind) (bound : Nat) (callee : Node) :
    Parse.Blind (g.calls enclosing bound callee) (g.calls enclosing bound (unplaced callee)) := by
  induction bound generalizing callee with
  | zero => exact blind_exhausted
  | succ bound ih =>
    exact .bind blind_nextIsMark fun _ =>
      .ite (.bind (hg.call bound callee) fun called => ih called) (.pure callee)

theorem Blind.leadingUnary (hg : g.Blind) (bound : Nat) (op : Token) :
    Parse.Blind (g.leadingUnary enclosing bound op)
    (g.leadingUnary enclosing bound (unplaced op)) := by
  refine .bind blind_next fun o => ?_
  cases o with
  | none => exact blind_valueExpected
  | some t =>
    refine .bind hg.operand fun o => ?_
    cases o with
    | none => exact blind_unexpected
    | some operand =>
      refine .bind (hg.calls bound operand) fun operand => ?_
      exact .ite (.bind blind_requireAssignable fun _ => .return (Node.unplaced_mkUnary ..))
        (.return (Node.unplaced_mkUnary ..))

theorem Blind.ternary (hg : g.Blind) (condition : Node) :
    Parse.Blind (g.ternary enclosing condition) (g.ternary enclosing (unplaced condition)) := by
  refine .bind blind_lastSpan fun question => .bind blind_next fun o => ?_
  cases o with
  | none => exact blind_fail
  | some t =>
    refine .bind (hg.requireValue t) fun whenTrue => .bind blind_next fun o => ?_
    cases o with
    | none => exact blind_fail
    | some colon =>
      refine .ite (.bind blind_next fun o => ?_) blind_fail
      cases o with
      | none => exact blind_fail
      | some t =>
        exact .bind (hg.requireValue t) fun whenFalse => .return (Node.unplaced_mkTernary ..)

theorem Blind.continuations (hg : g.Blind) (bound : Nat) (value : Node) :
    Parse.Blind (g.continuations enclosing bound value)
    (g.continuations enclosing bound (unplaced value)) := by
  induction bound generalizing value with
  | zero => exact blind_exhausted
  | succ bound ih =>
    refine .bind blind_peek fun o => ?_
    cases o with
    | none => exact .pure value
    | some t =>
      refine .ite (.ite (.pure value) ?_)
        (.ite ?_ (.ite ?_ (.ite (.pure value) (.ite (.ite (.pure value) ?_) ?_))))
      · exact .bind blind_skip fun _ => blind_unexpected
      · exact .bind blind_skip fun _ => .bind (hg.ternary value) fun value => ih value
      · exact .bind (hg.call bound value) fun value => ih value
      · refine .bind blind_skip fun _ => .bind blind_requireAssignable fun _ => ?_
        exact .return (Node.unplaced_mkUnary ..)
      · refine .bind blind_skip fun _ => .bind hg.nextValue fun right => .ite ?_ ?_
        · exact .bind blind_assignment fun value => ih value
        · have h := ih (.mkBinary t.value value right)
          rwa [Node.unplaced_mkBinary] at h

theorem Blind.operandOf (hg : g.Blind) (bound : Nat) (t : Token) :
    Parse.Blind (g.operandOf enclosing bound t) (g.operandOf enclosing bound (unplaced t)) := by
  obtain ⟨kind, text, value, span, newlineBefore⟩ := t
  cases kind with
  | function => exact .bind (hg.functionLiteral bound _) fun node => .pure (some node)
  | punctuation =>
    refine .ite ?_ (.ite ?_ (.ite ?_ (.pure none)))
    · exact .bind (hg.parentheses bound _) fun node => .pure (some node)
    · refine .bind (hg.listItems _ bound false) fun ⟨items, closing⟩ => .return ?_
      exact congrArg some (unplaced_list items _)
    · refine .bind (hg.recordEntries _ bound false) fun ⟨entries, closing⟩ => .return ?_
      exact congrArg some (unplaced_record entries _)
  | operator =>
    exact .ite (.bind (hg.leadingUnary bound _) fun node => .pure (some node)) (.pure none)
  | «variable» => exact .bind (hg.access bound _) fun node => .pure (some node)
  | constant | number | string => exact .pure (some _)
  | _ => exact .pure none

theorem Blind.valueOf (hg : g.Blind) (bound : Nat) (t : Token) :
    Parse.Blind (g.valueOf enclosing bound t) (g.valueOf enclosing bound (unplaced t)) := by
  refine .bind (hg.operandOf bound t) fun o => ?_
  cases o with
  | none => exact .pure none
  | some operand => exact .bind (hg.continuations bound operand) fun node => .pure (some node)

-- ---------------------------------------------------------------------------
-- Statements
-- ---------------------------------------------------------------------------

theorem blind_declarationName {blockLocal : Bool} :
    Parse.Blind (declarationName enclosing blockLocal) (declarationName enclosing blockLocal) :=
  .ite blind_declareNext (.bind (blind_nextIs fun _ => rfl) fun _ =>
    .ite blind_refuseNext (.pure ()))

theorem blind_declared {blockLocal : Bool} {value : Node} :
    Parse.Blind (declared blockLocal value) (declared blockLocal (unplaced value)) := by
  cases value with
  | «variable» v =>
    obtain ⟨name, chain, scope, span⟩ := v
    cases chain with
    | nil => exact .ite (.bind blind_assignment fun node => .pure [node]) (.pure [])
    | cons access chain => cases access <;> exact .pure [_]
  | _ => exact .pure [_]

theorem Blind.declarations (hg : g.Blind) (blockLocal : Bool) (bound : Nat) :
    Parse.Blind (g.declarations enclosing blockLocal bound)
    (g.declarations enclosing blockLocal bound) := by
  induction bound with
  | zero => exact blind_exhausted
  | succ bound ih =>
    refine .bind blind_declarationName fun _ => .bind hg.nextValue fun value => ?_
    refine .bind blind_declared fun statements => .bind blind_nextIsMark fun _ =>
      .ite ?_ (.pure statements)
    exact .bind blind_skip fun _ => .bind ih fun rest => .return (unplaced_append statements rest)

theorem Blind.jumpValue (hg : g.Blind) (block : Block) :
    Parse.Blind (g.jumpValue enclosing block) (g.jumpValue enclosing (unplaced block)) :=
  .bind (blind_nextIs fun _ => rfl) fun _ =>
    .ite (.bind hg.nextValue fun value => .return (block.unplaced_withHeader value)) (.pure block)

theorem Blind.caseLabel (hg : g.Blind) (block : Block) :
    Parse.Blind (g.caseLabel enclosing block) (g.caseLabel enclosing (unplaced block)) := by
  refine .bind (blind_nextIs fun _ => rfl) fun _ => .ite ?_ (.bind hg.nextValue fun value => ?_)
  · rw [block.span_unplaced]
    exact blind_fail
  · refine .bind blind_next fun o => ?_
    cases o with
    | none => exact .bind blind_endSpan fun _ => blind_fail
    | some colon => exact .ite (.return (block.unplaced_withHeader value)) blind_fail

theorem blind_defaultLabel {block : Block} :
    Parse.Blind (defaultLabel block) (defaultLabel (unplaced block)) := by
  refine .bind blind_next fun o => ?_
  cases o with
  | none =>
    dsimp only
    rw [block.span_unplaced]
    exact blind_fail
  | some colon => exact .ite (.pure block) blind_fail

theorem Blind.header (hg : g.Blind) (bound : Nat) (policy : HeaderPolicy) (block : Block) :
    Parse.Blind (g.header enclosing bound policy block)
    (g.header enclosing bound policy (unplaced block)) := by
  unfold Grammar.header
  rw [block.kind_unplaced]
  refine .bind blind_nextIsMark fun _ => .ite ?_ (.ite ?_ (.pure block))
  · refine .bind blind_expectMark fun opening =>
      .ite blind_fail (.bind (hg.group bound _) fun group => ?_)
    exact .return (block.unplaced_withHeader (.group group))
  · refine .bind blind_peek fun o => ?_
    cases o with
    | none => exact .bind blind_endSpan fun _ => blind_fail
    | some t => exact .bind (.pure t.span) fun _ => blind_fail

theorem endsWithIf_unplaced (statements : List Node) :
    endsWithIf (unplaced statements) = endsWithIf statements := by
  unfold endsWithIf
  rw [show (unplaced statements).getLast? = unplaced statements.getLast? from List.getLast?_map]
  rcases statements.getLast? with _ | node
  · rfl
  · cases node with
    | block b => exact congrArg (· == BlockKind.ifBranch) b.kind_unplaced
    | _ => rfl

theorem Blind.elseBranches (hg : g.Blind) (bound : Nat) (statements : List Node) :
    Parse.Blind (g.elseBranches enclosing bound statements)
      (g.elseBranches enclosing bound (unplaced statements)) := by
  induction bound generalizing statements with
  | zero => exact blind_exhausted
  | succ bound ih =>
    unfold Grammar.elseBranches
    rw [endsWithIf_unplaced]
    refine .ite (.bind (blind_nextIs fun _ => rfl) fun _ => .ite ?_ (.pure statements))
      (.pure statements)
    refine .bind hg.statement fun branch => .bind blind_skipSemicolon fun _ => ?_
    have h := ih (statements ++ branch)
    rwa [unplaced_append] at h

theorem Blind.body (hg : g.Blind) (bound : Nat) (block : Block) :
    Parse.Blind (g.body enclosing bound block) (g.body enclosing bound (unplaced block)) := by
  refine .bind blind_nextIsMark fun _ => .ite ?_ ?_
  · refine .bind blind_expectMark fun opening =>
      .bind (hg.delimited _ bound) fun ⟨statements, closing⟩ => ?_
    exact .return (block.unplaced_withBody statements (some closing))
  · refine .bind hg.statement fun statements => .bind blind_skipSemicolon fun _ => ?_
    exact .bind (hg.elseBranches bound statements) fun statements =>
      .return (block.unplaced_append statements)

theorem Blind.loopCondition (hg : g.Blind) (bound : Nat) (block : Block) :
    Parse.Blind (g.loopCondition enclosing bound block)
    (g.loopCondition enclosing bound (unplaced block)) := by
  refine .bind (blind_nextIs fun _ => rfl) fun _ =>
    .ite (.bind blind_skip fun _ => ?_) (.pure block)
  refine .bind blind_expectMark fun opening => .bind (hg.group bound _) fun group => ?_
  exact .return (block.unplaced_withHeader (.group group))

theorem Blind.blockRest (hg : g.Blind) (bound : Nat) (shape : BlockShape) (block : Block) :
    Parse.Blind (g.blockRest enclosing bound shape block)
    (g.blockRest enclosing bound shape (unplaced block)) := by
  cases shape with
  | jump => exact hg.jumpValue block
  | caseLabel => exact hg.caseLabel block
  | defaultLabel => exact blind_defaultLabel
  | headed policy => exact .bind (hg.header bound policy block) fun headed => hg.body bound headed
  | doLoop =>
    refine .bind (hg.header bound .forbidden block) fun headed => ?_
    exact .bind (hg.body bound headed) fun looped => hg.loopCondition bound looped

theorem Blind.keywordBlock (hg : g.Blind) (bound : Nat) (keyword : Token) :
    Parse.Blind (g.keywordBlock enclosing bound keyword)
    (g.keywordBlock enclosing bound (unplaced keyword)) := by
  refine .bind blind_openScope fun scope => .bind (hg.blockRest bound _ _) fun block =>
    .bind ?_ fun _ => ?_
  · rw [block.span_unplaced]
    exact blind_note
  · exact .pure (Node.block block)

theorem Blind.valueStatement (hg : g.Blind) (bound : Nat) (t : Token) :
    Parse.Blind (g.valueStatement enclosing bound t)
    (g.valueStatement enclosing bound (unplaced t)) := by
  refine .bind (hg.valueOf bound t) fun o => ?_
  cases o with
  | none => exact blind_unexpected
  | some value => exact .pure [value]

theorem Blind.statementOf (hg : g.Blind) (bound : Nat) :
    Parse.Blind (g.statementOf enclosing bound) (g.statementOf enclosing bound) := by
  refine .bind blind_next fun o => ?_
  cases o with
  | none => exact blind_unexpectedEnd
  | some t =>
    refine .ite (.pure [])
      (.ite (.ite (hg.declarations true bound) (.ite (hg.declarations false bound) ?_)) ?_)
    · exact .bind (hg.keywordBlock bound t) fun block => .pure [block]
    · refine .ite (.bind (blind_nextIs fun _ => rfl) fun _ => .ite ?_ ?_)
        (hg.valueStatement bound t)
      · exact .bind (hg.functionLiteral bound t) fun function => .pure [function]
      · exact hg.valueStatement bound t

-- ---------------------------------------------------------------------------
-- Scripts
-- ---------------------------------------------------------------------------

theorem Blind.statements (hg : g.Blind) (bound : Nat) :
    Parse.Blind (g.statements enclosing bound) (g.statements enclosing bound) := by
  induction bound with
  | zero => exact blind_exhausted
  | succ bound ih =>
    refine .bind blind_peek fun o => ?_
    cases o with
    | none => exact .pure []
    | some t =>
      refine .ite blind_refuseNext (.bind hg.statement fun first => .bind ih fun rest => .return ?_)
      exact unplaced_append first rest

end Grammar

instance : Unplace Script := ⟨fun script => { script with root := unplaced script.root }⟩

instance : Unplace Reading where
  unplaced reading :=
    { outcome := match reading.outcome with
        | .ok script => .ok (unplaced script)
        | .error halt => .error (unplaced halt)
      events := unplaced reading.events }

def Reading.ofResult : EStateM.Result Halt ParseState Script → Reading
  | .ok script s => ⟨.ok script, s.events.reverse⟩
  | .error halt s => ⟨.error halt, s.events.reverse⟩

namespace Script

end Script

end ScriptToPhp
