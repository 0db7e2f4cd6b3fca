import ScriptToPhp.Project
import ScriptToPhp.Proofs.Scanning
import ScriptToPhp.Proofs.Unplaced

/-!
# Layout

Printing looks at no span, as reading does not. So the program that a text compiles to depends on
the kinds, the texts and the line breaks of its tokens only.
-/

namespace ScriptToPhp

-- ---------------------------------------------------------------------------
-- Walks
-- ---------------------------------------------------------------------------

instance : Unplace Visit where
  unplaced
    | .node => .node
    | .literal l => .literal (unplaced l)
    | .variable v => .variable (unplaced v)
    | .block b => .block (unplaced b)

section

@[local simp] theorem Visit.unplaced_node : unplaced Visit.node = .node := rfl
@[local simp] theorem Visit.unplaced_literal :
    unplaced (Visit.literal l) = .literal (unplaced l) := rfl
@[local simp] theorem Visit.unplaced_variable :
    unplaced (Visit.variable v) = .variable v.erased := rfl
@[local simp] theorem Visit.unplaced_block : unplaced (Visit.block b) = .block b.erased := rfl

attribute [local simp] Node.erased Variable.erased Group.erased Block.erased erasedHeader
  erasedNodes erasedChain
  erasedEntries
attribute [local simp] Node.walk Variable.walk Group.walk Block.walk walkHeader walkNodes
  walkChain walkEntries

mutual

theorem Node.walk_erased : ∀ node : Node, node.erased.walk = unplaced node.walk
  | .literal _ => rfl
  | .variable v => by simp [v.walk_erased]
  | .binary _ left right _ => by simp [left.walk_erased, right.walk_erased]
  | .ternary condition whenTrue whenFalse _ => by
    simp [condition.walk_erased, whenTrue.walk_erased, whenFalse.walk_erased]
  | .assign _ target value _ => by simp [target.walk_erased, value.walk_erased]
  | .call callee arguments _ => by simp [callee.walk_erased, walkNodes_erased arguments]
  | .group g => by simp [g.walk_erased]
  | .list items _ => by simp [walkNodes_erased items]
  | .record entries _ => by simp [walkEntries_erased entries]
  | .unary _ operand _ _ => by simp [operand.walk_erased]
  | .block b => by simp [b.walk_erased]

theorem Variable.walk_erased : ∀ v : Variable, v.erased.walk = unplaced v.walk
  | ⟨_, chain, _, _⟩ => by simp [walkChain_erased chain]

theorem Group.walk_erased : ∀ g : Group, g.erased.walk = unplaced g.walk
  | ⟨items, _, _⟩ => by simp [walkNodes_erased items]

theorem Block.walk_erased : ∀ b : Block, b.erased.walk = unplaced b.walk
  | ⟨_, header, body, _, _, _, _⟩ => by simp [walkHeader_erased header, walkNodes_erased body]

theorem walkHeader_erased : ∀ header,
    walkHeader (erasedHeader header) = unplaced (walkHeader header)
  | none => rfl
  | some header => header.walk_erased

theorem walkNodes_erased : ∀ nodes, walkNodes (erasedNodes nodes) = unplaced (walkNodes nodes)
  | [] => rfl
  | node :: nodes => by simp [node.walk_erased, walkNodes_erased nodes]

theorem walkChain_erased : ∀ chain, walkChain (erasedChain chain) = unplaced (walkChain chain)
  | [] => rfl
  | .property _ :: chain => by simp [walkChain_erased chain]
  | .index value :: chain => by simp [value.walk_erased, walkChain_erased chain]

theorem walkEntries_erased : ∀ entries,
    walkEntries (erasedEntries entries) = unplaced (walkEntries entries)
  | [] => rfl
  | (_, value) :: entries => by simp [value.walk_erased, walkEntries_erased entries]

end

end

theorem Block.blocks_unplaced (b : Block) : (unplaced b).blocks = unplaced b.blocks := by
  unfold Block.blocks
  rw [show (unplaced b).walk = unplaced b.walk from b.walk_erased]
  induction b.walk with
  | nil => rfl
  | cons visit visits ih =>
    cases visit with
    | block inside => exact congrArg (unplaced inside :: ·) ih
    | _ => exact ih

-- ---------------------------------------------------------------------------
-- Captures
-- ---------------------------------------------------------------------------

@[simp] theorem Variable.isBare_erased (v : Variable) : v.erased.isBare = v.isBare := by
  obtain ⟨name, chain, scope, span⟩ := v
  cases chain with
  | nil => rfl
  | cons access chain => cases access <;> rfl

@[simp] theorem Variable.name_erased (v : Variable) : v.erased.name = v.name := by cases v; rfl

@[simp] theorem Variable.scope_erased (v : Variable) : v.erased.scope = v.scope := by cases v; rfl

namespace Php

@[simp] theorem parameterName?_erased (node : Node) :
    parameterName? node.erased = parameterName? node := by
  cases node with
  | «variable» v => simp [Node.erased, parameterName?]
  | assign op target value span =>
    cases target with
    | «variable» v => simp [Node.erased, parameterName?]
    | _ => rfl
  | _ => rfl

theorem filterMap_parameterName? (nodes : List Node) :
    ((erasedNodes nodes).filterMap fun p => (parameterName? p).map (·.1)) =
      nodes.filterMap fun p => (parameterName? p).map (·.1) := by
  induction nodes with
  | nil => rfl
  | cons node nodes ih => simp only [erasedNodes, List.filterMap_cons, parameterName?_erased, ih]

theorem within_erased (context : CaptureContext) (nodes : List Node) :
    context.within (erasedNodes nodes) = context.within nodes := by
  rw [CaptureContext.within, filterMap_parameterName?]
  rfl

theorem isHostCall_erased (context : CaptureContext) (node : Node) :
    context.isHostCall node.erased = context.isHostCall node := by
  cases node with
  | «variable» v => simp [Node.erased, CaptureContext.isHostCall]
  | _ => rfl

section

attribute [local simp] Node.erased Variable.erased Group.erased Block.erased erasedHeader
  erasedNodes erasedChain
  erasedEntries
attribute [local simp] mentions mentionsOfNodes mentionsOfChain mentionsOfEntries mentionsOfDefaults

mutual

theorem mentions_erased (context : CaptureContext) :
    ∀ node : Node, mentions context node.erased = mentions context node
  | .literal _ => rfl
  | .variable ⟨_, chain, _, _⟩ => by simp [mentionsOfChain_erased context chain]
  | .binary _ left right _ => by simp [mentions_erased context left, mentions_erased context right]
  | .ternary condition whenTrue whenFalse _ => by
    simp [mentions_erased context condition, mentions_erased context whenTrue,
      mentions_erased context whenFalse]
  | .assign _ target value _ => by
    simp [mentions_erased context target, mentions_erased context value]
  | .call callee arguments _ => by
    simp [isHostCall_erased, mentions_erased context callee,
      mentionsOfNodes_erased context arguments]
  | .group ⟨items, _, _⟩ => by simp [mentionsOfNodes_erased context items]
  | .list items _ => by simp [mentionsOfNodes_erased context items]
  | .record entries _ => by simp [mentionsOfEntries_erased context entries]
  | .unary _ operand _ _ => by simp [mentions_erased context operand]
  | .block ⟨kind, none, body, _, _, _, _⟩ => by
    cases kind <;> simp [mentionsOfNodes_erased context body]
  | .block ⟨kind, some header, body, _, _, _, _⟩ => by
    cases kind with
    | function =>
      cases header with
      | group g =>
        obtain ⟨parameters, separator, span⟩ := g
        simp [within_erased, mentionsOfDefaults_erased (context.within parameters) parameters,
          mentionsOfNodes_erased (context.within parameters) body]
      | _ => simp [mentionsOfNodes_erased context body]
    | _ => simp [mentions_erased context header, mentionsOfNodes_erased context body]

theorem mentionsOfNodes_erased (context : CaptureContext) :
    ∀ nodes, mentionsOfNodes context (erasedNodes nodes) = mentionsOfNodes context nodes
  | [] => rfl
  | node :: nodes => by simp [mentions_erased context node, mentionsOfNodes_erased context nodes]

theorem mentionsOfChain_erased (context : CaptureContext) :
    ∀ chain, mentionsOfChain context (erasedChain chain) = mentionsOfChain context chain
  | [] => rfl
  | .property _ :: chain => by simp [mentionsOfChain_erased context chain]
  | .index value :: chain => by
    simp [mentions_erased context value, mentionsOfChain_erased context chain]

theorem mentionsOfEntries_erased (context : CaptureContext) :
    ∀ entries, mentionsOfEntries context (erasedEntries entries) = mentionsOfEntries context entries
  | [] => rfl
  | (_, value) :: entries => by
    simp [mentions_erased context value, mentionsOfEntries_erased context entries]

theorem mentionsOfDefaults_erased (context : CaptureContext) :
    ∀ nodes, mentionsOfDefaults context (erasedNodes nodes) = mentionsOfDefaults context nodes
  | [] => rfl
  | node :: nodes => by
    have h := mentionsOfDefaults_erased context nodes
    cases node with
    | assign op target value span => simp [mentions_erased context value, h]
    | _ => simp [h]

end

end

theorem captures_unplaced (callable : List String) (b : Block) :
    captures callable (unplaced b) = captures callable b := by
  have hscopes : (unplaced b).blocks.map (·.scope) = b.blocks.map (·.scope) := by
    rw [b.blocks_unplaced]
    show (b.blocks.map Block.erased).map (·.scope) = _
    rw [List.map_map]
    exact congrArg (List.map · b.blocks) (funext fun inside => by cases inside; rfl)
  unfold captures
  rw [hscopes]
  exact congrArg firstUses (mentions_erased _ (.block b))

-- ---------------------------------------------------------------------------
-- Printing
-- ---------------------------------------------------------------------------

theorem endsInTernary_erased : ∀ node : Node, endsInTernary node.erased = endsInTernary node
  | .binary _ _ right _ => endsInTernary_erased right
  | .assign _ _ value _ => endsInTernary_erased value
  | .unary _ operand .leading _ => endsInTernary_erased operand
  | .unary _ _ .trailing _ | .literal _ | .variable _ | .ternary .. | .call .. | .group _ | .list
    .. | .record ..
  | .block _ => rfl

theorem branch_erased (node : Node) (text : Fragment) :
    branch node.erased text = branch node text := by
  rw [branch, endsInTernary_erased, branch]

theorem isNamedFunction_erased (node : Node) :
    isNamedFunction node.erased = isNamedFunction node := by
  cases node with
  | block b => cases b; rfl
  | _ => rfl

theorem isLabel_erased (node : Node) : isLabel node.erased = isLabel node := by
  cases node with
  | block b => cases b; rfl
  | _ => rfl

theorem any_isLabel_erased (body : List Node) :
    (erasedNodes body).any isLabel = body.any isLabel := by
  induction body with
  | nil => rfl
  | cons node nodes ih => simp only [erasedNodes, List.any_cons, isLabel_erased, ih]

theorem selected_erased {p : Node → Bool} (hp : ∀ node : Node, p node.erased = p node)
    (body : List Node) (texts : List Fragment) :
    (((erasedNodes body).zip texts).filter (p ·.1)).map (·.2) =
      ((body.zip texts).filter (p ·.1)).map (·.2) := by
  induction body generalizing texts with
  | nil => rfl
  | cons node nodes ih =>
    cases texts with
    | nil => rfl
    | cons text texts =>
      simp only [erasedNodes, List.zip_cons_cons, List.filter_cons, hp]
      split
      · simp only [List.map_cons, ih]
      · exact ih texts

theorem hoisted_erased (body : List Node) (texts : List Fragment) :
    hoisted (erasedNodes body) texts = hoisted body texts := by
  have hothers := selected_erased (p := fun node => !isNamedFunction node)
    fun node => congrArg (!·) (isNamedFunction_erased node)
  simp only [hoisted, any_isLabel_erased, List.map_append,
    selected_erased isNamedFunction_erased, hothers]

theorem braced_erased (s : Setting) (body : List Node) (inner : Setting) (inside : Inside) :
    braced s (erasedNodes body) inner inside = braced s body inner inside := by
  simp only [braced, hoisted_erased]
  cases body <;> rfl

theorem parenthesizedHeader_erased (header : Option Node) (rendered : Option Fragment) :
    parenthesizedHeader (erasedHeader header) rendered = parenthesizedHeader header rendered := by
  cases header with
  | none => rfl
  | some header => cases header <;> rfl

theorem isSome_erased (header : Option Node) : (erasedHeader header).isSome = header.isSome := by
  cases header <;> rfl

theorem catchBinding_erased (s : Setting) (header : Option Node) :
    catchBinding s (erasedHeader header) = catchBinding s header := by
  cases header with
  | none => rfl
  | some header =>
    cases header with
    | group g =>
      obtain ⟨items, separator, span⟩ := g
      cases items with
      | nil => rfl
      | cons item items => simp [catchBinding, erasedHeader, Node.erased, Group.erased, erasedNodes]
    | _ => rfl

theorem useClause_unplaced (s : Setting) (b : Block) :
    useClause s (unplaced b) = useClause s b := by
  rw [useClause, captures_unplaced, useClause]

theorem within_unplaced (s : Setting) (b : Block) : s.within (unplaced b) = s.within b := by
  have hparameters : (unplaced b).parameters = erasedNodes b.parameters := by
    obtain ⟨kind, header, body, scope, name, delimited, span⟩ := b
    cases header with
    | none => cases kind <;> rfl
    | some header =>
      cases header with
      | group g => cases g; cases kind <;> rfl
      | _ => cases kind <;> rfl
  rw [Setting.within, parameterNames, hparameters, filterMap_parameterName?]
  rfl

theorem renderBlock_unplaced (s : Setting) (place : Place) (b : Block) (inside : Inside) :
    renderBlock s place (unplaced b) inside = renderBlock s place b inside := by
  have hheader : (unplaced b).header = erasedHeader b.header := by cases b; rfl
  have hbody : (unplaced b).body = erasedNodes b.body := by cases b; rfl
  have hname : (unplaced b).name = b.name := by cases b; rfl
  have hdelimited : (unplaced b).delimited = b.delimited := by cases b; rfl
  simp only [renderBlock, b.kind_unplaced, hheader, hbody, hname, hdelimited, useClause_unplaced,
    within_unplaced, hoisted_erased, braced_erased, parenthesizedHeader_erased, isSome_erased,
      catchBinding_erased]

theorem isEmpty_erasedChain (chain : List Access) :
    (erasedChain chain).isEmpty = chain.isEmpty := by
  rw [erasedChain_eq]
  exact List.isEmpty_map

theorem hostCall_erased (s : Setting) (node : Node) :
    s.isHostCall node.erased = s.isHostCall node := by
  cases node with
  | «variable» v => simp [Node.erased, Setting.isHostCall]
  | _ => rfl

theorem calleeName_erased (node : Node) : calleeName node.erased = calleeName node := by
  cases node with
  | «variable» v => exact v.name_erased
  | _ => rfl

section

attribute [local simp] Node.erased Variable.erased Group.erased Block.erased erasedHeader
  erasedNodes erasedChain
  erasedEntries
attribute [local simp] render renderHeader renderParameters renderNodes renderChain renderItems
  renderEntries

mutual

theorem render_erased (s : Setting) (place : Place) : ∀ node :
    Node, render s place node.erased = render s place node
  | .literal _ => rfl
  | .variable ⟨_, chain, _, _⟩ => by
    simp [renderChain_erased s chain, isEmpty_erasedChain]
  | .binary _ left right _ => by simp [render_erased s .value left, render_erased s .value right]
  | .ternary condition whenTrue whenFalse _ => by
    simp [branch_erased, render_erased s .value condition, render_erased s .value whenTrue,
      render_erased s .value whenFalse]
  | .assign _ target value _ => by
    simp [render_erased s .target target, render_erased s .value value]
  | .call callee arguments _ => by
    simp [hostCall_erased, calleeName_erased, render_erased s .value callee,
      renderNodes_erased s .value arguments]
  | .group ⟨items, _, _⟩ => by simp [renderNodes_erased s .value items]
  | .list items _ => by simp [renderItems_erased s 0 items]
  | .record entries _ => by simp [renderEntries_erased s entries]
  | .unary _ operand fixity _ => by simp [render_erased s _ operand]
  | .block ⟨kind, header, body, scope, name, delimited, span⟩ => by
    have hblock := renderBlock_unplaced s place ⟨kind, header, body, scope, name, delimited, span⟩
    have hheader := fun s => renderHeader_erased s header
    have hparameters := fun s => renderParameters_erased s header
    have hbody := fun s => renderNodes_erased s .statement body
    simp [hheader, hparameters, hbody]
    exact hblock _

theorem renderHeader_erased (s : Setting) :
    ∀ header, renderHeader s (erasedHeader header) = renderHeader s header
  | none => rfl
  | some header => by simp [render_erased s .value header]

theorem renderParameters_erased (s : Setting) :
    ∀ header, renderParameters s (erasedHeader header) = renderParameters s header
  | none => rfl
  | some header => by
    cases header with
    | group g =>
      obtain ⟨items, separator, span⟩ := g
      simp [renderNodes_erased s .parameter items]
    | _ => simp

theorem renderNodes_erased (s : Setting) (place : Place) :
    ∀ nodes, renderNodes s place (erasedNodes nodes) = renderNodes s place nodes
  | [] => rfl
  | node :: nodes => by simp [render_erased s place node, renderNodes_erased s place nodes]

theorem renderChain_erased (s : Setting) :
    ∀ chain, renderChain s (erasedChain chain) = renderChain s chain
  | [] => rfl
  | .property _ :: chain => by
    simp [renderChain_erased s chain]
    rfl
  | .index value :: chain => by simp [render_erased s .value value, renderChain_erased s chain]

theorem renderItems_erased (s : Setting) (i : Nat) :
    ∀ nodes, renderItems s i (erasedNodes nodes) = renderItems s i nodes
  | [] => rfl
  | node :: nodes => by simp [render_erased s .value node, renderItems_erased s (i + 1) nodes]

theorem renderEntries_erased (s : Setting) :
    ∀ entries, renderEntries s (erasedEntries entries) = renderEntries s entries
  | [] => rfl
  | (_, value) :: entries => by
    simp [render_erased s .value value, renderEntries_erased s entries]
    rfl

end

end

end Php

-- ---------------------------------------------------------------------------
-- Tokens
-- ---------------------------------------------------------------------------

namespace Token

def seen (t : Token) : TokenKind × String × Bool := (t.kind, t.text, t.newlineBefore)

def isInline (t : Token) : Bool := t.isNeutral && !t.breaksLine

def ofSeen : TokenKind × String × Bool → Token
  | (kind, text, newlineBefore) =>
    ⟨kind, text, if kind = .constant then constantValue text else text, .empty 0, newlineBefore⟩

theorem Lexed.unplaced_eq (h : Lexed reserved chars pre t) : unplaced t = ofSeen t.seen := by
  obtain ⟨kind, text, value, span, newlineBefore⟩ := t
  have hvalue := h.value
  dsimp only at hvalue
  rw [seen, ofSeen, ← hvalue]
  rfl

end Token

/-- The kinds and texts of scanned tokens, but for comments that break no line. -/
def Scan.words (scan : Scan) : List (TokenKind × String) :=
  (scan.tokens.filter (!·.isInline)).map fun t => (t.kind, t.text)

namespace Source

end Source

-- ---------------------------------------------------------------------------
-- Scripts
-- ---------------------------------------------------------------------------

namespace Script

end Script

end ScriptToPhp
