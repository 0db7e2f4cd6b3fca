import ScriptToPhp.Proofs.Captured
import ScriptToPhp.Proofs.PrintedVariables

/-!
# Well-formed trees

A tree may hold more than a script can say: an assignment to a number, a loop without a condition, a
jump as an operand. The printer has an answer for each of them. `parse_wellFormed` says that no
script leads to one: every node of its tree has operators, operands and a header of the kinds that
belong to it, and no node is printed through a branch that is there for other trees.
-/

namespace ScriptToPhp

-- ---------------------------------------------------------------------------
-- All nodes of a tree
-- ---------------------------------------------------------------------------

namespace Node

/-- The nodes that stand in a node as values: all but the statements of a block. -/
def operands : Node → List Node
  | .literal _ => []
  | .variable v => v.chain.filterMap Access.index?
  | .binary _ left right _ => [left, right]
  | .ternary condition whenTrue whenFalse _ => [condition, whenTrue, whenFalse]
  | .assign _ target value _ => [target, value]
  | .call callee arguments _ => callee :: arguments
  | .group g => g.items
  | .list items _ => items
  | .record entries _ => entries.map (·.2)
  | .unary _ operand _ _ => [operand]
  | .block b => b.header.toList

def statements : Node → List Node
  | .block b => b.body
  | _ => []

def children (node : Node) : List Node := node.operands ++ node.statements

inductive Within (root : Node) : Node → Prop
  | root : Within root root
  | child {node child : Node} (h : Within root node) (hchild : child ∈ node.children) :
    Within root child

def Throughout (P : Node → Prop) (root : Node) : Prop := ∀ node, root.Within node → P node

variable {root node child : Node} {P : Node → Prop}

theorem Within.ofChild (hchild : child ∈ root.children) (h : child.Within node) :
    root.Within node := by
  induction h with
  | root => exact .child .root hchild
  | child _ hmem ih => exact .child ih hmem

theorem Within.cases_child (h : root.Within node) :
    node = root ∨ ∃ child ∈ root.children, child.Within node := by
  induction h with
  | root => exact .inl rfl
  | @child node last _ hmem ih =>
    rcases ih with rfl | ⟨first, hfirst, hwithin⟩
    · exact .inr ⟨last, hmem, .root⟩
    · exact .inr ⟨first, hfirst, .child hwithin hmem⟩

theorem throughout_iff : root.Throughout P ↔ P root ∧
    ∀ child ∈ root.children, child.Throughout P := by
  constructor
  · intro h
    exact ⟨h root .root, fun child hchild node hnode => h node (.ofChild hchild hnode)⟩
  · rintro ⟨hroot, hchildren⟩ node hnode
    rcases hnode.cases_child with rfl | ⟨child, hchild, hwithin⟩
    · exact hroot
    · exact hchildren child hchild node hwithin

end Node

-- ---------------------------------------------------------------------------
-- What belongs to a node
-- ---------------------------------------------------------------------------

def Block.HeaderFits (b : Block) : Prop :=
  match b.kind with
  | .ifBranch | .whileLoop | .forLoop | .switch | .function => ∃ g, b.header = some (.group g)
  | .doLoop | .catchBlock | .other _ => ∀ header ∈ b.header, ∃ g, header = .group g
  | .caseLabel => ∃ value, b.header = some value
  | .main | .defaultLabel | .elseBranch | .tryBlock | .finallyBlock => b.header = none
  | .returnJump | .breakJump | .continueJump | .throwJump => True

def Block.BodyFits (b : Block) : Prop :=
  match b.kind with
  | .returnJump | .breakJump | .continueJump | .throwJump | .caseLabel | .defaultLabel =>
    b.body = []
  | _ => True

inductive Node.Shaped : Node → Prop
  | literal (l : Literal) : Shaped (.literal l)
  | variable {v : Variable} (hkeys : ∀ key, .property key ∈ v.chain → ∃ text span,
    key = .quoted text span) :
      Shaped (.variable v)
  | binary {left right : Node} {span : Span} (hop : op ∈ operators)
    (hassigns : op ∉ assignmentOperators)
      (hjoins : op ∉ ["?", "++", "--"]) (hleft : op ∉ unaryOnlyOperators) :
        Shaped (.binary op left right span)
  | ternary {condition whenTrue whenFalse : Node} {span : Span} :
    Shaped (.ternary condition whenTrue whenFalse span)
  | assign {value : Node} {span : Span} (hop : op ∈ assignmentOperators) (v : Variable) :
      Shaped (.assign op (.variable v) value span)
  | call {callee : Node} {span : Span} : Shaped (.call callee arguments span)
  | group {g : Group} : Shaped (.group g)
  | list {span : Span} : Shaped (.list items span)
  | record {entries : List (Literal × Node)} {span : Span} : Shaped (.record entries span)
  | leading {operand : Node} {span : Span} (hop : op ∈ leadingOperators)
      (hwritten : op ∈ ["++", "--", "delete"] → ∃ v, operand = .variable v) :
        Shaped (.unary op operand .leading span)
  | trailing {span : Span} (hop : op ∈ ["++", "--"]) (v : Variable) :
    Shaped (.unary op (.variable v) .trailing span)
  | block {b : Block} (hheader : b.HeaderFits) (hbody : b.BodyFits) : Shaped (.block b)

/-- A node whose parts belong to it and stand where they may: a block that is no function is a
statement, and a whole script is no part of anything. -/
structure Node.WellFormed (node : Node) : Prop where
  shaped : node.Shaped
  operands : ∀ operand ∈ node.operands, ∀ b, operand = .block b → b.kind = .function
  statements : ∀ statement ∈ node.statements, ∀ b, statement = .block b → b.kind ≠ .main

-- ---------------------------------------------------------------------------
-- Blocks
-- ---------------------------------------------------------------------------

def BlockShape.ofKind : BlockKind → BlockShape
  | .returnJump | .breakJump | .continueJump | .throwJump => .jump
  | .caseLabel => .caseLabel
  | .defaultLabel => .defaultLabel
  | .ifBranch | .whileLoop | .forLoop | .switch => .headed .required
  | .elseBranch | .tryBlock | .finallyBlock => .headed .forbidden
  | .doLoop => .doLoop
  | .main | .function | .catchBlock | .other _ => .headed .optional

theorem BlockShape.ofKind_ofKeyword (word : String) :
    ofKind (.ofKeyword word) = ofKeyword word := by
  unfold BlockKind.ofKeyword
  split <;> first | rfl | simp_all [ofKind, ofKeyword]

def BlockShape.AllowsHeader (header : Option Node) : BlockShape → Prop
  | .jump => True
  | .caseLabel => ∃ value, header = some value
  | .defaultLabel | .headed .forbidden => header = none
  | .headed .required => ∃ g, header = some (.group g)
  | .headed .optional | .doLoop => ∀ node ∈ header, ∃ g, node = .group g

def BlockShape.AllowsBody (body : List Node) : BlockShape → Prop
  | .jump | .caseLabel | .defaultLabel => body = []
  | .headed _ | .doLoop => True

theorem Derives.allowsHeader {c c' : Cursor} (h : Derives enclosing (.header policy found) c c') :
    (BlockShape.headed policy).AllowsHeader found := by
  cases h with
  | noHeader hrequired =>
    cases policy with
    | required => exact absurd rfl hrequired
    | optional => exact fun _ hnode => by cases hnode
    | forbidden => rfl
  | header hforbidden =>
    cases policy with
    | required => exact ⟨_, rfl⟩
    | optional =>
      rintro node ⟨⟩
      exact ⟨_, rfl⟩
    | forbidden => exact absurd rfl hforbidden

theorem Derives.allowsCondition {c c' : Cursor}
    (h : Derives enclosing (.loopCondition found) c c') :
    BlockShape.doLoop.AllowsHeader found := by
  cases h with
  | noCondition => exact fun _ hnode => by cases hnode
  | condition =>
    rintro node ⟨⟩
    exact ⟨_, rfl⟩

theorem Derives.allowed {c c' : Cursor} (h : Derives enclosing (.block t b) c c') :
    (BlockShape.ofKeyword t.value).AllowsHeader b.header ∧
    (BlockShape.ofKeyword t.value).AllowsBody b.body := by
  cases h with
  | jump hshape | jumpValue hshape =>
    rw [hshape]
    exact ⟨trivial, rfl⟩
  | caseLabel hshape =>
    rw [hshape]
    exact ⟨⟨_, rfl⟩, rfl⟩
  | defaultLabel hshape =>
    rw [hshape]
    exact ⟨rfl, rfl⟩
  | headed hshape hheader =>
    rw [hshape]
    exact ⟨by simpa using hheader.allowsHeader, trivial⟩
  | doLoop hshape _ _ hcondition =>
    rw [hshape]
    exact ⟨by simpa using hcondition.allowsCondition, trivial⟩

theorem Block.headerFits_of_allows {b : Block}
    (h : (BlockShape.ofKind b.kind).AllowsHeader b.header) (hmain : b.kind ≠ .main)
    (hfunction : b.kind ≠ .function) : b.HeaderFits := by
  unfold HeaderFits
  cases hkind : b.kind with
  | main => exact absurd hkind hmain
  | function => exact absurd hkind hfunction
  | _ =>
    rw [hkind] at h
    exact h

theorem Block.bodyFits_of_allows {b : Block} (h : (BlockShape.ofKind b.kind).AllowsBody b.body) :
    b.BodyFits := by
  unfold BodyFits
  cases hkind : b.kind with
  | returnJump | breakJump | continueJump | throwJump | caseLabel | defaultLabel =>
    rw [hkind] at h
    exact h
  | _ => trivial

theorem BlockKind.ofKeyword_ne_main (word : String) : BlockKind.ofKeyword word ≠ .main := by
  unfold ofKeyword
  split <;> simp

-- ---------------------------------------------------------------------------
-- Nodes made of tokens
-- ---------------------------------------------------------------------------

/-- The tokens are words of the language: keywords, operators and quoted strings are what their
kinds say. -/
structure Lexicon (tokens : List Token) : Prop where
  keyword : ∀ t ∈ tokens, t.kind = .keyword → t.value ∈ keywords
  operator : ∀ t ∈ tokens, t.kind = .operator → t.value ∈ operators
  string : ∀ t ∈ tokens, t.kind = .string → ∃ n, Matcher.string t.value.toList = some n

theorem Source.lexicon (source : Source) (reserved : ReservedPrefixes) :
    Lexicon (source.tokens reserved) where
  keyword t ht hkind := by
    obtain ⟨-, pre, hlexed⟩ := Source.mem_tokens ht
    exact hlexed.mem_keywords hkind
  operator t ht hkind := by
    obtain ⟨-, pre, hlexed⟩ := Source.mem_tokens ht
    obtain ⟨post, hmatcher⟩ := hlexed.matcher
    rw [hkind] at hmatcher
    rw [hlexed.value, hkind]
    exact Matcher.mem_of_longest hmatcher
  string t ht hkind := by
    obtain ⟨-, pre, hlexed⟩ := Source.mem_tokens ht
    obtain ⟨post, hmatcher⟩ := hlexed.matcher
    rw [hkind] at hmatcher
    rw [hlexed.value, hkind]
    exact ⟨_, Matcher.string_of_append hmatcher⟩

theorem Node.eq_variable {node : Node} (h : node.isAssignable = true) :
    ∃ v, node = .variable v := by
  cases node with
  | «variable» v => exact ⟨v, rfl⟩
  | _ => cases h

namespace Node

variable {tokens : List Token} {node child : Node}

theorem Made.kind_ne_main (h : Made tokens (.block b)) : b.kind ≠ .main := by
  cases h with
  | function hkind => simp [hkind]
  | returning hkind => simp [hkind]
  | keyword _ _ _ hblock =>
    rw [hblock.kind_block]
    exact BlockKind.ofKeyword_ne_main _

theorem Made.header_of_function (hlexicon : Lexicon tokens) (h : Made tokens (.block b))
    (hkind : b.kind = .function) :
    ∃ g, b.header = some (.group g) ∧ (∀ item ∈ g.items, item.isValue = true) ∧
    ∀ item ∈ g.items, Made tokens item := by
  cases h with
  | function _ hheader _ hvalues hitems => exact ⟨_, hheader, hvalues, hitems⟩
  | returning hreturn => simp [hreturn] at hkind
  | keyword hmem hword _ hblock =>
    have hne := BlockKind.ofKeyword_ne_function (hlexicon.keyword _ hmem hword)
    rw [← hblock.kind_block] at hne
    exact absurd hkind hne

theorem Made.shaped (hlexicon : Lexicon tokens) (h : Made tokens node) : node.Shaped := by
  cases h with
  | literal | null => exact .literal _
  | «variable» _ _ hkeys =>
    refine .variable fun key hkey => ?_
    obtain ⟨t, -, rfl⟩ := hkeys key hkey
    exact ⟨t.text, t.span, rfl⟩
  | binary hmem hop =>
    have hoperator := hlexicon.operator _ hmem (Token.kind_of_isInfix hop)
    simp only [Token.isInfix, Token.refusesLeft, isStepOperator, isAssignmentOperator,
      Bool.and_eq_true, beq_iff_eq, Bool.not_eq_true', bne_iff_ne, Bool.or_eq_false_iff,
        Bool.and_eq_false_imp, List.contains_eq_mem,
      decide_eq_false_iff_not, beq_eq_false_iff_ne] at hop
    obtain ⟨⟨⟨⟨hkind, hleft⟩, hquestion⟩, hplus, hminus⟩, hassigns⟩ := hop
    exact .binary hoperator hassigns (by simp [hquestion, hplus, hminus]) (hleft hkind)
  | ternary => exact .ternary
  | assign hop htarget =>
    obtain ⟨v, rfl⟩ := eq_variable htarget
    exact .assign (List.contains_iff_mem.1 hop) v
  | call => exact .call
  | group => exact .group
  | list => exact .list
  | record => exact .record
  | leading hop _ _ hvariable =>
    refine .leading (List.contains_iff_mem.1 hop) fun hwritten => eq_variable (hvariable ?_)
    simpa [isStepOperator, or_assoc] using hwritten
  | trailing hop hvariable =>
    obtain ⟨v, rfl⟩ := eq_variable hvariable
    exact .trailing (by simpa [isStepOperator] using hop) v
  | function hkind hheader =>
    refine .block ?_ ?_
    · simp only [Block.HeaderFits, hkind]
      exact ⟨_, hheader⟩
    · simp only [Block.BodyFits, hkind]
  | returning hkind _ hbody =>
    refine .block ?_ ?_
    · simp only [Block.HeaderFits, hkind]
    · simpa only [Block.BodyFits, hkind] using hbody
  | keyword hmem hword _ hblock =>
    have hkind := hblock.kind_block
    have hfunction := BlockKind.ofKeyword_ne_function (hlexicon.keyword _ hmem hword)
    have hmain := BlockKind.ofKeyword_ne_main
    obtain ⟨hheader, hbody⟩ := hblock.allowed
    rw [← BlockShape.ofKind_ofKeyword, ← hkind] at hheader hbody
    rw [← hkind] at hfunction
    exact .block (Block.headerFits_of_allows hheader (hkind ▸ hmain _) hfunction)
      (Block.bodyFits_of_allows hbody)

theorem Made.isValue_operands (h : Made tokens node) :
    ∀ operand ∈ node.operands, operand.isValue = true := by
  cases h with
  | literal | null => exact fun _ hoperand => by cases hoperand
  | «variable» _ _ _ hindices =>
    intro value hvalue
    obtain ⟨access, haccess, hindex⟩ := List.mem_filterMap.1 hvalue
    cases access with
    | property key => cases hindex
    | index value =>
      cases hindex
      exact hindices _ haccess
  | binary _ _ _ hleft hright => simpa [operands] using ⟨hleft, hright⟩
  | ternary _ hcondition htrue hfalse => simpa [operands] using ⟨hcondition, htrue, hfalse⟩
  | assign _ htarget hvalue =>
    obtain ⟨v, rfl⟩ := eq_variable htarget
    simpa [operands] using ⟨rfl, hvalue⟩
  | call hcallee harguments => exact List.forall_mem_cons.2 ⟨hcallee, harguments⟩
  | group hitems | list hitems => exact hitems
  | record _ hvalues => exact List.forall_mem_map.2 hvalues
  | leading _ _ hoperand => exact List.forall_mem_singleton.2 hoperand
  | trailing _ hvariable =>
    obtain ⟨v, rfl⟩ := eq_variable hvariable
    exact List.forall_mem_singleton.2 rfl
  | function _ hheader =>
    rw [operands, hheader]
    exact List.forall_mem_singleton.2 rfl
  | returning _ hheader => exact fun _ hoperand => hheader _ (Option.mem_toList.1 hoperand)
  | keyword _ _ hheader => exact fun _ hoperand => hheader _ (Option.mem_toList.1 hoperand)

theorem kind_of_isValue (h : node.isValue = true) (b : Block) (hnode : node = .block b) :
    b.kind = .function := by
  subst hnode
  simpa [isValue] using h

-- The parameters of a function are parts one level deeper than children are: a group and an
-- assignment in its header are no parts. What they are is known from the function itself.

theorem AllMade.parameter {f : Block} (h : (Node.block f).AllMade tokens)
    (hkind : f.kind = .function) (hparameter : node ∈ f.parameters) (hmade : Made tokens node) :
    node.AllMade tokens := by
  have hpart (entry : Role × Node) (hentry : entry ∈ f.parameterParts node) :
      entry.2.AllMade tokens :=
    h.part (Block.mem_parts_of_parameter hkind hparameter hentry)
  cases node with
  | assign op target value span =>
    refine everywhere_iff.2 ⟨hmade, ?_⟩
    simp only [parts, List.forall_mem_cons, List.not_mem_nil, false_imp_iff, implies_true, and_true]
    exact ⟨hpart (.pattern f, target) (by simp [Block.parameterParts]),
      hpart (.default f, value) (by simp [Block.parameterParts])⟩
  | _ => exact hpart (.pattern f, _) (by simp [Block.parameterParts])

theorem exists_role_operand (hchild : child ∈ node.operands) :
    (∃ role, (role, child) ∈ node.parts) ∨ ∃ f, node = .block f ∧ f.kind = .function ∧
    f.header = some child := by
  cases node with
  | block b =>
    have hheader : b.header = some child := Option.mem_toList.1 hchild
    by_cases hkind : b.kind = .function
    · exact .inr ⟨b, rfl, hkind, hheader⟩
    · exact .inl ⟨.plain, by simp [parts, Block.parts, hkind, hheader]⟩
  | call callee arguments span =>
    rcases List.mem_cons.1 hchild with rfl | hchild
    · exact .inl ⟨.callee, List.mem_cons_self⟩
    · exact .inl ⟨.plain, List.mem_cons_of_mem _ (List.mem_map_of_mem hchild)⟩
  | record entries span =>
    obtain ⟨entry, hentry, rfl⟩ := List.mem_map.1 hchild
    exact .inl ⟨.plain, List.mem_map_of_mem hentry⟩
  | literal l => cases hchild
  | _ => exact .inl ⟨.plain, by simpa [operands, parts] using hchild⟩

theorem exists_role_statement (hchild : child ∈ node.statements) :
    ∃ role, (role, child) ∈ node.parts := by
  cases node with
  | block b =>
    have hbody : child ∈ b.body := hchild
    by_cases hkind : b.kind = .function
    · exact ⟨.body b, by simp [parts, Block.parts, hkind, hbody]⟩
    · exact ⟨.plain, by simp [parts, Block.parts, hkind, hbody]⟩
  | _ => cases hchild

theorem AllMade.ofChild (hlexicon : Lexicon tokens) (h : node.AllMade tokens)
    (hchild : child ∈ node.children) :
    child.AllMade tokens := by
  rcases List.mem_append.1 hchild with hchild | hchild
  · rcases exists_role_operand hchild with ⟨role, hpart⟩ | ⟨f, rfl, hkind, hheader⟩
    · exact h.part hpart
    · obtain ⟨g, hgroup, hvalues, hitems⟩ := h.here.header_of_function hlexicon hkind
      cases hheader.symm.trans hgroup
      refine everywhere_iff.2 ⟨.group hvalues, List.forall_mem_map.2 fun item hitem => ?_⟩
      refine h.parameter hkind ?_ (hitems item hitem)
      simpa [Block.parameters, hkind, hheader] using hitem
  · obtain ⟨role, hpart⟩ := exists_role_statement hchild
    exact h.part hpart

theorem AllMade.within (hlexicon : Lexicon tokens) (h : node.AllMade tokens)
    (hwithin : node.Within child) :
    child.AllMade tokens := by
  induction hwithin with
  | root => exact h
  | child _ hchild ih => exact ih.ofChild hlexicon hchild

theorem AllMade.wellFormed (hlexicon : Lexicon tokens) (h : node.AllMade tokens) :
    node.WellFormed where
  shaped := h.here.shaped hlexicon
  operands operand hoperand := kind_of_isValue (h.here.isValue_operands operand hoperand)
  statements statement hstatement b hb := by
    have hmade := h.ofChild hlexicon (List.mem_append_right _ hstatement)
    exact Made.kind_ne_main (hb ▸ hmade.here)

end Node

-- ---------------------------------------------------------------------------
-- What is printed
-- ---------------------------------------------------------------------------

def Literal.IsQuoted (l : Literal) : Prop :=
  l.kind = .string → ∃ quote inside, l.value.toList = quote :: inside ∧
    quote ∈ ['"', '\''] ∧ inside ≠ []

theorem Literal.isQuoted_quoted (text : String) (span : Span) :
    (Literal.quoted text span).IsQuoted :=
  fun _ => ⟨'\'', escapeQuoted text.toList ++ ['\''], by simp [quoted], by simp, by simp⟩

theorem Literal.isQuoted_of_matcher {l : Literal}
    (h : l.kind = .string → ∃ n, Matcher.string l.value.toList = some n) :
    l.IsQuoted := by
  intro hkind
  obtain ⟨n, hn⟩ := h hkind
  cases hchars : l.value.toList with
  | nil => simp [hchars, Matcher.string] at hn
  | cons quote inside =>
    simp only [hchars, Matcher.string, Option.ite_none_right_eq_some, Option.map_eq_some_iff] at hn
    obtain ⟨hquote, n, htail, -⟩ := hn
    refine ⟨quote, inside, rfl, by simpa using hquote, ?_⟩
    rintro rfl
    cases htail

section

variable {tokens : List Token}

theorem Lexicon.isQuoted_literal {t : Token} (hlexicon : Lexicon tokens) (ht : t ∈ tokens)
    (h : t.literal? = some l) :
    l.IsQuoted := by
  refine Literal.isQuoted_of_matcher fun hstring => ?_
  unfold Token.literal? at h
  split at h
  next => cases h; cases hstring
  next => cases h; cases hstring
  next hkind => cases h; exact hlexicon.string t ht hkind
  next => cases h

theorem Lexicon.isQuoted_key {t : Token} (hlexicon : Lexicon tokens) (ht : t ∈ tokens)
    (h : Grammar.recordKey? t = some key) : key.IsQuoted := by
  unfold Grammar.recordKey? at h
  split at h
  next => cases h; exact Literal.isQuoted_quoted _ _
  next => cases h; exact Literal.isQuoted_quoted _ _
  next => cases h; exact Literal.isQuoted_quoted _ _
  next => cases h; exact Literal.isQuoted_quoted _ _
  next => cases h; exact Literal.isQuoted_of_matcher fun hstring => by cases hstring
  next hkind => cases h; exact Literal.isQuoted_of_matcher fun _ => hlexicon.string t ht hkind
  next => cases h

end

namespace Php

structure Place.Suits (place : Place) (node : Node) : Prop where
  target : place = .target → ∃ v, node = .variable v
  value : place ≠ .statement → ∀ b, node = .block b → b.kind = .function

/-- Printing the node takes none of the branches that are there for what no script leads to: a
target that is no variable, a block as a value, a script in a script, a header that is missing or in
no parentheses, a string without quotes. -/
structure Printing.Direct (p : Printing) : Prop where
  suits : p.place.Suits p.node
  block : ∀ b, p.node = .block b → b.kind ≠ .main ∧ b.HeaderFits
  literal : ∀ l, p.node = .literal l → l.IsQuoted
  key : ∀ v, p.node = .variable v → ∀ key, .property key ∈ v.chain → key.IsQuoted
  entry : ∀ entries span, p.node = .record entries span → ∀ entry ∈ entries, entry.1.IsQuoted

section

variable {tokens : List Token} {node : Node}

theorem Place.suits_variable (place : Place) (v : Variable) : place.Suits (.variable v) :=
  ⟨fun _ => ⟨v, rfl⟩, fun _ _ hblock => by cases hblock⟩

theorem Place.suits_of_isAssignable (place : Place) (h : node.isAssignable = true) :
    place.Suits node := by
  obtain ⟨v, rfl⟩ := Node.eq_variable h
  exact place.suits_variable v

theorem Place.suits_of_isValue {place : Place} (hplace : place ≠ .target)
    (h : node.isValue = true) :
    place.Suits node :=
  ⟨fun htarget => absurd htarget hplace, fun _ => Node.kind_of_isValue h⟩

theorem Place.suits_statement (node : Node) : Place.statement.Suits node :=
  ⟨fun htarget => absurd htarget (by simp), fun hstatement => absurd rfl hstatement⟩

theorem operandPlace_ne_target (h : isStepOperator op = false) (hdelete : op ≠ "delete") :
    operandPlace op .leading ≠ .target := by
  unfold operandPlace
  simp only [h, hdelete, reduceCtorEq, Bool.false_eq_true, if_false]
  split <;> simp

theorem Setting.suits_parameter {s : Setting} {p : Printing} (hmade : node.Made tokens)
    (hvalue : node.isValue = true) (h : (role, p) ∈ s.parameterParts f node) :
    p.place.Suits p.node := by
  cases node with
  | assign op target value span =>
    cases hmade with
    | assign _ htarget hright =>
      simp only [Setting.parameterParts, List.mem_cons, Prod.mk.injEq, List.not_mem_nil,
        or_false] at h
      obtain ⟨-, rfl⟩ | ⟨-, rfl⟩ := h
      · exact Place.suits_of_isAssignable _ htarget
      · exact Place.suits_of_isValue (by simp) hright
  | _ =>
    cases List.mem_singleton.1 h
    exact Place.suits_of_isValue (by simp) hvalue

theorem Setting.suits_block {s : Setting} {p : Printing} (hlexicon : Lexicon tokens)
    (hmade : (Node.block b).Made tokens) (h : (role, p) ∈ s.blockParts b) :
    p.place.Suits p.node := by
  unfold Setting.blockParts at h
  split at h
  next hkind =>
    rcases List.mem_append.1 h with h | h
    · obtain ⟨g, hheader, hvalues, hitems⟩ := hmade.header_of_function hlexicon hkind
      obtain ⟨parameter, hparameter, hpart⟩ := List.mem_flatMap.1 h
      have hmem : parameter ∈ g.items := by
        simpa [Block.parameters, hkind, hheader] using hparameter
      exact Setting.suits_parameter (hitems _ hmem) (hvalues _ hmem) hpart
    · obtain ⟨node, -, heq⟩ := List.mem_map.1 h
      cases heq
      exact Place.suits_statement _
  next hkind =>
    rcases List.mem_append.1 h with h | h
    · obtain ⟨node, hnode, heq⟩ := List.mem_map.1 h
      cases heq
      have hoperand : node ∈ (Node.block b).operands := Option.mem_toList.2 (header_of_shown hnode)
      exact Place.suits_of_isValue (by simp) (hmade.isValue_operands node hoperand)
    · obtain ⟨entry, -, heq⟩ := List.mem_map.1 h
      cases heq
      exact Place.suits_statement _

theorem Printing.suits_values {s : Setting} (nodes : List Node) (hmade : node.Made tokens)
    (hsub : nodes ⊆ node.operands)
    (h : (role, q) ∈ nodes.map fun node => (role', (⟨s, .value, node⟩ : Printing))) :
    q.place.Suits q.node := by
  obtain ⟨value, hvalue, heq⟩ := List.mem_map.1 h
  cases heq
  exact Place.suits_of_isValue (by simp) (hmade.isValue_operands value (hsub hvalue))

theorem Printing.suits_part {p q : Printing} (hlexicon : Lexicon tokens)
    (hmade : p.node.Made tokens) (h : (role, q) ∈ p.parts) : q.place.Suits q.node := by
  obtain ⟨s, place, node⟩ := p
  cases node with
  | literal l => cases h
  | «variable» v =>
    simp only [Printing.parts] at h
    split at h
    next => cases h
    next => exact Printing.suits_values _ hmade (List.Subset.refl _) h
  | assign op target value span =>
    simp only [Printing.parts, List.mem_cons, Prod.mk.injEq, List.not_mem_nil, or_false] at h
    cases hmade with
    | assign _ htarget hvalue =>
      obtain ⟨-, rfl⟩ | ⟨-, rfl⟩ := h
      · exact Place.suits_of_isAssignable _ htarget
      · exact Place.suits_of_isValue (by simp) hvalue
  | binary op left right span =>
    exact Printing.suits_values [left, right] hmade (List.Subset.refl _) h
  | ternary condition whenTrue whenFalse span =>
    exact Printing.suits_values [condition, whenTrue, whenFalse] hmade (List.Subset.refl _) h
  | call callee arguments span =>
    rcases List.mem_append.1 h with h | h
    · split at h
      next => cases h
      next => exact Printing.suits_values [callee] hmade (by simp [Node.operands]) h
    · exact Printing.suits_values arguments hmade (List.subset_cons_self _ _) h
  | group g => exact Printing.suits_values g.items hmade (List.Subset.refl _) h
  | list items span => exact Printing.suits_values items hmade (List.Subset.refl _) h
  | record entries span =>
    obtain ⟨entry, hentry, heq⟩ := List.mem_map.1 h
    cases heq
    exact Place.suits_of_isValue (by simp) (hmade.isValue_operands _ (List.mem_map_of_mem hentry))
  | unary op operand fixity span =>
    cases List.mem_singleton.1 h
    cases hmade with
    | trailing _ hvariable => exact Place.suits_of_isAssignable _ hvariable
    | leading _ _ hoperand hvariable =>
      by_cases hwritten : (isStepOperator op || op == "delete") = true
      · exact Place.suits_of_isAssignable _ (hvariable hwritten)
      · simp only [Bool.or_eq_true, beq_iff_eq, not_or, Bool.not_eq_true] at hwritten
        exact Place.suits_of_isValue (operandPlace_ne_target hwritten.1 hwritten.2) hoperand
  | block b => exact Setting.suits_block hlexicon hmade h

theorem Printing.direct {p : Printing} (hlexicon : Lexicon tokens) (hmade : p.node.Made tokens)
    (hsuits : p.place.Suits p.node) : p.Direct where
  suits := hsuits
  block b hb := by
    rw [hb] at hmade
    cases hmade.shaped hlexicon with
    | block hheader => exact ⟨hmade.kind_ne_main, hheader⟩
  literal l hl := by
    rw [hl] at hmade
    cases hmade with
    | literal hmem hliteral => exact hlexicon.isQuoted_literal hmem hliteral
    | null => exact Literal.isQuoted_of_matcher fun hstring => by cases hstring
  key v hv key hkey := by
    rw [hv] at hmade
    cases hmade.shaped hlexicon with
    | «variable» hkeys =>
      obtain ⟨text, span, rfl⟩ := hkeys key hkey
      exact Literal.isQuoted_quoted text span
  entry entries span hrecord entry hentry := by
    rw [hrecord] at hmade
    cases hmade with
    | record hkeys =>
      obtain ⟨t, ht, hkey⟩ := hkeys entry hentry
      exact hlexicon.isQuoted_key ht hkey

theorem Shown.direct {p q : Printing} (h : Shown p roles q) (hlexicon : Lexicon tokens)
    (hmade : p.node.AllMade tokens) (hsuits : p.place.Suits p.node) : q.Direct := by
  induction h with
  | here p => exact p.direct hlexicon hmade.here hsuits
  | inside hpart _ ih =>
    exact ih (hmade.part (Printing.isPart hpart).node)
      (Printing.suits_part hlexicon hmade.here hpart)

end

end Php

namespace Script

/-- Every node of a script's tree is well formed, and nothing in it is printed through a branch for
other trees. -/
theorem parse_wellFormed {options : Options} {source : Source} {script : Script}
    (h : parse options source = .ok script) :
    script.root.kind = .main ∧
      (∀ node, (Node.block script.root).Within node → node.WellFormed) ∧
      ∀ style place role roles q,
        Php.Shown ⟨.ofScript style script.root, place, .block script.root⟩ (role :: roles) q →
        q.Direct := by
  obtain ⟨hmain, hnone, hbody⟩ := made h
  have hlexicon := source.lexicon options.reserved
  refine ⟨hmain, ?_, ?_⟩
  · refine Node.throughout_iff.2 ⟨⟨.block ?_ ?_, ?_, ?_⟩, ?_⟩
    · simpa only [Block.HeaderFits, hmain] using hnone
    · simp only [Block.BodyFits, hmain]
    · simp [Node.operands, hnone]
    · exact fun node hnode b hb => Node.Made.kind_ne_main (hb ▸ (hbody node hnode).here)
    · intro node hnode target hwithin
      have hstatement : node ∈ script.root.body := by
        simpa [Node.children, Node.operands, Node.statements, hnone] using hnode
      exact ((hbody node hstatement).within hlexicon hwithin).wellFormed hlexicon
  · rintro style place role roles q (_ | ⟨hpart, hshown⟩)
    simp only [Php.Printing.parts, Php.Setting.blockParts, Php.Setting.bodyParts,
      Php.shownHeader, hmain, reduceCtorEq, if_false, List.map_nil, List.nil_append, List.map_map,
        List.mem_map, Function.comp_apply,
      Prod.mk.injEq] at hpart
    obtain ⟨node, hnode, -, rfl⟩ := hpart
    exact hshown.direct hlexicon (hbody node hnode) (Php.Place.suits_statement node)

theorem parse_wellFormed_switch :
    ∃ script, parse {} (.ofText "" "switch (a) \x7b case 1: b.c += -d; return f => f \x7d") =
      .ok script ∧
      script.root.blocks.map (·.kind) =
        [.main, .switch, .caseLabel, .returnJump, .function, .returnJump] ∧
      (∀ node, (Node.block script.root).Within node → node.WellFormed) ∧
      ∀ style place role roles q,
        Php.Shown ⟨.ofScript style script.root, place, .block script.root⟩ (role :: roles) q →
        q.Direct := by
  have hfacts :
    (parse {} (.ofText "" "switch (a) \x7b case 1: b.c += -d; return f => f \x7d")).toOption.any
      (fun script => script.root.blocks.map (·.kind) ==
        [.main, .switch, .caseLabel, .returnJump, .function, .returnJump]) =
          true := by decide +kernel
  obtain ⟨script, h, hkinds⟩ := exists_of_any_parse hfacts
  obtain ⟨-, hnodes, hprinted⟩ := parse_wellFormed h
  exact ⟨script, h, eq_of_beq hkinds, hnodes, hprinted⟩

end Script

end ScriptToPhp
