import Mathlib.Data.List.Chain
import ScriptToPhp.Proofs.Bodies
import ScriptToPhp.Proofs.Starts

/-!
# Separation of statements

Two expression statements that follow each other stand apart in the text: the second is on a line of
its own or behind a semicolon, a comma or a keyword. There are three ways around it, and no other: a
bracket and an anonymous function go on with nothing, so they begin a statement on the same line,
and nothing goes on behind a step.
-/

namespace ScriptToPhp

def Node.isBlock : Node → Bool
  | .block _ => true
  | _ => false

namespace Token

def separates (t : Token) : Bool := t.isMark ';' || t.isMark ',' || t.kind == .keyword

def isStep (t : Token) : Bool := t.kind == .operator && isStepOperator t.value

def beginsValue (t : Token) : Bool :=
  t.isValue || t.isMark '(' || t.isMark '[' || t.isMark '\x7b' || t.kind == .function ||
    (t.kind == .operator && isLeadingOperator t.value)

/-- A value that could not go on with the token that begins the next one stands on another line,
unless that token is a bracket or makes a function. -/
theorem newlineBefore_of_endsValue {t : Token} (hbegins : t.beginsValue = true)
    (hends : t.endsValue = true) :
    t.newlineBefore = true ∨ t.isMark '[' = true ∨ t.kind = .function := by
  unfold endsValue Grammar.startsValue at hends
  split at hends
  · exact .inl hends
  · next hstarts =>
    simp only [Bool.or_eq_true, not_or] at hstarts
    simp only [beginsValue, Bool.or_eq_true, Bool.and_eq_true, beq_iff_eq] at hbegins
    simp only [Bool.and_eq_true, Bool.or_eq_true, Bool.not_eq_true', bne_iff_ne] at hends
    grind

end Token

/-- The token begins a statement behind other tokens, the last of them the end of an expression. -/
inductive Token.StandsApart (before : List Token) (t : Token) : Prop
  | onNewLine (h : t.newlineBefore = true)
  | separated (last : Token) (h : last ∈ before.getLast?) (hlast : last.separates = true)
  | stepped (last : Token) (h : last ∈ before.getLast?) (hlast : last.isStep = true)
  | bracket (h : t.isMark '[' = true)
  | function (h : t.kind = .function)

def Node.StandsApart (all : List Token) (node : Node) : Prop :=
  ∃ before t after, all = before ++ t :: after ∧ t.span.start = node.span.start ∧
    t.StandsApart before

/-- Each expression that follows an expression stands apart from it. -/
def Separate (all : List Token) (nodes : List Node) : Prop :=
  nodes.IsChain fun first second =>
    first.isBlock = false → second.isBlock = false → second.StandsApart all

-- ---------------------------------------------------------------------------
-- Places between statements
-- ---------------------------------------------------------------------------

section

variable {all ts : List Token} {c c' : Cursor} {t : Token}

def ValueEnds (all ts : List Token) : Prop :=
  ∃ before, all = before ++ ts ∧
    ((∃ last ∈ before.getLast?, last.isMark ';' = true ∨ last.isStep = true) ∨
      ts.head?.all Token.endsValue = true)

def FollowsSeparator (all ts : List Token) : Prop :=
  ∃ before, all = before ++ ts ∧ ∃ last ∈ before.getLast?, last.separates = true

theorem valueEnds_of_endsValue (hin : ts <:+ all) (h : ts.head?.all Token.endsValue = true) :
    ValueEnds all ts := by
  obtain ⟨before, rfl⟩ := hin
  exact ⟨before, rfl, .inr h⟩

theorem valueEnds_behind (hin : t :: ts <:+ all) (ht : t.isMark ';' = true ∨ t.isStep = true) :
    ValueEnds all ts := by
  obtain ⟨before, rfl⟩ := hin
  exact ⟨before ++ [t], by simp, .inl ⟨t, by simp, ht⟩⟩

theorem followsSeparator_behind (hin : t :: ts <:+ all) (ht : t.separates = true) :
    FollowsSeparator all ts := by
  obtain ⟨before, rfl⟩ := hin
  exact ⟨before ++ [t], by simp, t, by simp, ht⟩

theorem Derives.beginsValue (h : Derives enclosing (.value node) (c.before t) c') :
    t.beginsValue = true := by
  generalize hphrase : Phrase.value node = phrase at h
  generalize hstart : c.before t = start at h
  cases h with
  | value hoperand _ =>
    cases hoperand with
    | literal hl =>
      obtain ⟨rfl, rfl⟩ := Cursor.before_inj.1 hstart
      unfold Token.literal? at hl
      split at hl <;> simp_all [Token.beginsValue, Token.isValue, TokenKind.isValue]
    | name hkind _ _ | nameArrow hkind _ _ _ =>
      obtain ⟨rfl, rfl⟩ := Cursor.before_inj.1 hstart
      simp [Token.beginsValue, Token.isValue, TokenKind.isValue, hkind]
    | group hmark _ _ | groupArrow hmark _ _ _ | list hmark _ | record hmark _ =>
      obtain ⟨rfl, rfl⟩ := Cursor.before_inj.1 hstart
      simp [Token.beginsValue, hmark]
    | leading hkind hop _ _ _ =>
      obtain ⟨rfl, rfl⟩ := Cursor.before_inj.1 hstart
      simp [Token.beginsValue, hkind, hop]
    | functionLiteral hkind _ =>
      obtain ⟨rfl, rfl⟩ := Cursor.before_inj.1 hstart
      simp [Token.beginsValue, hkind]
  | _ => cases hphrase

/-- A value behind one that has ended stands apart from it. -/
theorem Derives.standsApart_of_valueEnds (h : Derives enclosing (.value node) (c.before t) c')
    (hr : Regular drops all) (hends : ValueEnds all (t :: c.rest)) : node.StandsApart all := by
  obtain ⟨before, rfl, hends⟩ := hends
  have hstart := h.start_value (hr.suffix (List.suffix_append before (t :: c.rest)))
  refine ⟨before, t, c.rest, rfl, hstart.symm, ?_⟩
  rcases hends with ⟨last, hmem, hlast⟩ | hends
  · rcases hlast with hlast | hlast
    · exact .separated last hmem (by simp [Token.separates, hlast])
    · exact .stepped last hmem hlast
  · rcases Token.newlineBefore_of_endsValue h.beginsValue
      (by simpa using hends) with hline | hmark | hkind
    · exact .onNewLine hline
    · exact .bracket hmark
    · exact .function hkind

theorem Node.start_declared {node made : Node} (hmade : made ∈ node.declared blockLocal)
    (hspan : node.span.start ≤ node.span.stop) : made.span.start = node.span.start := by
  unfold declared at hmade
  split at hmade
  next v =>
    split at hmade
    next =>
      split at hmade
      next =>
        rw [List.mem_singleton.1 hmade]
        exact Span.start_union hspan
      next => cases hmade
    next => rw [List.mem_singleton.1 hmade]
  next => rw [List.mem_singleton.1 hmade]

theorem Node.separate_declared {node : Node} : Separate all (node.declared blockLocal) := by
  unfold declared
  split
  next =>
    split
    next => split <;> constructor
    next => constructor
  next => constructor

theorem Cursor.introduce_before : (before c t).introduce blockLocal enclosing name =
    (introduce c blockLocal enclosing name).before t := by
  cases blockLocal <;> rfl

theorem Grammar.getLast?_of_endsWithIf {nodes : List Node} (h : endsWithIf nodes = true) :
    ∃ b, .block b ∈ nodes.getLast? := by
  unfold endsWithIf at h
  split at h
  next b hlast => exact ⟨b, hlast⟩
  next => cases h

theorem Derives.standsApart_of_followsSeparator
    (h : Derives enclosing (.value node) (c.before t) c') (hr : Regular drops all)
    (hfollows : FollowsSeparator all (t :: c.rest)) (hmade : made ∈ node.declared blockLocal) :
    made.StandsApart all := by
  obtain ⟨before, rfl, last, hmem, hlast⟩ := hfollows
  have hregular := hr.suffix (List.suffix_append before (t :: c.rest))
  have hstart := h.start_value hregular
  have hspan : node.span.start ≤ node.span.stop := hstart ▸ (h.from_value hregular).stop
  refine ⟨before, t, c.rest, rfl, ?_, .separated last hmem hlast⟩
  rw [Node.start_declared hmade hspan, hstart]

end

-- ---------------------------------------------------------------------------
-- What is derived
-- ---------------------------------------------------------------------------

def FrontApart (all : List Token) (nodes : List Node) : Prop :=
  ∀ node ∈ nodes.head?, node.isBlock = false → node.StandsApart all

theorem Separate.append (h : Separate all first) (h' : Separate all later)
    (hends : (∀ node ∈ first.getLast?, node.isBlock = false) → FrontApart all later) :
    Separate all (first ++ later) := by
  refine List.IsChain.append h h' fun x hx y hy hxblock hyblock => ?_
  refine hends (fun node hnode => ?_) y hy hyblock
  rw [Option.mem_unique hnode hx, hxblock]

theorem frontApart_nil : FrontApart all [] := fun _ hnode => by cases hnode

theorem FrontApart.append (h : FrontApart all first) (h' : first = [] → FrontApart all later) :
    FrontApart all (first ++ later) := by
  cases first with
  | nil => exact h' rfl
  | cons node nodes => exact h

/-- How the statements of a phrase stand apart, and where the phrase ends. -/
def Phrase.Separate (all ts ts' : List Token) : Phrase → Prop
  | .script nodes | .braces nodes _ =>
    ScriptToPhp.Separate all nodes ∧ (ValueEnds all ts → FrontApart all nodes)
  | .statement nodes =>
    ScriptToPhp.Separate all nodes ∧ (ValueEnds all ts → FrontApart all nodes) ∧
      ((∀ node ∈ nodes.getLast?, node.isBlock = false) → ValueEnds all ts')
  | .declarations _ nodes =>
    ScriptToPhp.Separate all nodes ∧ (FollowsSeparator all ts → FrontApart all nodes) ∧
      ValueEnds all ts'
  | .body nodes _ => ScriptToPhp.Separate all nodes
  | .elseBranches given nodes => ScriptToPhp.Separate all given → ScriptToPhp.Separate all nodes
  | .value _ | .continuation _ _ => ValueEnds all ts'
  | .function _ node => node.isBlock = true
  | _ => True

section

variable {all : List Token} {c c' : Cursor}

theorem Phrase.Separate.more (h : Phrase.Separate all ts ts' (.statement first))
    (hlater : ScriptToPhp.Separate all later ∧ (ValueEnds all ts' → FrontApart all later)) :
    ScriptToPhp.Separate all (first ++ later) ∧
    (ValueEnds all ts → FrontApart all (first ++ later)) := by
  obtain ⟨hseparate, hfront, hends⟩ := h
  refine ⟨hseparate.append hlater.1 fun hlast => hlater.2 (hends hlast), fun hstart => ?_⟩
  refine (hfront hstart).append fun hnil => hlater.2 (hends ?_)
  simp [hnil]

theorem Phrase.separate_block {node : Node} (h : node.isBlock = true) :
    Phrase.Separate all ts ts' (.statement [node]) := by
  refine ⟨.singleton node, fun _ other hother hblock => ?_, fun hlast => ?_⟩
  · simp_all
  · simp_all

theorem Derives.separate (h : Derives enclosing phrase c c') (hr : Regular drops all)
    (hin : c.rest <:+ all) :
    phrase.Separate all c.rest c'.rest := by
  have htail {t : Token} {ts : List Token} (hin : t :: ts <:+ all) : ts <:+ all :=
    (List.suffix_cons t ts).trans hin
  induction h with
  | scriptEnd => exact ⟨.nil, fun _ => frontApart_nil⟩
  | scriptMore _ h₁ _ ih₁ ih₂ => exact (ih₁ hin).more (ih₂ (h₁.reaches.rest.trans hin))
  | empty hmark =>
    exact ⟨.nil, fun _ => frontApart_nil, fun _ => valueEnds_behind hin (.inl hmark)⟩
  | locals hkind _ _ ih =>
    obtain ⟨hseparate, hfront, hends⟩ := ih (htail hin)
    refine ⟨hseparate, fun _ => hfront (followsSeparator_behind hin ?_), fun _ => hends⟩
    simp [Token.separates, hkind]
  | globals hkeyword _ ih =>
    obtain ⟨hseparate, hfront, hends⟩ := ih (htail hin)
    refine ⟨hseparate, fun _ => hfront (followsSeparator_behind hin ?_), fun _ => hends⟩
    simp [Token.separates, (Token.isKeyword_iff.1 hkeyword).1]
  | keyword => exact Phrase.separate_block rfl
  | named _ _ _ ih => exact Phrase.separate_block (ih (htail hin))
  | expression _ _ _ h ih =>
    refine ⟨.singleton _, fun hends node hnode _ => ?_, fun _ => ih hin⟩
    cases hnode
    exact h.standsApart_of_valueEnds hr hends
  | declarationsEnd _ h _ ih =>
    have hends := ih (by simpa using hin)
    rw [Cursor.introduce_before] at h
    refine ⟨Node.separate_declared, fun hfollows made hmade _ => ?_, hends⟩
    exact h.standsApart_of_followsSeparator hr (by simpa using hfollows)
      (List.mem_of_mem_head? hmade)
  | declarationsMore _ h hcomma _ _ ih =>
    have hrest := h.reaches.rest.trans (by simpa using hin)
    have hcomma : FollowsSeparator all _ :=
      followsSeparator_behind hrest (by simp [Token.separates, hcomma])
    obtain ⟨hseparate, hfront, hends⟩ := ih (htail hrest)
    rw [Cursor.introduce_before] at h
    refine ⟨Node.separate_declared.append hseparate fun _ => hfront hcomma,
      fun hfollows => ?_, hends⟩
    refine FrontApart.append (fun made hmade _ => ?_) fun _ => hfront hcomma
    exact h.standsApart_of_followsSeparator hr (by simpa using hfollows)
      (List.mem_of_mem_head? hmade)
  | bodyBraces _ _ ih => exact (ih (htail hin)).1
  | bodyStatement _ h₁ _ ih₁ ih₂ =>
    exact ih₂ ((Cursor.reaches_skipSemicolon _).rest.trans (h₁.reaches.rest.trans hin)) (ih₁ hin).1
  | noElse => exact id
  | elseBranch hif _ h₁ _ ih₁ ih₂ =>
    intro hgiven
    refine ih₂ ((Cursor.reaches_skipSemicolon _).rest.trans (h₁.reaches.rest.trans hin)) ?_
    refine hgiven.append (ih₁ hin).1 fun hlast => ?_
    obtain ⟨b, hb⟩ := Grammar.getLast?_of_endsWithIf hif
    cases hlast _ hb
  | bracesEnd => exact ⟨.nil, fun _ => frontApart_nil⟩
  | bracesMore _ h₁ _ ih₁ ih₂ => exact (ih₁ hin).more (ih₂ (h₁.reaches.rest.trans hin))
  | function => rfl
  | value h₁ _ _ ih₂ => exact ih₂ (h₁.reaches.rest.trans hin)
  | continuationEnd hends => exact valueEnds_of_endsValue hin hends
  | ternary _ h₁ _ h₂ _ _ _ ih =>
    exact ih (h₂.reaches.rest.trans (htail (h₁.reaches.rest.trans (htail hin))))
  | call _ h₁ _ _ ih => exact ih (h₁.reaches.rest.trans (htail hin))
  | trailing hkind hstep => exact valueEnds_behind hin (.inr (by simp [Token.isStep, hkind, hstep]))
  | assign _ h₁ _ _ _ ih => exact ih (h₁.reaches.rest.trans (htail hin))
  | binary _ h₁ _ _ ih => exact ih (h₁.reaches.rest.trans (htail hin))
  | _ => trivial

end

-- ---------------------------------------------------------------------------
-- The blocks of a script
-- ---------------------------------------------------------------------------

namespace Script

/-- Where one expression statement follows another in the body of a block, it stands apart from
it. -/
theorem statements_stand_apart {options : Options} {source : Source} {script : Script}
    (h : parse options source = .ok script) {b : Block} (hb : b ∈ script.root.blocks)
    {front back : List Node} {first second : Node}
    (hbody : b.body = front ++ first :: second :: back) (hfirst : first.isBlock = false)
    (hsecond : second.isBlock = false) :
    ∃ before t after, source.tokens options.reserved = before ++ t :: after ∧
      t.span.start = second.span.start ∧ t.StandsApart before := by
  have hregular : Regular True (start options source).rest :=
    source.tokens_regular options.reserved fun _ _ _ => trivial
  have hbodies : HoldsOfBodies (Separate (start options source).rest) (start options source) :=
    ⟨.nil, .singleton, fun h hin => h.separate hregular hin.rest,
      fun h hin => (h.separate hregular hin.rest).1⟩
  have hchain := bodies h hbodies
    (fun _ _ _ hderives => (hderives.separate hregular (List.suffix_refl _)).1) hb
  exact List.isChain_iff_forall_rel_of_append_cons_cons.1 hchain hbody hfirst hsecond

/-- Two statements on one line with nothing between them: an array behind a call. -/
theorem statements_stand_apart_bracket :
    ∃ script first second before t after,
      parse {} (.ofText "" "f()[0]") = .ok script ∧ script.root.body = [first, second] ∧
        first.isBlock = false ∧ second.isBlock = false ∧
        (Source.ofText "" "f()[0]").tokens (Options.reserved {}) = before ++ t :: after ∧
        t.span.start = second.span.start ∧ t.newlineBefore = false ∧
        (∀ last ∈ before.getLast?, last.separates = false) ∧ t.StandsApart before := by
  have hfacts : (parse {} (.ofText "" "f()[0]")).toOption.any (fun script =>
      script.root.body.map Node.isBlock == [false, false]) = true ∧
      ∀ t ∈ (Source.ofText "" "f()[0]").tokens (Options.reserved {}), t.newlineBefore = false ∧
        t.separates = false := by
    decide +kernel
  obtain ⟨script, h, hbody⟩ := exists_of_any_parse hfacts.1
  obtain ⟨first, rest, hbody, hfirst, hrest⟩ := List.map_eq_cons_iff.1 (eq_of_beq hbody)
  obtain ⟨second, rest, rfl, hsecond, hrest⟩ := List.map_eq_cons_iff.1 hrest
  obtain rfl := List.map_eq_nil_iff.1 hrest
  have hpair : script.root.body = [] ++ first :: second :: [] := hbody
  have hroot : script.root ∈ script.root.blocks := Block.mem_blocks.2 (by simp [Block.walk_eq])
  obtain ⟨before, t, after, htokens, hstart, hapart⟩ :=
    statements_stand_apart h hroot hpair hfirst hsecond
  have hline (u : Token) (hu : u ∈ before ++ t :: after) := hfacts.2 u (htokens ▸ hu)
  refine ⟨script, first, second, before, t, after, h, hbody, hfirst, hsecond, htokens, hstart,
    ?_, ?_, hapart⟩
  · exact (hline t (by simp)).1
  · exact fun last hlast => (hline last (by simp [List.mem_of_mem_getLast? hlast])).2

end Script

end ScriptToPhp
