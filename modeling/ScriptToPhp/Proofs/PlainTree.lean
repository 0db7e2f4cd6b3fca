import ScriptToPhp.Proofs.Reaches
import ScriptToPhp.Proofs.Spelling

/-!
# Plain trees

A plain tree is made of literals, bare names, operators and groups only. `Plain` pairs plain nodes
with the tokens that they are made of, the marks that only group and separate left out. Without
keywords in the text, every plain tree that is derived is paired so.
-/

namespace ScriptToPhp

mutual

/-- Whether the tree is made of literals, bare names, operators and groups, without the operators
that PHP writes as calls. -/
def Node.isPlain : Node → Bool
  | .literal _ => true
  | .variable ⟨_, chain, _, _⟩ => chain.isEmpty
  | .binary _ left right _ => left.isPlain && right.isPlain
  | .ternary condition whenTrue whenFalse _ =>
    condition.isPlain && whenTrue.isPlain && whenFalse.isPlain
  | .assign _ target value _ => target.isPlain && value.isPlain
  | .group ⟨items, _, _⟩ => arePlain items
  | .unary op operand _ _ => ! ["typeof", "void", "delete"].contains op && operand.isPlain
  | _ => false

def arePlain : List Node → Bool
  | [] => true
  | node :: nodes => node.isPlain && arePlain nodes

end

inductive Plain : List Node → List Token → Prop
  | nil : Plain [] []
  | cons : Plain [node] ts → Plain (next :: nodes) ts' → Plain (node :: next :: nodes) (ts ++ ts')
  | literal {t : Token} : t.literal? = some l → Plain [.literal l] [t]
  | name {t : Token} : t.kind = .variable → Plain [.variable ⟨t.text, [], none, span⟩] [t]
  | binary {t : Token} :
      t.isInfix = true → Plain [left] ts → Plain [right] ts' →
      Plain [.binary t.value left right span] (ts ++ t :: ts')
  | ternary {mark colon : Token} :
      mark.isOperator "?" = true → colon.isMark ':' = true →
      Plain [condition] ts → Plain [whenTrue] ts' → Plain [whenFalse] ts'' →
      Plain [.ternary condition whenTrue whenFalse span] (ts ++ mark :: ts' ++ colon :: ts'')
  | assign {t : Token} :
      t.isAssignment = true → target.isAssignable = true → Plain [target] ts → Plain [value] ts' →
      Plain [.assign t.value target value span] (ts ++ t :: ts')
  | group : Plain items ts → Plain [.group ⟨items, separator, span⟩] ts
  | leading {t : Token} :
      t.kind = .operator → t.value ∈ ["~", "!", "-", "+", "--", "++"] →
      (isStepOperator t.value = true → operand.isAssignable = true) → Plain [operand] ts →
      Plain [.unary t.value operand .leading span] (t :: ts)
  | trailing {t : Token} :
      t.kind = .operator → isStepOperator t.value = true → operand.isAssignable = true →
        Plain [operand] ts →
      Plain [.unary t.value operand .trailing span] (ts ++ [t])

theorem Plain.push (h : Plain [node] ts) (h' : Plain nodes ts') :
    Plain (node :: nodes) (ts ++ ts') := by
  cases nodes with
  | nil =>
    cases h'
    simpa using h
  | cons next nodes => exact .cons h h'

theorem Plain.append (h : Plain nodes ts) (h' : Plain nodes' ts') :
    Plain (nodes ++ nodes') (ts ++ ts') := by
  induction nodes generalizing ts with
  | nil =>
    cases h
    exact h'
  | cons node nodes ih =>
    cases nodes with
    | nil => exact h.push h'
    | cons next nodes =>
      cases h with
      | cons hnode hnodes =>
        rw [List.append_assoc]
        exact hnode.push (ih hnodes)

-- ---------------------------------------------------------------------------
-- Texts without keywords
-- ---------------------------------------------------------------------------

/-- No keyword is left and no name is declared. -/
structure Cursor.Unkeyed (c : Cursor) : Prop where
  keywords : ∀ t ∈ c.rest, t.kind ≠ .keyword
  declares : ∀ scope name, c.scopes.declares scope name = false

namespace Cursor

theorem unkeyed_before : (before c t).Unkeyed ↔ t.kind ≠ .keyword ∧ c.Unkeyed := by
  constructor
  · rintro ⟨hkeywords, hdeclares⟩
    simp only [before_rest, List.mem_cons, forall_eq_or_imp] at hkeywords
    exact ⟨hkeywords.1, hkeywords.2, hdeclares⟩
  · rintro ⟨ht, hkeywords, hdeclares⟩
    refine ⟨?_, hdeclares⟩
    simp only [before_rest, List.mem_cons, forall_eq_or_imp]
    exact ⟨ht, hkeywords⟩

theorem Unkeyed.tail (h : (before c t).Unkeyed) : c.Unkeyed := (unkeyed_before.1 h).2

theorem unkeyed_enter : (enter c enclosing).Unkeyed ↔ c.Unkeyed := by
  constructor
  · rintro ⟨hkeywords, hdeclares⟩
    exact ⟨hkeywords, by simpa [enter] using hdeclares⟩
  · rintro ⟨hkeywords, hdeclares⟩
    exact ⟨hkeywords, by simpa [enter] using hdeclares⟩

theorem unkeyed_before? (h : (before? c found).Unkeyed) : c.Unkeyed := by
  cases found with
  | none => exact h
  | some t => exact (unkeyed_before.1 h).2

theorem unkeyed_skipSemicolon (h : Unkeyed c) : (skipSemicolon c).Unkeyed :=
  ⟨fun t ht => h.keywords t ((reaches_skipSemicolon c).rest.subset ht), h.declares⟩

attribute [grind =] unkeyed_before unkeyed_enter
attribute [grind →] unkeyed_before?
grind_pattern unkeyed_skipSemicolon => skipSemicolon c

end Cursor

theorem Derives.unkeyed (h : Derives enclosing phrase c c') (hc : c.Unkeyed)
    (hphrase : ∀ blockLocal nodes, phrase ≠ .declarations blockLocal nodes) : c'.Unkeyed := by
  induction h <;> grind [Token.isKeyword]

theorem Cursor.Unkeyed.resolve {c : Cursor} (h : c.Unkeyed) :
    c.scopes.resolve enclosing name = none := by
  simp [ScopeTable.resolve, h.declares]

-- ---------------------------------------------------------------------------
-- What is derived
-- ---------------------------------------------------------------------------

def ungrouped (ts : List Token) : List Token := ts.filter (!·.isGrouping)

theorem ungrouped_mark (h : t.isMark c = true) (hc : c = '(' ∨ c = ')' ∨ c = ',' ∨ c = ';') :
    ungrouped (t :: ts) = ungrouped ts := by
  have hgrouping : t.isGrouping = true := by
    rcases hc with rfl | rfl | rfl | rfl <;> simp [Token.isGrouping, h]
  simp [ungrouped, hgrouping]

theorem ungrouped_colon (h : t.isMark ':' = true) : ungrouped (t :: ts) = t :: ungrouped ts := by
  have hgrouping : t.isGrouping = false := by
    obtain ⟨hkind, htext⟩ := Token.isMark_iff.1 h
    simp [Token.isGrouping, Token.isMark, hkind, htext]
  simp [ungrouped, hgrouping]

theorem ungrouped_kind (h : t.kind ≠ .punctuation) : ungrouped (t :: ts) = t :: ungrouped ts := by
  have hgrouping : t.isGrouping = false := by simp [Token.isGrouping, Token.isMark, h]
  simp [ungrouped, hgrouping]

theorem mem_of_isLeadingOperator (h : isLeadingOperator op = true)
    (hplain : ["typeof", "void", "delete"].contains op = false) :
    op ∈ ["~", "!", "-", "+", "--", "++"] := by
  simp only [isLeadingOperator, leadingOperators, List.contains_eq_mem, List.mem_cons,
    List.not_mem_nil, or_false, decide_eq_true_eq, decide_eq_false_iff_not, not_or] at h hplain ⊢
  grind

/-- What a phrase says of the tokens between two places if what is made of it is plain. -/
def Phrase.MadeOf (ts ts' : List Token) : Phrase → Prop
  | .script nodes | .statement nodes | .items _ nodes _ _ =>
    arePlain nodes = true → ∃ us, Plain nodes us ∧ ungrouped ts = us ++ ungrouped ts'
  | .value node | .operand node =>
    node.isPlain = true → ∃ us, Plain [node] us ∧ ungrouped ts = us ++ ungrouped ts'
  | .calls front node | .continuation front node =>
    node.isPlain = true → front.isPlain = true ∧
      ∀ us, Plain [front] us → ∃ us', Plain [node] (us ++ us') ∧ ungrouped ts = us' ++ ungrouped ts'
  | .function _ node | .lambda _ _ node => node.isPlain = false
  | .accesses _ chain _ => chain = [] → ts' = ts
  | _ => True

theorem arePlain_append : arePlain (nodes ++ nodes') = (arePlain nodes && arePlain nodes') := by
  induction nodes with
  | nil => simp [arePlain]
  | cons node nodes ih => simp [arePlain, ih, Bool.and_assoc]

theorem Derives.madeOf (h : Derives enclosing phrase c c') (hc : c.Unkeyed) :
    phrase.MadeOf c.rest c'.rest := by
  -- Words and functions make no plain node, and the scope of a name is none as long as nothing is
  -- declared.
  induction h with
  | scriptEnd => exact fun _ => ⟨[], .nil, rfl⟩
  | scriptMore _ h₁ _ ih₁ ih₂ =>
    intro hplain
    simp only [arePlain_append, Bool.and_eq_true] at hplain
    obtain ⟨us, hus, heq⟩ := ih₁ hc hplain.1
    obtain ⟨us', hus', heq'⟩ := ih₂ (h₁.unkeyed hc (by simp)) hplain.2
    exact ⟨us ++ us', hus.append hus', by rw [heq, heq', List.append_assoc]⟩
  | empty hmark => exact fun _ => ⟨[], .nil, ungrouped_mark hmark (by simp)⟩
  | locals hkind => exact absurd hkind (Cursor.unkeyed_before.1 hc).1
  | globals hvar => exact absurd (Token.isKeyword_iff.1 hvar).1 (Cursor.unkeyed_before.1 hc).1
  | keyword hkind => exact absurd hkind (Cursor.unkeyed_before.1 hc).1
  | named _ _ _ ih =>
    have hnode : Node.isPlain _ = false := ih hc.tail
    exact fun hplain => by simp [arePlain, hnode] at hplain
  | expression _ _ _ _ ih => exact fun hplain => ih hc (by simpa [arePlain] using hplain)
  | function => simp [Phrase.MadeOf, Node.isPlain]
  | lambdaBraces => simp [Phrase.MadeOf, Node.isPlain]
  | lambdaValue => simp [Phrase.MadeOf, Node.isPlain]
  | value h₁ _ ih₁ ih₂ =>
    intro hplain
    obtain ⟨hfront, hrest⟩ := ih₂ (h₁.unkeyed hc (by simp)) hplain
    obtain ⟨us, hus, heq⟩ := ih₁ hc hfront
    obtain ⟨us', hus', heq'⟩ := hrest us hus
    exact ⟨us ++ us', hus', by rw [heq, heq', List.append_assoc]⟩
  | literal hliteral =>
    exact fun _ => ⟨_, .literal hliteral, ungrouped_kind (Token.kind_of_literal? hliteral)⟩
  | @name _ _ _ _ c₁ t hkind h₁ _ ih =>
    intro hplain
    simp only [Node.isPlain, List.isEmpty_iff] at hplain
    subst hplain
    have hrest : c₁.rest = _ := ih hc.tail rfl
    rw [(h₁.unkeyed hc.tail (by simp)).resolve, hrest]
    exact ⟨[t], .name hkind, ungrouped_kind (by simp [hkind])⟩
  | nameArrow _ h₁ _ _ _ ih₂ =>
    have hc₁ := h₁.unkeyed hc.tail (by simp)
    have hnode : Node.isPlain _ = false := ih₂ hc₁.tail
    exact fun hplain => by simp [hnode] at hplain
  | groupArrow _ h₁ _ _ _ ih₂ =>
    have hc₁ := h₁.unkeyed hc.tail (by simp)
    have hnode : Node.isPlain _ = false := ih₂ hc₁.tail
    exact fun hplain => by simp [hnode] at hplain
  | functionLiteral _ _ ih =>
    have hnode : Node.isPlain _ = false := ih hc.tail
    exact fun hplain => by simp [hnode] at hplain
  | group hopening _ _ ih =>
    intro hplain
    obtain ⟨us, hus, heq⟩ := ih hc.tail (by simpa [Node.isPlain] using hplain)
    exact ⟨us, .group hus, (ungrouped_mark hopening (by simp)).trans heq⟩
  | list => exact fun hplain => by simp [Node.isPlain] at hplain
  | record => exact fun hplain => by simp [Node.isPlain] at hplain
  | leading hkind hop h₁ _ hassignable ih₁ ih₂ =>
    intro hplain
    simp only [Node.mkUnary, Node.isPlain, Bool.and_eq_true, Bool.not_eq_true'] at hplain
    obtain ⟨hcallee, hrest⟩ := ih₂ (h₁.unkeyed hc.tail (by simp)) hplain.2
    obtain ⟨us, hus, heq⟩ := ih₁ hc.tail hcallee
    obtain ⟨us', hus', heq'⟩ := hrest us hus
    refine ⟨_, .leading hkind (mem_of_isLeadingOperator hop hplain.1) ?_ hus', ?_⟩
    · exact fun hstep => hassignable (by simp [hstep])
    · rw [Cursor.before_rest, ungrouped_kind (by simp [hkind]), heq, heq']
      simp
  | callsEnd => exact fun hplain => ⟨hplain, fun us hus => ⟨[], by simpa using hus, rfl⟩⟩
  | callsMore _ h₁ _ _ ih₂ =>
    intro hplain
    have hcall := (ih₂ (h₁.unkeyed hc.tail (by simp)) hplain).1
    simp [Node.mkCall, Node.isPlain] at hcall
  | call _ h₁ _ _ ih₂ =>
    intro hplain
    have hcall := (ih₂ (h₁.unkeyed hc.tail (by simp)) hplain).1
    simp [Node.mkCall, Node.isPlain] at hcall
  | continuationEnd => exact fun hplain => ⟨hplain, fun us hus => ⟨[], by simpa using hus, rfl⟩⟩
  | ternary hmark h₁ hcolon h₂ _ ih₁ ih₂ ih₃ =>
    intro hplain
    have hc₁ := (h₁.unkeyed hc.tail (by simp)).tail
    obtain ⟨hternary, hrest⟩ := ih₃ (h₂.unkeyed hc₁ (by simp)) hplain
    simp only [Node.mkTernary, Node.isPlain, Bool.and_eq_true] at hternary
    refine ⟨hternary.1.1, fun us hus => ?_⟩
    obtain ⟨us₁, hus₁, heq₁⟩ := ih₁ hc.tail hternary.1.2
    obtain ⟨us₂, hus₂, heq₂⟩ := ih₂ hc₁ hternary.2
    obtain ⟨us₃, hus₃, heq₃⟩ := hrest _ (.ternary hmark hcolon hus hus₁ hus₂)
    refine ⟨_ :: us₁ ++ _ :: us₂ ++ us₃, by simpa using hus₃, ?_⟩
    rw [Cursor.before_rest, ungrouped_kind (by simp [(Token.isOperator_iff.1 hmark).1]), heq₁,
      Cursor.before_rest, ungrouped_colon hcolon, heq₂, heq₃]
    simp
  | trailing hkind hstep _ hassignable =>
    intro hplain
    simp only [Node.mkUnary, Node.isPlain, Bool.and_eq_true] at hplain
    refine ⟨hplain.2, fun us hus => ⟨[_], .trailing hkind hstep hassignable hus, ?_⟩⟩
    exact ungrouped_kind (by simp [hkind])
  | assign hkind h₁ hassignable _ ih₁ ih₂ =>
    intro hplain
    obtain ⟨hassign, hrest⟩ := ih₂ (h₁.unkeyed hc.tail (by simp)) hplain
    simp only [Node.mkAssign, Node.isPlain, Bool.and_eq_true] at hassign
    refine ⟨hassign.1, fun us hus => ?_⟩
    obtain ⟨us₁, hus₁, heq₁⟩ := ih₁ hc.tail hassign.2
    obtain ⟨us₂, hus₂, heq₂⟩ := hrest _ (.assign hkind hassignable hus hus₁)
    refine ⟨_ :: us₁ ++ us₂, by simpa using hus₂, ?_⟩
    rw [Cursor.before_rest, ungrouped_kind (by simp [(Token.isAssignment_iff.1 hkind).1]), heq₁,
      heq₂]
    simp
  | binary hkind h₁ _ ih₁ ih₂ =>
    intro hplain
    obtain ⟨hbinary, hrest⟩ := ih₂ (h₁.unkeyed hc.tail (by simp)) hplain
    simp only [Node.mkBinary, Node.isPlain, Bool.and_eq_true] at hbinary
    refine ⟨hbinary.1, fun us hus => ?_⟩
    obtain ⟨us₁, hus₁, heq₁⟩ := ih₁ hc.tail hbinary.2
    obtain ⟨us₂, hus₂, heq₂⟩ := hrest _ (.binary hkind hus hus₁)
    refine ⟨_ :: us₁ ++ us₂, by simpa using hus₂, ?_⟩
    rw [Cursor.before_rest, ungrouped_kind (by simp [Token.kind_of_isInfix hkind]), heq₁, heq₂]
    simp
  | accessesEnd => exact fun _ => rfl
  | property => simp [Phrase.MadeOf]
  | index => simp [Phrase.MadeOf]
  | itemsEnd hmark => exact fun _ => ⟨[], .nil, ungrouped_mark hmark (by simp)⟩
  | itemsComma hmark _ ih =>
    intro hplain
    obtain ⟨us, hus, heq⟩ := ih hc.tail hplain
    exact ⟨us, hus, (ungrouped_mark hmark (by simp)).trans heq⟩
  | itemsSemicolon hmark _ ih =>
    intro hplain
    obtain ⟨us, hus, heq⟩ := ih hc.tail hplain
    exact ⟨us, hus, (ungrouped_mark hmark (by simp)).trans heq⟩
  | itemsLocal hkind => exact absurd hkind (Cursor.unkeyed_before.1 hc).1
  | itemsGlobal hvar => exact absurd (Token.isKeyword_iff.1 hvar).1 (Cursor.unkeyed_before.1 hc).1
  | itemsMore h₁ _ ih₁ ih₂ =>
    intro hplain
    simp only [arePlain, Bool.and_eq_true] at hplain
    obtain ⟨us, hus, heq⟩ := ih₁ hc hplain.1
    obtain ⟨us', hus', heq'⟩ := ih₂ (h₁.unkeyed hc (by simp)) hplain.2
    exact ⟨us ++ us', hus.push hus', by rw [heq, heq', List.append_assoc]⟩
  | _ => trivial

end ScriptToPhp
