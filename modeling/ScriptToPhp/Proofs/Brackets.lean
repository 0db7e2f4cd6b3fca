import ScriptToPhp.Proofs.Derivation

/-!
# Brackets

What a phrase takes from a text has its brackets in pairs. An expression has no semicolon outside of
them, so that a list of declarations can be told from the tokens alone.
-/

namespace ScriptToPhp

-- ---------------------------------------------------------------------------
-- Balanced tokens
-- ---------------------------------------------------------------------------

namespace Token

def isBracket (t : Token) : Bool := ['(', ')', '[', ']', '\x7b', '\x7d'].any t.isMark

def isClosedBy (opening closing : Token) : Bool :=
  [('(', ')'), ('[', ']'), ('\x7b', '\x7d')].any fun pair =>
    opening.isMark pair.1 && closing.isMark pair.2

theorem isBracket_of_kind {t : Token} (ht : t.kind ≠ .punctuation) : t.isBracket = false := by
  simp [isBracket, isMark, ht]

theorem isBracket_of_isMark {t : Token} (ht : t.isMark c = true) (hc : c ∈ [',', ':', '.', ';']) :
    t.isBracket = false := by
  obtain ⟨hkind, htext⟩ := isMark_iff.1 ht
  simp only [List.mem_cons, List.not_mem_nil, or_false] at hc
  rcases hc with rfl | rfl | rfl | rfl <;> simp [isBracket, isMark, hkind, htext]

end Token

/-- `Balanced nested ts ts'`: in the tokens of `ts` before `ts'` every bracket has its partner.
Unless they are nested in brackets themselves, they have semicolons only inside brackets. -/
inductive Balanced : Bool → List Token → List Token → Prop
  | done : Balanced nested ts ts
  | token {t : Token} :
      t.isBracket = false → (t.isMark ';' = true → nested = true) → Balanced nested ts ts' →
      Balanced nested (t :: ts) ts'
  | brackets {opening closing : Token} :
      opening.isClosedBy closing = true → Balanced true ts (closing :: ts') →
        Balanced nested ts' ts'' →
      Balanced nested (opening :: ts) ts''

namespace Balanced

theorem trans (h : Balanced nested ts ts') (h' : Balanced nested ts' ts'') :
    Balanced nested ts ts'' := by
  induction h with
  | done => exact h'
  | token hbracket hsemicolon _ ih => exact .token hbracket hsemicolon (ih h')
  | brackets hpair hinside _ _ ih => exact .brackets hpair hinside (ih h')

theorem nest (h : Balanced nested ts ts') : Balanced true ts ts' := by
  induction h with
  | done => exact .done
  | token hbracket _ _ ih => exact .token hbracket (fun _ => rfl) ih
  | brackets hpair hinside _ _ ih => exact .brackets hpair hinside ih

theorem append_right (h : Balanced nested ts ts') (us : List Token) :
    Balanced nested (ts ++ us) (ts' ++ us) := by
  induction h with
  | done => exact .done
  | token hbracket hsemicolon _ ih => exact .token hbracket hsemicolon ih
  | brackets hpair _ _ ih ih' => exact .brackets hpair ih ih'

theorem exists_append (h : Balanced nested ts ts') :
    ∃ us, ts = us ++ ts' ∧ Balanced nested us [] := by
  induction h with
  | done => exact ⟨[], rfl, .done⟩
  | @token _ _ _ t hbracket hsemicolon _ ih =>
    obtain ⟨us, rfl, hus⟩ := ih
    exact ⟨t :: us, rfl, .token hbracket hsemicolon hus⟩
  | @brackets _ _ _ _ opening closing hpair _ _ ih ih' =>
    obtain ⟨us, rfl, hus⟩ := ih
    obtain ⟨us', rfl, hus'⟩ := ih'
    have hinside := hus.append_right (closing :: us')
    exact ⟨opening :: us ++ closing :: us', by simp, .brackets hpair hinside hus'⟩

theorem word {t : Token} (ht : t.kind ≠ .punctuation) (h : Balanced nested ts ts') :
    Balanced nested (t :: ts) ts' :=
  .token (Token.isBracket_of_kind ht) (by simp [Token.isMark, ht]) h

theorem mark {t : Token} (ht : t.isMark c = true) (hc : c ∈ [',', ':', '.'])
    (h : Balanced nested ts ts') :
    Balanced nested (t :: ts) ts' := by
  refine .token (Token.isBracket_of_isMark ht (List.mem_append_left [';'] hc))
    (fun hsemicolon => ?_) h
  have htext := (Token.isMark_iff.1 ht).2.symm.trans (Token.isMark_iff.1 hsemicolon).2
  simp only [List.mem_cons, List.not_mem_nil, or_false] at hc
  rcases hc with rfl | rfl | rfl <;> simp at htext

theorem semicolon {t : Token} (ht : t.isMark ';' = true) (h : Balanced true ts ts') :
    Balanced true (t :: ts) ts' := .token (Token.isBracket_of_isMark ht (by simp)) (fun _ => rfl) h

theorem skipSemicolon (c : Cursor) : Balanced true c.rest c.skipSemicolon.rest := by
  obtain h | ⟨t, ht, h⟩ := c.skipSemicolon_cases
  · rw [h]; exact .done
  · have hrest : c.rest = t :: c.skipSemicolon.rest := congrArg Cursor.rest h
    rw [hrest]
    exact semicolon ht .done

end Balanced

/-- The tokens of `ts` before `ts'` are balanced up to the bracket at their end. -/
def Closes (closing : Char) (ts ts' : List Token) : Prop :=
  ∃ t : Token, t.isMark closing = true ∧ Balanced true ts (t :: ts')

theorem Closes.trans (h : Balanced true ts ts') (h' : Closes closing ts' ts'') :
    Closes closing ts ts'' := by
  obtain ⟨t, ht, hts⟩ := h'
  exact ⟨t, ht, h.trans hts⟩

theorem Closes.enclose {opening : Token} (h : Closes closing ts ts') (ho : opening.isMark o = true)
    (hpair : (o, closing) ∈ [('(', ')'), ('[', ']'), ('\x7b', '\x7d')])
    (h' : Balanced nested ts' ts'') :
    Balanced nested (opening :: ts) ts'' := by
  obtain ⟨t, ht, hts⟩ := h
  refine .brackets ?_ hts h'
  exact List.any_eq_true.2 ⟨_, hpair, by simp [ho, ht]⟩

-- ---------------------------------------------------------------------------
-- What is derived
-- ---------------------------------------------------------------------------

theorem Grammar.kind_of_isPropertyName (h : isPropertyName t = true) : t.kind ≠ .punctuation := by
  intro hkind
  simp [isPropertyName, hkind] at h

theorem Grammar.kind_of_recordKey? (h : recordKey? t = some key) : t.kind ≠ .punctuation := by
  intro hkind
  simp [recordKey?, hkind] at h

def Phrase.Balances (ts ts' : List Token) : Phrase → Prop
  | .items .. => Closes ')' ts ts'
  | .listItems .. => Closes ']' ts ts'
  | .recordEntries .. | .braces .. => Closes '\x7d' ts ts'
  | .declarations .. | .function .. | .lambda .. | .value _ | .operand _ | .calls
    .. | .continuation ..
  | .accesses .. => Balanced false ts ts'
  | _ => Balanced true ts ts'

theorem Derives.balances (h : Derives enclosing phrase c c') : phrase.Balances c.rest c'.rest := by
  induction h with
  -- The script
  | scriptEnd => exact .done
  | scriptMore _ _ _ ih₁ ih₂ => exact ih₁.trans ih₂
  -- Statements
  | empty hmark => exact .semicolon hmark .done
  | locals hkind _ _ ih => exact .word (by simp [hkind]) ih.nest
  | globals hvar _ ih => exact .word (by simp [(Token.isKeyword_iff.1 hvar).1]) ih.nest
  | keyword hkind _ _ ih => exact .word (by simp [hkind]) ih
  | named hkind _ _ ih => exact .word (by simp [hkind]) ih.nest
  | expression _ _ _ _ ih => exact ih.nest
  | declarationsEnd _ _ _ ih =>
    rw [Cursor.introduce_rest] at ih
    exact ih
  | declarationsMore _ _ hcomma _ ih₁ ih₂ =>
    rw [Cursor.introduce_rest] at ih₁
    exact ih₁.trans (.mark hcomma (by simp) ih₂)
  -- Blocks
  | jump => exact .done
  | jumpValue _ _ _ ih => exact ih.nest
  | caseLabel _ _ _ hcolon ih => exact ih.nest.trans (.mark hcolon (by simp) .done)
  | defaultLabel _ hcolon => exact .mark hcolon (by simp) .done
  | headed _ _ _ ih₁ ih₂ => exact ih₁.trans ih₂
  | doLoop _ _ _ _ ih₁ ih₂ => exact ih₁.trans ih₂
  | noHeader => exact .done
  | header _ ho _ ih => exact ih.enclose ho (by simp) .done
  | noCondition => exact .done
  | condition hword ho _ ih =>
    exact .word (by simp [(Token.isKeyword_iff.1 hword).1]) (ih.enclose ho (by simp) .done)
  | bodyBraces ho _ ih => exact ih.enclose ho (by simp) .done
  | bodyStatement _ _ _ ih₁ ih₂ => exact ih₁.trans ((Balanced.skipSemicolon _).trans ih₂)
  | noElse => exact .done
  | elseBranch _ _ _ _ ih₁ ih₂ => exact ih₁.trans ((Balanced.skipSemicolon _).trans ih₂)
  | bracesEnd hmark => exact ⟨_, hmark, .done⟩
  | bracesMore _ _ _ ih₁ ih₂ => exact .trans ih₁ ih₂
  -- Functions
  | @function _ _ _ _ _ _ _ _ _ _ _ _ name hname ho _ hbrace _ ih₁ ih₂ =>
    have hbody : Balanced false _ _ := ih₂.enclose hbrace (by simp) .done
    have hrest := ih₁.enclose ho (by simp) hbody
    cases name with
    | none => exact hrest
    | some t => exact .word (by simp [hname t rfl]) hrest
  | lambdaBraces hbrace _ ih => exact ih.enclose hbrace (by simp) .done
  | lambdaValue _ _ ih => exact ih
  -- Values
  | value _ _ ih₁ ih₂ => exact ih₁.trans ih₂
  | literal hliteral => exact .word (Token.kind_of_literal? hliteral) .done
  | name hkind _ _ ih => exact .word (by simp [hkind]) ih
  | nameArrow hkind _ harrow _ ih₁ ih₂ =>
    exact .word (by simp [hkind]) (ih₁.trans (.word (by simp [harrow]) ih₂))
  | group ho _ _ ih => exact ih.enclose ho (by simp) .done
  | groupArrow ho _ harrow _ ih₁ ih₂ =>
    exact ih₁.enclose ho (by simp) (.word (by simp [harrow]) ih₂)
  | list ho _ ih => exact ih.enclose ho (by simp) .done
  | record ho _ ih => exact ih.enclose ho (by simp) .done
  | leading hkind _ _ _ _ ih₁ ih₂ => exact .word (by simp [hkind]) (ih₁.trans ih₂)
  | functionLiteral hkind _ ih => exact .word (by simp [hkind]) ih
  | callsEnd => exact .done
  | callsMore ho _ _ ih₁ ih₂ => exact ih₁.enclose ho (by simp) ih₂
  | continuationEnd => exact .done
  | ternary hmark _ hcolon _ _ ih₁ ih₂ ih₃ =>
    exact .word (by simp [(Token.isOperator_iff.1 hmark).1])
      (ih₁.trans (.mark hcolon (by simp) (ih₂.trans ih₃)))
  | call ho _ _ ih₁ ih₂ => exact ih₁.enclose ho (by simp) ih₂
  | trailing hkind => exact .word (by simp [hkind]) .done
  | assign hkind _ _ _ ih₁ ih₂ =>
    exact .word (by simp [(Token.isAssignment_iff.1 hkind).1]) (ih₁.trans ih₂)
  | binary hkind _ _ ih₁ ih₂ => exact .word (by simp [Token.kind_of_isInfix hkind]) (ih₁.trans ih₂)
  -- Accesses
  | accessesEnd => exact .done
  | property hpoint hname _ ih =>
    exact .mark hpoint (by simp) (.word (Grammar.kind_of_isPropertyName hname) ih)
  | index ho _ hclosing _ ih₁ ih₂ => exact Closes.enclose ⟨_, hclosing, ih₁.nest⟩ ho (by simp) ih₂
  -- Groups and arrays
  | itemsEnd hmark => exact ⟨_, hmark, .done⟩
  | itemsComma hmark _ ih => exact .trans (.mark hmark (by simp) .done) ih
  | itemsSemicolon hmark _ ih => exact .trans (.semicolon hmark .done) ih
  | itemsLocal hkind _ _ _ ih => exact .trans (.word (by simp [hkind]) .done) ih
  | itemsGlobal hvar _ ih =>
    exact .trans (.word (by simp [(Token.isKeyword_iff.1 hvar).1]) .done) ih
  | itemsMore _ _ ih₁ ih₂ => exact .trans ih₁.nest ih₂
  | listEnd hmark => exact ⟨_, hmark, .done⟩
  | listComma hmark _ ih => exact .trans (.mark hmark (by simp) .done) ih
  | listMore _ _ ih₁ ih₂ => exact .trans ih₁.nest ih₂
  | recordEnd hmark => exact ⟨_, hmark, .done⟩
  | recordComma hmark _ ih => exact .trans (.mark hmark (by simp) .done) ih
  | recordMore hkey hcolon _ _ ih₁ ih₂ =>
    exact .trans (.word (Grammar.kind_of_recordKey? hkey) (.mark hcolon (by simp) ih₁.nest)) ih₂

end ScriptToPhp
