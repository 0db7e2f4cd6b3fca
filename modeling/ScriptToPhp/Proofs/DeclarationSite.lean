import ScriptToPhp.Proofs.Brackets
import ScriptToPhp.Proofs.Reaches

/-!
# Where names are declared

A name gets into a scope only by a declaration in the text: it stands behind a `let` or `const`, or
behind a comma in the list that such a word begins.
-/

namespace ScriptToPhp

-- ---------------------------------------------------------------------------
-- Sites in a text
-- ---------------------------------------------------------------------------

def Token.declaresLocal (t : Token) : Bool := t.isKeyword "let" || t.isKeyword "const"

/-- A name behind these tokens is declared: they end with a `let` or `const`, or with a comma and
before it such a word and the rest of one declaration or more, which has no semicolon outside its
brackets. -/
def Introduces (front : List Token) : Prop :=
  ∃ word list, word :: list <:+ front ∧ word.declaresLocal = true ∧
    (list = [] ∨ ∃ first comma, list = first ++ [comma] ∧ comma.isMark ',' = true ∧
      Balanced false first [])

namespace Introduces

theorem word {t : Token} (h : t.declaresLocal = true) : Introduces [t] :=
  ⟨t, [], List.suffix_refl _, h, .inl rfl⟩

theorem append_left (h : Introduces front) (ts : List Token) : Introduces (ts ++ front) := by
  obtain ⟨t, list, hsuffix, hlist⟩ := h
  exact ⟨t, list, hsuffix.trans (List.suffix_append _ _), hlist⟩

/-- What is introduced at the front of a list of declarations is introduced behind its first items
too. -/
theorem inList {t comma : Token} (h : Introduces (t :: front)) (ht : t.declaresLocal = true)
    (hcomma : comma.isMark ',' = true) (hfirst : Balanced false first []) :
    Introduces (t :: first ++ comma :: front) := by
  obtain ⟨t', list, hsuffix, ht', hlist⟩ := h
  rcases List.suffix_cons_iff.1 hsuffix with heq | hsuffix
  · cases heq
    refine ⟨t, first ++ comma :: front, List.suffix_refl _, ht, .inr ?_⟩
    rcases hlist with rfl | ⟨first', comma', rfl, hcomma', hfirst'⟩
    · exact ⟨first, comma, rfl, hcomma, hfirst⟩
    · refine ⟨first ++ comma :: first', comma', by simp, hcomma', ?_⟩
      exact (hfirst.append_right (comma :: first')).trans (.mark hcomma (by simp) hfirst')
  · refine ⟨t', list, hsuffix.trans ?_, ht', hlist⟩
    rw [show t :: first ++ comma :: front = (t :: first ++ [comma]) ++ front by simp]
    exact List.suffix_append _ _

end Introduces

def HasSite (lead ts : List Token) (name : String) : Prop :=
  ∃ front t post, ts = front ++ t :: post ∧ t.kind = .variable ∧ t.text = name ∧
    Introduces (lead ++ front)

theorem HasSite.imp (h : HasSite lead ts name)
    (himp : ∀ front, Introduces (lead ++ front) → Introduces (lead' ++ front)) :
    HasSite lead' ts name := by
  obtain ⟨front, t, post, hts, hkind, htext, hfront⟩ := h
  exact ⟨front, t, post, hts, hkind, htext, himp front hfront⟩

theorem HasSite.behind (h : HasSite (lead ++ us) ts name) : HasSite lead (us ++ ts) name := by
  obtain ⟨front, t, post, rfl, hkind, htext, hfront⟩ := h
  exact ⟨us ++ front, t, post, by simp, hkind, htext, by simpa using hfront⟩

-- ---------------------------------------------------------------------------
-- Places
-- ---------------------------------------------------------------------------

namespace Cursor

/-- The second place comes after the first, which has the tokens `lead` behind it, and what was
declared between them has its site in the text. -/
structure Follows (lead : List Token) (c c' : Cursor) : Prop where
  reaches : c.Reaches c'
  sites : ∀ s name, c'.scopes.declares s name = true →
    c.scopes.declares s name = true ∨ HasSite lead c.rest name

namespace Follows

theorem imp (h : Follows lead c c')
    (himp : ∀ front, Introduces (lead ++ front) → Introduces (lead' ++ front)) :
    Follows lead' c c' :=
  ⟨h.reaches, fun s name hd => (h.sites s name hd).imp_right (·.imp himp)⟩

theorem weaken (h : Follows [] c c') : Follows lead c c' :=
  h.imp fun _ hfront => hfront.append_left lead

theorem trans (h : Follows lead c c₁) (hrest : c.rest = us ++ c₁.rest)
    (h' : Follows (lead ++ us) c₁ c₂) :
    Follows lead c c₂ := by
  refine ⟨h.reaches.trans h'.reaches, fun s name hd => ?_⟩
  rcases h'.sites s name hd with hd | hsite
  · exact h.sites s name hd
  · rw [hrest]
    exact .inr hsite.behind

theorem andThen (h : Follows lead c c₁) (h' : Follows [] c₁ c₂) : Follows lead c c₂ := by
  obtain ⟨us, hus⟩ := h.reaches.rest
  exact h.trans hus.symm h'.weaken

theorem refl (c : Cursor) : Follows [] c c := ⟨.refl c, fun _ _ hd => .inl hd⟩

end Follows

theorem follows_before (c : Cursor) (t : Token) : Follows [] (c.before t) c :=
  ⟨reaches_before c t, fun _ _ hd => .inl hd⟩

theorem follows_before? (c : Cursor) (t : Option Token) : Follows [] (c.before? t) c := by
  cases t with
  | none => exact .refl c
  | some t => exact follows_before c t

theorem follows_enter (c : Cursor) (enclosing : List ScopeId) : Follows [] c (c.enter enclosing) :=
  ⟨reaches_enter c enclosing, fun _ _ hd => .inl (by simpa [enter] using hd)⟩

theorem follows_skipSemicolon (c : Cursor) : Follows [] c c.skipSemicolon :=
  ⟨reaches_skipSemicolon c, fun _ _ hd => .inl hd⟩

theorem follows_declare (h : Introduces lead) (hkind : t.kind = .variable) :
    Follows lead (before c t) ((before c t).declare enclosing t.text) := by
  refine ⟨reaches_declare _ _ _, fun s name hd => ?_⟩
  cases enclosing with
  | nil => exact .inl hd
  | cons scope enclosing =>
    rcases ScopeTable.declares_declare.1 hd with hd | ⟨-, rfl, -⟩
    · exact .inl hd
    · exact .inr ⟨[], t, c.rest, rfl, hkind, rfl, by simpa using h⟩

grind_pattern follows_before => before c t
grind_pattern follows_before? => before? c t
grind_pattern follows_enter => enter c enclosing
grind_pattern follows_skipSemicolon => skipSemicolon c

attribute [grind .] Follows.refl
attribute [grind →] Follows.andThen

end Cursor

-- ---------------------------------------------------------------------------
-- What is derived
-- ---------------------------------------------------------------------------

/-- What is declared in a phrase has its site. That of the first name of a list is the word before
it. -/
def Phrase.Declares (c c' : Cursor) : Phrase → Prop
  | .declarations true _ => ∀ t, t.declaresLocal = true → c.Follows [t] c'
  | _ => c.Follows [] c'

theorem Token.declaresLocal_of_value {t : Token} (hkind : t.kind = .keyword)
    (hvalue : t.value = "let" ∨ t.value = "const") : t.declaresLocal = true := by
  rcases hvalue with hvalue | hvalue <;> simp [declaresLocal, isKeyword, hkind, hvalue]

theorem Cursor.Follows.inList (h : Follows [t] c c') (ht : t.declaresLocal = true)
    (hcomma : comma.isMark ',' = true) (hfirst : Balanced false first []) :
    Follows ([t] ++ (first ++ [comma])) c c' :=
  h.imp fun front hfront => by simpa using hfront.inList ht hcomma hfirst

theorem Derives.declares (h : Derives enclosing phrase c c') : phrase.Declares c c' := by
  induction h with
  | @locals _ _ _ c t hkind hvalue _ ih =>
    exact (c.follows_before t).trans rfl (ih t (Token.declaresLocal_of_value hkind hvalue))
  | @declarationsEnd _ _ blockLocal _ _ t hkind _ _ ih =>
    cases blockLocal with
    | false => exact ih
    | true => exact fun word hword => (Cursor.follows_declare (.word hword) hkind).andThen ih
  | @declarationsMore _ _ blockLocal _ _ c c₁ t comma hkind h₁ hcomma _ ih₁ ih₂ =>
    cases blockLocal with
    | false => exact (ih₁.andThen (c₁.follows_before comma)).andThen ih₂
    | true =>
      intro word hword
      obtain ⟨first, hrest, hfirst⟩ := h₁.balances.exists_append
      have hdeclared : Cursor.Follows [word] (c.before t) c₁ :=
        ((Cursor.follows_declare (.word hword) hkind).andThen ih₁).andThen (c₁.follows_before comma)
      have hrest : (c.before t).rest = (first ++ [comma]) ++ c₁.rest := by simpa using hrest
      exact hdeclared.trans hrest ((ih₂ word hword).inList hword hcomma hfirst)
  | @itemsLocal _ _ _ _ _ c t name hkind hvalue hname _ ih =>
    have hdeclared : Cursor.Follows [t] (c.before name) _ :=
      (Cursor.follows_declare (.word (Token.declaresLocal_of_value hkind hvalue)) hname).andThen ih
    exact ((c.before name).follows_before t).trans rfl hdeclared
  | _ => grind [Phrase.Declares]

end ScriptToPhp
