import ScriptToPhp.Grammar.Statement

/-!
# Steps that succeed

What a step of reading did, read off its success. A state is looked at through its `cursor`: the
tokens that are left, the fault behind them and the scopes. What was noted on the way does not
decide anything.
-/

namespace ScriptToPhp

theorem eq_ok_of_toOption {x : Except ε α} (h : x.toOption = some a) : x = .ok a := by
  cases x with
  | error e => cases h
  | ok b =>
    cases h
    rfl

structure Cursor where
  rest : List Token
  fault : Option Fault
  scopes : ScopeTable

namespace Cursor

def before (c : Cursor) (t : Token) : Cursor := { c with rest := t :: c.rest }

def enter (c : Cursor) (enclosing : List ScopeId) : Cursor :=
  { c with scopes := (c.scopes.extend enclosing.head?).2 }

def declare (c : Cursor) (enclosing : List ScopeId) (name : String) : Cursor :=
  { c with scopes := match enclosing with
      | [] => c.scopes
      | scope :: _ => c.scopes.declare scope name }

def nextIs (c : Cursor) (p : Token → Bool) : Bool := c.rest.head?.any p

def skipSemicolon (c : Cursor) : Cursor :=
  { c with rest := if c.nextIs (·.isMark ';') then c.rest.tail else c.rest }

theorem before_inj : before c t = before c' t' ↔ c = c' ∧ t = t' := by
  cases c
  cases c'
  simp only [before, mk.injEq, List.cons.injEq]
  constructor
  · rintro ⟨⟨ht, hrest⟩, h⟩; exact ⟨⟨hrest, h⟩, ht⟩
  · rintro ⟨⟨hrest, h⟩, ht⟩; exact ⟨⟨ht, hrest⟩, h⟩

@[simp] theorem before_rest : (before c t).rest = t :: c.rest := rfl
@[simp, grind =] theorem before_scopes : (before c t).scopes = c.scopes := rfl
@[simp] theorem enter_rest : (enter c enclosing).rest = c.rest := rfl
@[simp, grind =] theorem skipSemicolon_scopes : (skipSemicolon c).scopes = c.scopes := rfl

theorem eq_before_of_head {c : Cursor} (h : c.rest.head? = some t) : ∃ c', c = before c' t := by
  obtain ⟨rest, fault, scopes⟩ := c
  cases rest with
  | nil => simp at h
  | cons u rest =>
    cases h
    exact ⟨⟨rest, fault, scopes⟩, rfl⟩

theorem eq_before_of_nextIs {c : Cursor} (h : c.nextIs p = true) :
    ∃ t c', c = before c' t ∧ p t = true := by
  cases hhead : c.rest.head? with
  | none => simp [nextIs, hhead] at h
  | some t =>
    obtain ⟨c', rfl⟩ := eq_before_of_head hhead
    exact ⟨t, c', rfl, h⟩

/-- Opening a scope and consuming a token can change places. -/
theorem eq_before_of_enter {c c' : Cursor} (h : c.enter enclosing = c'.before t) :
    ∃ c₁, c = before c₁ t ∧ c' = enter c₁ enclosing := by
  obtain ⟨rest, fault, scopes⟩ := c
  obtain ⟨rest', fault', scopes'⟩ := c'
  simp only [enter, before, mk.injEq] at h
  obtain ⟨rfl, rfl, rfl⟩ := h
  exact ⟨⟨rest', fault, scopes⟩, rfl, rfl⟩

theorem skipSemicolon_cases (c : Cursor) :
    c.skipSemicolon = c ∨ ∃ t, t.isMark ';' = true ∧ c = c.skipSemicolon.before t := by
  obtain ⟨rest, fault, scopes⟩ := c
  cases rest with
  | nil => exact .inl rfl
  | cons t rest =>
    cases ht : t.isMark ';' with
    | false => exact .inl (by simp [skipSemicolon, nextIs, ht])
    | true => exact .inr ⟨t, ht, by simp [skipSemicolon, nextIs, before, ht]⟩

end Cursor

/-- The part of a state that decides how reading goes on. -/
def ParseState.cursor (s : ParseState) : Cursor := ⟨s.rest, s.fault, s.scopes⟩

namespace Parse

variable {s s' : ParseState}

-- ---------------------------------------------------------------------------
-- The monad
-- ---------------------------------------------------------------------------

theorem bind_ok {x : Parse α} {f : α → Parse β} :
    (x >>= f) s = .ok b s' ↔ ∃ a s₁, x s = .ok a s₁ ∧ f a s₁ = .ok b s' := by
  show EStateM.bind x f s = _ ↔ _
  unfold EStateM.bind
  cases x s with
  | ok a s₁ =>
    constructor
    · intro h; exact ⟨a, s₁, rfl, h⟩
    · rintro ⟨_, _, hx, h⟩; cases hx; exact h
  | error => simp

theorem pure_ok : (pure a : Parse α) s = .ok b s' ↔ a = b ∧ s = s' := by
  show EStateM.Result.ok a s = _ ↔ _
  simp

@[simp] theorem fail_ok : (fail message arguments span : Parse α) s = .ok b s' ↔ False :=
  ⟨fun h => (nomatch h), fun h => h.elim⟩

@[simp] theorem exhausted_ok : (exhausted : Parse α) s = .ok b s' ↔ False :=
  ⟨fun h => (nomatch h), fun h => h.elim⟩

@[simp] theorem unexpected_ok : (unexpected t : Parse α) s = .ok b s' ↔ False := by
  simp [unexpected]

@[simp] theorem unexpectedEnd_ok : (unexpectedEnd expected : Parse α) s = .ok b s' ↔ False := by
  simp [unexpectedEnd, bind_ok]

@[simp] theorem valueExpected_ok : (valueExpected : Parse α) s = .ok b s' ↔ False := by
  simp [valueExpected, bind_ok]

@[simp] theorem refuseNext_ok : (refuseNext expected : Parse α) s = .ok b s' ↔ False := by
  simp only [refuseNext, bind_ok, iff_false]
  rintro ⟨t, s₁, _, h⟩
  cases t <;> simp at h

-- ---------------------------------------------------------------------------
-- Tokens
-- ---------------------------------------------------------------------------

@[simp] theorem noteToken_cursor : (s.noteToken t).cursor = s.cursor := by
  unfold ParseState.noteToken; split <;> rfl

@[simp] theorem noteToken_last : (s.noteToken t).last = s.last := by
  unfold ParseState.noteToken; split <;> rfl

theorem next_some (h : next s = .ok (some t) s') :
    s.cursor = s'.cursor.before t ∧ s'.last = some t := by
  unfold next at h
  split at h
  · rename_i u us hrest
    cases h
    have hnote := noteToken_cursor (s := s) (t := t)
    simp only [ParseState.cursor, Cursor.mk.injEq] at hnote
    simp [ParseState.cursor, Cursor.before, hrest, hnote.2.1, hnote.2.2]
  · split at h <;> cases h

theorem next_none (h : next s = .ok none s') : s.cursor.rest = [] := by
  unfold next at h
  split at h
  · cases h
  · rename_i hrest
    split at h
    · cases h
    · exact hrest

theorem peek_ok (h : peek s = .ok o s') :
    o = s.cursor.rest.head? ∧ s'.cursor = s.cursor ∧ s'.last = s.last ∧
      (o = none → s.cursor.fault = none) := by
  unfold peek at h
  split at h
  · rename_i t ts hrest
    cases h
    exact ⟨by simp [ParseState.cursor, hrest], noteToken_cursor, noteToken_last, nofun⟩
  · rename_i hrest
    split at h
    · cases h
    · rename_i hfault
      cases h
      exact ⟨by simp [ParseState.cursor, hrest], rfl, rfl, fun _ => hfault⟩

theorem skip_ok {c : Cursor} (h : skip s = .ok u s') (hn : s.cursor = c.before t) :
    s'.cursor = c ∧ s'.last = some t := by
  simp only [skip, bind_ok, pure_ok] at h
  obtain ⟨o, s₁, hnext, -, rfl⟩ := h
  cases o with
  | none =>
    have hrest := next_none hnext
    simp [hn] at hrest
  | some t' =>
    obtain ⟨hs, hlast⟩ := next_some hnext
    obtain ⟨rfl, rfl⟩ := Cursor.before_inj.1 (hs.symm.trans hn)
    exact ⟨rfl, hlast⟩

theorem nextIs_ok (h : nextIs p s = .ok b s') :
    b = s.cursor.nextIs p ∧ s'.cursor = s.cursor ∧ s'.last = s.last := by
  simp only [nextIs, bind_ok, pure_ok] at h
  obtain ⟨o, s₁, hpeek, rfl, rfl⟩ := h
  obtain ⟨rfl, hs, hlast, -⟩ := peek_ok hpeek
  exact ⟨rfl, hs, hlast⟩

theorem nextIsMark_ok (h : nextIsMark c s = .ok b s') :
    b = s.cursor.nextIs (·.isMark c) ∧ s'.cursor = s.cursor ∧ s'.last = s.last :=
  nextIs_ok h

theorem expectMark_ok (h : expectMark c s = .ok t s') :
    s.cursor = s'.cursor.before t ∧ t.isMark c = true := by
  simp only [expectMark, bind_ok] at h
  obtain ⟨o, s₁, hnext, h⟩ := h
  cases o with
  | none => simp at h
  | some u =>
    dsimp only at h
    split at h
    · rename_i hu
      simp only [pure_ok] at h
      obtain ⟨rfl, rfl⟩ := h
      exact ⟨(next_some hnext).1, hu⟩
    · simp at h

theorem expectClosing_ok (h : expectClosing c unclosed opening s = .ok t s') :
    s.cursor = s'.cursor.before t ∧ t.isMark c = true := by
  simp only [expectClosing, bind_ok] at h
  obtain ⟨o, s₁, hnext, h⟩ := h
  cases o with
  | none => simp at h
  | some u =>
    dsimp only at h
    split at h
    · rename_i hu
      simp only [pure_ok] at h
      obtain ⟨rfl, rfl⟩ := h
      exact ⟨(next_some hnext).1, hu⟩
    · simp at h

theorem skipSemicolon_ok (h : skipSemicolon s = .ok u s') :
    s'.cursor = s.cursor.skipSemicolon := by
  simp only [skipSemicolon, bind_ok] at h
  obtain ⟨b, s₁, hmark, h⟩ := h
  obtain ⟨rfl, hs, -⟩ := nextIsMark_ok hmark
  split at h
  · rename_i hb
    obtain ⟨t, c, hc, -⟩ := Cursor.eq_before_of_nextIs hb
    obtain ⟨rfl, -⟩ := skip_ok h (hs.trans hc)
    rw [hc] at hb ⊢
    simp only [Cursor.skipSemicolon, hb, if_true, Cursor.before_rest, List.tail_cons]
    rfl
  · rename_i hb
    simp only [pure_ok] at h
    obtain ⟨-, rfl⟩ := h
    rw [hs]
    simp [Cursor.skipSemicolon, hb]

-- ---------------------------------------------------------------------------
-- Scopes and notes
-- ---------------------------------------------------------------------------

theorem openScope_ok (h : openScope enclosing s = .ok scope s') :
    scope = s.cursor.scopes.size ∧ s'.cursor = s.cursor.enter enclosing ∧ s'.last = s.last := by
  unfold openScope at h
  cases h
  exact ⟨rfl, rfl, rfl⟩

theorem resolve_ok (h : resolve enclosing name s = .ok scope s') :
    scope = s.cursor.scopes.resolve enclosing name ∧ s' = s := by
  unfold resolve at h
  cases h
  exact ⟨rfl, rfl⟩

theorem note_ok (h : note event s = .ok u s') : s'.cursor = s.cursor := by
  unfold note at h
  cases h
  rfl

theorem lastSpan_ok (h : lastSpan s = .ok span s') : span = s.lastSpan ∧ s' = s := by
  unfold lastSpan at h
  cases h
  exact ⟨rfl, rfl⟩

theorem declareNext_ok (h : declareNext enclosing s = .ok u s') :
    ∃ (t : Token) (c : Cursor), s.cursor = c.before t ∧ t.kind = .variable ∧
      s'.cursor = (c.before t).declare enclosing t.text := by
  simp only [declareNext, bind_ok] at h
  obtain ⟨o, s₁, hpeek, h⟩ := h
  obtain ⟨rfl, hs, -, -⟩ := peek_ok hpeek
  cases hhead : s.cursor.rest.head? with
  | none => simp [hhead] at h
  | some t =>
    rw [hhead] at h
    dsimp only at h
    split at h
    · rename_i hkind
      obtain ⟨c, hc⟩ := Cursor.eq_before_of_head hhead
      refine ⟨t, c, hc, by simpa using hkind, ?_⟩
      rw [← hc, ← hs]
      unfold declare at h
      cases enclosing <;> cases h <;> rfl
    · simp at h

end Parse

end ScriptToPhp
