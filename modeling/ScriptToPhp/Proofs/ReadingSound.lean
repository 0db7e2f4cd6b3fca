import ScriptToPhp.Grammar.Script
import ScriptToPhp.Proofs.Derivation

/-!
# Reading is sound

`derives_of_parse`: a script that is read is derived by the grammar from the tokens of its source.
The proof follows the grammar production by production; each lemma reads the success of one
production as the rule it decides. The productions for what is nested are assumed to be sound, and
the bound on nesting is unrolled at the end.
-/

namespace ScriptToPhp

open Parse

namespace Grammar

structure Sound (g : Grammar) : Prop where
  statement {nodes : List Node} : g.statement enclosing s = .ok nodes s' →
    Derives enclosing (.statement nodes) s.cursor s'.cursor
  value : g.value enclosing t s = .ok (some node) s' →
    Derives enclosing (.value node) (s.cursor.before t) s'.cursor
  operand : g.operand enclosing t s = .ok (some node) s' →
    Derives enclosing (.operand node) (s.cursor.before t) s'.cursor

variable {g : Grammar} {s s' : ParseState} {enclosing : List ScopeId} {nodes : List Node}

theorem requireValue_ok (hg : g.Sound) (h : g.requireValue enclosing t s = .ok node s') :
    Derives enclosing (.value node) (s.cursor.before t) s'.cursor := by
  simp only [requireValue, bind_ok] at h
  obtain ⟨o, s₁, hvalue, h⟩ := h
  cases o with
  | none => simp at h
  | some value =>
    simp only [pure_ok] at h
    obtain ⟨rfl, rfl⟩ := h
    exact hg.value hvalue

theorem nextValue_ok (hg : g.Sound) (h : g.nextValue enclosing s = .ok node s') :
    Derives enclosing (.value node) s.cursor s'.cursor := by
  simp only [nextValue, bind_ok] at h
  obtain ⟨o, s₁, hnext, h⟩ := h
  cases o with
  | none => simp at h
  | some t =>
    rw [(next_some hnext).1]
    exact requireValue_ok hg h

-- ---------------------------------------------------------------------------
-- Groups and arrays
-- ---------------------------------------------------------------------------

theorem groupItems_ok (hg : g.Sound)
    (h : g.groupItems enclosing opening bound afterItem s = .ok (items, separator, closing) s') :
    Derives enclosing (.items afterItem items separator closing) s.cursor s'.cursor := by
  induction bound generalizing afterItem s items separator with
  | zero => simp [groupItems] at h
  | succ bound ih =>
    simp only [groupItems, bind_ok] at h
    obtain ⟨o, s₁, hnext, h⟩ := h
    cases o with
    | none => simp at h
    | some t =>
      obtain ⟨hs, -⟩ := next_some hnext
      rw [hs]
      dsimp only at h
      split at h
      next hclose =>
        simp only [pure_ok, Prod.mk.injEq] at h
        obtain ⟨⟨rfl, rfl, rfl⟩, rfl⟩ := h
        exact .itemsEnd hclose
      next =>
        cases afterItem with
        | true =>
          rw [if_pos rfl] at h
          split at h
          next hsemicolon =>
            simp only [bind_ok, pure_ok, Prod.mk.injEq] at h
            obtain ⟨⟨_, _, _⟩, _, hrest, ⟨rfl, rfl, rfl⟩, rfl⟩ := h
            exact .itemsSemicolon hsemicolon (ih hrest)
          next =>
            split at h
            next hcomma => exact .itemsComma hcomma (ih h)
            next => simp at h
        | false =>
          rw [if_neg Bool.false_ne_true] at h
          split at h
          next hlocal =>
            simp only [bind_ok] at h
            obtain ⟨_, s₂, hdeclare, hrest⟩ := h
            obtain ⟨name, c, hs₁, hname, hs₂⟩ := declareNext_ok hdeclare
            simp only [Bool.or_eq_true, Token.isKeyword_iff, ← and_or_left] at hlocal
            rw [hs₁]
            exact .itemsLocal hlocal.1 hlocal.2 hname (hs₂ ▸ ih hrest)
          next =>
            split at h
            next hvar => exact .itemsGlobal hvar (ih h)
            next =>
              simp only [bind_ok, pure_ok, Prod.mk.injEq] at h
              obtain ⟨_, _, hitem, ⟨_, _, _⟩, _, hrest, ⟨rfl, rfl, rfl⟩, rfl⟩ := h
              exact .itemsMore (requireValue_ok hg hitem) (ih hrest)

theorem group_ok {read : Group} (hg : g.Sound)
    (h : g.group enclosing bound opening s = .ok read s') :
    ∃ items separator closing, read = ⟨items, separator, opening.union closing⟩ ∧
      Derives enclosing (.items false items separator closing) s.cursor s'.cursor := by
  simp only [Grammar.group, bind_ok, pure_ok] at h
  obtain ⟨⟨items, separator, closing⟩, _, hitems, rfl, rfl⟩ := h
  exact ⟨items, separator, closing, rfl, groupItems_ok hg hitems⟩

theorem listItems_ok (hg : g.Sound)
    (h : g.listItems enclosing opening bound afterItem s = .ok (items, closing) s') :
    Derives enclosing (.listItems afterItem items closing) s.cursor s'.cursor := by
  induction bound generalizing afterItem s items with
  | zero => simp [listItems] at h
  | succ bound ih =>
    simp only [listItems, bind_ok] at h
    obtain ⟨o, s₁, hnext, h⟩ := h
    cases o with
    | none => simp at h
    | some t =>
      obtain ⟨hs, -⟩ := next_some hnext
      rw [hs]
      dsimp only at h
      split at h
      next hclose =>
        simp only [pure_ok, Prod.mk.injEq] at h
        obtain ⟨⟨rfl, rfl⟩, rfl⟩ := h
        exact .listEnd hclose
      next =>
        cases afterItem with
        | true =>
          rw [if_pos rfl] at h
          split at h
          next hcomma => exact .listComma hcomma (ih h)
          next => simp at h
        | false =>
          rw [if_neg Bool.false_ne_true] at h
          simp only [bind_ok, pure_ok, Prod.mk.injEq] at h
          obtain ⟨_, _, hitem, ⟨_, _⟩, _, hrest, ⟨rfl, rfl⟩, rfl⟩ := h
          exact .listMore (requireValue_ok hg hitem) (ih hrest)

theorem recordEntries_ok (hg : g.Sound)
    (h : g.recordEntries enclosing opening bound afterEntry s = .ok (entries, closing) s') :
    Derives enclosing (.recordEntries afterEntry entries closing) s.cursor s'.cursor := by
  induction bound generalizing afterEntry s entries with
  | zero => simp [recordEntries] at h
  | succ bound ih =>
    simp only [recordEntries, bind_ok] at h
    obtain ⟨o, s₁, hnext, h⟩ := h
    cases o with
    | none => simp at h
    | some t =>
      obtain ⟨hs, -⟩ := next_some hnext
      rw [hs]
      dsimp only at h
      split at h
      next hclose =>
        simp only [pure_ok, Prod.mk.injEq] at h
        obtain ⟨⟨rfl, rfl⟩, rfl⟩ := h
        exact .recordEnd hclose
      next =>
        cases afterEntry with
        | true =>
          rw [if_pos rfl] at h
          split at h
          next hcomma => exact .recordComma hcomma (ih h)
          next => simp at h
        | false =>
          rw [if_neg Bool.false_ne_true] at h
          cases hkey : recordKey? t with
          | none => simp [hkey] at h
          | some key =>
            simp only [hkey, bind_ok] at h
            obtain ⟨o, s₂, hcolon, h⟩ := h
            cases o with
            | none => simp at h
            | some colon =>
              obtain ⟨hs₁, -⟩ := next_some hcolon
              rw [hs₁]
              dsimp only at h
              split at h
              next hmark =>
                simp only [bind_ok, pure_ok, Prod.mk.injEq] at h
                obtain ⟨_, _, hvalue, ⟨_, _⟩, _, hrest, ⟨rfl, rfl⟩, rfl⟩ := h
                exact .recordMore hkey hmark (nextValue_ok hg hvalue) (ih hrest)
              next => simp at h

-- ---------------------------------------------------------------------------
-- Functions
-- ---------------------------------------------------------------------------

theorem delimited_ok (hg : g.Sound)
    (h : g.delimited enclosing opening bound s = .ok (nodes, closing) s') :
    Derives enclosing (.braces nodes closing) s.cursor s'.cursor := by
  induction bound generalizing s nodes with
  | zero => simp [delimited] at h
  | succ bound ih =>
    simp only [delimited, bind_ok] at h
    obtain ⟨o, s₁, hpeek, h⟩ := h
    obtain ⟨ho, hs, -, -⟩ := peek_ok hpeek
    cases o with
    | none => simp at h
    | some t =>
      obtain ⟨c, hc⟩ := Cursor.eq_before_of_head ho.symm
      dsimp only at h
      split at h
      next hclose =>
        simp only [bind_ok, pure_ok, Prod.mk.injEq] at h
        obtain ⟨_, _, hskip, ⟨rfl, rfl⟩, rfl⟩ := h
        obtain ⟨rfl, -⟩ := skip_ok hskip (hs.trans hc)
        rw [hc]
        exact .bracesEnd hclose
      next hopen =>
        simp only [bind_ok, pure_ok, Prod.mk.injEq] at h
        obtain ⟨_, _, hfirst, ⟨_, _⟩, _, hrest, ⟨rfl, rfl⟩, rfl⟩ := h
        refine .bracesMore ?_ (hs ▸ hg.statement hfirst) (ih hrest)
        simpa [hc, Cursor.nextIs] using hopen

theorem functionName_ok (h : functionName s = .ok name s') :
    ∃ t? : Option Token, name = t?.map (·.text) ∧ (∀ t ∈ t?, t.kind = .variable) ∧
      s.cursor = s'.cursor.before? t? := by
  simp only [functionName, bind_ok] at h
  obtain ⟨b, s₁, hnext, h⟩ := h
  obtain ⟨rfl, hs, -⟩ := nextIs_ok hnext
  split at h
  next hb =>
    obtain ⟨t, c, hc, ht⟩ := Cursor.eq_before_of_nextIs hb
    simp only [bind_ok, pure_ok] at h
    obtain ⟨o, _, hname, rfl, rfl⟩ := h
    cases o with
    | none =>
      have hrest := next_none hname
      simp [hs, hc] at hrest
    | some u =>
      have hu := hs.symm.trans (next_some hname).1
      obtain ⟨rfl, rfl⟩ := Cursor.before_inj.1 (hc.symm.trans hu)
      exact ⟨some t, rfl, by simpa using ht, hu⟩
  next =>
    simp only [pure_ok] at h
    obtain ⟨rfl, rfl⟩ := h
    exact ⟨none, rfl, by simp, hs.symm⟩

theorem functionLiteral_ok (hg : g.Sound)
    (h : g.functionLiteral enclosing bound keyword s = .ok node s') :
    Derives enclosing (.function keyword node) s.cursor s'.cursor := by
  simp only [functionLiteral, bind_ok, pure_ok] at h
  obtain ⟨_, s₁, hname, opening, s₂, hopening, parameters, s₃, hgroup, _, s₄, hscope,
    brace, s₅, hbrace, ⟨body, closing⟩, s₆, hbody, _, s₇, hnote, rfl, rfl⟩ := h
  obtain ⟨t?, rfl, hkind, hs⟩ := functionName_ok hname
  obtain ⟨hs₁, hopening⟩ := expectMark_ok hopening
  obtain ⟨items, separator, stop, rfl, hitems⟩ := group_ok hg hgroup
  obtain ⟨rfl, hs₄, -⟩ := openScope_ok hscope
  obtain ⟨hs₅, hbrace⟩ := expectMark_ok hbrace
  obtain ⟨c, hs₃, hs₅⟩ := Cursor.eq_before_of_enter (hs₄.symm.trans hs₅)
  rw [hs₃] at hitems hbody
  rw [hs, hs₁, hs₃, note_ok hnote]
  simp only [Cursor.before_scopes] at hbody ⊢
  exact .function hkind hopening hitems hbrace (hs₅ ▸ delimited_ok hg hbody)

theorem lambda_ok (hg : g.Sound) (hlast : s.last = some arrow)
    (h : g.lambda enclosing bound parameters s = .ok node s') :
    Derives enclosing (.lambda arrow.span parameters node) s.cursor s'.cursor := by
  simp only [Grammar.lambda, bind_ok] at h
  obtain ⟨_, s₁, hscope, b, s₂, hmark, h⟩ := h
  obtain ⟨rfl, hs₁, hlast₁⟩ := openScope_ok hscope
  obtain ⟨rfl, hs₂, hlast₂⟩ := nextIsMark_ok hmark
  split at h
  next =>
    simp only [bind_ok, pure_ok] at h
    obtain ⟨brace, s₃, hbrace, ⟨body, closing⟩, _, hbody, rfl, rfl⟩ := h
    obtain ⟨hs₃, hbrace⟩ := expectMark_ok hbrace
    obtain ⟨c, hs, hc⟩ := Cursor.eq_before_of_enter (hs₁.symm.trans (hs₂.symm.trans hs₃))
    rw [hs] at hbody ⊢
    simp only [Cursor.before_scopes] at hbody ⊢
    exact .lambdaBraces hbrace (hc ▸ delimited_ok hg hbody)
  next hb =>
    simp only [bind_ok, pure_ok] at h
    obtain ⟨_, _, hspan, value, s₃, hvalue, _, _, hreturn, rfl, rfl⟩ := h
    obtain ⟨rfl, rfl⟩ := lastSpan_ok hspan
    obtain ⟨rfl, hs₄, -⟩ := openScope_ok hreturn
    have hvalue := nextValue_ok hg hvalue
    rw [hs₂, hs₁] at hvalue
    rw [hs₄, ParseState.lastSpan, hlast₂, hlast₁, hlast]
    refine .lambdaValue ?_ hvalue
    simpa [hs₁, Cursor.nextIs] using hb

theorem parentheses_ok (hg : g.Sound) (hmark : opening.isMark '(' = true)
    (h : g.parentheses enclosing bound opening.span s = .ok node s') :
    Derives enclosing (.operand node) (s.cursor.before opening) s'.cursor := by
  simp only [parentheses, bind_ok] at h
  obtain ⟨_, s₁, hgroup, b, s₂, hnext, h⟩ := h
  obtain ⟨items, separator, closing, rfl, hitems⟩ := group_ok hg hgroup
  obtain ⟨rfl, hs₂, -⟩ := nextIs_ok hnext
  split at h
  next hb =>
    obtain ⟨arrow, c, hc, harrow⟩ := Cursor.eq_before_of_nextIs hb
    simp only [bind_ok] at h
    obtain ⟨_, s₃, hskip, h⟩ := h
    obtain ⟨rfl, hlast⟩ := skip_ok hskip (hs₂.trans hc)
    rw [hc] at hitems
    exact .groupArrow hmark hitems (by simpa using harrow) (lambda_ok hg hlast h)
  next hb =>
    simp only [pure_ok] at h
    obtain ⟨rfl, rfl⟩ := h
    rw [hs₂]
    exact .group hmark hitems (by simpa using hb)

-- ---------------------------------------------------------------------------
-- Variables
-- ---------------------------------------------------------------------------

theorem accesses_ok (hg : g.Sound) (h : g.accesses enclosing bound span s = .ok (chain, whole) s') :
    Derives enclosing (.accesses span chain whole) s.cursor s'.cursor := by
  induction bound generalizing s span chain with
  | zero => simp [accesses] at h
  | succ bound ih =>
    simp only [accesses, bind_ok] at h
    obtain ⟨b, s₁, hpoint, h⟩ := h
    obtain ⟨rfl, hs₁, -⟩ := nextIsMark_ok hpoint
    split at h
    next hb =>
      obtain ⟨point, c, hc, hmark⟩ := Cursor.eq_before_of_nextIs hb
      simp only [bind_ok] at h
      obtain ⟨_, s₂, hskip, o, s₃, hname, h⟩ := h
      obtain ⟨rfl, -⟩ := skip_ok hskip (hs₁.trans hc)
      cases o with
      | none => simp at h
      | some t =>
        obtain ⟨hs₂, -⟩ := next_some hname
        dsimp only at h
        split at h
        next hproperty =>
          simp only [bind_ok, pure_ok, Prod.mk.injEq] at h
          obtain ⟨⟨_, _⟩, _, hrest, ⟨rfl, rfl⟩, rfl⟩ := h
          rw [hc, hs₂]
          exact .property hmark hproperty (ih hrest)
        next => simp at h
    next hb =>
      simp only [bind_ok] at h
      obtain ⟨b, s₂, hbracket, h⟩ := h
      obtain ⟨rfl, hs₂, -⟩ := nextIsMark_ok hbracket
      split at h
      next =>
        simp only [bind_ok, pure_ok, Prod.mk.injEq] at h
        obtain ⟨opening, s₃, hopening, index, s₄, hindex, closing, s₅, hclosing, ⟨_, _⟩, _,
          hrest, ⟨rfl, rfl⟩, rfl⟩ := h
        obtain ⟨hs₃, hopening⟩ := expectMark_ok hopening
        obtain ⟨hs₄, hclosing⟩ := expectClosing_ok hclosing
        have hindex := nextValue_ok hg hindex
        rw [hs₄] at hindex
        rw [← hs₁, ← hs₂, hs₃]
        exact .index hopening hindex hclosing (ih hrest)
      next hb₂ =>
        simp only [pure_ok, Prod.mk.injEq] at h
        obtain ⟨⟨rfl, rfl⟩, rfl⟩ := h
        rw [hs₁] at hb₂
        rw [hs₂, hs₁]
        exact .accessesEnd (by simpa using hb) (by simpa using hb₂)

theorem access_ok (hg : g.Sound) (hkind : t.kind = .variable)
    (h : g.access enclosing bound t s = .ok node s') :
    Derives enclosing (.operand node) (s.cursor.before t) s'.cursor := by
  simp only [access, bind_ok] at h
  obtain ⟨⟨chain, span⟩, s₁, hchain, b, s₂, hnext, h⟩ := h
  have hchain := accesses_ok hg hchain
  obtain ⟨rfl, hs₂, -⟩ := nextIs_ok hnext
  split at h
  next hb =>
    obtain ⟨arrow, c, hc, harrow⟩ := Cursor.eq_before_of_nextIs hb
    simp only [bind_ok] at h
    obtain ⟨_, s₃, hskip, _, _, hresolve, h⟩ := h
    obtain ⟨rfl, hlast⟩ := skip_ok hskip (hs₂.trans hc)
    obtain ⟨rfl, rfl⟩ := resolve_ok hresolve
    rw [hc] at hchain
    exact .nameArrow hkind hchain (by simpa using harrow) (lambda_ok hg hlast h)
  next hb =>
    simp only [bind_ok, pure_ok] at h
    obtain ⟨_, _, hresolve, rfl, rfl⟩ := h
    obtain ⟨rfl, rfl⟩ := resolve_ok hresolve
    rw [hs₂]
    exact .name hkind hchain (by simpa using hb)

-- ---------------------------------------------------------------------------
-- Operators
-- ---------------------------------------------------------------------------

theorem requireAssignable_ok (h : requireAssignable node s = .ok u s') :
    node.isAssignable = true ∧ s' = s := by
  unfold requireAssignable at h
  split at h
  next hnode =>
    simp only [pure_ok] at h
    exact ⟨hnode, h.2.symm⟩
  next => simp at h

theorem assignment_ok (h : assignment op target right s = .ok node s') :
    target.isAssignable = true ∧ node = .mkAssign op target right ∧ s' = s := by
  simp only [assignment, bind_ok, pure_ok] at h
  obtain ⟨_, _, hrequire, rfl, rfl⟩ := h
  obtain ⟨htarget, rfl⟩ := requireAssignable_ok hrequire
  exact ⟨htarget, rfl, rfl⟩

theorem call_ok (hg : g.Sound) (h : g.call enclosing bound callee s = .ok node s') :
    ∃ opening arguments separator closing c, opening.isMark '(' = true ∧
    s.cursor = Cursor.before c opening ∧
      node = .mkCall callee arguments (opening.span.union closing) ∧
      Derives enclosing (.items false arguments separator closing) c s'.cursor := by
  simp only [Grammar.call, bind_ok, pure_ok] at h
  obtain ⟨opening, s₁, hopening, _, _, hgroup, rfl, rfl⟩ := h
  obtain ⟨hs, hmark⟩ := expectMark_ok hopening
  obtain ⟨items, separator, closing, rfl, hitems⟩ := group_ok hg hgroup
  exact ⟨opening, items, separator, closing, s₁.cursor, hmark, hs, rfl, hitems⟩

theorem calls_ok (hg : g.Sound) (h : g.calls enclosing bound callee s = .ok node s') :
    Derives enclosing (.calls callee node) s.cursor s'.cursor := by
  induction bound generalizing s callee with
  | zero => simp [calls] at h
  | succ bound ih =>
    simp only [calls, bind_ok] at h
    obtain ⟨b, s₁, hmark, h⟩ := h
    obtain ⟨rfl, hs₁, -⟩ := nextIsMark_ok hmark
    split at h
    next =>
      simp only [bind_ok] at h
      obtain ⟨_, s₂, hcall, hrest⟩ := h
      obtain ⟨opening, arguments, separator, closing, c, hopening, hc, rfl, hitems⟩ :=
        call_ok hg hcall
      rw [← hs₁, hc]
      exact .callsMore hopening hitems (ih hrest)
    next hb =>
      simp only [pure_ok] at h
      obtain ⟨rfl, rfl⟩ := h
      rw [hs₁]
      exact .callsEnd (by simpa using hb)

theorem leadingUnary_ok (hg : g.Sound) (hkind : op.kind = .operator)
    (hleading : isLeadingOperator op.value = true)
    (h : g.leadingUnary enclosing bound op s = .ok node s') :
    Derives enclosing (.operand node) (s.cursor.before op) s'.cursor := by
  simp only [leadingUnary, bind_ok] at h
  obtain ⟨o, s₁, hnext, h⟩ := h
  cases o with
  | none => simp at h
  | some t =>
    simp only [bind_ok] at h
    obtain ⟨o, s₂, hoperand, h⟩ := h
    cases o with
    | none => simp at h
    | some callee =>
      simp only [bind_ok] at h
      obtain ⟨operand, s₃, hcalls, h⟩ := h
      have hoperand := hg.operand hoperand
      rw [← (next_some hnext).1] at hoperand
      split at h
      next =>
        simp only [bind_ok, pure_ok] at h
        obtain ⟨_, _, hrequire, rfl, rfl⟩ := h
        obtain ⟨hassignable, rfl⟩ := requireAssignable_ok hrequire
        exact .leading hkind hleading hoperand (calls_ok hg hcalls) fun _ => hassignable
      next hstep =>
        simp only [pure_ok] at h
        obtain ⟨rfl, rfl⟩ := h
        exact .leading hkind hleading hoperand (calls_ok hg hcalls) fun h => absurd h hstep

theorem ternary_ok (hg : g.Sound) (h : g.ternary enclosing condition s = .ok node s') :
    ∃ whenTrue whenFalse colon c, colon.isMark ':' = true ∧
    node = .mkTernary condition whenTrue whenFalse ∧
      Derives enclosing (.value whenTrue) s.cursor (Cursor.before c colon) ∧
      Derives enclosing (.value whenFalse) c s'.cursor := by
  simp only [Grammar.ternary, bind_ok] at h
  obtain ⟨_, _, hspan, o, s₁, hnext, h⟩ := h
  obtain ⟨-, rfl⟩ := lastSpan_ok hspan
  cases o with
  | none => simp at h
  | some t =>
    simp only [bind_ok] at h
    obtain ⟨whenTrue, s₂, hwhenTrue, o, s₃, hcolon, h⟩ := h
    have hwhenTrue := requireValue_ok hg hwhenTrue
    rw [← (next_some hnext).1] at hwhenTrue
    cases o with
    | none => simp at h
    | some colon =>
      dsimp only at h
      split at h
      next hmark =>
        simp only [bind_ok] at h
        obtain ⟨o, s₄, hnext₂, h⟩ := h
        cases o with
        | none => simp at h
        | some u =>
          simp only [bind_ok, pure_ok] at h
          obtain ⟨whenFalse, _, hwhenFalse, rfl, rfl⟩ := h
          have hwhenFalse := requireValue_ok hg hwhenFalse
          rw [← (next_some hnext₂).1] at hwhenFalse
          rw [(next_some hcolon).1] at hwhenTrue
          exact ⟨whenTrue, whenFalse, colon, s₃.cursor, hmark, rfl, hwhenTrue, hwhenFalse⟩
      next => simp at h

theorem continuations_ok (hg : g.Sound)
    (h : g.continuations enclosing bound front s = .ok node s') :
    Derives enclosing (.continuation front node) s.cursor s'.cursor := by
  induction bound generalizing s front with
  | zero => simp [continuations] at h
  | succ bound ih =>
    simp only [continuations, bind_ok] at h
    obtain ⟨o, s₁, hpeek, h⟩ := h
    obtain ⟨ho, hs₁, -, -⟩ := peek_ok hpeek
    cases o with
    | none =>
      simp only [pure_ok] at h
      obtain ⟨rfl, rfl⟩ := h
      rw [hs₁]
      exact .continuationEnd (by rw [← ho]; rfl)
    | some t =>
      obtain ⟨c, hc⟩ := Cursor.eq_before_of_head ho.symm
      have hend : t.endsValue = true → (pure front : Parse Node) s₁ = .ok node s' →
          Derives enclosing (.continuation front node) s.cursor s'.cursor := by
        intro hends h
        simp only [pure_ok] at h
        obtain ⟨rfl, rfl⟩ := h
        rw [hs₁]
        exact .continuationEnd (by rw [← ho]; exact hends)
      dsimp only at h
      split at h
      next hstarts =>
        split at h
        next hnewline => exact hend (by simp [Token.endsValue, hstarts, hnewline]) h
        next =>
          simp only [bind_ok] at h
          obtain ⟨_, _, _, h⟩ := h
          simp at h
      next hstarts =>
        split at h
        next hquestion =>
          simp only [bind_ok] at h
          obtain ⟨_, s₂, hskip, _, s₃, hternary, hrest⟩ := h
          obtain ⟨rfl, -⟩ := skip_ok hskip (hs₁.trans hc)
          obtain ⟨_, _, colon, c', hcolon, rfl, hwhenTrue, hwhenFalse⟩ := ternary_ok hg hternary
          rw [hc]
          exact .ternary hquestion hwhenTrue hcolon hwhenFalse (ih hrest)
        next hquestion =>
          split at h
          next =>
            simp only [bind_ok] at h
            obtain ⟨_, s₂, hcall, hrest⟩ := h
            obtain ⟨opening, arguments, separator, closing, c', hopening, hc', rfl, hitems⟩ :=
              call_ok hg hcall
            rw [← hs₁, hc']
            exact .call hopening hitems (ih hrest)
          next hcall =>
            split at h
            next hkind =>
              exact hend (by simp [Token.endsValue, hstarts, hquestion, hcall, hkind]) h
            next hkind =>
              have hkind : t.kind = .operator := by simpa using hkind
              split at h
              next hstep =>
                split at h
                next hnewline =>
                  exact hend (by simp [Token.endsValue, hstarts, hquestion, hcall, hstep, hnewline])
                    h
                next hnewline =>
                  simp only [bind_ok, pure_ok] at h
                  obtain ⟨_, s₂, hskip, _, _, hrequire, rfl, rfl⟩ := h
                  obtain ⟨rfl, -⟩ := skip_ok hskip (hs₁.trans hc)
                  obtain ⟨hassignable, rfl⟩ := requireAssignable_ok hrequire
                  rw [hc]
                  exact .trailing hkind hstep (by simpa using hnewline) hassignable
              next hstep =>
                simp only [bind_ok] at h
                obtain ⟨_, s₂, hskip, right, s₃, hright, h⟩ := h
                obtain ⟨rfl, -⟩ := skip_ok hskip (hs₁.trans hc)
                have hright := nextValue_ok hg hright
                rw [hc]
                split at h
                next hassign =>
                  simp only [bind_ok] at h
                  obtain ⟨_, _, hassignment, hrest⟩ := h
                  obtain ⟨htarget, rfl, rfl⟩ := assignment_ok hassignment
                  exact .assign hassign hright htarget (ih hrest)
                next hassign =>
                  refine .binary ?_ hright (ih h)
                  simp [startsValue] at hstarts
                  simp [Token.isOperator, hkind] at hquestion
                  simp [Token.isAssignment, hkind] at hassign
                  simp [Token.isInfix, hkind, hstarts, hquestion, hstep, hassign]

theorem operandOf_ok (hg : g.Sound) (h : g.operandOf enclosing bound t s = .ok (some node) s') :
    Derives enclosing (.operand node) (s.cursor.before t) s'.cursor := by
  unfold operandOf at h
  cases hkind : t.kind with
  | function =>
    simp only [hkind, bind_ok, pure_ok, Option.some.injEq] at h
    obtain ⟨_, _, hfunction, rfl, rfl⟩ := h
    exact .functionLiteral hkind (functionLiteral_ok hg hfunction)
  | punctuation =>
    simp only [hkind] at h
    split at h
    next hmark =>
      simp only [bind_ok, pure_ok, Option.some.injEq] at h
      obtain ⟨_, _, hgroup, rfl, rfl⟩ := h
      exact parentheses_ok hg hmark hgroup
    next =>
      split at h
      next hmark =>
        simp only [bind_ok, pure_ok, Option.some.injEq] at h
        obtain ⟨⟨items, closing⟩, _, hitems, rfl, rfl⟩ := h
        exact .list hmark (listItems_ok hg hitems)
      next =>
        split at h
        next hmark =>
          simp only [bind_ok, pure_ok, Option.some.injEq] at h
          obtain ⟨⟨entries, closing⟩, _, hentries, rfl, rfl⟩ := h
          exact .record hmark (recordEntries_ok hg hentries)
        next => simp [pure_ok] at h
  | operator =>
    simp only [hkind] at h
    split at h
    next hleading =>
      simp only [bind_ok, pure_ok, Option.some.injEq] at h
      obtain ⟨_, _, hunary, rfl, rfl⟩ := h
      exact leadingUnary_ok hg hkind hleading hunary
    next => simp [pure_ok] at h
  | «variable» =>
    simp only [hkind, bind_ok, pure_ok, Option.some.injEq] at h
    obtain ⟨_, _, haccess, rfl, rfl⟩ := h
    exact access_ok hg hkind haccess
  | constant | number | string =>
    simp only [hkind, pure_ok, Option.some.injEq] at h
    obtain ⟨rfl, rfl⟩ := h
    exact .literal (by simp [Token.literal?, hkind])
  | comment | newline | keyword | lambda => simp [hkind, pure_ok] at h

theorem valueOf_ok (hg : g.Sound) (h : g.valueOf enclosing bound t s = .ok (some node) s') :
    Derives enclosing (.value node) (s.cursor.before t) s'.cursor := by
  simp only [valueOf, bind_ok] at h
  obtain ⟨o, s₁, hoperand, h⟩ := h
  cases o with
  | none => simp [pure_ok] at h
  | some front =>
    simp only [bind_ok, pure_ok, Option.some.injEq] at h
    obtain ⟨_, _, hrest, rfl, rfl⟩ := h
    exact .value (operandOf_ok hg hoperand) (continuations_ok hg hrest)

-- ---------------------------------------------------------------------------
-- Statements
-- ---------------------------------------------------------------------------

theorem requireVariable_ok (h : requireVariable s = .ok u s') :
    s.cursor.nextIs (·.kind == .variable) = true ∧ s'.cursor = s.cursor := by
  simp only [requireVariable, bind_ok] at h
  obtain ⟨b, s₁, hnext, h⟩ := h
  obtain ⟨rfl, hs₁, -⟩ := nextIs_ok hnext
  split at h
  next => simp at h
  next hb =>
    simp only [pure_ok] at h
    obtain ⟨-, rfl⟩ := h
    exact ⟨by simpa using hb, hs₁⟩

theorem declarationName_ok (h : declarationName enclosing blockLocal s = .ok u s') :
    ∃ (t : Token) (c : Cursor), s.cursor = c.before t ∧ t.kind = .variable ∧
      s'.cursor = (c.before t).introduce blockLocal enclosing t.text := by
  cases blockLocal with
  | true => exact declareNext_ok h
  | false =>
    obtain ⟨hb, hs⟩ := requireVariable_ok h
    obtain ⟨t, c, hc, ht⟩ := Cursor.eq_before_of_nextIs hb
    exact ⟨t, c, hc, by simpa using ht, hs.trans hc⟩

theorem declared_ok (h : declared blockLocal node s = .ok nodes s') :
    nodes = node.declared blockLocal ∧ s' = s := by
  unfold declared at h
  split at h
  next v =>
    simp only [Node.declared]
    split at h
    next hbare =>
      split at h
      next hlocal =>
        simp only [bind_ok, pure_ok] at h
        obtain ⟨_, _, hassign, rfl, rfl⟩ := h
        obtain ⟨-, rfl, rfl⟩ := assignment_ok hassign
        simp [hbare, hlocal]
      next hlocal =>
        simp only [pure_ok] at h
        simp [hbare, hlocal, h]
    next hbare =>
      simp only [pure_ok] at h
      simp [hbare, h]
  next value hvalue =>
    simp only [pure_ok] at h
    obtain ⟨rfl, rfl⟩ := h
    exact ⟨by cases node <;> simp_all [Node.declared], rfl⟩

theorem declarations_ok (hg : g.Sound)
    (h : g.declarations enclosing blockLocal bound s = .ok nodes s') :
    Derives enclosing (.declarations blockLocal nodes) s.cursor s'.cursor := by
  induction bound generalizing s nodes with
  | zero => simp [declarations] at h
  | succ bound ih =>
    simp only [declarations, bind_ok] at h
    obtain ⟨_, s₁, hname, value, s₂, hvalue, _, _, hdeclared, b, s₃, hcomma, h⟩ := h
    obtain ⟨t, c, hc, ht, hs₁⟩ := declarationName_ok hname
    have hvalue := nextValue_ok hg hvalue
    obtain ⟨rfl, rfl⟩ := declared_ok hdeclared
    obtain ⟨rfl, hs₃, -⟩ := nextIsMark_ok hcomma
    rw [hc]
    rw [hs₁] at hvalue
    split at h
    next hb =>
      obtain ⟨comma, c₁, hc₁, hmark⟩ := Cursor.eq_before_of_nextIs hb
      simp only [bind_ok, pure_ok] at h
      obtain ⟨_, s₄, hskip, _, _, hrest, rfl, rfl⟩ := h
      obtain ⟨rfl, -⟩ := skip_ok hskip (hs₃.trans hc₁)
      rw [hc₁] at hvalue
      exact .declarationsMore ht hvalue hmark (ih hrest)
    next hb =>
      simp only [pure_ok] at h
      obtain ⟨rfl, rfl⟩ := h
      rw [hs₃]
      exact .declarationsEnd ht hvalue (by simpa using hb)

-- ---------------------------------------------------------------------------
-- Blocks
-- ---------------------------------------------------------------------------

theorem header_ok (hg : g.Sound) (h : g.header enclosing bound policy block s = .ok headed s') :
    ∃ header, headed = block.withHeader? header ∧
      Derives enclosing (.header policy header) s.cursor s'.cursor := by
  simp only [Grammar.header, bind_ok] at h
  obtain ⟨b, s₁, hmark, h⟩ := h
  obtain ⟨rfl, hs₁, -⟩ := nextIsMark_ok hmark
  split at h
  next =>
    simp only [bind_ok] at h
    obtain ⟨opening, s₂, hopening, h⟩ := h
    obtain ⟨hs₂, hmark⟩ := expectMark_ok hopening
    split at h
    next => simp at h
    next hpolicy =>
      simp only [bind_ok, pure_ok] at h
      obtain ⟨_, _, hgroup, rfl, rfl⟩ := h
      obtain ⟨items, separator, closing, rfl, hitems⟩ := group_ok hg hgroup
      rw [← hs₁, hs₂]
      exact ⟨some _, rfl, .header (by simpa using hpolicy) hmark hitems⟩
  next hb =>
    split at h
    next =>
      simp only [bind_ok] at h
      obtain ⟨o, _, _, h⟩ := h
      cases o <;> simp [bind_ok] at h
    next hpolicy =>
      simp only [pure_ok] at h
      obtain ⟨rfl, rfl⟩ := h
      rw [hs₁]
      exact ⟨none, rfl, .noHeader (by simpa using hpolicy) (by simpa using hb)⟩

theorem elseBranches_ok {all : List Node} (hg : g.Sound)
    (h : g.elseBranches enclosing bound nodes s = .ok all s') :
    Derives enclosing (.elseBranches nodes all) s.cursor s'.cursor := by
  induction bound generalizing s nodes with
  | zero => simp [elseBranches] at h
  | succ bound ih =>
    unfold elseBranches at h
    split at h
    next hif =>
      simp only [bind_ok] at h
      obtain ⟨b, s₁, hnext, h⟩ := h
      obtain ⟨rfl, hs₁, -⟩ := nextIs_ok hnext
      split at h
      next hb =>
        simp only [bind_ok] at h
        obtain ⟨branch, s₂, hbranch, _, s₃, hsemicolon, hrest⟩ := h
        have hbranch := hg.statement hbranch
        rw [hs₁] at hbranch
        exact .elseBranch hif hb hbranch (skipSemicolon_ok hsemicolon ▸ ih hrest)
      next hb =>
        simp only [pure_ok] at h
        obtain ⟨rfl, rfl⟩ := h
        rw [hs₁]
        exact .noElse (by simp [hb])
    next hif =>
      simp only [pure_ok] at h
      obtain ⟨rfl, rfl⟩ := h
      exact .noElse (by simp [hif])

theorem body_ok (hg : g.Sound) (h : g.body enclosing bound block s = .ok filled s') :
    ∃ statements closing, filled = block.withBody statements closing ∧
      Derives enclosing (.body statements closing) s.cursor s'.cursor := by
  simp only [Grammar.body, bind_ok] at h
  obtain ⟨b, s₁, hmark, h⟩ := h
  obtain ⟨rfl, hs₁, -⟩ := nextIsMark_ok hmark
  split at h
  next =>
    simp only [bind_ok, pure_ok] at h
    obtain ⟨opening, s₂, hopening, ⟨statements, closing⟩, _, hbody, rfl, rfl⟩ := h
    obtain ⟨hs₂, hmark⟩ := expectMark_ok hopening
    rw [← hs₁, hs₂]
    exact ⟨statements, some closing, rfl, .bodyBraces hmark (delimited_ok hg hbody)⟩
  next hb =>
    simp only [bind_ok, pure_ok] at h
    obtain ⟨first, s₂, hfirst, _, s₃, hsemicolon, all, _, helse, rfl, rfl⟩ := h
    have hfirst := hg.statement hfirst
    rw [hs₁] at hfirst
    exact ⟨all, none, rfl, .bodyStatement (by simpa using hb) hfirst
      (skipSemicolon_ok hsemicolon ▸ elseBranches_ok hg helse)⟩

theorem loopCondition_ok (hg : g.Sound)
    (h : g.loopCondition enclosing bound block s = .ok headed s') :
    ∃ header, headed = block.withHeader? header ∧
      Derives enclosing (.loopCondition header) s.cursor s'.cursor := by
  simp only [Grammar.loopCondition, bind_ok] at h
  obtain ⟨b, s₁, hnext, h⟩ := h
  obtain ⟨rfl, hs₁, -⟩ := nextIs_ok hnext
  split at h
  next hb =>
    obtain ⟨word, c, hc, hword⟩ := Cursor.eq_before_of_nextIs hb
    simp only [bind_ok, pure_ok] at h
    obtain ⟨_, s₂, hskip, opening, s₃, hopening, _, _, hgroup, rfl, rfl⟩ := h
    obtain ⟨rfl, -⟩ := skip_ok hskip (hs₁.trans hc)
    obtain ⟨hs₃, hmark⟩ := expectMark_ok hopening
    obtain ⟨items, separator, closing, rfl, hitems⟩ := group_ok hg hgroup
    rw [hc, hs₃]
    exact ⟨some _, rfl, .condition hword hmark hitems⟩
  next hb =>
    simp only [pure_ok] at h
    obtain ⟨rfl, rfl⟩ := h
    rw [hs₁]
    exact ⟨none, rfl, .noCondition (by simpa using hb)⟩

theorem eq_of_header_forbidden {c c' : Cursor} {found : Option Node}
    (h : Derives enclosing (.header .forbidden found) c c') :
    found = none ∧ c' = c ∧ c.nextIs (·.isMark '(') = false := by
  cases h with
  | noHeader _ hb => exact ⟨rfl, rfl, hb⟩
  | header hpolicy => exact absurd rfl hpolicy

theorem keywordBlock_ok (hg : g.Sound) (h : g.keywordBlock enclosing bound t s = .ok node s') :
    ∃ b, node = .block b ∧ Derives enclosing (.block t b) s.cursor s'.cursor := by
  simp only [keywordBlock, bind_ok, pure_ok] at h
  obtain ⟨_, s₁, hscope, block, s₂, hrest, _, _, hnote, rfl, rfl⟩ := h
  obtain ⟨rfl, hs₁, -⟩ := openScope_ok hscope
  refine ⟨block, rfl, ?_⟩
  rw [note_ok hnote]
  unfold blockRest at hrest
  -- The scope is open before anything behind the keyword is read: `hs₁` moves every part behind the
  -- opening.
  cases hshape : BlockShape.ofKeyword t.value with
  | jump =>
    simp only [hshape, jumpValue, bind_ok] at hrest
    obtain ⟨b, s₃, hnext, h⟩ := hrest
    obtain ⟨rfl, hs₃, -⟩ := nextIs_ok hnext
    rw [hs₁] at h hs₃
    split at h
    next hb =>
      simp only [bind_ok, pure_ok] at h
      obtain ⟨_, _, hvalue, rfl, rfl⟩ := h
      exact .jumpValue hshape hb (hs₃ ▸ nextValue_ok hg hvalue)
    next hb =>
      simp only [pure_ok] at h
      obtain ⟨rfl, rfl⟩ := h
      rw [hs₃]
      exact .jump hshape (eq_false_of_ne_true hb)
  | caseLabel =>
    simp only [hshape, Grammar.caseLabel, bind_ok] at hrest
    obtain ⟨b, s₃, hnext, h⟩ := hrest
    obtain ⟨rfl, hs₃, -⟩ := nextIs_ok hnext
    rw [hs₁] at h hs₃
    split at h
    next => simp at h
    next hb =>
      simp only [bind_ok] at h
      obtain ⟨value, s₄, hvalue, o, s₅, hcolon, h⟩ := h
      have hvalue := nextValue_ok hg hvalue
      rw [hs₃] at hvalue
      cases o with
      | none =>
        simp only [bind_ok] at h
        obtain ⟨_, _, _, h⟩ := h
        simp at h
      | some colon =>
        dsimp only at h
        split at h
        next hmark =>
          simp only [pure_ok] at h
          obtain ⟨rfl, rfl⟩ := h
          rw [(next_some hcolon).1] at hvalue
          exact .caseLabel hshape (by simpa [Cursor.nextIs] using hb) hvalue hmark
        next => simp at h
  | defaultLabel =>
    simp only [hshape, Grammar.defaultLabel, bind_ok] at hrest
    obtain ⟨o, s₃, hcolon, h⟩ := hrest
    cases o with
    | none => simp at h
    | some colon =>
      dsimp only at h
      split at h
      next hmark =>
        simp only [pure_ok] at h
        obtain ⟨rfl, rfl⟩ := h
        -- Only the colon is behind the keyword, and it was still ahead when the scope was opened.
        obtain ⟨c, hs, hc⟩ := Cursor.eq_before_of_enter (hs₁.symm.trans (next_some hcolon).1)
        rw [hs, hc, Cursor.before_scopes]
        exact .defaultLabel hshape hmark
      next => simp at h
  | headed policy =>
    simp only [hshape, bind_ok] at hrest
    obtain ⟨_, s₃, hread, hrest⟩ := hrest
    obtain ⟨header, rfl, hheader⟩ := header_ok hg hread
    obtain ⟨statements, closing, rfl, hbody⟩ := body_ok hg hrest
    exact .headed hshape (hs₁ ▸ hheader) hbody
  | doLoop =>
    simp only [hshape, bind_ok] at hrest
    obtain ⟨_, s₃, hread, _, s₄, hloop, htest⟩ := hrest
    obtain ⟨_, rfl, hheader⟩ := header_ok hg hread
    obtain ⟨statements, closing, rfl, hbody⟩ := body_ok hg hloop
    obtain ⟨header, rfl, hcondition⟩ := loopCondition_ok hg htest
    obtain ⟨rfl, hs₃, hb⟩ := eq_of_header_forbidden hheader
    rw [hs₁] at hb hs₃
    exact .doLoop hshape hb (hs₃ ▸ hbody) hcondition

theorem valueStatement_ok (hg : g.Sound) (h : g.valueStatement enclosing bound t s = .ok nodes s') :
    ∃ node, nodes = [node] ∧ Derives enclosing (.value node) (s.cursor.before t) s'.cursor := by
  simp only [valueStatement, bind_ok] at h
  obtain ⟨o, s₁, hvalue, h⟩ := h
  cases o with
  | none => simp at h
  | some value =>
    simp only [pure_ok] at h
    obtain ⟨rfl, rfl⟩ := h
    exact ⟨value, rfl, valueOf_ok hg hvalue⟩

theorem statementOf_ok (hg : g.Sound) (h : g.statementOf enclosing bound s = .ok nodes s') :
    Derives enclosing (.statement nodes) s.cursor s'.cursor := by
  simp only [statementOf, bind_ok] at h
  obtain ⟨o, s₁, hnext, h⟩ := h
  cases o with
  | none => simp at h
  | some t =>
    rw [(next_some hnext).1]
    dsimp only at h
    split at h
    next hmark =>
      simp only [pure_ok] at h
      obtain ⟨rfl, rfl⟩ := h
      exact .empty hmark
    next hmark =>
      simp only [Bool.not_eq_true] at hmark
      split at h
      next hkind =>
        have hkind : t.kind = .keyword := by simpa using hkind
        split at h
        next hlocal => exact .locals hkind (by simpa using hlocal) (declarations_ok hg h)
        next hlocal =>
          split at h
          next hvar =>
            exact .globals (Token.isKeyword_iff.2 ⟨hkind, by simpa using hvar⟩)
              (declarations_ok hg h)
          next hvar =>
            simp only [bind_ok, pure_ok] at h
            obtain ⟨_, _, hread, rfl, rfl⟩ := h
            obtain ⟨b, rfl, hblock⟩ := keywordBlock_ok hg hread
            exact .keyword hkind (by simp_all) hblock
      next hkind =>
        have hkind : t.kind ≠ .keyword := by simpa using hkind
        split at h
        next hfunction =>
          have hfunction : t.kind = .function := by simpa using hfunction
          simp only [bind_ok] at h
          obtain ⟨b, s₂, hname, h⟩ := h
          obtain ⟨rfl, hs₂, -⟩ := nextIs_ok hname
          split at h
          next hb =>
            simp only [bind_ok, pure_ok] at h
            obtain ⟨_, _, hliteral, rfl, rfl⟩ := h
            exact .named hfunction hb (hs₂ ▸ functionLiteral_ok hg hliteral)
          next hb =>
            obtain ⟨node, rfl, hvalue⟩ := valueStatement_ok hg h
            exact .expression hmark hkind (fun _ => by simpa using hb) (hs₂ ▸ hvalue)
        next hfunction =>
          obtain ⟨node, rfl, hvalue⟩ := valueStatement_ok hg h
          exact .expression hmark hkind (fun h => absurd h (by simpa using hfunction)) hvalue

-- ---------------------------------------------------------------------------
-- Scripts
-- ---------------------------------------------------------------------------

/-- The productions are sound at every bound: each level is built from the one below it. -/
theorem upTo_sound : ∀ bound, (upTo bound).Sound
  | 0 => ⟨fun h => by simp [upTo] at h, fun h => by simp [upTo] at h, fun h => by simp [upTo] at h⟩
  | bound + 1 =>
    have hg := upTo_sound bound
    ⟨statementOf_ok hg, valueOf_ok hg, operandOf_ok hg⟩

theorem statements_ok (hg : g.Sound) (h : g.statements enclosing bound s = .ok nodes s') :
    Derives enclosing (.script nodes) s.cursor s'.cursor := by
  induction bound generalizing s nodes with
  | zero => simp [Grammar.statements] at h
  | succ bound ih =>
    simp only [Grammar.statements, bind_ok] at h
    obtain ⟨o, s₁, hpeek, h⟩ := h
    obtain ⟨ho, hs₁, -, hfault⟩ := peek_ok hpeek
    cases o with
    | none =>
      simp only [pure_ok] at h
      obtain ⟨rfl, rfl⟩ := h
      rw [hs₁]
      exact .scriptEnd (by simpa using ho.symm) (hfault rfl)
    | some t =>
      dsimp only at h
      split at h
      next => simp at h
      next hmark =>
        simp only [bind_ok, pure_ok] at h
        obtain ⟨first, s₂, hfirst, _, _, hrest, rfl, rfl⟩ := h
        refine .scriptMore ?_ (hs₁ ▸ hg.statement hfirst) (ih hrest)
        simpa [Cursor.nextIs, ← ho] using hmark

end Grammar

namespace Script

open Grammar

/-- The place at the front of a source's tokens. The scope of the script as a whole is opened. -/
def start (options : Options) (source : Source) : Cursor :=
  let scan := source.scan options.reserved
  (⟨Token.meaningful scan.tokens, scan.fault, .empty⟩ : Cursor).enter []

theorem root?_ok {label : String} (h : root? label size bound s = .ok script s') :
    ∃ statements, Derives [s.cursor.scopes.size] (.script statements)
    (s.cursor.enter []) s'.cursor ∧
      script.scopes = s'.cursor.scopes ∧
      script.root = (Block.ofKind .main s.cursor.scopes.size ⟨0, size⟩).append statements := by
  simp only [root?, bind_ok, pure_ok] at h
  obtain ⟨_, s₁, hscope, statements, s₂, hread, _, _, hget, _, s₃, hnote, rfl, rfl⟩ := h
  cases hget
  obtain ⟨rfl, hs₁, -⟩ := openScope_ok hscope
  have hread := statements_ok (upTo_sound bound) hread
  refine ⟨statements, ?_, ?_, rfl⟩
  · rw [note_ok hnote, ← hs₁]
    exact hread
  · rw [note_ok hnote]
    rfl

/-- A script that was read is a root block over the statements that its tokens derive. -/
theorem derives_of_parse {options : Options} {source : Source} {script : Script}
    (h : parse options source = .ok script) :
    ∃ statements c, Derives [0] (.script statements) (start options source) c ∧
    script.scopes = c.scopes ∧
      script.root = (Block.ofKind .main 0 ⟨0, source.size⟩).append statements := by
  unfold parse Reading.result read ofTokens at h
  dsimp only at h
  split at h
  next read hread =>
    cases h
    split at hread
    next hrun =>
      cases hread
      obtain ⟨statements, hderives, hscopes, hroot⟩ := root?_ok hrun
      exact ⟨statements, _, hderives, hscopes, hroot⟩
    next => cases hread
  next => cases h
  next => cases h

theorem exists_of_any_parse {options : Options} {source : Source}
    (h : (parse options source).toOption.any holds = true) :
    ∃ script, parse options source = .ok script ∧ holds script = true := by
  cases hparse : parse options source with
  | error fault => simp [hparse, Except.toOption] at h
  | ok script => exact ⟨script, rfl, by simpa [hparse, Except.toOption] using h⟩

end Script

end ScriptToPhp
