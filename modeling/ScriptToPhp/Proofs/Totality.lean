import ScriptToPhp.Proofs.Scanning
import ScriptToPhp.Proofs.Unplaced

/-!
# Reading ends on every text

The bound on nesting and repetition decides nothing: any two bounds above the number of tokens left
give the same outcome, and neither is reached. What carries the proof is that every nested or
repeated step comes behind a consumed token.
-/

namespace ScriptToPhp

namespace Parse

/-- How a step from `s` may end: with at least `k` tokens consumed, or with a fault. -/
def Ends (k : Nat) (s : ParseState) : EStateM.Result Halt ParseState α → Prop
  | .ok _ s' => s'.rest.length + k ≤ s.rest.length
  | .error halt _ => halt ≠ .exhausted

/-- Where fewer than `n` tokens are left, the two steps end alike, and if they succeed they have
consumed at least `k` tokens. -/
def Settles (k n : Nat) (x y : Parse α) : Prop :=
  ∀ s, s.rest.length < n → x s = y s ∧ Ends k s (x s)

-- ---------------------------------------------------------------------------
-- Steps in sequence
-- ---------------------------------------------------------------------------

section

variable {x y : Parse α} {f f' : α → Parse β}

theorem Settles.mono (h : Settles k n x y) (hm : m ≤ n) : Settles k m x y :=
  fun s hs => h s (Nat.lt_of_lt_of_le hs hm)

theorem Settles.weaken (h : Settles 1 n x y) : Settles 0 n x y := by
  intro s hs
  obtain ⟨heq, hends⟩ := h s hs
  refine ⟨heq, ?_⟩
  cases hstep : x s with
  | ok a s' =>
    have hleft : s'.rest.length + 1 ≤ s.rest.length := by rwa [hstep] at hends
    exact Nat.le_trans (Nat.le_succ _) hleft
  | error halt s' => rwa [hstep] at hends

theorem Settles.of_le_zero (h : n ≤ 0) : Settles k n x y := fun _ hs => absurd hs (by omega)

theorem Settles.of_ends (h : ∀ s, Ends k s (x s)) : Settles k n x x := fun s _ => ⟨rfl, h s⟩

theorem Settles.pure (a : α) : Settles 0 n (pure a) (pure a) := .of_ends fun _ => Nat.le_refl _

theorem Settles.ite {c : Prop} [Decidable c] {x' y' : Parse α} (h : Settles k n x y)
    (h' : Settles k n x' y') :
    Settles k n (if c then x else x') (if c then y else y') := by
  split
  · exact h
  · exact h'

/-- What comes behind a step has the tokens that the step has left. -/
theorem Settles.seq (hx : Settles j n x y) (hf : ∀ a, Settles k (n - j) (f a) (f' a))
    (hi : i ≤ j + k) :
    Settles i n (x >>= f) (y >>= f') := by
  intro s hs
  show EStateM.bind x f s = EStateM.bind y f' s ∧ Ends i s (EStateM.bind x f s)
  unfold EStateM.bind
  obtain ⟨heq, hends⟩ := hx s hs
  rw [← heq]
  cases hstep : x s with
  | error halt s' =>
    rw [hstep] at hends
    exact ⟨rfl, hends⟩
  | ok a s' =>
    have hleft : s'.rest.length + j ≤ s.rest.length := by rwa [hstep] at hends
    obtain ⟨heq, hends⟩ := hf a s' (by omega)
    refine ⟨heq, ?_⟩
    dsimp only
    cases hnext : f a s' with
    | error halt s'' => rwa [hnext] at hends
    | ok b s'' =>
      have hleft' : s''.rest.length + k ≤ s'.rest.length := by rwa [hnext] at hends
      show s''.rest.length + i ≤ s.rest.length
      omega

theorem Settles.bind (hx : Settles 0 n x y) (hf : ∀ a, Settles k n (f a) (f' a)) :
    Settles k n (x >>= f) (y >>= f') := hx.seq hf (by omega)

/-- A step that consumes a token makes room for what comes behind it. -/
theorem Settles.advance (hx : Settles 1 n x y) (hf : ∀ a, Settles 0 (n - 1) (f a) (f' a)) :
    Settles 0 n (x >>= f) (y >>= f') := hx.seq hf (Nat.zero_le _)

end

-- ---------------------------------------------------------------------------
-- Primitive steps
-- ---------------------------------------------------------------------------

section

variable {α : Type}

theorem rest_noteToken (s : ParseState) (t : Token) : (s.noteToken t).rest = s.rest :=
  congrArg Cursor.rest (noteToken_cursor (s := s) (t := t))

theorem settles_fail : Settles k n (fail message arguments span : Parse α)
    (fail message arguments span) :=
  .of_ends fun _ h => by cases h

theorem settles_unexpected : Settles k n (unexpected t : Parse α) (unexpected t) := settles_fail

theorem settles_unexpectedEnd :
    Settles k n (unexpectedEnd expected : Parse α) (unexpectedEnd expected) :=
  .of_ends fun _ h => by cases h

theorem settles_valueExpected : Settles k n (valueExpected : Parse α) valueExpected :=
  .of_ends fun _ h => by cases h

theorem settles_peek : Settles 0 n peek peek := by
  refine .of_ends fun s => ?_
  unfold peek
  split
  · rename_i t ts hrest
    show (s.noteToken t).rest.length + 0 ≤ s.rest.length
    rw [rest_noteToken]
    omega
  · split
    · exact fun h => by cases h
    · exact Nat.le_refl _

theorem Settles.next {f f' : Option Token → Parse α} (hnone : Settles k n (f none) (f' none))
    (hsome : ∀ t, Settles (k - 1) (n - 1) (f (some t)) (f' (some t))) :
    Settles k n (next >>= f) (next >>= f') := by
  intro s hs
  show EStateM.bind _ f s = EStateM.bind _ f' s ∧ Ends k s (EStateM.bind _ f s)
  unfold EStateM.bind Parse.next
  cases hrest : s.rest with
  | nil =>
    cases hfault : s.fault with
    | some fault => exact ⟨rfl, fun h => by cases h⟩
    | none => exact hnone s hs
  | cons t ts =>
    have hlength : s.rest.length = ts.length + 1 := by rw [hrest, List.length_cons]
    obtain ⟨heq, hends⟩ := hsome t { s.noteToken t with rest := ts, last := some t, noted := false }
      (show ts.length < n - 1 by omega)
    refine ⟨heq, ?_⟩
    dsimp only
    cases hstep : f (some t) { s.noteToken t with rest := ts, last := some t, noted := false } with
    | error halt s' => rwa [hstep] at hends
    | ok a s' =>
      have hleft : s'.rest.length + (k - 1) ≤ ts.length := by rwa [hstep] at hends
      show s'.rest.length + k ≤ s.rest.length
      omega

theorem settles_refuseNext : Settles k n (refuseNext expected : Parse α) (refuseNext expected) :=
  .next settles_unexpectedEnd fun _ => settles_unexpected

theorem settles_skip : Settles 0 n skip skip := .next (.pure ()) fun _ => .pure ()

theorem settles_nextIs : Settles 0 n (nextIs p) (nextIs p) := .bind settles_peek fun _ => .pure _

theorem settles_nextIsMark : Settles 0 n (nextIsMark c) (nextIsMark c) := settles_nextIs

theorem settles_lastSpan : Settles 0 n lastSpan lastSpan := .of_ends fun _ => Nat.le_refl _

theorem settles_endSpan : Settles 0 n endSpan endSpan := .of_ends fun _ => Nat.le_refl _

theorem settles_note : Settles 0 n (note event) (note event) := .of_ends fun _ => Nat.le_refl _

theorem settles_get : Settles 0 n get get := .of_ends fun _ => Nat.le_refl _

theorem settles_openScope : Settles 0 n (openScope enclosing) (openScope enclosing) :=
  .of_ends fun _ => Nat.le_refl _

theorem settles_resolve : Settles 0 n (resolve enclosing name) (resolve enclosing name) :=
  .of_ends fun _ => Nat.le_refl _

theorem settles_declare : Settles 0 n (declare enclosing name) (declare enclosing name) := by
  cases enclosing with
  | nil => exact .pure ()
  | cons scope enclosing => exact .of_ends fun _ => Nat.le_refl _

theorem settles_declareNext : Settles 0 n (declareNext enclosing) (declareNext enclosing) := by
  refine .bind settles_peek fun o => ?_
  cases o with
  | none => exact settles_refuseNext
  | some t => exact .ite settles_declare settles_refuseNext

theorem settles_expectMark : Settles 1 n (expectMark c) (expectMark c) :=
  .next settles_unexpectedEnd fun t => .ite (.pure t) settles_fail

theorem settles_expectClosing :
    Settles 1 n (expectClosing c unclosed opening) (expectClosing c unclosed opening) :=
  .next settles_fail fun t => .ite (.pure t) settles_unexpected

theorem settles_skipSemicolon : Settles 0 n skipSemicolon skipSemicolon :=
  .bind settles_nextIsMark fun _ => .ite settles_skip (.pure ())

end

/-- A production that repeats, under two bounds: each repetition may rely on the following ones
where one token less is left. -/
theorem Settles.loop {x y : Nat → ι → Parse α}
    (step : ∀ m b b', m ≤ n → m ≤ b + 1 → m ≤ b' + 1 → (∀ i, Settles 0 (m - 1) (x b i) (y b' i)) →
      ∀ i, Settles 0 m (x (b + 1) i) (y (b' + 1) i))
    (hb : n ≤ bound) (hb' : n ≤ bound') (i : ι) : Settles 0 n (x bound i) (y bound' i) := by
  have run : ∀ bound bound' m, m ≤ n → m ≤ bound → m ≤ bound' →
      ∀ i, Settles 0 m (x bound i) (y bound' i) := by
    intro bound
    induction bound with
    | zero => exact fun _ _ _ hb _ _ => .of_le_zero hb
    | succ b ih =>
      intro bound' m hm hb hb'
      cases bound' with
      | zero => exact fun _ => .of_le_zero hb'
      | succ b' => exact step m b b' hm hb hb' (ih b' (m - 1) (by omega) (by omega) (by omega))
  exact run bound bound' n (Nat.le_refl _) hb hb' i

end Parse

-- ---------------------------------------------------------------------------
-- Productions
-- ---------------------------------------------------------------------------

namespace Grammar

open Parse

/-- The productions for nested parts end alike where fewer than `n` tokens are left, and a statement
consumes one. -/
structure Agrees (n : Nat) (g g' : Grammar) : Prop where
  statement : Settles 1 n (g.statement enclosing) (g'.statement enclosing)
  value : Settles 0 n (g.value enclosing t) (g'.value enclosing t)
  operand : Settles 0 n (g.operand enclosing t) (g'.operand enclosing t)

theorem Agrees.mono (hg : Agrees n g g') (h : m ≤ n) : Agrees m g g' :=
  ⟨hg.statement.mono h, hg.value.mono h, hg.operand.mono h⟩

variable {g g' : Grammar} {enclosing : List ScopeId}

theorem Agrees.requireValue (hg : Agrees n g g') (t : Token) :
    Settles 0 n (g.requireValue enclosing t) (g'.requireValue enclosing t) := by
  refine .bind hg.value fun o => ?_
  cases o with
  | none => exact settles_unexpected
  | some value => exact .pure value

theorem Agrees.nextValue (hg : Agrees (n - 1) g g') :
    Settles 1 n (g.nextValue enclosing) (g'.nextValue enclosing) :=
  .next settles_valueExpected fun t => hg.requireValue t

-- ---------------------------------------------------------------------------
-- Groups and arrays
-- ---------------------------------------------------------------------------

theorem Agrees.groupItems (hg : Agrees (n - 1) g g') (hb : n ≤ bound) (hb' : n ≤ bound')
    (opening : Span) (afterItem : Bool) :
    Settles 0 n (g.groupItems enclosing opening bound afterItem)
    (g'.groupItems enclosing opening bound' afterItem) := by
  refine .loop (fun m b b' hm _ _ ih afterItem => ?_) hb hb' afterItem
  refine .next settles_fail fun t => ?_
  refine .ite (.pure _) (.ite ?_ (.ite ?_ (.ite (ih false) ?_)))
  · exact .ite (.bind (ih false) fun _ => .pure _) (.ite (ih false) settles_unexpected)
  · exact .bind settles_declareNext fun _ => ih false
  · exact .bind ((hg.mono (by omega)).requireValue t) fun _ => .bind (ih true) fun _ => .pure _

theorem Agrees.group (hg : Agrees (n - 1) g g') (hb : n ≤ bound) (hb' : n ≤ bound')
    (opening : Span) :
    Settles 0 n (g.group enclosing bound opening) (g'.group enclosing bound' opening) :=
  .bind (hg.groupItems hb hb' opening false) fun _ => .pure _

theorem Agrees.nextGroup (hg : Agrees (n - 1) g g') (hb : n ≤ bound + 1) (hb' : n ≤ bound' + 1)
    {f f' : Group → Parse α} (hf : ∀ group, Settles 0 (n - 1) (f group) (f' group)) :
    Settles 1 n (do f (← g.group enclosing bound (← expectMark '(').span))
      (do f' (← g'.group enclosing bound' (← expectMark '(').span)) := by
  refine settles_expectMark.seq (k := 0) (fun opening => ?_) (Nat.le_refl 1)
  exact .bind ((hg.mono (by omega)).group (by omega) (by omega) opening.span) hf

theorem Agrees.listItems (hg : Agrees (n - 1) g g') (hb : n ≤ bound) (hb' : n ≤ bound')
    (opening : Span) (afterItem : Bool) :
    Settles 0 n (g.listItems enclosing opening bound afterItem)
    (g'.listItems enclosing opening bound' afterItem) := by
  refine .loop (fun m b b' hm _ _ ih afterItem => ?_) hb hb' afterItem
  refine .next settles_fail fun t => ?_
  refine .ite (.pure _) (.ite (.ite (ih false) settles_unexpected) ?_)
  exact .bind ((hg.mono (by omega)).requireValue t) fun _ => .bind (ih true) fun _ => .pure _

theorem Agrees.recordEntries (hg : Agrees (n - 1) g g') (hb : n ≤ bound) (hb' : n ≤ bound')
    (opening : Span) (afterEntry : Bool) :
    Settles 0 n (g.recordEntries enclosing opening bound afterEntry)
      (g'.recordEntries enclosing opening bound' afterEntry) := by
  refine .loop (fun m b b' hm _ _ ih afterEntry => ?_) hb hb' afterEntry
  refine .next settles_fail fun t => ?_
  refine .ite (.pure _) (.ite (.ite (ih false) settles_unexpected) ?_)
  dsimp only
  cases recordKey? t with
  | none => exact settles_unexpected
  | some key =>
    refine .next settles_fail fun colon => .ite ?_ settles_unexpected
    refine .advance (hg.mono (by omega)).nextValue fun _ => ?_
    exact .bind ((ih true).mono (by omega)) fun _ => .pure _

-- ---------------------------------------------------------------------------
-- Functions
-- ---------------------------------------------------------------------------

theorem Agrees.delimited (hg : Agrees n g g') (hb : n ≤ bound) (hb' : n ≤ bound') (opening : Span) :
    Settles 0 n (g.delimited enclosing opening bound) (g'.delimited enclosing opening bound') := by
  refine .loop (x := fun b (_ : Unit) => g.delimited enclosing opening b)
    (y := fun b _ => g'.delimited enclosing opening b) (fun m b b' hm _ _ ih _ => ?_) hb hb' ()
  refine .bind settles_peek fun o => ?_
  cases o with
  | none => exact settles_fail
  | some t =>
    refine .ite (.bind settles_skip fun _ => .pure _) ?_
    exact .advance (hg.mono hm).statement (fun _ => .bind (ih ()) fun _ => .pure _)

theorem Agrees.nextDelimited (hg : Agrees (n - 1) g g') (hb : n ≤ bound + 1) (hb' : n ≤ bound' + 1)
    {f f' : List Node × Span → Parse α} (hf : ∀ body, Settles 0 (n - 1) (f body) (f' body)) :
    Settles 0 n (do f (← g.delimited enclosing (← expectMark '\x7b').span bound))
      (do f' (← g'.delimited enclosing (← expectMark '\x7b').span bound')) := by
  refine .advance settles_expectMark fun opening => ?_
  exact .bind (hg.delimited (by omega) (by omega) opening.span) hf

theorem settles_functionName : Settles 0 n functionName functionName := by
  refine .bind settles_nextIs fun _ => .ite ?_ (.pure _)
  exact .next (.pure _) fun _ => .pure _

theorem Agrees.functionLiteral (hg : Agrees (n - 1) g g') (hb : n ≤ bound) (hb' : n ≤ bound')
    (keyword : Token) :
    Settles 0 n (g.functionLiteral enclosing bound keyword)
    (g'.functionLiteral enclosing bound' keyword) := by
  refine .bind settles_functionName fun name => ?_
  refine .advance settles_expectMark fun opening => ?_
  refine .bind ((hg.mono (by omega)).group (by omega) (by omega) _) fun parameters => ?_
  refine .bind settles_openScope fun scope => ?_
  refine (hg.mono (by omega)).nextDelimited (by omega) (by omega) fun body => ?_
  exact .bind settles_note fun _ => .pure _

theorem Agrees.lambda (hg : Agrees (n - 1) g g') (hb : n ≤ bound) (hb' : n ≤ bound')
    (parameters : Group) :
    Settles 0 n (g.lambda enclosing bound parameters) (g'.lambda enclosing bound' parameters) := by
  refine .bind settles_openScope fun scope => .bind settles_nextIsMark fun _ => .ite ?_ ?_
  · exact hg.nextDelimited (by omega) (by omega) fun body => .pure _
  · refine .bind settles_lastSpan fun arrow => .advance hg.nextValue fun value => ?_
    exact .bind settles_openScope fun _ => .pure _

theorem Agrees.parentheses (hg : Agrees (n - 1) g g') (hb : n ≤ bound) (hb' : n ≤ bound')
    (opening : Span) :
    Settles 0 n (g.parentheses enclosing bound opening)
    (g'.parentheses enclosing bound' opening) := by
  refine .bind (hg.group hb hb' opening) fun group => .bind settles_nextIs fun _ =>
    .ite ?_ (.pure _)
  exact .bind settles_skip fun _ => hg.lambda hb hb' group

-- ---------------------------------------------------------------------------
-- Variables
-- ---------------------------------------------------------------------------

theorem Agrees.accesses (hg : Agrees (n - 1) g g') (hb : n ≤ bound) (hb' : n ≤ bound')
    (span : Span) :
    Settles 0 n (g.accesses enclosing bound span) (g'.accesses enclosing bound' span) := by
  refine .loop (fun m b b' hm _ _ ih span => ?_) hb hb' span
  refine .bind settles_nextIsMark fun _ => .ite (.bind settles_skip fun _ => ?_) ?_
  · exact .next settles_unexpectedEnd fun t =>
      .ite (.bind (ih _) fun _ => .pure _) settles_unexpected
  · refine .bind settles_nextIsMark fun _ => .ite ?_ (.pure _)
    refine .advance settles_expectMark fun opening => ?_
    refine .advance (hg.mono (by omega)).nextValue fun index => ?_
    refine .advance settles_expectClosing fun closing => ?_
    exact .bind ((ih _).mono (by omega)) fun _ => .pure _

theorem Agrees.access (hg : Agrees (n - 1) g g') (hb : n ≤ bound) (hb' : n ≤ bound') (t : Token) :
    Settles 0 n (g.access enclosing bound t) (g'.access enclosing bound' t) := by
  refine .bind (hg.accesses hb hb' t.span) fun _ => .bind settles_nextIs fun _ => .ite ?_ ?_
  · exact .bind settles_skip fun _ => .bind settles_resolve fun _ => hg.lambda hb hb' _
  · exact .bind settles_resolve fun _ => .pure _

-- ---------------------------------------------------------------------------
-- Operators
-- ---------------------------------------------------------------------------

theorem settles_requireAssignable : Settles 0 n (requireAssignable node) (requireAssignable node) :=
  .ite (.pure ()) settles_fail

theorem settles_assignment {value : Node} :
    Settles 0 n (assignment op target value) (assignment op target value) :=
  .bind settles_requireAssignable fun _ => .pure _

theorem Agrees.call (hg : Agrees (n - 1) g g') (hb : n ≤ bound + 1) (hb' : n ≤ bound' + 1)
    (callee : Node) :
    Settles 1 n (g.call enclosing bound callee) (g'.call enclosing bound' callee) :=
  hg.nextGroup hb hb' fun _ => .pure _

theorem Agrees.calls (hg : Agrees (n - 1) g g') (hb : n ≤ bound) (hb' : n ≤ bound')
    (callee : Node) :
    Settles 0 n (g.calls enclosing bound callee) (g'.calls enclosing bound' callee) := by
  refine .loop (fun m b b' hm hb hb' ih callee => ?_) hb hb' callee
  refine .bind settles_nextIsMark fun _ => .ite ?_ (.pure callee)
  exact .advance ((hg.mono (by omega)).call hb hb' callee) ih

theorem Agrees.leadingUnary (hg : Agrees (n - 1) g g') (hb : n ≤ bound) (hb' : n ≤ bound')
    (op : Token) :
    Settles 0 n (g.leadingUnary enclosing bound op) (g'.leadingUnary enclosing bound' op) := by
  refine .next settles_valueExpected fun t => .bind hg.operand fun o => ?_
  cases o with
  | none => exact settles_unexpected
  | some operand =>
    refine .bind ((hg.mono (by omega)).calls (by omega) (by omega) operand) fun operand => ?_
    exact .ite (.bind settles_requireAssignable fun _ => .pure _) (.pure _)

theorem Agrees.ternary (hg : Agrees (n - 1) g g') (condition : Node) :
    Settles 1 n (g.ternary enclosing condition) (g'.ternary enclosing condition) := by
  refine .bind settles_lastSpan fun question => .next settles_fail fun t => ?_
  refine .bind (hg.requireValue t) fun whenTrue => .next settles_fail fun colon =>
    .ite ?_ settles_fail
  refine .next settles_fail fun t => ?_
  exact .bind ((hg.mono (by omega)).requireValue t) fun _ => .pure _

theorem Agrees.continuations (hg : Agrees (n - 1) g g') (hb : n ≤ bound) (hb' : n ≤ bound')
    (value : Node) :
    Settles 0 n (g.continuations enclosing bound value)
    (g'.continuations enclosing bound' value) := by
  refine .loop (fun m b b' hm hb hb' ih value => ?_) hb hb' value
  have hg := hg.mono (m := m - 1) (by omega)
  refine .bind settles_peek fun o => ?_
  cases o with
  | none => exact .pure value
  | some t =>
    refine .ite (.ite (.pure value) ?_)
      (.ite ?_ (.ite ?_ (.ite (.pure value) (.ite (.ite (.pure value) ?_) ?_))))
    · exact .bind settles_skip fun _ => settles_unexpected
    · exact .bind settles_skip fun _ => .advance (hg.ternary value) ih
    · exact .advance (hg.call hb hb' value) ih
    · exact .bind settles_skip fun _ => .bind settles_requireAssignable fun _ => .pure _
    · refine .bind settles_skip fun _ => .advance hg.nextValue (fun right => .ite ?_ (ih _))
      exact .bind settles_assignment ih

theorem Agrees.operandOf (hg : Agrees (n - 1) g g') (hb : n ≤ bound) (hb' : n ≤ bound')
    (t : Token) :
    Settles 0 n (g.operandOf enclosing bound t) (g'.operandOf enclosing bound' t) := by
  unfold Grammar.operandOf
  cases t.kind with
  | function => exact .bind (hg.functionLiteral hb hb' t) fun _ => .pure _
  | punctuation =>
    refine .ite ?_ (.ite ?_ (.ite ?_ (.pure none)))
    · exact .bind (hg.parentheses hb hb' _) fun _ => .pure _
    · exact .bind (hg.listItems hb hb' _ false) fun _ => .pure _
    · exact .bind (hg.recordEntries hb hb' _ false) fun _ => .pure _
  | operator => exact .ite (.bind (hg.leadingUnary hb hb' t) fun _ => .pure _) (.pure none)
  | «variable» => exact .bind (hg.access hb hb' t) fun _ => .pure _
  | _ => exact .pure _

theorem Agrees.valueOf (hg : Agrees (n - 1) g g') (hb : n ≤ bound) (hb' : n ≤ bound') (t : Token) :
    Settles 0 n (g.valueOf enclosing bound t) (g'.valueOf enclosing bound' t) := by
  refine .bind (hg.operandOf hb hb' t) fun o => ?_
  cases o with
  | none => exact .pure none
  | some operand => exact .bind (hg.continuations hb hb' operand) fun _ => .pure _

-- ---------------------------------------------------------------------------
-- Statements
-- ---------------------------------------------------------------------------

theorem settles_declarationName :
    Settles 0 n (declarationName enclosing blockLocal) (declarationName enclosing blockLocal) :=
  .ite settles_declareNext (.bind settles_nextIs fun _ => .ite settles_refuseNext (.pure ()))

theorem settles_declared {value : Node} :
    Settles 0 n (declared blockLocal value) (declared blockLocal value) := by
  cases value with
  | «variable» v =>
    exact .ite (.ite (.bind settles_assignment fun _ => .pure _) (.pure _)) (.pure _)
  | _ => exact .pure _

theorem Agrees.declarations (hg : Agrees (n - 1) g g') (hb : n ≤ bound) (hb' : n ≤ bound')
    (blockLocal : Bool) :
    Settles 0 n (g.declarations enclosing blockLocal bound)
    (g'.declarations enclosing blockLocal bound') := by
  refine .loop (x := fun b (_ : Unit) => g.declarations enclosing blockLocal b)
    (y := fun b _ => g'.declarations enclosing blockLocal b)
      (fun m b b' hm _ _ ih _ => ?_) hb hb' ()
  refine .bind settles_declarationName fun _ => ?_
  refine .advance (hg.mono (by omega)).nextValue fun value => ?_
  refine .bind settles_declared fun statements => .bind settles_nextIsMark fun _ =>
    .ite ?_ (.pure _)
  exact .bind settles_skip fun _ => .bind (ih ()) fun _ => .pure _

theorem Agrees.jumpValue (hg : Agrees (n - 1) g g') (block : Block) :
    Settles 0 n (g.jumpValue enclosing block) (g'.jumpValue enclosing block) := by
  refine .bind settles_nextIs fun _ => .ite ?_ (.pure block)
  exact .advance hg.nextValue (fun _ => .pure _)

theorem Agrees.caseLabel (hg : Agrees (n - 1) g g') (block : Block) :
    Settles 0 n (g.caseLabel enclosing block) (g'.caseLabel enclosing block) := by
  refine .bind settles_nextIs fun _ => .ite settles_fail ?_
  refine .advance hg.nextValue fun value => ?_
  exact .next (.bind settles_endSpan fun _ => settles_fail) fun colon => .ite (.pure _) settles_fail

theorem settles_defaultLabel : Settles 0 n (defaultLabel block) (defaultLabel block) :=
  .next settles_fail fun _ => .ite (.pure _) settles_fail

theorem Agrees.header (hg : Agrees (n - 1) g g') (hb : n ≤ bound) (hb' : n ≤ bound')
    (policy : HeaderPolicy) (block : Block) :
    Settles 0 n (g.header enclosing bound policy block)
    (g'.header enclosing bound' policy block) := by
  refine .bind settles_nextIsMark fun _ => .ite ?_ (.ite ?_ (.pure block))
  · refine .advance settles_expectMark (fun opening => .ite settles_fail ?_)
    exact .bind ((hg.mono (by omega)).group (by omega) (by omega) _) fun _ => .pure _
  · refine .bind settles_peek fun o => ?_
    cases o with
    | none => exact .bind settles_endSpan fun _ => settles_fail
    | some t => exact .bind (.pure _) fun _ => settles_fail

theorem Agrees.elseBranches (hg : Agrees n g g') (hb : n ≤ bound) (hb' : n ≤ bound')
    (statements : List Node) :
    Settles 0 n (g.elseBranches enclosing bound statements)
    (g'.elseBranches enclosing bound' statements) := by
  refine .loop (fun m b b' hm _ _ ih statements => ?_) hb hb' statements
  refine .ite (.bind settles_nextIs fun _ => .ite ?_ (.pure _)) (.pure _)
  refine .advance (hg.mono hm).statement fun branch => ?_
  exact .bind settles_skipSemicolon fun _ => ih _

theorem Agrees.body (hg : Agrees n g g') (hb : n ≤ bound) (hb' : n ≤ bound') (block : Block) :
    Settles 0 n (g.body enclosing bound block) (g'.body enclosing bound' block) := by
  refine .bind settles_nextIsMark fun _ => .ite ?_ ?_
  · exact (hg.mono (by omega)).nextDelimited (by omega) (by omega) fun _ => .pure _
  · refine .advance hg.statement (fun statements => .bind settles_skipSemicolon fun _ => ?_)
    exact .bind ((hg.mono (by omega)).elseBranches (by omega) (by omega) statements) fun _ =>
      .pure _

theorem Agrees.loopCondition (hg : Agrees (n - 1) g g') (hb : n ≤ bound) (hb' : n ≤ bound')
    (block : Block) :
    Settles 0 n (g.loopCondition enclosing bound block)
    (g'.loopCondition enclosing bound' block) := by
  refine .bind settles_nextIs fun _ => .ite (.bind settles_skip fun _ => ?_) (.pure block)
  exact (hg.nextGroup (by omega) (by omega) fun _ => .pure _).weaken

theorem Agrees.blockRest (hg : Agrees n g g') (hb : n ≤ bound) (hb' : n ≤ bound')
    (shape : BlockShape) (block : Block) :
    Settles 0 n (g.blockRest enclosing bound shape block)
    (g'.blockRest enclosing bound' shape block) := by
  -- Only a body may begin with a statement; everything else is nested behind one more token.
  have hbehind := hg.mono (Nat.sub_le n 1)
  cases shape with
  | jump => exact hbehind.jumpValue block
  | caseLabel => exact hbehind.caseLabel block
  | defaultLabel => exact settles_defaultLabel
  | headed policy =>
    exact .bind (hbehind.header hb hb' policy block) fun headed => hg.body hb hb' headed
  | doLoop =>
    refine .bind (hbehind.header hb hb' .forbidden block) fun headed => ?_
    exact .bind (hg.body hb hb' headed) fun looped => hbehind.loopCondition hb hb' looped

theorem Agrees.keywordBlock (hg : Agrees n g g') (hb : n ≤ bound) (hb' : n ≤ bound')
    (keyword : Token) :
    Settles 0 n (g.keywordBlock enclosing bound keyword)
    (g'.keywordBlock enclosing bound' keyword) := by
  refine .bind settles_openScope fun scope => .bind (hg.blockRest hb hb' _ _) fun block => ?_
  exact .bind settles_note fun _ => .pure _

theorem Agrees.valueStatement (hg : Agrees (n - 1) g g') (hb : n ≤ bound) (hb' : n ≤ bound')
    (t : Token) :
    Settles 0 n (g.valueStatement enclosing bound t) (g'.valueStatement enclosing bound' t) := by
  refine .bind (hg.valueOf hb hb' t) fun o => ?_
  cases o with
  | none => exact settles_unexpected
  | some value => exact .pure _

theorem Agrees.statementOf (hg : Agrees (n - 1) g g') (hb : n ≤ bound) (hb' : n ≤ bound') :
    Settles 1 n (g.statementOf enclosing bound) (g'.statementOf enclosing bound') := by
  refine .next settles_unexpectedEnd fun t => ?_
  have hbehind := hg.mono (Nat.sub_le (n - 1) 1)
  have hb := Nat.le_trans (Nat.sub_le n 1) hb
  have hb' := Nat.le_trans (Nat.sub_le n 1) hb'
  have hvalue : Settles 0 (n - 1) (g.valueStatement enclosing bound t)
      (g'.valueStatement enclosing bound' t) :=
    hbehind.valueStatement hb hb' t
  refine .ite (.pure []) (.ite (.ite (hbehind.declarations hb hb' true) (.ite ?_ ?_)) ?_)
  · exact hbehind.declarations hb hb' false
  · exact .bind (hg.keywordBlock hb hb' t) fun _ => .pure _
  · refine .ite (.bind settles_nextIs fun _ => .ite ?_ hvalue) hvalue
    exact .bind (hbehind.functionLiteral hb hb' t) fun _ => .pure _

-- ---------------------------------------------------------------------------
-- Scripts
-- ---------------------------------------------------------------------------

theorem agrees_upTo (hb : n ≤ bound) (hb' : n ≤ bound') : Agrees n (upTo bound) (upTo bound') := by
  induction bound generalizing n bound' with
  | zero => exact ⟨.of_le_zero hb, .of_le_zero hb, .of_le_zero hb⟩
  | succ b ih =>
    cases bound' with
    | zero => exact ⟨.of_le_zero hb', .of_le_zero hb', .of_le_zero hb'⟩
    | succ b' =>
      have hnested : Agrees (n - 1) (upTo b) (upTo b') := ih (by omega) (by omega)
      exact ⟨hnested.statementOf hb hb', hnested.valueOf hb hb' _, hnested.operandOf hb hb' _⟩

theorem Agrees.statements (hg : Agrees n g g') (hb : n ≤ bound) (hb' : n ≤ bound') :
    Settles 0 n (g.statements enclosing bound) (g'.statements enclosing bound') := by
  refine .loop (x := fun b (_ : Unit) => g.statements enclosing b)
    (y := fun b _ => g'.statements enclosing b)
    (fun m b b' hm _ _ ih _ => ?_) hb hb' ()
  refine .bind settles_peek fun o => ?_
  cases o with
  | none => exact .pure _
  | some t =>
    refine .ite settles_refuseNext ?_
    exact .advance (hg.mono hm).statement fun _ => .bind (ih ()) fun _ => .pure _

/-- The productions without a bound on nesting: the tokens left give it. -/
def unbounded : Grammar where
  statement enclosing s := (upTo (s.rest.length + 1)).statement enclosing s
  value enclosing t s := (upTo (s.rest.length + 1)).value enclosing t s
  operand enclosing t s := (upTo (s.rest.length + 1)).operand enclosing t s

theorem agrees_unbounded (hb : n ≤ bound) : Agrees n (upTo bound) unbounded := by
  have hlevel : ∀ s : ParseState, s.rest.length < n →
      Agrees (s.rest.length + 1) (upTo bound) (upTo (s.rest.length + 1)) :=
    fun s hs => agrees_upTo (by omega) (Nat.le_refl _)
  exact ⟨fun s hs => (hlevel s hs).statement s (by omega),
    fun s hs => (hlevel s hs).value s (by omega), fun s hs => (hlevel s hs).operand s (by omega)⟩

/-- Without a bound each production is what it says, whatever its repetitions are bounded by above
the number of tokens left. A statement leaves fewer of them. -/
theorem unbounded_eq (enclosing : List ScopeId) (s : ParseState) (hb : s.rest.length < bound) :
    unbounded.statement enclosing s = unbounded.statementOf enclosing bound s ∧
      (∀ t, unbounded.value enclosing t s = unbounded.valueOf enclosing bound t s) ∧
      (∀ t, unbounded.operand enclosing t s = unbounded.operandOf enclosing bound t s) ∧
      ∀ nodes s', unbounded.statement enclosing s = .ok nodes s' →
      s'.rest.length < s.rest.length := by
  have hnested : Agrees (s.rest.length + 1 - 1) (upTo s.rest.length) unbounded :=
    agrees_unbounded (by omega)
  have hroom : s.rest.length < s.rest.length + 1 := Nat.lt_succ_self _
  refine ⟨(hnested.statementOf hroom hb s hroom).1, fun t => (hnested.valueOf hroom hb t s hroom).1,
    fun t => (hnested.operandOf hroom hb t s hroom).1, fun nodes s' hread => ?_⟩
  have hends : Ends 1 s (unbounded.statement enclosing s) :=
    (hnested.statementOf hroom hb s hroom).2
  rw [hread] at hends
  exact hends

end Grammar

namespace Script

theorem settles_root? (file : String) (size : Nat) (hb : n ≤ bound) (hb' : n ≤ bound') :
    Parse.Settles 0 n (root? file size bound) (root? file size bound') := by
  refine .bind Parse.settles_openScope fun scope => ?_
  refine .bind ((Grammar.agrees_upTo hb hb').statements hb hb') fun statements => ?_
  exact .bind Parse.settles_get fun s => .bind Parse.settles_note fun _ => .pure _

def initial (options : Options) (source : Source) : ParseState :=
  ⟨source.tokens options.reserved, (source.scan options.reserved).fault, source.size, none,
    .empty, false, []⟩

def run (options : Options) (source : Source) : EStateM.Result Halt ParseState Script :=
  root? source.file source.size ((source.tokens options.reserved).length + 1)
    (initial options source)

/-- Any bound above the number of tokens will do. -/
theorem read_eq {options : Options} {source : Source}
    (hb : (source.tokens options.reserved).length < bound) :
    read options source =
      .ofResult (root? source.file source.size bound (initial options source)) := by
  rw [← (settles_root? source.file source.size (Nat.le_refl _) hb (initial options source)
    (Nat.lt_succ_self _)).1]
  rfl

theorem run_cases (options : Options) (source : Source) :
    (∃ script s, run options source = .ok script s ∧ parse options source = .ok script) ∨
      ∃ fault s, run options source = .error (.fault fault) s ∧
        (read options source).outcome = .error (.fault fault) ∧
        parse options source = .error (fault.locate source) := by
  have hends : Parse.Ends 0 (initial options source) (run options source) :=
    (settles_root? source.file source.size (Nat.le_refl _) (Nat.le_refl _) _ (Nat.lt_succ_self _)).2
  have hread : read options source = .ofResult (run options source) := rfl
  have hparse : parse options source = (read options source).result source := rfl
  rw [hread] at hparse ⊢
  cases hrun : run options source with
  | ok script s =>
    rw [hrun] at hparse
    exact .inl ⟨script, s, rfl, hparse⟩
  | error halt s =>
    rw [hrun] at hparse hends
    cases halt with
    | fault fault => exact .inr ⟨fault, s, rfl, rfl, hparse⟩
    | exhausted => exact absurd rfl hends

/-- Every source is read to a script or to a fault. Every bound above the number of its tokens gives
the same reading, and without a bound on nesting the productions still determine every step: a
nested part is read behind a consumed token. -/
theorem parse_settles (options : Options) (source : Source) :
    ((∃ script, parse options source = .ok script) ∨
        ∃ fault, (read options source).outcome = .error (.fault fault) ∧
          parse options source = .error (fault.locate source)) ∧
      (∀ bound, (source.tokens options.reserved).length < bound →
        read options source =
          .ofResult (root? source.file source.size bound (initial options source))) ∧
      ∀ bound enclosing (s : ParseState), s.rest.length < bound →
        Grammar.unbounded.statement enclosing s = Grammar.unbounded.statementOf enclosing bound s ∧
          (∀ t, Grammar.unbounded.value enclosing t s =
            Grammar.unbounded.valueOf enclosing bound t s) ∧
          (∀ t, Grammar.unbounded.operand enclosing t s =
            Grammar.unbounded.operandOf enclosing bound t s) ∧
          ∀ nodes s', Grammar.unbounded.statement enclosing s = .ok nodes s' →
          s'.rest.length < s.rest.length := by
  refine ⟨?_, fun bound hb => read_eq hb,
    fun bound enclosing s hb => Grammar.unbounded_eq enclosing s hb⟩
  rcases run_cases options source with ⟨script, s, -, hparse⟩ | ⟨fault, s, -, houtcome, hparse⟩
  · exact .inl ⟨script, hparse⟩
  · exact .inr ⟨fault, houtcome, hparse⟩

/-- A text that breaks off inside of three brackets. -/
theorem parse_settles_truncated :
    ((Source.ofText "" "if (f([a, b").tokens ({} : Options).reserved).length < 100 ∧
      read {} (.ofText "" "if (f([a, b") =
        .ofResult (root? "" 11 100 (initial {} (.ofText "" "if (f([a, b"))) ∧
      Grammar.unbounded.statement [0] (initial {} (.ofText "" "if (f([a, b")) =
        Grammar.unbounded.statementOf [0] 100 (initial {} (.ofText "" "if (f([a, b")) := by
  have hcount : ((Source.ofText "" "if (f([a, b").tokens ({} : Options).reserved).length < 100 := by
    decide +kernel
  obtain ⟨-, hread, hequations⟩ := parse_settles {} (.ofText "" "if (f([a, b")
  exact ⟨hcount, hread 100 hcount, (hequations 100 [0] _ hcount).1⟩

end Script

end ScriptToPhp
