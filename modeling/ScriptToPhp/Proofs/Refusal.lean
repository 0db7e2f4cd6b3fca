import ScriptToPhp.Proofs.Brackets
import ScriptToPhp.Proofs.SpanArithmetic
import ScriptToPhp.Proofs.Totality

/-!
# Why a text is refused

Every refusal has a cause in the text: the fault that ended its scan, one of its tokens, its end, or
a bracket that is still open there. While a text is read, the brackets that are open are those that
the productions under way have consumed, so a bracket is reported as unclosed only if it is the
innermost one that the text leaves open.
-/

namespace ScriptToPhp

-- ---------------------------------------------------------------------------
-- Brackets, matched with a stack
-- ---------------------------------------------------------------------------

namespace Token

/-- The open brackets behind a token, innermost first. A closing one takes its partner off the
stack; without a partner there is no way on. -/
def track? (stack : List Token) (t : Token) : Option (List Token) :=
  if ['(', '[', '\x7b'].any t.isMark then some (t :: stack)
  else if t.isBracket then
    match stack with
    | opening :: stack => if opening.isClosedBy t then some stack else none
    | [] => none
  else some stack

def unclosedMessages : List (Char × Message) :=
  [('(', .unclosedParenthesis), ('[', .unclosedBracket), ('\x7b', .unclosedBrace)]

theorem track?_of_plain {t : Token} (ht : t.isBracket = false) : track? stack t = some stack := by
  have hopening : ['(', '[', '\x7b'].any t.isMark = false := by
    simp only [isBracket, List.any_cons, List.any_nil, Bool.or_false, Bool.or_eq_false_iff] at ht ⊢
    exact ⟨ht.1, ht.2.2.1, ht.2.2.2.2.1⟩
  simp [track?, hopening, ht]

theorem track?_of_opening {t : Token} (ht : t.isMark c = true) (hc : c ∈ ['(', '[', '\x7b']) :
    track? stack t = some (t :: stack) := by
  have hopening : ['(', '[', '\x7b'].any t.isMark = true := List.any_eq_true.2 ⟨c, hc, ht⟩
  simp only [track?, hopening, if_true]

theorem track?_of_closing {opening t : Token} (ho : opening.isMark o = true)
    (ht : t.isMark c = true) (hpair : (o, c) ∈ [('(', ')'), ('[', ']'), ('\x7b', '\x7d')]) :
    track? (opening :: stack) t = some stack := by
  have hclosed : opening.isClosedBy t = true := List.any_eq_true.2 ⟨_, hpair, by simp [ho, ht]⟩
  obtain ⟨hkind, htext⟩ := isMark_iff.1 ht
  simp only [List.mem_cons, Prod.mk.injEq, List.not_mem_nil, or_false] at hpair
  rcases hpair with ⟨-, rfl⟩ | ⟨-, rfl⟩ | ⟨-, rfl⟩ <;>
    simp [track?, isBracket, isMark, hkind, htext, hclosed]

theorem mem_of_track? {stack stack' : List Token} (h : track? stack u = some stack')
    (ht : t ∈ stack') :
    t ∈ stack ∨ t = u := by
  unfold track? at h
  split at h
  next =>
    cases h
    exact (List.mem_cons.1 ht).symm
  next =>
    split at h
    next =>
      split at h
      next opening stack =>
        split at h
        next =>
          cases h
          exact .inl (List.mem_cons_of_mem _ ht)
        next => cases h
      next => cases h
    next =>
      cases h
      exact .inl ht

theorem mem_of_foldlM_track? {tokens stack left : List Token}
    (h : tokens.foldlM track? stack = some left) (ht : t ∈ left) : t ∈ stack ∨ t ∈ tokens := by
  induction tokens generalizing stack with
  | nil =>
    cases h
    exact .inl ht
  | cons u tokens ih =>
    obtain ⟨stack', hstep, hrest⟩ := Option.bind_eq_some_iff.1 h
    rcases ih hrest with hstack | hmem
    · rcases mem_of_track? hstep hstack with hold | rfl
      · exact .inl hold
      · exact .inr List.mem_cons_self
    · exact .inr (List.mem_cons_of_mem _ hmem)

end Token

/-- A text as the grammar sees it: its tokens, what ended its scan early, and its length. -/
structure TokenText where
  tokens : List Token
  fault : Option Fault
  size : Nat

namespace TokenText

/-- The brackets that the text leaves open, innermost first, if every closing one meets its
partner. -/
def unclosed (text : TokenText) : Option (List Token) := text.tokens.foldlM Token.track? []

def Places (text : TokenText) (s : Span) : Prop := s.Computed (text.tokens.map (·.span)) text.size

inductive Cause (text : TokenText) : Fault → Prop
  | scan : text.fault = some f → Cause text f
  | unclosed : text.fault = none → text.unclosed = some (opening :: stack) →
    opening.isMark c = true →
      (c, message) ∈ Token.unclosedMessages → Cause text ⟨message, [], opening.span⟩
  | unexpected : t ∈ text.tokens → Cause text ⟨.unexpected, [t.describe], t.span⟩
  | unexpectedInstead : t ∈ text.tokens →
    Cause text ⟨.unexpectedInstead, [t.describe, Parse.quoteMark c], t.span⟩
  | unexpectedEnd : text.fault = none → Cause text ⟨.unexpectedEnd, [expected], .empty text.size⟩
  | valueExpected (s : ParseState) : text.fault = none → (∀ t ∈ s.last, t ∈ text.tokens) →
      Cause text ⟨.valueExpected, [s!"'{s.lastText}'"], .empty text.size⟩
  /-- A part of a larger whole goes wrong at a token. -/
  | token : t ∈ text.tokens → message.kind ≠ .unterminatedGroup → message.kind ≠ .unexpectedToken →
      Cause text ⟨message, arguments, t.span⟩
  /-- The text ends inside of a larger whole. -/
  | ending : text.fault = none → message.kind ≠ .unterminatedGroup →
    message.kind ≠ .unexpectedToken →
      Cause text ⟨message, arguments, .empty text.size⟩
  | target (node : Node) : text.Places node.span →
    Cause text ⟨.notAssignable, [node.subject], node.span⟩

/-- The place `s` in the text, and the brackets that are open there. -/
structure At (text : TokenText) (stack : Option (List Token)) (s : ParseState) : Prop where
  rest : s.rest <:+ text.tokens
  fault : s.fault = text.fault
  size : s.size = text.size
  last : ∀ t ∈ s.last, t ∈ text.tokens
  stack : (stack.bind fun stack => s.rest.foldlM Token.track? stack) = text.unclosed

def Before (text : TokenText) (stack : List Token) (t : Token) (s : ParseState) : Prop :=
  text.At stack s ∧ s.rest.head? = some t

def After (text : TokenText) (stack : Option (List Token)) (t : Token) (s : ParseState) : Prop :=
  text.At stack s ∧ s.last = some t

/-- How a step may end: as `post` says, or with a refusal that has a cause. -/
def Ends (text : TokenText) (post : α → ParseState → Prop) : EStateM.Result Halt ParseState α → Prop
  | .ok a s => post a s
  | .error (.fault f) _ => text.Cause f
  | .error .exhausted _ => True

def Steps (text : TokenText) (pre : ParseState → Prop) (x : Parse α)
    (post : α → ParseState → Prop) : Prop :=
  ∀ s, pre s → text.Ends post (x s)

abbrev Keeps (text : TokenText) (stack : List Token) (x : Parse α) : Prop :=
  text.Steps (text.At stack) x fun _ => text.At stack

def Gives (text : TokenText) (stack : List Token) (holds : α → Prop) (a : α)
    (s : ParseState) : Prop :=
  text.At stack s ∧ holds a

def PlacesAll (text : TokenText) (nodes : List Node) : Prop := ∀ node ∈ nodes, text.Places node.span

variable {text : TokenText} {stack : List Token}

-- ---------------------------------------------------------------------------
-- Steps in sequence
-- ---------------------------------------------------------------------------

section

variable {pre pre' : ParseState → Prop} {x y : Parse α} {post : α → ParseState → Prop}

theorem Steps.bind {x : Parse β} {f : β → Parse α} {mid : β → ParseState → Prop}
    (hx : text.Steps pre x mid) (hf : ∀ a, text.Steps (mid a) (f a) post) :
    text.Steps pre (x >>= f) post := by
  intro s hs
  have hstep := hx s hs
  show text.Ends post (EStateM.bind x f s)
  unfold EStateM.bind
  cases hrun : x s with
  | ok a s' =>
    rw [hrun] at hstep
    exact hf a s' hstep
  | error halt s' =>
    rw [hrun] at hstep
    cases halt with
    | fault f => exact hstep
    | exhausted => exact trivial

theorem Steps.give {x : Parse β} {f : β → Parse α} {holds : β → Prop}
    (hx : text.Steps pre x (text.Gives stack holds))
    (hf : ∀ a, holds a → text.Steps (text.At stack) (f a) post) : text.Steps pre (x >>= f) post :=
  .bind hx fun a s hs => hf a hs.2 s hs.1

theorem Steps.mono (h : text.Steps pre x post) (hpre : ∀ s, pre' s → pre s) :
    text.Steps pre' x post :=
  fun s hs => h s (hpre s hs)

theorem Steps.done {a : α} : text.Steps pre (pure a) fun _ => pre := fun _ hs => hs

theorem Steps.result {a : α} {holds : α → Prop} (h : holds a) :
    text.Steps (text.At stack) (pure a) (text.Gives stack holds) := fun _ hs => ⟨hs, h⟩

theorem Ends.imp {post' : α → ParseState → Prop} (h : text.Ends post r)
    (hpost : ∀ a s, post a s → post' a s) :
    text.Ends post' r := by
  cases r with
  | ok a s => exact hpost a s h
  | error halt s =>
    cases halt with
    | fault f => exact h
    | exhausted => exact trivial

theorem Steps.imp {post' : α → ParseState → Prop} (h : text.Steps pre x post)
    (hpost : ∀ a s, post a s → post' a s) :
    text.Steps pre x post' := fun s hs => (h s hs).imp hpost

theorem Steps.ite {c : Prop} [Decidable c] (h : c → text.Steps pre x post)
    (h' : ¬c → text.Steps pre y post) :
    text.Steps pre (if c then x else y) post := by
  split
  next hc => exact h hc
  next hc => exact h' hc

theorem Steps.fail (h : text.Cause ⟨message, arguments, span⟩) :
    text.Steps pre (Parse.fail message arguments span : Parse α) post := fun _ _ => h

theorem Steps.unexpected (ht : t ∈ text.tokens) :
    text.Steps pre (Parse.unexpected t : Parse α) post :=
  .fail (.unexpected ht)

end

-- ---------------------------------------------------------------------------
-- Spans
-- ---------------------------------------------------------------------------

theorem places_token (ht : t ∈ text.tokens) : text.Places t.span :=
  .token (List.mem_map.2 ⟨t, ht, rfl⟩)

/-- What is wrong with a text, unless it is the fault of its scan, is so at a span that its tokens
make up. -/
theorem Cause.places {f : Fault} (h : text.Cause f) : text.fault = some f ∨ text.Places f.span := by
  cases h with
  | scan hfault => exact .inl hfault
  | unclosed _ hstack =>
    rcases Token.mem_of_foldlM_track? hstack List.mem_cons_self with hnone | hmem
    · cases hnone
    · exact .inr (places_token hmem)
  | unexpected ht | unexpectedInstead ht | token ht => exact .inr (places_token ht)
  | unexpectedEnd | valueExpected | ending => exact .inr Span.Computed.text.behind
  | target node hnode => exact .inr hnode

theorem PlacesAll.nil : text.PlacesAll [] := by simp [PlacesAll]

theorem PlacesAll.single {node : Node} (h : text.Places node.span) : text.PlacesAll [node] := by
  simpa [PlacesAll] using h

theorem PlacesAll.append {nodes later : List Node} (h : text.PlacesAll nodes)
    (h' : text.PlacesAll later) :
    text.PlacesAll (nodes ++ later) := List.forall_mem_append.2 ⟨h, h'⟩

theorem Places.append {b : Block} (hb : text.Places b.span) (h : text.PlacesAll nodes) :
    text.Places (b.append nodes).span := by
  induction nodes generalizing b with
  | nil => exact hb
  | cons node nodes ih =>
    obtain ⟨hnode, hnodes⟩ := List.forall_mem_cons.1 h
    exact ih (Span.Computed.union hb hnode) hnodes

-- ---------------------------------------------------------------------------
-- Places
-- ---------------------------------------------------------------------------

theorem At.of_same (hs : text.At stack? s) (hrest : s'.rest = s.rest) (hfault : s'.fault = s.fault)
    (hsize : s'.size = s.size) (hlast : s'.last = s.last) : text.At stack? s' :=
  ⟨hrest ▸ hs.rest, hfault ▸ hs.fault, hsize ▸ hs.size, hlast ▸ hs.last, hrest ▸ hs.stack⟩

theorem At.noteToken (hs : text.At stack? s) (t : Token) : text.At stack? (s.noteToken t) := by
  unfold ParseState.noteToken
  split
  · exact hs
  · exact hs.of_same rfl rfl rfl rfl

theorem At.mem (hs : text.At stack? s) (hrest : s.rest = t :: ts) : t ∈ text.tokens :=
  hs.rest.subset (hrest ▸ List.mem_cons_self)

theorem At.consume {stack : List Token} (hs : text.At stack s) (hrest : s.rest = t :: ts) :
    text.At (Token.track? stack t)
    { s.noteToken t with rest := ts, last := some t, noted := false } := by
  have hnoted := hs.noteToken t
  refine ⟨(List.suffix_cons t ts).trans (hrest ▸ hs.rest), hnoted.fault, hnoted.size, ?_, ?_⟩
  · rintro _ ⟨⟩
    exact hs.mem hrest
  rw [← hs.stack, hrest]
  rfl

/-- At the end of the text the open brackets are those that it leaves open. -/
theorem At.unclosed_eq {stack : List Token} (hs : text.At stack s) (hrest : s.rest = []) :
    text.unclosed = some stack := by
  rw [← hs.stack, hrest]
  rfl

section

variable {x : Parse α} {post : α → ParseState → Prop}

theorem Steps.next {f : Option Token → Parse α}
    (hnone : text.fault = none → text.unclosed = some stack →
      text.Steps (text.At stack) (f none) post)
    (hsome : ∀ t ∈ text.tokens, text.Steps (text.At (Token.track? stack t)) (f (some t)) post) :
    text.Steps (text.At stack) (Parse.next >>= f) post := by
  intro s hs
  show text.Ends post (EStateM.bind Parse.next f s)
  unfold EStateM.bind Parse.next
  cases hrest : s.rest with
  | cons t ts => exact hsome t (hs.mem hrest) _ (hs.consume hrest)
  | nil =>
    cases hfault : s.fault with
    | some fault => exact .scan (hs.fault ▸ hfault)
    | none => exact hnone (hs.fault ▸ hfault) (hs.unclosed_eq hrest) s hs

theorem Steps.peek {f : Option Token → Parse α}
    (hnone : text.fault = none → text.unclosed = some stack →
      text.Steps (text.At stack) (f none) post)
    (hsome : ∀ t ∈ text.tokens, text.Steps (text.Before stack t) (f (some t)) post) :
    text.Steps (text.At stack) (Parse.peek >>= f) post := by
  intro s hs
  show text.Ends post (EStateM.bind Parse.peek f s)
  unfold EStateM.bind Parse.peek
  cases hrest : s.rest with
  | cons t ts =>
    refine hsome t (hs.mem hrest) _ ⟨hs.noteToken t, ?_⟩
    rw [Parse.rest_noteToken, hrest]
    rfl
  | nil =>
    cases hfault : s.fault with
    | some fault => exact .scan (hs.fault ▸ hfault)
    | none => exact hnone (hs.fault ▸ hfault) (hs.unclosed_eq hrest) s hs

theorem Steps.before (h : text.Steps (text.At stack) x post) :
    text.Steps (text.Before stack t) x post :=
  h.mono fun _ hs => hs.1

theorem Steps.nextBefore {f : Option Token → Parse α}
    (h : text.Steps (text.After (Token.track? stack t) t) (f (some t)) post) :
    text.Steps (text.Before stack t) (Parse.next >>= f) post := by
  rintro s ⟨hs, hhead⟩
  obtain ⟨ts, hrest⟩ := List.head?_eq_some_iff.1 hhead
  show text.Ends post (EStateM.bind Parse.next f s)
  have hnext : Parse.next s = .ok (some t)
      { s.noteToken t with rest := ts, last := some t, noted := false } := by
    rw [Parse.next, hrest]
  rw [EStateM.bind, hnext]
  exact h _ ⟨hs.consume hrest, rfl⟩

theorem steps_skip : text.Steps (text.Before stack t) Parse.skip fun _ =>
    text.After (Token.track? stack t) t :=
  .nextBefore .done

theorem Steps.after (h : text.Steps (text.At stack?) x post) :
    text.Steps (text.After stack? t) x post :=
  h.mono fun _ hs => hs.1

theorem Steps.lastSpan {f : Span → Parse α} (h : text.Steps (text.At stack?) (f t.span) post) :
    text.Steps (text.After stack? t) (Parse.lastSpan >>= f) post := by
  rintro s ⟨hs, hlast⟩
  have hspan : s.lastSpan = t.span := by simp [ParseState.lastSpan, hlast]
  show text.Ends post (f s.lastSpan s)
  rw [hspan]
  exact h s hs

theorem Steps.skip {f : Unit → Parse α}
    (h : text.Steps (text.At (Token.track? stack t)) (f ()) post) :
    text.Steps (text.Before stack t) (Parse.skip >>= f) post :=
  steps_skip.bind fun _ => h.after

theorem Steps.word (ht : t.kind ≠ .punctuation) (h : text.Steps (text.At stack) x post) :
    text.Steps (text.At (Token.track? stack t)) x post := by
  rwa [Token.track?_of_plain (Token.isBracket_of_kind ht)]

theorem Steps.wordAfter (ht : t.kind ≠ .punctuation) (h : text.Steps (text.After stack t) x post) :
    text.Steps (text.After (Token.track? stack t) t) x post := by
  rwa [Token.track?_of_plain (Token.isBracket_of_kind ht)]

theorem Steps.mark (ht : t.isMark c = true) (hc : c ∈ [',', ':', '.', ';'])
    (h : text.Steps (text.At stack) x post) :
    text.Steps (text.At (Token.track? stack t)) x post := by
  rwa [Token.track?_of_plain (Token.isBracket_of_isMark ht hc)]

theorem Steps.opened (ht : t.isMark c = true) (hc : c ∈ ['(', '[', '\x7b'])
    (h : text.Steps (text.At (some (t :: stack))) x post) :
    text.Steps (text.At (Token.track? stack t)) x post := by
  rwa [Token.track?_of_opening ht hc]

theorem Steps.closed (ho : opening.isMark o = true) (ht : t.isMark c = true)
    (hpair : (o, c) ∈ [('(', ')'), ('[', ']'), ('\x7b', '\x7d')])
    (h : text.Steps (text.At stack) x post) :
    text.Steps (text.At (Token.track? (opening :: stack) t)) x post := by
  rwa [Token.track?_of_closing ho ht hpair]

-- ---------------------------------------------------------------------------
-- Primitive steps
-- ---------------------------------------------------------------------------

theorem Steps.nextIs {f : Bool → Parse α}
    (htrue : ∀ t ∈ text.tokens, p t = true → text.Steps (text.Before stack t) (f true) post)
    (hfalse : text.Steps (text.At stack) (f false) post) :
    text.Steps (text.At stack) (Parse.nextIs p >>= f) post := by
  have hassoc : Parse.nextIs p >>= f = Parse.peek >>= fun o => f (o.any p) := by
    unfold Parse.nextIs
    simp
  rw [hassoc]
  refine .peek (fun _ _ => hfalse) fun t ht => ?_
  show text.Steps (text.Before stack t) (f (p t)) post
  cases hp : p t with
  | true => exact htrue t ht hp
  | false => exact hfalse.before

theorem Steps.ifNext {y : Parse α}
    (hx : ∀ t ∈ text.tokens, p t = true → text.Steps (text.Before stack t) x post)
    (hy : text.Steps (text.At stack) y post) :
    text.Steps (text.At stack) (do if ← Parse.nextIs p then x else y) post :=
  .nextIs (fun t ht hp => by simpa using hx t ht hp) (by simpa using hy)

theorem Steps.ifNextAfter {y : Parse α}
    (hx : ∀ u ∈ text.tokens, p u = true → text.Steps (text.Before stack u) x post)
    (hy : text.Steps (text.After stack t) y post) :
    text.Steps (text.After stack t) (do if ← Parse.nextIs p then x else y) post := by
  rintro s ⟨hs, hlast⟩
  show text.Ends post (EStateM.bind (EStateM.bind Parse.peek _) _ s)
  unfold EStateM.bind Parse.peek
  cases hrest : s.rest with
  | nil =>
    cases hfault : s.fault with
    | some fault => exact .scan (hs.fault ▸ hfault)
    | none => exact hy s ⟨hs, hlast⟩
  | cons u us =>
    have hbefore : text.Before stack u (s.noteToken u) :=
      ⟨hs.noteToken u, by rw [Parse.rest_noteToken, hrest]; rfl⟩
    have hafter : text.After stack t (s.noteToken u) :=
      ⟨hs.noteToken u, Parse.noteToken_last.trans hlast⟩
    show text.Ends post ((if p u = true then x else y) (s.noteToken u))
    split
    next hp => exact hx u (hs.mem hrest) hp _ hbefore
    next => exact hy _ hafter

theorem Steps.endSpan {f : Span → Parse α}
    (h : text.Steps (text.At stack) (f (.empty text.size)) post) :
    text.Steps (text.At stack) (Parse.endSpan >>= f) post := by
  intro s hs
  show text.Ends post (f (.empty s.size) s)
  rw [hs.size]
  exact h s hs

theorem Steps.unexpectedEnd (hfault : text.fault = none) :
    text.Steps (text.At stack) (Parse.unexpectedEnd expected : Parse α) post :=
  .endSpan (.fail (.unexpectedEnd hfault))

theorem Steps.valueExpected (hfault : text.fault = none) :
    text.Steps (text.At stack) (Parse.valueExpected : Parse α) post := by
  intro s hs
  show text.Cause ⟨.valueExpected, _, .empty s.size⟩
  rw [hs.size]
  exact .valueExpected s hfault hs.last

theorem Steps.refuseNext : text.Steps (text.At stack) (Parse.refuseNext expected : Parse α) post :=
  .next (fun hfault _ => .unexpectedEnd hfault) fun _ ht => .unexpected ht

theorem Steps.unclosed {pre : ParseState → Prop} (ho : opening.isMark c = true)
    (hc : (c, message) ∈ Token.unclosedMessages) (hfault : text.fault = none)
    (hstack : text.unclosed = some (opening :: stack)) :
    text.Steps pre (Parse.fail message [] opening.span : Parse α) post :=
  .fail (.unclosed hfault hstack ho hc)

theorem Steps.expectMark {f : Token → Parse α}
    (h : ∀ t ∈ text.tokens, t.isMark c = true →
      text.Steps (text.At (Token.track? stack t)) (f t) post) :
    text.Steps (text.At stack) (Parse.expectMark c >>= f) post := by
  have hmark : text.Steps (text.At stack) (Parse.expectMark c) fun t s =>
      t ∈ text.tokens ∧ t.isMark c = true ∧ text.At (Token.track? stack t) s := by
    refine .next (fun hfault _ => .unexpectedEnd hfault) fun t ht =>
      .ite (fun hmark => ?_) fun _ => ?_
    · exact fun s hs => ⟨ht, hmark, hs⟩
    · exact .fail (.unexpectedInstead ht)
  refine .bind hmark fun t s hs => ?_
  obtain ⟨ht, hmark, hs⟩ := hs
  exact h t ht hmark s hs

theorem Steps.expectClosing {f : Token → Parse α} (ho : opening.isMark o = true)
    (hpair : (o, c) ∈ [('(', ')'), ('[', ']'), ('\x7b', '\x7d')])
    (ho' : (o, message) ∈ Token.unclosedMessages)
    (h : ∀ t ∈ text.tokens, text.Steps (text.At stack) (f t) post) :
    text.Steps (text.At (some (opening :: stack)))
    (Parse.expectClosing c message opening.span >>= f) post := by
  refine .give (.next (.unclosed ho ho') fun t ht => ?_) h
  exact .ite (fun hmark => .closed ho hmark hpair (.result ht)) fun _ => .unexpected ht

end

theorem keeps_of_same {x : Parse α}
    (h : ∀ s, ∃ a s', x s = .ok a s' ∧ s'.rest = s.rest ∧ s'.fault = s.fault ∧ s'.size = s.size ∧
      s'.last = s.last) :
    text.Keeps stack x := by
  intro s hs
  obtain ⟨a, s', hx, hrest, hfault, hsize, hlast⟩ := h s
  rw [hx]
  exact hs.of_same hrest hfault hsize hlast

theorem after_of_same {x : Parse α}
    (h : ∀ s, ∃ a s', x s = .ok a s' ∧ s'.rest = s.rest ∧ s'.fault = s.fault ∧ s'.size = s.size ∧
      s'.last = s.last) :
    text.Steps (text.After stack t) x fun _ => text.After stack t := by
  rintro s ⟨hs, ht⟩
  obtain ⟨a, s', hx, hrest, hfault, hsize, hlast⟩ := h s
  rw [hx]
  exact ⟨hs.of_same hrest hfault hsize hlast, hlast.trans ht⟩

theorem keeps_nextIs : text.Keeps stack (Parse.nextIs p) :=
  .peek (fun _ _ => .done) fun _ _ => .before .done

theorem keeps_note : text.Keeps stack (Parse.note event) :=
  keeps_of_same fun _ => ⟨_, _, rfl, rfl, rfl, rfl, rfl⟩

theorem keeps_openScope : text.Keeps stack (Parse.openScope enclosing) :=
  keeps_of_same fun _ => ⟨_, _, rfl, rfl, rfl, rfl, rfl⟩

theorem after_openScope :
    text.Steps (text.After stack t) (Parse.openScope enclosing) fun _ => text.After stack t :=
  after_of_same fun _ => ⟨_, _, rfl, rfl, rfl, rfl, rfl⟩

theorem after_resolve :
    text.Steps (text.After stack t) (Parse.resolve enclosing name) fun _ => text.After stack t :=
  after_of_same fun _ => ⟨_, _, rfl, rfl, rfl, rfl, rfl⟩

theorem keeps_resolve : text.Keeps stack (Parse.resolve enclosing name) :=
  keeps_of_same fun _ => ⟨_, _, rfl, rfl, rfl, rfl, rfl⟩

theorem keeps_declare : text.Keeps stack (Parse.declare enclosing name) := by
  cases enclosing with
  | nil => exact .done
  | cons scope enclosing => exact keeps_of_same fun _ => ⟨_, _, rfl, rfl, rfl, rfl, rfl⟩

theorem keeps_declareNext : text.Keeps stack (Parse.declareNext enclosing) :=
  .peek (fun _ _ => .refuseNext) fun _ _ => .ite (fun _ => keeps_declare.before) fun _ =>
    Steps.refuseNext.before

theorem keeps_skipSemicolon : text.Keeps stack Parse.skipSemicolon := by
  refine .ifNext (fun t _ hmark => steps_skip.imp fun _ s hs => ?_) .done
  exact Token.track?_of_plain (Token.isBracket_of_isMark hmark (by simp)) ▸ hs.1

end TokenText

-- ---------------------------------------------------------------------------
-- Productions
-- ---------------------------------------------------------------------------

namespace Grammar

open TokenText

/-- What a production for a token ends with: a part that has closed what it opened and whose span is
computed from those of tokens, or nothing. -/
def Read (text : TokenText) (stack : List Token) : Option Node → ParseState → Prop
  | some node, s => text.Gives stack (fun node : Node => text.Places node.span) node s
  | none, _ => True

abbrev Reads (text : TokenText) (stack : List Token) (pre : ParseState → Prop)
    (x : Parse Node) : Prop :=
  text.Steps pre x (text.Gives stack fun node => text.Places node.span)

variable {text : TokenText} {stack : List Token}

theorem read_some {node : Node} (h : text.Places node.span) :
    text.Steps (text.At (some stack)) (pure (some node)) (Read text stack) := .result h

theorem read_none {pre : ParseState → Prop} : text.Steps pre (pure none) (Read text stack) :=
  fun _ _ => trivial

/-- The productions for nested parts leave open what was open, and are refused only for a cause. -/
structure Keeps (text : TokenText) (g : Grammar) : Prop where
  statement (stack : List Token) :
    text.Steps (text.At stack) (g.statement enclosing) (text.Gives stack text.PlacesAll)
  value (stack : List Token) (t : Token) (ht : t ∈ text.tokens) :
    text.Steps (text.At (Token.track? stack t)) (g.value enclosing t) (Read text stack)
  operand (stack : List Token) (t : Token) (ht : t ∈ text.tokens) :
    text.Steps (text.At (Token.track? stack t)) (g.operand enclosing t) (Read text stack)

variable {g : Grammar} {enclosing : List ScopeId}

theorem Keeps.requireValue (hg : g.Keeps text) (ht : t ∈ text.tokens) :
    Reads text stack (text.At (Token.track? stack t)) (g.requireValue enclosing t) := by
  refine .bind (hg.value stack t ht) fun o => ?_
  cases o with
  | none => exact .unexpected ht
  | some value => exact fun _ hs => hs

theorem Keeps.nextValue (hg : g.Keeps text) :
    Reads text stack (text.At stack) (g.nextValue enclosing) :=
  .next (fun hfault _ => .valueExpected hfault) fun _ ht => hg.requireValue ht

-- ---------------------------------------------------------------------------
-- Groups and arrays
-- ---------------------------------------------------------------------------

theorem Keeps.groupItems (hg : g.Keeps text) (ho : opening.isMark '(' = true) (bound : Nat)
    (afterItem : Bool) :
    text.Steps (text.At (some (opening :: stack)))
    (g.groupItems enclosing opening.span bound afterItem)
      (text.Gives stack fun r => text.Places r.2.2) := by
  induction bound generalizing afterItem with
  | zero => exact fun _ _ => trivial
  | succ bound ih =>
    refine .next (.unclosed ho (by simp [Token.unclosedMessages])) fun t ht => ?_
    refine .ite (fun hclosing => .closed ho hclosing (by simp) (.result (places_token ht))) fun _ =>
      .ite (fun _ => ?_) fun _ => ?_
    · refine .ite (fun hmark => .mark hmark (by simp) ?_) fun _ => .ite (fun hmark => ?_) fun _ =>
        .unexpected ht
      · exact .give (ih false) fun _ hclosing => .result hclosing
      · exact .mark hmark (by simp) (ih false)
    · refine .ite (fun hword => ?_) fun _ => .ite (fun hword => ?_) fun _ => ?_
      · have hkind : t.kind = .keyword := by
          rcases Bool.or_eq_true_iff.1 hword with h | h <;> exact (Token.isKeyword_iff.1 h).1
        exact .word (by simp [hkind]) (.bind keeps_declareNext fun _ => ih false)
      · exact .word (by simp [(Token.isKeyword_iff.1 hword).1]) (ih false)
      · exact .give (hg.requireValue ht) fun _ _ => .give (ih true) fun _ hclosing =>
          .result hclosing

theorem Keeps.group (hg : g.Keeps text) (hopening : opening ∈ text.tokens)
    (ho : opening.isMark '(' = true) (bound : Nat) :
    text.Steps (text.At (some (opening :: stack))) (g.group enclosing bound opening.span)
      (text.Gives stack fun group => text.Places group.span) :=
  .give (hg.groupItems ho bound false) fun _ hclosing =>
    .result ((places_token hopening).union hclosing)

theorem Keeps.nextGroup (hg : g.Keeps text) {f : Group → Parse α} {post : α → ParseState → Prop}
    (hf : ∀ group : Group, text.Places group.span → text.Steps (text.At stack) (f group) post) :
    text.Steps (text.At stack)
      (do f (← g.group enclosing bound (← Parse.expectMark '(').span)) post :=
  .expectMark fun _ hopening ho => .opened ho (by simp) (.give (hg.group hopening ho bound) hf)

theorem Keeps.listItems (hg : g.Keeps text) (ho : opening.isMark '[' = true) (bound : Nat)
    (afterItem : Bool) :
    text.Steps (text.At (some (opening :: stack)))
    (g.listItems enclosing opening.span bound afterItem)
      (text.Gives stack fun r => text.Places r.2) := by
  induction bound generalizing afterItem with
  | zero => exact fun _ _ => trivial
  | succ bound ih =>
    refine .next (.unclosed ho (by simp [Token.unclosedMessages])) fun t ht => ?_
    refine .ite (fun hclosing => .closed ho hclosing (by simp) (.result (places_token ht))) fun _ =>
      .ite (fun _ => ?_) fun _ => ?_
    · exact .ite (fun hmark => .mark hmark (by simp) (ih false)) fun _ => .unexpected ht
    · exact .give (hg.requireValue ht) fun _ _ => .give (ih true) fun _ hclosing => .result hclosing

theorem Keeps.recordEntries (hg : g.Keeps text) (ho : opening.isMark '\x7b' = true) (bound : Nat)
    (afterEntry : Bool) :
    text.Steps (text.At (some (opening :: stack)))
    (g.recordEntries enclosing opening.span bound afterEntry)
      (text.Gives stack fun r => text.Places r.2) := by
  induction bound generalizing afterEntry with
  | zero => exact fun _ _ => trivial
  | succ bound ih =>
    refine .next (.unclosed ho (by simp [Token.unclosedMessages])) fun t ht => ?_
    refine .ite (fun hclosing => .closed ho hclosing (by simp) (.result (places_token ht))) fun _ =>
      .ite (fun _ => ?_) fun _ => ?_
    · exact .ite (fun hmark => .mark hmark (by simp) (ih false)) fun _ => .unexpected ht
    · dsimp only
      cases hkey : recordKey? t with
      | none => exact .unexpected ht
      | some key =>
        refine .word (kind_of_recordKey? hkey) ?_
        refine .next (fun _ _ => .fail (.token ht (by decide) (by decide))) fun colon hcolon => ?_
        refine .ite (fun hmark => .mark hmark (by simp) ?_) fun _ => .unexpected hcolon
        exact .give hg.nextValue fun _ _ => .give (ih true) fun _ hclosing => .result hclosing

-- ---------------------------------------------------------------------------
-- Functions
-- ---------------------------------------------------------------------------

theorem Keeps.delimited (hg : g.Keeps text) (ho : opening.isMark '\x7b' = true) (bound : Nat) :
    text.Steps (text.At (some (opening :: stack))) (g.delimited enclosing opening.span bound)
      (text.Gives stack fun r => text.PlacesAll r.1 ∧ text.Places r.2) := by
  induction bound with
  | zero => exact fun _ _ => trivial
  | succ bound ih =>
    refine .peek (.unclosed ho (by simp [Token.unclosedMessages])) fun t ht =>
      .ite (fun hclosing => ?_) fun _ => ?_
    · exact .skip (.closed ho hclosing (by simp) (.result ⟨.nil, places_token ht⟩))
    · refine .before (.give (hg.statement _) fun first hfirst => .give ih fun rest hrest => ?_)
      exact .result ⟨hfirst.append hrest.1, hrest.2⟩

theorem Keeps.nextDelimited (hg : g.Keeps text) {f : List Node × Span → Parse α}
    {post : α → ParseState → Prop}
    (hf : ∀ body, text.PlacesAll body.1 ∧ text.Places body.2 →
    text.Steps (text.At stack) (f body) post) :
    text.Steps (text.At stack)
      (do f (← g.delimited enclosing (← Parse.expectMark '\x7b').span bound)) post :=
  .expectMark fun _ _ ho => .opened ho (by simp) (.give (hg.delimited ho bound) hf)

theorem keeps_functionName : text.Keeps stack functionName := by
  refine .ifNext (fun t _ hkind => .nextBefore (.after ?_)) .done
  exact .word (by simp [beq_iff_eq.1 hkind]) .done

theorem Keeps.functionLiteral (hg : g.Keeps text) (bound : Nat) (hkeyword : keyword ∈ text.tokens) :
    Reads text stack (text.At stack) (g.functionLiteral enclosing bound keyword) := by
  refine .bind keeps_functionName fun name => hg.nextGroup fun parameters hparameters => ?_
  refine .bind keeps_openScope fun scope => hg.nextDelimited fun body hbody => ?_
  refine .bind keeps_note fun _ => .result (.union (Places.append ?_ hbody.1) hbody.2)
  exact (places_token hkeyword).union hparameters

theorem Keeps.lambda (hg : g.Keeps text) (bound : Nat) {parameters : Group}
    (hparameters : text.Places parameters.span) {arrow : Token} (harrow : arrow ∈ text.tokens) :
    Reads text stack (text.After stack arrow) (g.lambda enclosing bound parameters) := by
  have hheader : text.Places (parameters.span.union parameters.span) :=
    hparameters.union hparameters
  refine .bind after_openScope fun scope => .ifNextAfter (fun _ _ _ => .before ?_) ?_
  · exact hg.nextDelimited fun body hbody =>
      .result (.union (Places.append hheader hbody.1) hbody.2)
  · refine .lastSpan (.give hg.nextValue fun value hvalue =>
      .bind keeps_openScope fun _ => .result ?_)
    exact hheader.union ((places_token harrow).union hvalue)

theorem Keeps.parentheses (hg : g.Keeps text) (hopening : opening ∈ text.tokens)
    (ho : opening.isMark '(' = true) (bound : Nat) :
    Reads text stack (text.At (some (opening :: stack)))
    (g.parentheses enclosing bound opening.span) := by
  refine .give (hg.group hopening ho bound) fun group hgroup =>
    .ifNext (fun t ht harrow => ?_) (.result hgroup)
  exact .bind steps_skip fun _ =>
    .wordAfter (by simp [beq_iff_eq.1 harrow]) (hg.lambda bound hgroup ht)

-- ---------------------------------------------------------------------------
-- Variables
-- ---------------------------------------------------------------------------

theorem Keeps.accesses (hg : g.Keeps text) (bound : Nat) {span : Span} (hspan : text.Places span) :
    text.Steps (text.At stack) (g.accesses enclosing bound span)
    (text.Gives stack fun r => text.Places r.2) := by
  induction bound generalizing span with
  | zero => exact fun _ _ => trivial
  | succ bound ih =>
    refine .ifNext (fun point _ hpoint => .skip (.mark hpoint (by simp) ?_)) ?_
    · refine .next (fun hfault _ => .unexpectedEnd hfault) fun t ht =>
        .ite (fun hname => ?_) fun _ => .unexpected ht
      refine .word (kind_of_isPropertyName hname) ?_
      exact .give (ih (hspan.union (places_token ht))) fun _ hrest => .result hrest
    · refine .ifNext (fun _ _ _ => .before ?_) (.result hspan)
      refine .expectMark fun opening _ ho =>
        .opened ho (by simp) (.give hg.nextValue fun index _ => ?_)
      refine .expectClosing ho (by simp) (by simp [Token.unclosedMessages]) fun closing hclosing =>
        ?_
      exact .give (ih (hspan.union (places_token hclosing))) fun _ hrest => .result hrest

theorem Keeps.access (hg : g.Keeps text) (bound : Nat) (ht : t ∈ text.tokens) :
    Reads text stack (text.At stack) (g.access enclosing bound t) := by
  refine .give (hg.accesses bound (places_token ht)) fun chain hchain =>
    .ifNext (fun u hu harrow => ?_) ?_
  · refine .bind steps_skip fun _ =>
      .wordAfter (by simp [beq_iff_eq.1 harrow]) (.bind after_resolve fun _ => ?_)
    exact hg.lambda bound hchain hu
  · exact .bind keeps_resolve fun _ => .result hchain

-- ---------------------------------------------------------------------------
-- Operators
-- ---------------------------------------------------------------------------

theorem keeps_requireAssignable {node : Node} (hnode : text.Places node.span) :
    text.Keeps stack (requireAssignable node) :=
  .ite (fun _ => .done) fun _ => .fail (.target node hnode)

theorem reads_assignment {target value : Node} (htarget : text.Places target.span)
    (hvalue : text.Places value.span) :
    Reads text stack (text.At stack) (assignment op target value) :=
  .bind (keeps_requireAssignable htarget) fun _ => .result (htarget.union hvalue)

theorem Keeps.call (hg : g.Keeps text) (bound : Nat) {callee : Node}
    (hcallee : text.Places callee.span) :
    Reads text stack (text.At stack) (g.call enclosing bound callee) :=
  hg.nextGroup fun _ harguments => .result (hcallee.union harguments)

theorem Keeps.calls (hg : g.Keeps text) (bound : Nat) {callee : Node}
    (hcallee : text.Places callee.span) :
    Reads text stack (text.At stack) (g.calls enclosing bound callee) := by
  induction bound generalizing callee with
  | zero => exact fun _ _ => trivial
  | succ bound ih =>
    exact .ifNext (fun _ _ _ => .before (.give (hg.call bound hcallee) fun _ => ih))
      (.result hcallee)

theorem Keeps.leadingUnary (hg : g.Keeps text) (bound : Nat) {op : Token} (hop : op ∈ text.tokens) :
    Reads text stack (text.At stack) (g.leadingUnary enclosing bound op) := by
  refine .next (fun hfault _ => .valueExpected hfault) fun t ht =>
    .bind (hg.operand stack t ht) fun o => ?_
  cases o with
  | none => exact .unexpected ht
  | some operand =>
    have hcalls : Reads text stack (Read text stack (some operand))
        (g.calls enclosing bound operand) :=
      fun s hs => hg.calls bound hs.2 s hs.1
    refine .give hcalls fun operand hoperand => .ite (fun _ => ?_) fun _ =>
      .result (hoperand.union (places_token hop))
    exact .bind (keeps_requireAssignable hoperand) fun _ =>
      .result (hoperand.union (places_token hop))

theorem Keeps.ternary (hg : g.Keeps text) (hquestion : question ∈ text.tokens)
    (hkind : question.kind ≠ .punctuation) {condition : Node}
    (hcondition : text.Places condition.span) :
    Reads text stack (text.After (Token.track? stack question) question)
    (g.ternary enclosing condition) := by
  refine .lastSpan (.word hkind (.next
    (fun _ _ => .fail (.token hquestion (by decide) (by decide))) fun t ht => ?_))
  refine .give (hg.requireValue ht) fun whenTrue _ => ?_
  refine .next (fun _ _ => .fail (.token hquestion (by decide) (by decide))) fun colon hcolon => ?_
  refine .ite (fun hmark => .mark hmark (by simp) ?_) fun _ =>
    .fail (.token hcolon (by decide) (by decide))
  refine .next (fun _ _ => .fail (.token hcolon (by decide) (by decide))) fun t ht => ?_
  exact .give (hg.requireValue ht) fun _ hwhenFalse => .result (hcondition.union hwhenFalse)

theorem Keeps.continuations (hg : g.Keeps text) (bound : Nat) {value : Node}
    (hvalue : text.Places value.span) :
    Reads text stack (text.At stack) (g.continuations enclosing bound value) := by
  induction bound generalizing value with
  | zero => exact fun _ _ => trivial
  | succ bound ih =>
    refine .peek (fun _ _ => .result hvalue) fun t ht => ?_
    refine .ite (fun _ => .ite (fun _ => .before (.result hvalue)) fun _ =>
      .skip (.unexpected ht)) fun _ => ?_
    refine .ite (fun hmark => ?_) fun _ => .ite (fun _ => ?_) fun _ =>
      .ite (fun _ => .before (.result hvalue)) fun hkind => ?_
    · have hkind : t.kind ≠ .punctuation := by simp [(Token.isOperator_iff.1 hmark).1]
      exact .bind steps_skip fun _ => .give (hg.ternary ht hkind hvalue) fun _ => ih
    · exact .before (.give (hg.call bound hvalue) fun _ => ih)
    · have hkind : t.kind = .operator := by simpa using hkind
      refine .ite (fun _ => .ite (fun _ => .before (.result hvalue)) fun _ =>
        .skip (.word (by simp [hkind]) ?_))
        fun _ => ?_
      · exact .bind (keeps_requireAssignable hvalue) fun _ =>
          .result (hvalue.union (places_token ht))
      · refine .skip (.word (by simp [hkind])
          (.give hg.nextValue fun right hright => .ite (fun _ => ?_) fun _ => ?_))
        · exact .give (reads_assignment hvalue hright) fun _ => ih
        · exact ih (hvalue.union hright)

theorem Keeps.operandOf (hg : g.Keeps text) (bound : Nat) (ht : t ∈ text.tokens) :
    text.Steps (text.At (Token.track? stack t)) (g.operandOf enclosing bound t)
    (Read text stack) := by
  have hplace := places_token ht
  unfold Grammar.operandOf
  cases hkind : t.kind with
  | function =>
    exact .word (by simp [hkind]) (.give (hg.functionLiteral bound ht) fun _ => read_some)
  | punctuation =>
    refine .ite (fun ho => .opened ho (by simp) ?_) fun _ =>
      .ite (fun ho => .opened ho (by simp) ?_) fun _ =>
      .ite (fun ho => .opened ho (by simp) ?_) fun _ => read_none
    · exact .give (hg.parentheses ht ho bound) fun _ => read_some
    · exact .give (hg.listItems ho bound false) fun _ hclosing => read_some (hplace.union hclosing)
    · exact .give (hg.recordEntries ho bound false) fun _ hclosing =>
        read_some (hplace.union hclosing)
  | operator =>
    refine .ite (fun _ => ?_) fun _ => read_none
    exact .word (by simp [hkind]) (.give (hg.leadingUnary bound ht) fun _ => read_some)
  | «variable» => exact .word (by simp [hkind]) (.give (hg.access bound ht) fun _ => read_some)
  | constant | number | string => exact .word (by simp [hkind]) (read_some hplace)
  | _ => exact read_none

theorem Keeps.valueOf (hg : g.Keeps text) (bound : Nat) (ht : t ∈ text.tokens) :
    text.Steps (text.At (Token.track? stack t)) (g.valueOf enclosing bound t)
    (Read text stack) := by
  refine .bind (hg.operandOf bound ht) fun o => ?_
  cases o with
  | none => exact read_none
  | some operand =>
    rintro s ⟨hs, hoperand⟩
    exact Steps.give (hg.continuations bound hoperand) (fun _ => read_some) s hs

-- ---------------------------------------------------------------------------
-- Statements
-- ---------------------------------------------------------------------------

theorem keeps_declarationName : text.Keeps stack (declarationName enclosing blockLocal) := by
  refine .ite (fun _ => keeps_declareNext) fun _ => ?_
  exact .bind keeps_nextIs fun _ => .ite (fun _ => .refuseNext) fun _ => .done

theorem gives_declared {value : Node} (hvalue : text.Places value.span) :
    text.Steps (text.At stack) (declared blockLocal value) (text.Gives stack text.PlacesAll) := by
  cases value with
  | «variable» v =>
    refine .ite (fun _ => .ite (fun _ => ?_) fun _ => .result .nil) fun _ =>
      .result (.single hvalue)
    exact .give (reads_assignment hvalue hvalue.behind) fun _ h => .result (.single h)
  | _ => exact .result (.single hvalue)

theorem Keeps.declarations (hg : g.Keeps text) (blockLocal : Bool) (bound : Nat) :
    text.Steps (text.At stack) (g.declarations enclosing blockLocal bound)
    (text.Gives stack text.PlacesAll) := by
  induction bound with
  | zero => exact fun _ _ => trivial
  | succ bound ih =>
    refine .bind keeps_declarationName fun _ => .give hg.nextValue fun value hvalue => ?_
    refine .give (gives_declared hvalue) fun statements hstatements => ?_
    refine .ifNext (fun t _ hcomma => .skip (.mark hcomma (by simp) ?_)) (.result hstatements)
    exact .give ih fun _ hlater => .result (hstatements.append hlater)

abbrev Extends (text : TokenText) (stack : List Token) (x : Parse Block) : Prop :=
  text.Steps (text.At stack) x (text.Gives stack fun block => text.Places block.span)

theorem Keeps.jumpValue (hg : g.Keeps text) {block : Block} (hblock : text.Places block.span) :
    Extends text stack (g.jumpValue enclosing block) :=
  .ifNext (fun _ _ _ => .before (.give hg.nextValue fun _ hvalue => .result (hblock.union hvalue)))
    (.result hblock)

/-- A label is refused at its keyword if nothing follows it. -/
theorem Keeps.caseLabel (hg : g.Keeps text) (hkeyword : keyword ∈ text.tokens)
    (hspan : block.span = keyword.span) :
    Extends text stack (g.caseLabel enclosing block) := by
  have hblock : text.Places block.span := hspan ▸ places_token hkeyword
  have hrefused : text.Cause ⟨.caseIncomplete, [], block.span⟩ :=
    hspan ▸ .token hkeyword (by decide) (by decide)
  refine .bind keeps_nextIs fun _ => .ite (fun _ => .fail hrefused) fun _ =>
    .give hg.nextValue fun value hvalue => ?_
  refine .next (fun hfault _ => .endSpan (.fail (.ending hfault (by decide) (by decide)))) fun colon
    hcolon => ?_
  refine .ite (fun hmark => .mark hmark (by simp) (.result (hblock.union hvalue))) fun _ => ?_
  exact .fail (.token hcolon (by decide) (by decide))

theorem extends_defaultLabel (hkeyword : keyword ∈ text.tokens)
    (hspan : block.span = keyword.span) :
    Extends text stack (defaultLabel block) := by
  have hblock : text.Places block.span := hspan ▸ places_token hkeyword
  have hrefused : text.Cause ⟨.defaultIncomplete, [], block.span⟩ :=
    hspan ▸ .token hkeyword (by decide) (by decide)
  refine .next (fun _ _ => .fail hrefused) fun colon hcolon => ?_
  refine .ite (fun hmark => .mark hmark (by simp) (.result hblock)) fun _ => ?_
  exact .fail (.token hcolon (by decide) (by decide))

theorem Keeps.header (hg : g.Keeps text) (bound : Nat) (policy : HeaderPolicy) {block : Block}
    (hblock : text.Places block.span) :
    Extends text stack (g.header enclosing bound policy block) := by
  refine .ifNext (fun _ _ _ => .before
    (.expectMark fun opening hopening ho => .opened ho (by simp) ?_)) ?_
  · refine .ite (fun _ => .fail (.token hopening (by decide) (by decide))) fun _ => ?_
    exact .give (hg.group hopening ho bound) fun _ hgroup => .result (hblock.union hgroup)
  · refine .ite (fun _ => .peek (fun hfault _ => ?_) fun t ht => ?_) fun _ => .result hblock
    · exact .endSpan (.fail (.ending hfault (by decide) (by decide)))
    · show text.Steps _ (Parse.fail .parenthesesNeeded [block.kind.keyword] t.span) _
      exact .fail (.token ht (by decide) (by decide))

theorem Keeps.elseBranches (hg : g.Keeps text) (bound : Nat) {statements : List Node}
    (hstatements : text.PlacesAll statements) :
    text.Steps (text.At stack) (g.elseBranches enclosing bound statements)
    (text.Gives stack text.PlacesAll) := by
  induction bound generalizing statements with
  | zero => exact fun _ _ => trivial
  | succ bound ih =>
    refine .ite (fun _ => .ifNext (fun _ _ _ => .before ?_) (.result hstatements)) fun _ =>
      .result hstatements
    exact .give (hg.statement stack) fun branch hbranch => .bind keeps_skipSemicolon fun _ =>
      ih (hstatements.append hbranch)

theorem Keeps.body (hg : g.Keeps text) (bound : Nat) {block : Block}
    (hblock : text.Places block.span) :
    Extends text stack (g.body enclosing bound block) := by
  refine .ifNext (fun _ _ _ => .before ?_) ?_
  · exact hg.nextDelimited fun body hbody => .result (.union (Places.append hblock hbody.1) hbody.2)
  · refine .give (hg.statement stack) fun statements hstatements =>
      .bind keeps_skipSemicolon fun _ => ?_
    exact .give (hg.elseBranches bound hstatements) fun _ hbody =>
      .result (Places.append hblock hbody)

theorem Keeps.loopCondition (hg : g.Keeps text) (bound : Nat) {block : Block}
    (hblock : text.Places block.span) :
    Extends text stack (g.loopCondition enclosing bound block) := by
  refine .ifNext (fun t _ hword => .skip (.word (by simp [(Token.isKeyword_iff.1 hword).1]) ?_))
    (.result hblock)
  exact hg.nextGroup fun _ hgroup => .result (hblock.union hgroup)

theorem Keeps.blockRest (hg : g.Keeps text) (bound : Nat) (shape : BlockShape)
    (hkeyword : keyword ∈ text.tokens) (hspan : block.span = keyword.span) :
    Extends text stack (g.blockRest enclosing bound shape block) := by
  have hblock : text.Places block.span := hspan ▸ places_token hkeyword
  cases shape with
  | jump => exact hg.jumpValue hblock
  | caseLabel => exact hg.caseLabel hkeyword hspan
  | defaultLabel => exact extends_defaultLabel hkeyword hspan
  | headed policy =>
    exact .give (hg.header bound policy hblock) fun _ hheaded => hg.body bound hheaded
  | doLoop =>
    refine .give (hg.header bound .forbidden hblock) fun headed hheaded => ?_
    exact .give (hg.body bound hheaded) fun _ hlooped => hg.loopCondition bound hlooped

theorem Keeps.keywordBlock (hg : g.Keeps text) (bound : Nat) (hkeyword : keyword ∈ text.tokens) :
    Reads text stack (text.At stack) (g.keywordBlock enclosing bound keyword) := by
  refine .bind keeps_openScope fun scope =>
    .give (hg.blockRest bound _ hkeyword rfl) fun block hblock => ?_
  exact .bind keeps_note fun _ => .result hblock

theorem Keeps.valueStatement (hg : g.Keeps text) (bound : Nat) (ht : t ∈ text.tokens) :
    text.Steps (text.At (Token.track? stack t)) (g.valueStatement enclosing bound t)
      (text.Gives stack text.PlacesAll) := by
  refine .bind (hg.valueOf bound ht) fun o => ?_
  cases o with
  | none => exact .unexpected ht
  | some value => exact fun _ hs => ⟨hs.1, .single hs.2⟩

theorem Keeps.statementOf (hg : g.Keeps text) (bound : Nat) :
    text.Steps (text.At stack) (g.statementOf enclosing bound)
    (text.Gives stack text.PlacesAll) := by
  refine .next (fun hfault _ => .unexpectedEnd hfault) fun t ht => ?_
  refine .ite (fun hmark => .mark hmark (by simp) (.result .nil)) fun _ =>
    .ite (fun hkind => ?_) fun _ => ?_
  · refine .word (by simp [beq_iff_eq.1 hkind])
      (.ite (fun _ => hg.declarations true bound) fun _ => ?_)
    refine .ite (fun _ => hg.declarations false bound) fun _ => ?_
    exact .give (hg.keywordBlock bound ht) fun _ hblock => .result (.single hblock)
  · refine .ite (fun hkind => ?_) fun _ => hg.valueStatement bound ht
    have hword : t.kind ≠ .punctuation := by simp [beq_iff_eq.1 hkind]
    have hvalue : text.Steps _ (g.valueStatement enclosing bound t)
        (text.Gives stack text.PlacesAll) :=
      hg.valueStatement bound ht
    rw [Token.track?_of_plain (Token.isBracket_of_kind hword)] at hvalue
    refine .word hword (.ifNext (fun _ _ _ => .before ?_) hvalue)
    exact .give (hg.functionLiteral bound ht) fun _ hfunction => .result (.single hfunction)

theorem keeps_upTo (text : TokenText) (bound : Nat) : (upTo bound).Keeps text := by
  induction bound with
  | zero => exact ⟨fun _ _ _ => trivial, fun _ _ _ _ _ => trivial, fun _ _ _ _ _ => trivial⟩
  | succ bound ih =>
    exact ⟨fun _ => ih.statementOf _, fun _ _ ht => ih.valueOf _ ht,
      fun _ _ ht => ih.operandOf _ ht⟩

theorem Keeps.statements (hg : g.Keeps text) (bound : Nat) :
    text.Steps (text.At stack) (g.statements enclosing bound) fun _ _ =>
      text.fault = none ∧ text.unclosed = some stack := by
  induction bound with
  | zero => exact fun _ _ => trivial
  | succ bound ih =>
    refine .peek (fun hfault hstack _ _ => ⟨hfault, hstack⟩) fun t ht =>
      .before (.ite (fun _ => .refuseNext) fun _ => ?_)
    exact .give (hg.statement stack) fun _ _ => .bind ih fun _ => .done

end Grammar

-- ---------------------------------------------------------------------------
-- Scans
-- ---------------------------------------------------------------------------

theorem Scanner.kind_of_next_error {s : Scanner} (h : s.next = (.error fault, s')) :
    fault.message.kind = .unrecognizedToken ∨ fault.message.kind = .reservedPrefixViolation := by
  unfold next readToken at h
  split at h
  next => cases h
  next =>
    split at h
    next => cases h
    next =>
      split at h
      next =>
        cases h
        exact .inl rfl
      next =>
        dsimp only at h
        split at h
        next hmake =>
          cases h
          rcases Token.make_error hmake with rfl | rfl <;> exact .inr rfl
        next => cases h

theorem Scanner.kind_of_scan {s : Scanner} (h : s.scan.fault = some fault) :
    fault.message.kind = .unrecognizedToken ∨ fault.message.kind = .reservedPrefixViolation := by
  fun_induction scan s with
  | case1 s fault' s' hnext =>
    cases h
    exact kind_of_next_error hnext
  | case2 => cases h
  | case3 s t s' hnext later ih => exact ih h

-- ---------------------------------------------------------------------------
-- Scripts
-- ---------------------------------------------------------------------------

def Source.tokenText (source : Source) (reserved : ReservedPrefixes) : TokenText :=
  ⟨source.tokens reserved, (source.scan reserved).fault, source.size⟩

namespace Script

theorem at_initial (options : Options) (source : Source) :
    (source.tokenText options.reserved).At (some []) (initial options source) :=
  ⟨List.suffix_refl _, rfl, rfl, by rintro _ ⟨⟩, rfl⟩

/-- A text is read up to its end with no bracket left open, or it is refused for a cause. -/
theorem steps_root? (text : TokenText) (file : String) (size bound : Nat) :
    text.Steps (text.At (some [])) (root? file size bound) fun _ _ =>
      text.fault = none ∧ text.unclosed = some [] := by
  refine .bind TokenText.keeps_openScope fun scope =>
    .bind ((Grammar.keeps_upTo text bound).statements bound) fun _ => ?_
  intro s hs
  exact hs

theorem ends_run (options : Options) (source : Source) :
    (source.tokenText options.reserved).Ends
      (fun _ _ => (source.scan options.reserved).fault = none ∧
      (source.tokenText options.reserved).unclosed = some []) (run options source) :=
  steps_root? _ source.file source.size _ _ (at_initial options source)

theorem closed_of_parse (h : parse options source = .ok script) :
    (source.scan options.reserved).fault = none ∧
    (source.tokenText options.reserved).unclosed = some [] := by
  have hends := ends_run options source
  rcases run_cases options source with ⟨_, s, hrun, -⟩ | ⟨fault, s, -, -, herror⟩
  · rw [hrun] at hends
    exact hends
  · cases h.symm.trans herror

/-- Every refusal has a cause in the text. -/
theorem cause_of_parse (h : parse options source = .error diagnostic) :
    ∃ fault, (source.tokenText options.reserved).Cause fault ∧
    diagnostic = fault.locate source := by
  have hends := ends_run options source
  rcases run_cases options source with ⟨script, s, -, hok⟩ | ⟨fault, s, hrun, -, herror⟩
  · cases h.symm.trans hok
  · rw [hrun] at hends
    exact ⟨fault, hends, Except.error.inj (h.symm.trans herror)⟩

/-- An unclosed bracket is the innermost one that the text leaves open. -/
theorem unclosed_of_parse (h : parse options source = .error diagnostic)
    (hkind : diagnostic.kind = .unterminatedGroup) :
    (source.scan options.reserved).fault = none ∧
      ∃ opening stack c message, (source.tokenText options.reserved).unclosed =
        some (opening :: stack) ∧
        opening.isMark c = true ∧ (c, message) ∈ Token.unclosedMessages ∧
        diagnostic = (⟨message, [], opening.span⟩ : Fault).locate source := by
  obtain ⟨fault, hcause, rfl⟩ := cause_of_parse h
  cases hcause with
  | scan hfault =>
    rcases Scanner.kind_of_scan hfault with hscan | hscan <;> cases hscan.symm.trans hkind
  | unclosed hfault hstack hmark hmessage =>
    exact ⟨hfault, _, _, _, _, hstack, hmark, hmessage, rfl⟩
  | unexpected | unexpectedInstead | unexpectedEnd | valueExpected | target => cases hkind
  | token _ hne | ending _ hne => exact absurd hkind hne

def refusal? (options : Options) (source : Source) : Option Diagnostic :=
  match parse options source with
  | .ok _ => none
  | .error diagnostic => some diagnostic

theorem exists_of_any_refusal (h : (refusal? options source).any holds = true) :
    ∃ diagnostic, parse options source = .error diagnostic ∧ holds diagnostic = true := by
  unfold refusal? at h
  split at h
  next => cases h
  next diagnostic hparse => exact ⟨diagnostic, hparse, h⟩

/-- Brackets are matched exactly. A text that is read was scanned to its end, and each of its
brackets has its partner. If a bracket is reported as unclosed, matching those of the whole text
with a stack meets no stray closing one, and what is reported is the opening one on top of the stack
that is left. -/
theorem brackets_match (options : Options) (source : Source) :
    (∀ script, parse options source = .ok script →
        (source.scan options.reserved).fault = none ∧
          (source.tokens options.reserved).foldlM Token.track? [] = some []) ∧
      ∀ diagnostic, parse options source = .error diagnostic →
      diagnostic.kind = .unterminatedGroup →
        (source.scan options.reserved).fault = none ∧
          ∃ opening stack, (source.tokens options.reserved).foldlM Token.track? [] =
            some (opening :: stack) ∧
            diagnostic.location.span = opening.span ∧
            (opening.isMark '(' = true ∧ diagnostic.code = 5 ∨ opening.isMark '[' = true ∧
              diagnostic.code = 6 ∨
              opening.isMark '\x7b' = true ∧ diagnostic.code = 7) := by
  refine ⟨fun script h => closed_of_parse h, fun diagnostic h hkind => ?_⟩
  obtain ⟨hfault, opening, stack, c, message, hstack, hmark, hmessage, rfl⟩ :=
    unclosed_of_parse h hkind
  refine ⟨hfault, opening, stack, hstack, rfl, ?_⟩
  simp only [Token.unclosedMessages, List.mem_cons, Prod.mk.injEq, List.not_mem_nil,
    or_false] at hmessage
  rcases hmessage with ⟨rfl, rfl⟩ | ⟨rfl, rfl⟩ | ⟨rfl, rfl⟩
  · exact .inl ⟨hmark, rfl⟩
  · exact .inr (.inl ⟨hmark, rfl⟩)
  · exact .inr (.inr ⟨hmark, rfl⟩)

/-- Of two brackets left open the inner one is reported. -/
theorem brackets_match_index :
    ∃ diagnostic opening stack, parse {} (.ofText "" "f(a[1") = .error diagnostic ∧
      diagnostic.kind = .unterminatedGroup ∧ diagnostic.location.span = ⟨3, 4⟩ ∧
      ((Source.ofText "" "f(a[1").tokens ({} : Options).reserved).foldlM Token.track? [] = some
        (opening :: stack) ∧
      diagnostic.location.span = opening.span := by
  have hfacts : (refusal? {} (.ofText "" "f(a[1")).any (fun diagnostic =>
      diagnostic.kind == .unterminatedGroup && diagnostic.location.span == ⟨3, 4⟩) = true := by
    decide +kernel
  obtain ⟨diagnostic, h, hfacts⟩ := exists_of_any_refusal hfacts
  obtain ⟨hkind, hspan⟩ := Bool.and_eq_true_iff.1 hfacts
  obtain ⟨-, opening, stack, hstack, hopening, -⟩ :=
    (brackets_match {} (.ofText "" "f(a[1")).2 diagnostic h (beq_iff_eq.1 hkind)
  exact ⟨diagnostic, opening, stack, h, beq_iff_eq.1 hkind, beq_iff_eq.1 hspan, hstack, hopening⟩

end Script

end ScriptToPhp
