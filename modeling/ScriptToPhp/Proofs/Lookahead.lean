import ScriptToPhp.Proofs.Tiling

/-!
# A token stream is a cursor over a list

A stream reads its tokens when it is asked for them and no earlier. Asked whatever, and in whatever
order, it answers as a cursor does that moves over the list of all meaningful tokens of the text. A
refusal of the scan is reported once, by the first request that looks behind the last token. Only a
look at the largest place that a word can hold is answered otherwise, since the count of tokens to
read overflows.
-/

namespace ScriptToPhp

-- ---------------------------------------------------------------------------
-- Meaningful tokens
-- ---------------------------------------------------------------------------

namespace Token

end Token

-- ---------------------------------------------------------------------------
-- Requests
-- ---------------------------------------------------------------------------

inductive Request
  | peek (k : UInt64)
  | consume
  | skip
  | atEnd
  | lastSpan
deriving DecidableEq, Repr

/-- The number of tokens up to the one that is asked for is a word, too. -/
def Request.InRange : Request → Prop
  | .peek k => k.toNat + 1 < UInt64.size
  | .consume | .skip | .atEnd | .lastSpan => True

inductive Reply
  | token (t : Option Token)
  | done
  | flag (b : Bool)
  | span (s : Span)
deriving DecidableEq, Repr

def Reply.of {α σ : Type} (f : α → Reply) (step : Except Fault α × σ) : Except Fault Reply × σ :=
  (step.1.map f, step.2)

namespace TokenStream

def answer (s : TokenStream) : Request → Except Fault Reply × TokenStream
  | .peek k => Reply.of .token (s.peek k)
  | .consume => Reply.of .token s.consume
  | .skip => Reply.of (fun _ => .done) s.skip
  | .atEnd => Reply.of .flag s.atEnd
  | .lastSpan => (.ok (.span s.last), s)

def answers (s : TokenStream) : List Request → List (Except Fault Reply) × TokenStream
  | [] => ([], s)
  | request :: requests =>
    let first := s.answer request
    let later := first.2.answers requests
    (first.1 :: later.1, later.2)

end TokenStream

/-- A place in a list of tokens that ends, or is cut off by a fault. -/
structure TokenCursor where
  tokens : List Token
  fault : Option Fault
  /-- How many of the tokens are consumed. -/
  taken : Nat
  reported : Bool
deriving DecidableEq, Repr

namespace TokenCursor

def start (tokens : List Token) (fault : Option Fault) : TokenCursor := ⟨tokens, fault, 0, false⟩

def left (c : TokenCursor) : List Token := c.tokens.drop c.taken

def due (c : TokenCursor) : Option Fault := if c.reported then none else c.fault

/-- The token `k` places ahead. Behind the last one the fault is reported once. -/
def peek (c : TokenCursor) (k : Nat) : Except Fault (Option Token) × TokenCursor :=
  match c.tokens[c.taken + k]? with
  | some t => (.ok (some t), c)
  | none =>
    match c.due with
    | some fault => (.error fault, { c with reported := true })
    | none => (.ok none, c)

def consume (c : TokenCursor) : Except Fault (Option Token) × TokenCursor :=
  match c.peek 0 with
  | (.ok (some t), c) => (.ok (some t), { c with taken := c.taken + 1 })
  | other => other

def lastSpan (c : TokenCursor) : Span :=
  ((c.tokens.take c.taken).getLast?.map (·.span)).getD (.empty 0)

def answer (c : TokenCursor) : Request → Except Fault Reply × TokenCursor
  | .peek k => Reply.of .token (c.peek k.toNat)
  | .consume => Reply.of .token c.consume
  | .skip => Reply.of (fun _ => .done) c.consume
  | .atEnd => Reply.of (fun t => .flag t.isNone) (c.peek 0)
  | .lastSpan => (.ok (.span c.lastSpan), c)

def answers (c : TokenCursor) : List Request → List (Except Fault Reply) × TokenCursor
  | [] => ([], c)
  | request :: requests =>
    let first := c.answer request
    let later := first.2.answers requests
    (first.1 :: later.1, later.2)

end TokenCursor

-- ---------------------------------------------------------------------------
-- Reading ahead
-- ---------------------------------------------------------------------------

namespace TokenStream

/-- The tokens that are not consumed: those in the buffer, and those that the scanner will still
yield. -/
def ahead (s : TokenStream) : List Token :=
  s.buffer ++ Token.meaningfulAfter s.pendingNewline s.scanner.scan.tokens

/-- A stream whose scanner has reported its end is at the end. -/
def Sound (s : TokenStream) : Prop := s.exhausted = true → s.scanner.scan = ⟨[], none⟩

structure Keeps (s s' : TokenStream) : Prop where
  ahead : s'.ahead = s.ahead
  last : s'.last = s.last
  sound : s'.Sound

/-- A token that is taken in moves from the scanner to the buffer, or is neutral. -/
theorem receive_keeps {s : TokenStream} {t : Token} {scanner : Scanner} (hs : s.exhausted = false)
    (hnext : s.scanner.next = (.ok (some t), scanner)) :
    (s.receive t scanner).ahead = s.ahead ∧ (s.receive t scanner).last = s.last ∧
      (s.receive t scanner).exhausted = false ∧ s.scanner.scan.fault = scanner.scan.fault := by
  have hscan := Scanner.scan_of_next hnext
  cases hneutral : t.isNeutral <;>
    simp [receive, ahead, hneutral, hscan, hs, Token.meaningfulAfter]

/-- Reading ahead until so many tokens are buffered. It fails where they are fewer and the scan is
refused behind them, and then nothing is left to scan. -/
theorem fill_cases {s : TokenStream} (hs : s.Sound) (count : Nat) :
    (∃ s', s.fill count = (.ok (), s') ∧ s.Keeps s' ∧ s'.scanner.scan.fault = s.scanner.scan.fault ∧
        (count ≤ s'.buffer.length ∨ s'.buffer = s.ahead ∧ s.scanner.scan.fault = none)) ∨
      ∃ fault s', s.fill count = (.error fault, s') ∧ s.Keeps s' ∧
      s.scanner.scan.fault = some fault ∧
        s'.scanner.scan = ⟨[], none⟩ ∧ s.ahead.length < count := by
  fun_induction fill s count with
  | case1 s h =>
    refine .inl ⟨s, rfl, ⟨rfl, rfl, hs⟩, rfl, ?_⟩
    rcases Bool.or_eq_true_iff.1 h with hexhausted | hcount
    · have hscan := hs hexhausted
      exact .inr ⟨by simp [ahead, hscan, Token.meaningfulAfter], by rw [hscan]⟩
    · exact .inl (by simpa using hcount)
  | case2 s h fault scanner hnext =>
    have hbefore := Scanner.scan_of_next_error hnext
    have hafter := Scanner.scan_of_next_none (Scanner.next_of_refused hnext)
    refine .inr ⟨fault, _, rfl, ⟨by simp [ahead, hbefore, hafter], rfl, fun _ => hafter⟩, by
      rw [hbefore], hafter, ?_⟩
    simp only [Bool.or_eq_true, decide_eq_true_eq, not_or] at h
    simp only [ahead, hbefore, Token.meaningfulAfter, List.append_nil]
    omega
  | case3 s h scanner hnext =>
    have hbefore := Scanner.scan_of_next_none hnext
    have hafter := Scanner.scan_of_next_none (Scanner.next_of_end hnext)
    refine .inl ⟨_, rfl, ⟨by simp [ahead, hbefore, hafter], rfl, fun _ => hafter⟩, by
      rw [hbefore, hafter], ?_⟩
    exact .inr ⟨by simp [ahead, hbefore, Token.meaningfulAfter], by rw [hbefore]⟩
  | case4 s h t scanner hnext ih =>
    simp only [Bool.or_eq_true, not_or] at h
    obtain ⟨hahead, hlast, hexhausted, hfault⟩ := receive_keeps (by simpa using h.1) hnext
    have hsound : (s.receive t scanner).Sound := fun htrue => by simp [hexhausted] at htrue
    have hkeeps : ∀ {s'}, (s.receive t scanner).Keeps s' → s.Keeps s' := fun hk =>
      ⟨hk.ahead.trans hahead, hk.last.trans hlast, hk.sound⟩
    rw [scanner_receive, ← hfault, hahead] at ih
    rcases ih hsound with ⟨s', heq, hk, hrest⟩ | ⟨fault, s', heq, hk, hrest⟩
    · exact .inl ⟨s', heq, hkeeps hk, hrest⟩
    · exact .inr ⟨fault, s', heq, hkeeps hk, hrest⟩

-- ---------------------------------------------------------------------------
-- Answers
-- ---------------------------------------------------------------------------

structure Refines (s : TokenStream) (c : TokenCursor) : Prop where
  ahead : s.ahead = c.left
  due : s.scanner.scan.fault = c.due
  last : s.last = c.lastSpan
  sound : s.Sound

def Agree {α : Type} (x : Except Fault α × TokenStream) (y : Except Fault α × TokenCursor) : Prop :=
  x.1 = y.1 ∧ x.2.Refines y.2

theorem Agree.of {α : Type} {x : Except Fault α × TokenStream} {y : Except Fault α × TokenCursor}
    (h : Agree x y) (f : α → Reply) : Agree (Reply.of f x) (Reply.of f y) :=
  ⟨congrArg (·.map f) h.1, h.2⟩

namespace Refines

variable {s : TokenStream} {c : TokenCursor}

theorem peek (h : s.Refines c) {k : UInt64} (hk : k.toNat + 1 < UInt64.size) :
    Agree (s.peek k) (c.peek k.toNat) := by
  have hcount : (k + 1).toNat = k.toNat + 1 := Nat.mod_eq_of_lt hk
  unfold TokenStream.peek TokenCursor.peek
  rw [hcount]
  generalize k.toNat = k at *
  have hplace : c.tokens[c.taken + k]? = s.ahead[k]? := by
    rw [h.ahead, TokenCursor.left, List.getElem?_drop]
  rw [hplace, ← h.due]
  rcases fill_cases h.sound (k + 1) with
    ⟨s', heq, hk, hfault, hbuffer⟩ | ⟨fault, s', heq, hk, hfault, hscan, hlength⟩
  · have hsame : s'.Refines c :=
      ⟨hk.ahead.trans h.ahead, hfault.trans h.due, hk.last.trans h.last, hk.sound⟩
    have hget : s.ahead[k]? = s'.buffer[k]? := by
      rcases hbuffer with hlength | ⟨hbuffer, -⟩
      · rw [← hk.ahead, TokenStream.ahead, List.getElem?_append_left hlength]
      · rw [hbuffer]
    rw [heq, hget]
    cases htoken : s'.buffer[k]? with
    | some t => exact ⟨congrArg Except.ok htoken, hsame⟩
    | none =>
      -- The buffer is too short, so it holds all there is and no refusal comes behind it.
      have hshort := List.getElem?_eq_none_iff.1 htoken
      obtain ⟨-, hnone⟩ := hbuffer.resolve_left (by omega)
      rw [hnone]
      exact ⟨congrArg Except.ok htoken, hsame⟩
  · rw [heq, List.getElem?_eq_none (by omega), hfault]
    exact ⟨rfl, hk.ahead.trans h.ahead, by simp [hscan, TokenCursor.due],
      hk.last.trans h.last, hk.sound⟩

theorem consume (h : s.Refines c) : Agree s.consume c.consume := by
  obtain ⟨hreply, hplace⟩ := h.peek (k := 0) (by decide)
  unfold TokenStream.consume TokenCursor.consume
  unfold TokenStream.peek at hreply hplace
  rw [show (0 : UInt64).toNat = 0 from rfl] at hreply hplace
  rw [show ((0 : UInt64) + 1).toNat = 1 from rfl] at hreply hplace
  generalize c.peek 0 = y at hreply hplace
  obtain ⟨reply, c'⟩ := y
  generalize s.fill 1 = x at hreply hplace
  obtain ⟨filled, s'⟩ := x
  cases filled with
  | error fault =>
    subst hreply
    exact ⟨rfl, hplace⟩
  | ok u =>
    subst hreply
    obtain ⟨scanner, buffer, exhausted, last, pendingNewline⟩ := s'
    cases buffer with
    | nil => exact ⟨rfl, hplace⟩
    | cons t buffer =>
      have hleft : t :: (buffer ++ Token.meaningfulAfter pendingNewline scanner.scan.tokens) =
        c'.left := hplace.ahead
      have hget : c'.tokens[c'.taken]? = some t := by
        have hfirst := congrArg (·[0]?) hleft
        simpa [TokenCursor.left] using hfirst.symm
      refine ⟨rfl, ?_, hplace.due, ?_, hplace.sound⟩
      · have htail := congrArg List.tail hleft
        simpa [TokenCursor.left, TokenStream.ahead] using htail
      · simp [TokenCursor.lastSpan, List.take_add_one, hget]

theorem answer (h : s.Refines c) {request : Request} (hrange : request.InRange) :
    Agree (s.answer request) (c.answer request) := by
  cases request with
  | peek k => exact (h.peek hrange).of .token
  | consume => exact h.consume.of .token
  | skip =>
    obtain ⟨hreply, hplace⟩ := h.consume.of fun _ => .done
    refine ⟨Eq.trans ?_ hreply, hplace⟩
    show (s.consume.1.map fun _ => ()).map _ = s.consume.1.map _
    cases s.consume.1 <;> rfl
  | atEnd =>
    obtain ⟨hreply, hplace⟩ := (h.peek (k := 0) (by decide)).of fun t => .flag t.isNone
    refine ⟨Eq.trans ?_ hreply, hplace⟩
    show ((s.peek 0).1.map (·.isNone)).map _ = (s.peek 0).1.map _
    cases (s.peek 0).1 <;> rfl
  | lastSpan => exact ⟨congrArg (fun span => Except.ok (Reply.span span)) h.last, h⟩

theorem answers (h : s.Refines c) {requests : List Request}
    (hrange : ∀ request ∈ requests, request.InRange) :
    (s.answers requests).1 = (c.answers requests).1 ∧ (s.answers requests).2.Refines
      (c.answers requests).2 := by
  induction requests generalizing s c with
  | nil => exact ⟨rfl, h⟩
  | cons request requests ih =>
    obtain ⟨hfirst, hlater⟩ := List.forall_mem_cons.1 hrange
    obtain ⟨hreply, hplace⟩ := h.answer hfirst
    obtain ⟨hreplies, hplaces⟩ := ih hplace hlater
    exact ⟨List.cons_eq_cons.2 ⟨hreply, hreplies⟩, hplaces⟩

end Refines

end TokenStream

end ScriptToPhp
