import ScriptToPhp.Token.Scanner

/-!
# Meaningful tokens

The grammar sees no neutral token: what remains of them is a flag on the next token that says
whether a line feed came before it. `meaningful` drops them from a list of tokens. A `TokenStream`
does the same one token at a time, reading no further ahead than it is asked to look.
-/

namespace ScriptToPhp

namespace Token

/-- Whether a neutral token breaks the line: a line feed, or a comment that holds one. -/
def breaksLine (t : Token) : Bool := t.kind == .newline || t.text.toList.contains '\n'

/-- The tokens that are not neutral, each flagged if a line was broken since the one before.
`pending` says whether one was broken already. -/
def meaningfulAfter (pending : Bool) : List Token → List Token
  | [] => []
  | t :: ts =>
    if t.isNeutral then meaningfulAfter (pending || t.breaksLine) ts
    else { t with newlineBefore := pending } :: meaningfulAfter false ts

def meaningful (ts : List Token) : List Token := meaningfulAfter false ts

end Token

structure TokenStream where
  scanner : Scanner
  /-- Read and not consumed, next one first. -/
  buffer : List Token
  /-- Whether the scanner has reported its end. -/
  exhausted : Bool
  last : Span
  /-- Whether a line was broken since the last token was buffered. -/
  pendingNewline : Bool
deriving DecidableEq, Repr

namespace TokenStream

def ofSource (reserved : ReservedPrefixes) (source : Source) : TokenStream :=
  ⟨.ofSource reserved source, [], false, .empty 0, false⟩

def receive (s : TokenStream) (t : Token) (scanner : Scanner) : TokenStream :=
  if t.isNeutral then
    { s with scanner, pendingNewline := s.pendingNewline || t.breaksLine }
  else
    { s with
      scanner
      buffer := s.buffer ++ [{ t with newlineBefore := s.pendingNewline }]
      pendingNewline := false }

theorem scanner_receive (s : TokenStream) (t : Token) (scanner : Scanner) :
    (s.receive t scanner).scanner = scanner := by
  unfold receive; split <;> rfl

/-- Read ahead until `count` tokens are buffered or the input ends. A refusal is reported by the
call that meets it, and is the end for every later one. -/
def fill (s : TokenStream) (count : Nat) : Except Fault Unit × TokenStream :=
  if s.exhausted || count ≤ s.buffer.length then (.ok (), s)
  else
    match _h : s.scanner.next with
    | (.error fault, scanner) => (.error fault, { s with scanner })
    | (.ok none, scanner) => (.ok (), { s with scanner, exhausted := true })
    | (.ok (some token), scanner) => fill (s.receive token scanner) count
termination_by s.scanner.rest.length
decreasing_by
  rw [scanner_receive]
  exact Scanner.length_next_lt _h

/-- The token `k` places ahead, the next one being at zero. The place is a machine word, so behind
the largest one the count of tokens to read ahead starts again at zero. -/
def peek (s : TokenStream) (k : UInt64) : Except Fault (Option Token) × TokenStream :=
  match s.fill (k + 1).toNat with
  | (.error fault, s) => (.error fault, s)
  | (.ok (), s) => (.ok s.buffer[k.toNat]?, s)

def consume (s : TokenStream) : Except Fault (Option Token) × TokenStream :=
  match s.fill 1 with
  | (.error fault, s) => (.error fault, s)
  | (.ok (), s) =>
    match s.buffer with
    | [] => (.ok none, s)
    | t :: ts => (.ok (some t), { s with buffer := ts, last := t.span })

def skip (s : TokenStream) : Except Fault Unit × TokenStream :=
  let (result, s) := s.consume
  (result.map fun _ => (), s)

def atEnd (s : TokenStream) : Except Fault Bool × TokenStream :=
  let (result, s) := s.peek 0
  (result.map (·.isNone), s)

end TokenStream

end ScriptToPhp
