import ScriptToPhp.Diagnostic.Basic
import ScriptToPhp.Token.Rule

/-!
# Scanning

A scanner reads one token after another from the front of a text. Names that start with a prefix
kept for generated names are refused. After a refusal nothing more is read.
-/

namespace ScriptToPhp

open Text

/-- The prefixes that names of a script may not start with. An empty one reserves nothing. -/
structure ReservedPrefixes where
  forConstants : String
  forVariables : String
deriving DecidableEq, Repr

namespace Token

def isReserved (name pre : String) : Bool :=
  !pre.toList.isEmpty && pre.toList.isPrefixOf name.toList

def constantValue (text : String) : String :=
  if text == "Infinity" then "INF"
  else if text == "NaN" then "NAN"
  else if text == "undefined" then "null"
  else if "Math.".toList.isPrefixOf text.toList then
    "M_" ++ String.ofList (text.toList.drop 5)
  else text

def make (reserved : ReservedPrefixes) (kind : TokenKind) (text : String) (span : Span) :
    Except Fault Token :=
  let refused (message : Message) (pre : String) : Except Fault Token :=
    .error ⟨message, [pre], span⟩
  match kind with
  | .constant =>
    if isReserved text reserved.forConstants then refused .reservedConstant reserved.forConstants
    else .ok ⟨.constant, text, constantValue text, span, false⟩
  | .variable =>
    if isReserved text reserved.forVariables then refused .reservedVariable reserved.forVariables
    else if isReserved text reserved.forConstants then refused .reservedConstant
      reserved.forConstants
    else .ok ⟨.variable, text, text, span, false⟩
  | kind => .ok ⟨kind, text, text, span, false⟩

end Token

structure Scanner where
  reserved : ReservedPrefixes
  rest : List Char
  /-- The offset of the first of them. -/
  position : Nat
  /-- Whether a refusal has ended the scan. -/
  failed : Bool
deriving DecidableEq, Repr

namespace Scanner

def ofSource (reserved : ReservedPrefixes) (source : Source) : Scanner :=
  ⟨reserved, source.chars, 0, false⟩

def advance (s : Scanner) (n : Nat) : Scanner :=
  { s with rest := s.rest.drop n, position := s.position + byteLength (s.rest.take n) }

def skipBlanks (s : Scanner) : Scanner := s.advance (Matcher.run isBlank s.rest)

def readToken (s : Scanner) : Except Fault (Option Token) × Scanner :=
  match s.rest with
  | [] => (.ok none, s)
  | c :: _ =>
    match Rule.first? s.rest with
    | none =>
      let fault := ⟨.unrecognized, [c.toString], .ofLength s.position c.utf8Size⟩
      (.error fault, { s with failed := true })
    | some (kind, n) =>
      let lexeme := s.rest.take n
      let span := Span.ofLength s.position (byteLength lexeme)
      match Token.make s.reserved kind (String.ofList lexeme) span with
      | .error fault => (.error fault, { s with failed := true })
      | .ok token => (.ok (some token), s.advance n)

/-- Read the next token, neutral ones included. There is none at the end and after a refusal. -/
def next (s : Scanner) : Except Fault (Option Token) × Scanner :=
  if s.failed then (.ok none, s) else s.skipBlanks.readToken

theorem length_advance_le (s : Scanner) (n : Nat) : (s.advance n).rest.length ≤ s.rest.length := by
  simp [advance]

theorem length_readToken_lt {s s' : Scanner} {t : Token} (h : s.readToken = (.ok (some t), s')) :
    s'.rest.length < s.rest.length := by
  unfold readToken at h
  split at h
  · simp at h
  · rename_i c cs hrest
    split at h
    · simp at h
    · rename_i kind n hfirst
      dsimp only at h
      split at h
      · simp at h
      · simp only [Prod.mk.injEq, Except.ok.injEq, Option.some.injEq] at h
        obtain ⟨_, rfl⟩ := h
        have := Rule.first?_pos hfirst
        simp only [advance, List.length_drop, hrest, List.length_cons]
        omega

/-- Each token read shortens what is left. -/
theorem length_next_lt {s s' : Scanner} {t : Token} (h : s.next = (.ok (some t), s')) :
    s'.rest.length < s.rest.length := by
  unfold next at h
  split at h
  · simp at h
  · exact Nat.lt_of_lt_of_le (length_readToken_lt h) (length_advance_le s _)

end Scanner

/-- What scanning a text gives: its tokens, neutral ones included, and the refusal that ended the
scan early, if one did. -/
structure Scan where
  tokens : List Token
  fault : Option Fault
deriving DecidableEq, Repr

namespace Scanner

def scan (s : Scanner) : Scan :=
  match _h : s.next with
  | (.error fault, _) => ⟨[], some fault⟩
  | (.ok none, _) => ⟨[], none⟩
  | (.ok (some token), s') =>
    let later := scan s'
    ⟨token :: later.tokens, later.fault⟩
termination_by s.rest.length
decreasing_by exact length_next_lt _h

end Scanner

def Source.scan (source : Source) (reserved : ReservedPrefixes) : Scan :=
  (Scanner.ofSource reserved source).scan

end ScriptToPhp
