import ScriptToPhp.Text.Character
import ScriptToPhp.Token.Basic

/-!
# The lexical rules

A rule looks at the front of a text and says how many characters it takes. The rules are tried in
order and the first that takes something decides the kind of the token. A rule for words is dropped
as a whole when what it takes runs into a longer word.
-/

namespace ScriptToPhp

open Text

/-- How many characters are taken from the front of a text, if any. -/
abbrev Matcher := List Char → Option Nat

namespace Matcher

def word (w : String) : Matcher := fun cs =>
  if w.toList.isPrefixOf cs then some w.toList.length else none

def longest (words : List String) : Matcher := fun cs =>
  (words.filterMap (word · cs)).max?

def firstOf (matchers : List Matcher) : Matcher := fun cs => matchers.findSome? (· cs)

def one (p : Char → Bool) : Matcher
  | c :: _ => if p c then some 1 else none
  | [] => none

def run (p : Char → Bool) (cs : List Char) : Nat := (cs.takeWhile p).length

def run1 (p : Char → Bool) : Matcher := fun cs =>
  if run p cs = 0 then none else some (run p cs)

/-- One character of the first class, then as many as follow of the second. -/
def oneThen (p q : Char → Bool) : Matcher
  | c :: cs => if p c then some (1 + run q cs) else none
  | [] => none

def andThen (first second : Matcher) : Matcher := fun cs => do
  let n ← first cs
  let m ← second (cs.drop n)
  return n + m

def andMaybe (first second : Matcher) : Matcher := fun cs => do
  let n ← first cs
  return n + (second (cs.drop n)).getD 0

/-! ### Comments -/

/-- The length of a block comment behind its opening. One that is not closed runs to the end. -/
def blockTail : List Char → Nat
  | [] => 0
  | '*' :: '/' :: _ => 2
  | _ :: cs => 1 + blockTail cs

def comment : Matcher
  | '/' :: '/' :: cs => some (2 + run (· != '\n') cs)
  | '/' :: '*' :: cs => some (2 + blockTail cs)
  | _ => none

/-! ### Constants -/

def isUpperTail (c : Char) : Bool := c.isUpper || c.isDigit || c == '_'

def capitals : Matcher := fun cs =>
  let underscores := run (· == '_') cs
  (oneThen Char.isUpper isUpperTail (cs.drop underscores)).map (underscores + ·)

def constant : Matcher :=
  firstOf
    [word "null", word "undefined", word "NaN", word "Infinity", word "true", word "false",
     andThen (word "Math.") (oneThen Char.isUpper isUpperTail), capitals]

/-! ### Numbers -/

def isBinaryDigit (c : Char) : Bool := c == '0' || c == '1'

def isOctalDigit (c : Char) : Bool := '0' ≤ c && c ≤ '7'

def isHexDigit (c : Char) : Bool :=
  c.isDigit || ('a' ≤ c && c ≤ 'f') || ('A' ≤ c && c ≤ 'F')

def radix (lower upper : Char) (digit : Char → Bool) : Matcher :=
  andThen (one (· == '0')) (andThen (one fun c => c == lower || c == upper) (run1 digit))

/-- Digits with a fraction that may be empty, or a fraction alone. -/
def mantissa : Matcher :=
  firstOf
    [andMaybe (run1 Char.isDigit) (oneThen (· == '.') Char.isDigit),
     andThen (one (· == '.')) (run1 Char.isDigit)]

def exponent : Matcher :=
  andThen (one fun c => c == 'e' || c == 'E')
    (firstOf
      [andThen (one fun c => c == '+' || c == '-') (run1 Char.isDigit), run1 Char.isDigit])

def number : Matcher :=
  firstOf
    [radix 'b' 'B' isBinaryDigit, radix 'o' 'O' isOctalDigit, radix 'x' 'X' isHexDigit,
     andMaybe mantissa exponent]

/-! ### Strings -/

/-- The length of a string behind its opening quote, the closing quote included. A backslash takes
the character after it along. -/
def stringTail (quote : Char) : Matcher
  | [] => none
  | c :: cs =>
    if c == quote then some 1
    else if c == '\\' then
      match cs with
      | [] => none
      | _ :: cs => (stringTail quote cs).map (2 + ·)
    else (stringTail quote cs).map (1 + ·)

def string : Matcher
  | c :: cs => if c == '"' || c == '\'' then (stringTail c cs).map (1 + ·) else none
  | [] => none

/-! ### Marks -/

def isMark (c : Char) : Bool :=
  c == '(' || c == ')' || c == '\x7b' || c == '\x7d' || c == '[' || c == ']' || c == ',' ||
    c == ';' || c == ':' || c == '.'

end Matcher

structure Rule where
  kind : TokenKind
  matcher : Matcher
  /-- Whether what is taken may not run into a longer word. -/
  wholeWord : Bool

namespace Rule

def cutsWord (cs : List Char) (n : Nat) : Bool :=
  ((cs.take n).getLast?.any isWordCharacter) && ((cs.drop n).head?.any isWordCharacter)

/-- How many characters the rule takes from the front, never zero. -/
def take? (rule : Rule) (cs : List Char) : Option Nat :=
  match rule.matcher cs with
  | some (n + 1) => if rule.wholeWord && cutsWord cs (n + 1) then none else some (n + 1)
  | _ => none

def all : List Rule :=
  [⟨.newline, .one (· == '\n'), false⟩,
   ⟨.comment, .comment, false⟩,
   ⟨.constant, .constant, true⟩,
   ⟨.function, .word "function", true⟩,
   ⟨.keyword, .longest keywords, true⟩,
   ⟨.lambda, .word "=>", false⟩,
   ⟨.number, .number, true⟩,
   ⟨.string, .string, false⟩,
   ⟨.operator, .longest operators, true⟩,
   ⟨.variable, .oneThen startsName continuesName, false⟩,
   ⟨.punctuation, .one Matcher.isMark, false⟩]

def first? (cs : List Char) : Option (TokenKind × Nat) :=
  all.findSome? fun rule => (rule.take? cs).map (rule.kind, ·)

theorem take?_pos {rule : Rule} {cs : List Char} {n : Nat}
    (h : rule.take? cs = some n) : 0 < n := by
  unfold take? at h
  split at h
  · split at h <;> simp at h
    omega
  · simp at h

theorem first?_pos {cs : List Char} {kind : TokenKind} {n : Nat} (h : first? cs = some (kind, n)) :
    0 < n := by
  obtain ⟨rule, _, hrule⟩ := List.exists_of_findSome?_eq_some h
  obtain ⟨m, hm, heq⟩ := Option.map_eq_some_iff.1 hrule
  cases heq
  exact take?_pos hm

end Rule

end ScriptToPhp
