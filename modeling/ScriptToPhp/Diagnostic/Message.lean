import ScriptToPhp.Text.Replace

/-!
# The catalogue of messages

Each way in which a script can be refused has one message: a stable number, a kind, and a template
whose places `{0}` and `{1}` are filled with arguments.
-/

namespace ScriptToPhp

open Text

inductive ErrorKind
  | reservedPrefixViolation
  | unrecognizedToken
  | unexpectedToken
  | unterminatedGroup
  | missingValue
  | malformedTernary
  | nonAssignableTarget
  | malformedKeywordBlock
deriving DecidableEq, Repr

def ErrorKind.description : ErrorKind → String
  | .reservedPrefixViolation => "reserved prefix violation"
  | .unrecognizedToken => "unrecognized token"
  | .unexpectedToken => "unexpected token"
  | .unterminatedGroup => "unterminated group"
  | .missingValue => "missing value"
  | .malformedTernary => "malformed ternary"
  | .nonAssignableTarget => "non-assignable target"
  | .malformedKeywordBlock => "malformed keyword block"

inductive Message
  /-- A constant starts with the prefix kept for generated constants. -/
  | reservedConstant
  /-- A variable starts with the prefix kept for generated variables. -/
  | reservedVariable
  /-- No rule of the language reads the text. -/
  | unrecognized
  | unclosedParenthesis
  | unclosedBracket
  | unclosedBrace
  | unexpected
  | unexpectedInstead
  | unexpectedEnd
  | notAssignable
  | missingEntryValue
  | valueExpected
  | ternaryUnclosedAfterQuestion
  | ternaryColonExpected
  | ternaryUnclosedAfterColon
  | parenthesesNeeded
  | parenthesesForbidden
  | caseIncomplete
  | defaultIncomplete
deriving DecidableEq, Repr

namespace Message

/-- The stable number. Messages of one family share it. -/
def code : Message → Nat
  | .reservedConstant | .reservedVariable => 1
  | .unclosedParenthesis => 5
  | .unclosedBracket => 6
  | .unclosedBrace => 7
  | .unexpected | .unexpectedInstead | .unexpectedEnd => 8
  | .notAssignable => 9
  | .missingEntryValue => 12
  | .ternaryUnclosedAfterQuestion => 14
  | .ternaryColonExpected => 15
  | .ternaryUnclosedAfterColon => 16
  | .parenthesesNeeded => 17
  | .parenthesesForbidden => 18
  | .valueExpected => 20
  | .caseIncomplete => 21
  | .defaultIncomplete => 22
  | .unrecognized => 23

def kind : Message → ErrorKind
  | .reservedConstant | .reservedVariable => .reservedPrefixViolation
  | .unrecognized => .unrecognizedToken
  | .unclosedParenthesis | .unclosedBracket | .unclosedBrace => .unterminatedGroup
  | .unexpected | .unexpectedInstead | .unexpectedEnd => .unexpectedToken
  | .notAssignable => .nonAssignableTarget
  | .missingEntryValue | .valueExpected => .missingValue
  | .ternaryUnclosedAfterQuestion | .ternaryColonExpected | .ternaryUnclosedAfterColon =>
    .malformedTernary
  | .parenthesesNeeded | .parenthesesForbidden | .caseIncomplete | .defaultIncomplete =>
    .malformedKeywordBlock

def template : Message → String
  | .reservedConstant =>
    "Constants cannot start with \x7b0\x7d, this prefix is reserved for synthesized names."
  | .reservedVariable =>
    "Variables cannot start with \x7b0\x7d, this prefix is reserved for synthesized names."
  | .unrecognized => "Unrecognized token '\x7b0\x7d'."
  | .unclosedParenthesis => "Missing ) to match the ( opened here."
  | .unclosedBracket => "Missing ] to match the [ opened here."
  | .unclosedBrace => "Missing \x7d to match the \x7b opened here."
  | .unexpected => "Unexpected \x7b0\x7d."
  | .unexpectedInstead => "Unexpected \x7b0\x7d, \x7b1\x7d expected."
  | .unexpectedEnd => "Unexpected end of input, \x7b0\x7d expected."
  | .notAssignable => "\x7b0\x7d is not assignable."
  | .missingEntryValue => "Missing value after key \x7b0\x7d."
  | .valueExpected => "Value expected after \x7b0\x7d."
  | .ternaryUnclosedAfterQuestion => "Ternary expression not properly closed after '?'."
  | .ternaryColonExpected => "':' expected but \x7b0\x7d given."
  | .ternaryUnclosedAfterColon => "Ternary expression not properly closed after ':'."
  | .parenthesesNeeded => "'\x7b0\x7d' block needs parentheses."
  | .parenthesesForbidden => "'\x7b0\x7d' block cannot have parentheses."
  | .caseIncomplete => "'case' must be followed by a value and a colon."
  | .defaultIncomplete => "'default' must be followed by a colon."

end Message

def placeholder (i : Nat) : List Char := '\x7b' :: (toString i).toList ++ ['\x7d']

/-- Fill the places from number `i` on. The arguments go in one after another, so a place that an
argument brings along is filled by a later one. -/
def fillFrom (i : Nat) (text : List Char) : List String → List Char
  | [] => text
  | argument :: arguments =>
    fillFrom (i + 1) (replaceAll (placeholder i) argument.toList text) arguments

def fillTemplate (template : String) (arguments : List String) : String :=
  String.ofList (fillFrom 0 template.toList arguments)

end ScriptToPhp
