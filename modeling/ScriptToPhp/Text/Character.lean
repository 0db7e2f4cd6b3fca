import ScriptToPhp.Text.Alphanumeric
import ScriptToPhp.Text.IdentifierPart
import ScriptToPhp.Text.IdentifierStart

/-!
# Character classes of the script language

Below U+0080 each class is spelled out. Beyond it the property tables decide.
-/

namespace ScriptToPhp.Text

def isAsciiAlphanumeric (c : Char) : Bool :=
  c.isAlpha || c.isDigit

def startsName (c : Char) : Bool :=
  if c.toNat < 0x80 then c.isAlpha || c == '_' || c == '$' else identifierStart.has c

def continuesName (c : Char) : Bool :=
  if c.toNat < 0x80 then isAsciiAlphanumeric c || c == '_' || c == '$'
  else identifierStart.has c || identifierPart.has c

/-- A character that, next to the end of a word, makes it part of a longer word. It is not the same
class as `continuesName`: a superscript digit is a word character, a combining mark is not. -/
def isWordCharacter (c : Char) : Bool :=
  c == '$' || c == '_' || (if c.toNat < 0x80 then isAsciiAlphanumeric c else alphanumeric.has c)

/-- White space between tokens. A line feed is a token of its own. -/
def isBlank (c : Char) : Bool :=
  c == ' ' || c == '\t' || c == '\x0b' || c == '\x0c' || c == '\u00a0' || c == '\ufeff'

def hexDigit? (c : Char) : Option Nat :=
  if c.isDigit then some (c.toNat - '0'.toNat)
  else if 'a' ≤ c && c ≤ 'f' then some (c.toNat - 'a'.toNat + 10)
  else if 'A' ≤ c && c ≤ 'F' then some (c.toNat - 'A'.toNat + 10)
  else none

def hexNumber? (digits : List Char) : Option Nat :=
  digits.foldlM (fun n c => (hexDigit? c).map (16 * n + ·)) 0

end ScriptToPhp.Text
