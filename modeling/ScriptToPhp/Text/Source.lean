import ScriptToPhp.Text.Lines

/-!
# Source texts

A source is a label and the characters of a script, with every line ending written as one line feed.
-/

namespace ScriptToPhp

open Text

/-- Every carriage return, alone or before a line feed, becomes a line feed. -/
def Text.normalizeLines : List Char → List Char
  | '\r' :: '\n' :: cs => '\n' :: normalizeLines cs
  | '\r' :: cs => '\n' :: normalizeLines cs
  | c :: cs => c :: normalizeLines cs
  | [] => []

structure Source where
  file : String
  chars : List Char
deriving DecidableEq, Repr

namespace Source

def ofText (file text : String) : Source := ⟨file, normalizeLines text.toList⟩

def size (source : Source) : Nat := byteLength source.chars

def endSpan (source : Source) : Span := .empty source.size

def lines (source : Source) : LineMap := .ofText source.chars

def locate (source : Source) (span : Span) : Location :=
  source.lines.locate source.chars source.file span

end Source

end ScriptToPhp
