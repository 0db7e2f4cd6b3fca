/-!
# Spans

Positions are byte offsets into the UTF-8 form of a text. A span runs from its start up to, and not
including, its stop.

Offsets are plain numbers here and in everything that is built on spans. In a text below 2 ^ 32
bytes all of them fit into 32 bits, those that are computed from others included (`Source.spans`),
so that for such texts they are the offsets that a program with words of 32 bits has.
-/

namespace ScriptToPhp

structure Span where
  start : Nat
  stop : Nat
deriving DecidableEq, Repr, Inhabited

namespace Span

def ofLength (start length : Nat) : Span := ⟨start, start + length⟩

def empty (position : Nat) : Span := ⟨position, position⟩

def length (span : Span) : Nat := span.stop - span.start

def isEmpty (span : Span) : Bool := span.length == 0

def union (a b : Span) : Span := ⟨min a.start b.start, max a.stop b.stop⟩

def display (span : Span) : String := s!"{span.start}..{span.stop}"

end Span

end ScriptToPhp
