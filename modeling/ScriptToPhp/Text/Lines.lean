import ScriptToPhp.Text.Bytes
import ScriptToPhp.Text.Span

/-!
# Lines and locations

A line map holds the offset at which each line of a text begins. A location names a file and a span
of it, together with the line and the column, counted from one, at which the span starts.

Lines and columns are words of 32 bits, and counting from one can overflow them: behind the last of
2 ^ 32 - 1 bytes the number of the line, or of the column, can be 2 ^ 32, which is the word zero.
-/

namespace ScriptToPhp

open Text

structure Location where
  file : String
  span : Span
  line : UInt32
  column : UInt32
deriving DecidableEq, Repr, Inhabited

def Location.display (location : Location) : String :=
  s!"{location.file}:{location.line}:{location.column}"

structure LineMap where
  starts : Array Nat
deriving DecidableEq, Repr

namespace LineMap

/-- The offsets behind each line feed of `cs`, which itself begins at `offset`. -/
def startsAfter (offset : Nat) : List Char → List Nat
  | [] => []
  | c :: cs =>
    let next := offset + c.utf8Size
    if c = '\n' then next :: startsAfter next cs else startsAfter next cs

def ofText (cs : List Char) : LineMap := ⟨(0 :: startsAfter 0 cs).toArray⟩

def count (map : LineMap) : Nat := map.starts.size

/-- Among the increasing entries from `lo` up to `hi`, the index of the first one beyond `position`,
by bisection. -/
def firstBeyond (starts : Array Nat) (position lo hi : Nat) (bound : hi ≤ starts.size) : Nat :=
  if within : lo < hi then
    let middle := (lo + hi) / 2
    have : middle < starts.size := by omega
    if starts[middle] ≤ position then firstBeyond starts position (middle + 1) hi bound
    else firstBeyond starts position lo middle (by omega)
  else lo
termination_by hi - lo

def lineOf (map : LineMap) (position : Nat) : Nat :=
  firstBeyond map.starts position 0 map.starts.size (Nat.le_refl _) - 1

def fromOne (n : Nat) : UInt32 := .ofNat n + 1

/-- The location of a span of the text the map was made from. The column counts characters; from
inside a character it counts bytes. -/
def locate (map : LineMap) (cs : List Char) (file : String) (span : Span) : Location :=
  let position := min span.start (byteLength cs)
  let line := map.lineOf position
  let lineStart := map.starts[line]?.getD 0
  let column := match slice? cs lineStart position with
    | some before => before.length
    | none => position - lineStart
  { file, span, line := fromOne line, column := fromOne column }

end LineMap

end ScriptToPhp
