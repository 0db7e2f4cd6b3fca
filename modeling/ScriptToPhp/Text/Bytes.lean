/-!
# Byte offsets in a list of characters

A text is kept as its characters. What counts bytes is stated here once: the number of bytes a list
of characters takes, and the pieces that begin or end at a byte offset, which exist only if the
offset falls between two characters.
-/

namespace ScriptToPhp.Text

def byteLength : List Char → Nat
  | [] => 0
  | c :: cs => c.utf8Size + byteLength cs

/-- The text after its first `n` bytes, unless `n` is inside a character or past the end. -/
def dropBytes? : List Char → Nat → Option (List Char)
  | cs, 0 => some cs
  | [], _ + 1 => none
  | c :: cs, n + 1 => if c.utf8Size ≤ n + 1 then dropBytes? cs (n + 1 - c.utf8Size) else none

/-- The first `n` bytes of the text, unless `n` is inside a character or past the end. -/
def takeBytes? : List Char → Nat → Option (List Char)
  | _, 0 => some []
  | [], _ + 1 => none
  | c :: cs, n + 1 =>
    if c.utf8Size ≤ n + 1 then (takeBytes? cs (n + 1 - c.utf8Size)).map (c :: ·) else none

/-- The characters between two byte offsets, if both fall between characters. -/
def slice? (cs : List Char) (start stop : Nat) : Option (List Char) :=
  (dropBytes? cs start).bind (takeBytes? · (stop - start))

end ScriptToPhp.Text
