import ScriptToPhp.Text.GraphemeExtend
import ScriptToPhp.Text.Unprintable

/-!
# Quoted text

Text between double quotes, in which everything without a visible form of its own is written as an
escape.
-/

namespace ScriptToPhp.Text

def isVisible (c : Char) : Bool :=
  if c.toNat < 0x80 then 0x20 ≤ c.toNat && c.toNat != 0x7f
  else !graphemeExtend.has c && !unprintable.has c

def numberEscape (c : Char) : List Char :=
  '\\' :: 'u' :: '\x7b' :: Nat.toDigits 16 c.toNat ++ ['\x7d']

def quoteChar (c : Char) : List Char :=
  if c == '\x00' then ['\\', '0']
  else if c == '\t' then ['\\', 't']
  else if c == '\r' then ['\\', 'r']
  else if c == '\n' then ['\\', 'n']
  else if c == '\\' || c == '"' then ['\\', c]
  else if isVisible c then [c]
  else numberEscape c

def quote (text : String) : String :=
  String.ofList ('"' :: text.toList.flatMap quoteChar ++ ['"'])

end ScriptToPhp.Text
