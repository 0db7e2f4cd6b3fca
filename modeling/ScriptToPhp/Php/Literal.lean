import ScriptToPhp.Token.Rule
import ScriptToPhp.Tree.Basic

/-!
# Literals in PHP

Named constants keep their name. Octal numbers lose the letter of their prefix. A string in single
quotes stays as it is if its only escapes are those PHP knows there; every other string is written
in double quotes, with the dollar sign escaped so that nothing is interpolated.
-/

namespace ScriptToPhp.Php

/-- A number. The octal prefix is a bare zero. -/
def number (value : String) : String :=
  match value.toList with
  | '0' :: 'o' :: digits | '0' :: 'O' :: digits => String.ofList ('0' :: digits)
  | _ => value

/-- Whether the inside of a string has an escape other than of a single quote or a backslash. -/
def needsDoubleQuotes : List Char → Bool
  | [] => false
  | '\\' :: '\'' :: cs => needsDoubleQuotes cs
  | '\\' :: '\\' :: cs => needsDoubleQuotes cs
  | '\\' :: _ => true
  | _ :: cs => needsDoubleQuotes cs

def startsWithCode (cs : List Char) : Bool :=
  (cs.take 4).length == 4 && (cs.take 4).all Matcher.isHexDigit

/-- The inside of a string for double quotes. An escape without braces gets them, since PHP knows no
other form; an escaped single quote needs no escape. -/
def escapeDouble (inside : List Char) : List Char :=
  match inside with
  | [] => []
  | '\\' :: [] => ['\\', '\\']
  | '\\' :: '\'' :: cs => '\'' :: escapeDouble cs
  | '\\' :: 'u' :: '\x7b' :: cs => '\\' :: 'u' :: escapeDouble ('\x7b' :: cs)
  | '\\' :: 'u' :: cs =>
    if startsWithCode cs then
      '\\' :: 'u' :: '\x7b' :: cs.take 4 ++ '\x7d' :: escapeDouble (cs.drop 4)
    else
      '\\' :: 'u' :: escapeDouble cs
  | '\\' :: c :: cs => '\\' :: c :: escapeDouble cs
  | '"' :: cs => '\\' :: '"' :: escapeDouble cs
  | '$' :: cs => '\\' :: '$' :: escapeDouble cs
  | c :: cs => c :: escapeDouble cs
termination_by inside.length

/-- A string literal, quotes included. What is not in quotes is left alone.

The last character is dropped whatever it is. In a token it is the closing quote; behind an opening
quote that nothing closes it may take several bytes, and a program that drops the last byte of the
text fails there. -/
def string (literal : String) : String :=
  match literal.toList with
  | quote :: inside@(_ :: _) =>
    if quote == '"' || (quote == '\'' && needsDoubleQuotes inside.dropLast) then
      String.ofList ('"' :: escapeDouble inside.dropLast ++ ['"'])
    else
      literal
  | _ => literal

def literal (l : Literal) : String :=
  match l.kind with
  | .named => l.value
  | .number => number l.value
  | .string => string l.value

end ScriptToPhp.Php
