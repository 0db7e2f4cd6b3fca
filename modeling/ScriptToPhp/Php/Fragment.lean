/-!
# Fragments of PHP

A fragment is a piece of PHP text together with the run-time helpers it refers to. Fragments are put
together by appending, which unites the helpers.
-/

namespace ScriptToPhp.Php

inductive Helper
  /-- Reads a property, an element or a method. -/
  | dot
  /-- Names the type of a value. -/
  | typeof
deriving DecidableEq, Repr

def Helper.name : Helper → String
  | .dot => "dot"
  | .typeof => "typeof"

structure Helpers where
  dot : Bool
  typeof : Bool
deriving DecidableEq, Repr

namespace Helpers

def none : Helpers := ⟨false, false⟩

def single : Helper → Helpers
  | .dot => ⟨true, false⟩
  | .typeof => ⟨false, true⟩

def union (a b : Helpers) : Helpers := ⟨a.dot || b.dot, a.typeof || b.typeof⟩

def contains (helpers : Helpers) : Helper → Bool
  | .dot => helpers.dot
  | .typeof => helpers.typeof

def toList (helpers : Helpers) : List Helper := [.dot, .typeof].filter helpers.contains

end Helpers

structure Fragment where
  text : String
  helpers : Helpers
deriving DecidableEq, Repr

namespace Fragment

def plain (text : String) : Fragment := ⟨text, .none⟩

def empty : Fragment := plain ""

def append (a b : Fragment) : Fragment := ⟨a.text ++ b.text, a.helpers.union b.helpers⟩

instance : Append Fragment := ⟨append⟩

instance : Coe String Fragment := ⟨plain⟩

def concat : List Fragment → Fragment
  | [] => empty
  | f :: fs => f ++ concat fs

def join (separator : String) : List Fragment → Fragment
  | [] => empty
  | [f] => f
  | f :: fs => f ++ plain separator ++ join separator fs

def parenthesized (f : Fragment) : Fragment := "(" ++ f ++ ")"

def callUserFunc (arguments : List Fragment) : Fragment :=
  "call_user_func(" ++ join ", " arguments ++ ")"

end Fragment

end ScriptToPhp.Php
