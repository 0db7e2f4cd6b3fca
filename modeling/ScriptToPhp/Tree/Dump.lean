import ScriptToPhp.Text.Quote
import ScriptToPhp.Tree.Basic

/-!
# Dumps of trees

A dump writes every field of a tree on a line of its own, indented by its depth.
-/

namespace ScriptToPhp

abbrev Dump := List String

namespace Dump

def atom (text : String) : Dump := [text]

def indent (lines : Dump) : Dump := lines.map ("    " ++ ·)

/-- Lines with a text before the first and a comma behind the last. -/
def entry (label : String) : Dump → Dump
  | [] => []
  | [line] => [label ++ line ++ ","]
  | line :: lines => (label ++ line) :: lines.dropLast ++ (lines.getLast?.map (· ++ ",")).toList

def enclose (opening closing : String) (parts : List Dump) : Dump :=
  opening :: (parts.flatMap (indent <| entry "" ·)) ++ [closing]

def record (name : String) (fields : List (String × Dump)) : Dump :=
  (name ++ " \x7b") :: (fields.flatMap fun f => indent (entry (f.1 ++ ": ") f.2)) ++ ["\x7d"]

def apply (name : String) (parts : List Dump) : Dump := enclose (name ++ "(") ")" parts

def list (items : List Dump) : Dump :=
  if items.isEmpty then atom "[]" else enclose "[" "]" items

def text (value : String) : Dump := atom (Text.quote value)

def option : Option Dump → Dump
  | some value => apply "Some" [value]
  | none => atom "None"

def span (s : Span) : Dump := atom s.display

def flag (b : Bool) : Dump := atom (if b then "true" else "false")

def scopeId (id : ScopeId) : Dump := atom s!"ScopeId({id})"

end Dump

open Dump

def LiteralKind.dump : LiteralKind → Dump
  | .named => atom "Constant"
  | .number => atom "Number"
  | .string => atom "String"

def Literal.dump (l : Literal) : Dump :=
  record "Constant" [("kind", l.kind.dump), ("value", text l.value), ("span", Dump.span l.span)]

def Separator.dump : Separator → Dump
  | .comma => atom "Comma"
  | .semicolon => atom "Semicolon"

def Fixity.dump : Fixity → Dump
  | .leading => atom "Prefix"
  | .trailing => atom "Postfix"

def BlockKind.dump : BlockKind → Dump
  | .main => atom "Main"
  | .function => atom "Function"
  | .ifBranch => atom "If"
  | .elseBranch => atom "Else"
  | .forLoop => atom "For"
  | .whileLoop => atom "While"
  | .doLoop => atom "Do"
  | .switch => atom "Switch"
  | .caseLabel => atom "Case"
  | .defaultLabel => atom "Default"
  | .returnJump => atom "Return"
  | .breakJump => atom "Break"
  | .continueJump => atom "Continue"
  | .throwJump => atom "Throw"
  | .tryBlock => atom "Try"
  | .catchBlock => atom "Catch"
  | .finallyBlock => atom "Finally"
  | .other word => apply "Keyword" [text word]

mutual

def Node.dump : Node → Dump
  | .literal l => apply "Constant" [l.dump]
  | .variable ⟨name, chain, scope, span⟩ =>
    apply "Variable" [record "Variable"
      [("name", text name), ("chain", list (dumpChain chain)),
       ("scope", option (scope.map scopeId)), ("span", Dump.span span)]]
  | .binary op left right span =>
    apply "Dyiade" [record "Dyiade"
      [("operator", text op), ("left", left.dump), ("right", right.dump), ("span", Dump.span span)]]
  | .ternary condition whenTrue whenFalse span =>
    apply "Ternary" [record "Ternary"
      [("condition", condition.dump), ("then_value", whenTrue.dump),
       ("else_value", whenFalse.dump), ("span", Dump.span span)]]
  | .assign op target value span =>
    apply "Assignation" [record "Assignation"
      [("operator", text op), ("target", target.dump), ("value", value.dump),
       ("span", Dump.span span)]]
  | .call callee arguments span =>
    apply "FunctionCall" [record "FunctionCall"
      [("callee", callee.dump), ("arguments", list (dumpNodes arguments)),
        ("span", Dump.span span)]]
  | .group ⟨items, separator, span⟩ =>
    apply "Parenthesis" [record "Parenthesis"
      [("items", list (dumpNodes items)), ("separator", separator.dump), ("span", Dump.span span)]]
  | .list items span =>
    apply "OrderedArray" [record "OrderedArray"
      [("items", list (dumpNodes items)), ("span", Dump.span span)]]
  | .record entries span =>
    apply "KeyedArray" [record "KeyedArray"
      [("entries", list (dumpEntries entries)), ("span", Dump.span span)]]
  | .unary op operand fixity span =>
    apply "Unary" [record "Unary"
      [("operator", text op), ("operand", operand.dump), ("fixity", fixity.dump),
       ("span", Dump.span span)]]
  | .block b => apply "Block" [b.dump]

def Block.dump : Block → Dump
  | ⟨kind, header, body, scope, name, delimited, span⟩ =>
    record "Block"
      [("kind", kind.dump),
       ("header", option (match header with
         | some header => some header.dump
         | none => none)),
       ("body", list (dumpNodes body)), ("scope", scopeId scope),
       ("name", option (name.map text)), ("delimited", flag delimited), ("span", Dump.span span)]

def dumpNodes : List Node → List Dump
  | [] => []
  | node :: nodes => node.dump :: dumpNodes nodes

def dumpChain : List Access → List Dump
  | [] => []
  | .property key :: chain => apply "Property" [key.dump] :: dumpChain chain
  | .index value :: chain => apply "Index" [value.dump] :: dumpChain chain

def dumpEntries : List (Literal × Node) → List Dump
  | [] => []
  | (key, value) :: entries => apply "" [key.dump, value.dump] :: dumpEntries entries

end

def Block.dumpText (b : Block) : String := "\n".intercalate b.dump

end ScriptToPhp
