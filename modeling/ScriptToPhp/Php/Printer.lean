import ScriptToPhp.Php.Render

/-!
# Printing

A printer prints whole scripts and single expressions. It remembers the helpers that what it printed
refers to, and the functions named by the script it printed last, which later expressions may call.
-/

namespace ScriptToPhp.Php

structure Printer where
  style : Style
  /-- The helpers referred to so far. -/
  helpers : Helpers
  /-- The functions named by the script printed last. -/
  named : List String
deriving DecidableEq, Repr

def functionNames (root : Block) : List String := root.blocks.filterMap (·.name)

def renderScript (style : Style) (root : Block) : Fragment :=
  let setting : Setting := ⟨style, functionNames root, 0⟩
  .concat (hoisted root.body (lines setting (renderNodes setting .statement root.body)))

def withoutSuffix (text suffix : String) : String :=
  if suffix.toList.isSuffixOf text.toList then
    String.ofList (text.toList.take (text.toList.length - suffix.toList.length))
  else
    text

namespace Printer

def ofStyle (style : Style) : Printer := ⟨style, .none, []⟩

def printScript (p : Printer) (root : Block) : String × Printer :=
  let printed := renderScript p.style root
  let text :=
    if p.style.trailingNewline then printed.text else withoutSuffix printed.text p.style.newline
  (text, { p with helpers := p.helpers.union printed.helpers, named := functionNames root })

def printExpression (p : Printer) (node : Node) : String × Printer :=
  let printed := render ⟨p.style, p.named, 0⟩ .value node
  (printed.text, { p with helpers := p.helpers.union printed.helpers })

end Printer

end ScriptToPhp.Php
