import ScriptToPhp.Path
import ScriptToPhp.Php.Prelude
import ScriptToPhp.Php.Printer

/-!
# Output files

The output of a script is an optional open tag, the definitions of the helpers it uses, and its
statements.
-/

namespace ScriptToPhp.Php

structure Output where
  php : String
  helpers : List Helper
  path : String
deriving DecidableEq, Repr

/-- The output path of a script: its name with another extension, beside it or in the chosen
directory. -/
def outputPath (options : Options) (file : String) : String :=
  let directory := options.outDir.getD ((Path.parent? file).getD ".")
  Path.join directory ((Path.fileStem? file).getD "" ++ ".php")

def emit (options : Options) (file : String) (root : Block) : Output :=
  let (body, printer) := (Printer.ofStyle (.ofOptions options)).printScript root
  let helpers := printer.helpers.toList
  let tag := if options.phpOpenTag then "<?php\n\n" else ""
  let definitions :=
    if options.emitHelpers && !helpers.isEmpty then
      helperDefinitions helpers options.helperNames ++ "\n"
    else
      ""
  { php := tag ++ definitions ++ body, helpers, path := outputPath options file }

end ScriptToPhp.Php
