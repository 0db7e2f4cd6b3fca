import ScriptToPhp.Command.Run

/-!
# Help
-/

namespace ScriptToPhp.Command

def usageLine : String := "Usage: jsphpc [OPTIONS] [FILE]...\n"

def argumentHelp : String :=
  "Arguments:\n" ++
  "  [FILE]...  Script files to compile\n" ++
  "\n" ++
  "Options:\n" ++
  "  -p, --project <PROJECT>           Path to jsphp.json\n" ++
  "      --outDir <OUT_DIR>            Redirect output files to the directory\n" ++
  "      --noHelpers                   Do not prepend the runtime helper definitions\n" ++
  "      --phpTag                      Start each output with a `<?php` tag\n" ++
  "      --constPrefix <CONST_PREFIX>  Reserved prefix for constants\n" ++
  "      --varPrefix <VAR_PREFIX>      Reserved prefix for variables and helpers\n" ++
  "      --ast                         Print the parsed tree instead of compiling\n" ++
  "      --stdout                      Write the output to stdout instead of files\n" ++
  "  -v, --verbose...                  More log output (repeatable)\n" ++
  "  -q, --quiet                       Only report errors\n" ++
  "  -h, --help                        Print help\n" ++
  "  -V, --version                     Print version\n"

def texts : Host.Texts where
  help := "jsphp - compile JavaScript-flavored scripts to PHP\n\n" ++ usageLine ++ "\n" ++
    argumentHelp
  usage :=
    "error: the arguments cannot be used\n\n" ++ usageLine ++
    "\nFor more information, try '--help'.\n"

end ScriptToPhp.Command
