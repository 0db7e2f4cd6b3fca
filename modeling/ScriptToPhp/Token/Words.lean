/-!
# The words of the language

Keywords and operators, and the groups of operators that the grammar tells apart.
-/

namespace ScriptToPhp

/-- The control words. `function` is a kind of token of its own. -/
def keywords : List String :=
  ["as", "async", "await", "break", "case", "catch", "class", "const", "continue", "debugger",
   "default", "do", "else", "enum", "export", "extends", "finally", "for", "if", "implements",
   "import", "interface", "let", "new", "package", "private", "protected", "public", "return",
   "static", "super", "switch", "throw", "try", "var", "while", "with", "yield"]

def operators : List String :=
  ["instanceof", "typeof", "delete", "void", ">>>=", "===", "!==", "**=", "<<=", ">>=", ">>>",
   "...", "++", "--", "&&", "||", "??", "==", "!=", "<=", ">=", "<<", ">>", "**", "+=", "-=",
   "*=", "/=", "%=", "&=", "|=", "^=", "=", "<", ">", "+", "-", "*", "/", "%", "&", "|", "^",
   "!", "~", "?"]

def assignmentOperators : List String :=
  ["=", "+=", "-=", "*=", "/=", "%=", "**=", "<<=", ">>=", ">>>=", "&=", "|=", "^="]

def leadingOperators : List String :=
  ["~", "!", "--", "++", "-", "+", "delete", "typeof", "void"]

/-- The operators that never take a left operand. -/
def unaryOnlyOperators : List String :=
  ["~", "!", "delete", "typeof", "void", "..."]

def isAssignmentOperator (op : String) : Bool := assignmentOperators.contains op

def isLeadingOperator (op : String) : Bool := leadingOperators.contains op

def isStepOperator (op : String) : Bool := op == "++" || op == "--"

end ScriptToPhp
