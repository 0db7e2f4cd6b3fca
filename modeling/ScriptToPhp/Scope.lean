/-!
# Scopes

Every block owns one scope, which holds the names declared in the block itself. A scope is known by
its index in the table of all scopes of a script.
-/

namespace ScriptToPhp

abbrev ScopeId := Nat

structure Scope where
  /-- The scope around this one. The outermost has none. -/
  parent : Option ScopeId
  /-- The set that is asked whether a name is declared. Its order means nothing. -/
  declarations : List String
  /-- Each name once, in the order of declaration. -/
  order : List String
deriving DecidableEq, Repr

namespace Scope

def ofParent (parent : Option ScopeId) : Scope := ⟨parent, [], []⟩

def declares (scope : Scope) (name : String) : Bool := scope.declarations.contains name

def names (scope : Scope) : List String := scope.order

/-- Put a name into the set and, if it was not there, behind the others. -/
def declare (scope : Scope) (name : String) : Scope :=
  if scope.declares name then scope
  else { scope with
    declarations := name :: scope.declarations
    order := scope.order ++ [name] }

end Scope

structure ScopeTable where
  scopes : List Scope
deriving DecidableEq, Repr

namespace ScopeTable

def empty : ScopeTable := ⟨[]⟩

def size (table : ScopeTable) : Nat := table.scopes.length

def extend (table : ScopeTable) (parent : Option ScopeId) : ScopeId × ScopeTable :=
  (table.size, ⟨table.scopes ++ [.ofParent parent]⟩)

def get? (table : ScopeTable) (id : ScopeId) : Option Scope := table.scopes[id]?

def declares (table : ScopeTable) (id : ScopeId) (name : String) : Bool :=
  (table.get? id).any (·.declares name)

def declare (table : ScopeTable) (id : ScopeId) (name : String) : ScopeTable :=
  ⟨table.scopes.modify id (·.declare name)⟩

/-- Declare a name and say whether it is new there. A scope that was never opened takes no names. -/
def declare? (table : ScopeTable) (id : ScopeId) (name : String) : Option (Bool × ScopeTable) :=
  if id < table.size then some (!table.declares id name, table.declare id name) else none

/-- The innermost of some scopes, given from the inside out, that declares a name. -/
def resolve (table : ScopeTable) (enclosing : List ScopeId) (name : String) : Option ScopeId :=
  enclosing.find? (table.declares · name)

end ScopeTable

end ScriptToPhp
