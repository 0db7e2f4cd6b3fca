import ScriptToPhp.Config.Json
import ScriptToPhp.Options

/-!
# Configuration files

A configuration is a JSON object with compiler options and a list of files, both of which may be
missing or null. Unknown keys are passed over; a known one may stand only once. In place of an
object, an array may give the fields in order.
-/

namespace ScriptToPhp

structure Config where
  options : Option Options
  files : Option (List String)
deriving DecidableEq, Repr

namespace JsonValue

def text? : JsonValue → Option String
  | .string text => text
  | _ => none

def flag? : JsonValue → Option Bool
  | .bool value => some value
  | _ => none

def texts? : JsonValue → Option (List String)
  | .array items => items.mapM text?
  | _ => none

def orNull? {α : Type} (read : JsonValue → Option α) : JsonValue → Option (Option α)
  | .null => some none
  | value => (read value).map some

def valuesOf (key : String) (members : List (Option String × JsonValue)) : List JsonValue :=
  members.filterMap fun (k, value) => if k == some key then some value else none

def fields? (names : List String) : JsonValue → Option (List (Option JsonValue))
  | .object members =>
    if members.all (·.1.isSome) && names.all fun name => (valuesOf name members).length ≤ 1 then
      some (names.map fun name => (valuesOf name members).head?)
    else
      none
  | .array items =>
    if items.length ≤ names.length then
      some ((items.map some) ++ List.replicate (names.length - items.length) none)
    else
      none
  | _ => none

end JsonValue

def readOr {α : Type} (fallback : α) (read : JsonValue → Option α) : Option JsonValue → Option α
  | some value => read value
  | none => some fallback

namespace Options

def ofJson? (value : JsonValue) : Option Options := do
  let names := ["constPrefix", "varPrefix", "helperPrefix", "emitHelpers", "phpOpenTag", "outDir"]
  let base : Options := {}
  match ← value.fields? names with
  | [constPrefix, varPrefix, helperPrefix, emitHelpers, phpOpenTag, outDir] =>
    return {
      constPrefix := ← readOr base.constPrefix JsonValue.text? constPrefix
      varPrefix := ← readOr base.varPrefix JsonValue.text? varPrefix
      helperPrefix := ← readOr base.helperPrefix (JsonValue.orNull? JsonValue.text?) helperPrefix
      emitHelpers := ← readOr base.emitHelpers JsonValue.flag? emitHelpers
      phpOpenTag := ← readOr base.phpOpenTag JsonValue.flag? phpOpenTag
      outDir := ← readOr base.outDir (JsonValue.orNull? JsonValue.text?) outDir }
  | _ => none

end Options

namespace Config

/-- The configuration that a JSON value gives. An array has to give both fields. -/
def ofJson? (value : JsonValue) : Option Config := do
  let complete := match value with
    | .array items => items.length == 2
    | _ => true
  if !complete then none
  match ← value.fields? ["compilerOptions", "files"] with
  | [options, files] =>
    return {
      options := ← readOr none (JsonValue.orNull? Options.ofJson?) options
      files := ← readOr none (JsonValue.orNull? JsonValue.texts?) files }
  | _ => none

def parse? (text : String) : Option Config := JsonValue.parse? text >>= ofJson?

def effectiveOptions (config : Config) : Options := config.options.getD {}

end Config

end ScriptToPhp
