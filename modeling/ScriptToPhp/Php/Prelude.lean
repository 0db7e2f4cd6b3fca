import ScriptToPhp.Php.Fragment

/-!
# Helper definitions

Each helper is a closure in PHP's table of globals, under a name with the chosen prefix. A
definition leaves an existing one alone, so that several compiled files can be loaded together.
-/

namespace ScriptToPhp.Php

def Helper.bodyLines : Helper → List String
  | .dot =>
    ["        foreach ($keys as $key) \x7b",
     "            if (is_array($value)) \x7b",
     "                if ($key === 'length' && !array_key_exists('length', $value)) \x7b",
     "                    $value = count($value);",
     "                \x7d else \x7b",
     "                    $value = array_key_exists($key, $value) ? $value[$key] : null;",
     "                \x7d",
     "            \x7d elseif (is_string($value)) \x7b",
     "                if ($key === 'length') \x7b",
     "                    $value = mb_strlen($value);",
     "                \x7d else \x7b",
     "                    $value = is_int($key) ? mb_substr($value, $key, 1) : null;",
     "                \x7d",
     "            \x7d elseif (is_object($value)) \x7b",
     "                if (isset($value->$key)) \x7b",
     "                    $value = $value->$key;",
     "                \x7d elseif (method_exists($value, $key)) \x7b",
     "                    $value = [$value, $key];",
     "                \x7d else \x7b",
     "                    $value = null;",
     "                \x7d",
     "            \x7d else \x7b",
     "                $value = null;",
     "            \x7d",
     "        \x7d",
     "        return $value;"]
  | .typeof =>
    ["        if ($value === null) \x7b",
     "            return 'undefined';",
     "        \x7d",
     "        if (is_bool($value)) \x7b",
     "            return 'boolean';",
     "        \x7d",
     "        if (is_int($value) || is_float($value)) \x7b",
     "            return 'number';",
     "        \x7d",
     "        if (is_string($value)) \x7b",
     "            return 'string';",
     "        \x7d",
     "        if ($value instanceof \\Closure) \x7b",
     "            return 'function';",
     "        \x7d",
     "        return 'object';"]

def Helper.parameters : Helper → String
  | .dot => "$value, ...$keys"
  | .typeof => "$value"

def Helper.definition (h : Helper) (namePrefix : String) : String :=
  let entry := "$GLOBALS['" ++ namePrefix ++ h.name ++ "']"
  let lines :=
    ["if (!isset(" ++ entry ++ ")) \x7b",
     "    " ++ entry ++ " = function (" ++ h.parameters ++ ") \x7b"] ++ h.bodyLines ++
    ["    \x7d;", "\x7d"]
  String.join (lines.map (· ++ "\n"))

def helperDefinitions (helpers : List Helper) (namePrefix : String) : String :=
  "\n".intercalate (helpers.map (·.definition namePrefix))

end ScriptToPhp.Php
