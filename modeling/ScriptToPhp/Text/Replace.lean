/-!
# Replacement

Every occurrence of a pattern is replaced, from left to right, and what was inserted is not searched
again.
-/

namespace ScriptToPhp.Text

/-- Replace each occurrence of a pattern that is not empty. -/
def replaceAll (pattern replacement : List Char) (text : List Char) : List Char :=
  match text with
  | [] => []
  | c :: cs =>
    if pattern.isPrefixOf (c :: cs) then
      replacement ++ replaceAll pattern replacement (cs.drop (pattern.length - 1))
    else
      c :: replaceAll pattern replacement cs
termination_by text.length
decreasing_by all_goals simp; try omega

end ScriptToPhp.Text
