import ScriptToPhp.Diagnostic.Basic

/-!
# Filling in templates

Replacement leaves alone what holds no occurrence of the pattern, and goes piece by piece where no
occurrence can lie across two pieces. A template with one place shows its argument as it is. In one
with two places the second argument also goes where the first brings its place along, and no other
trace of the second place is left.
-/

namespace ScriptToPhp

namespace Text

variable {pattern replacement : List Char}

@[simp] theorem replaceAll_nil : replaceAll pattern replacement [] = [] := by rw [replaceAll]

theorem replaceAll_cons {c : Char} {cs : List Char} (h : ¬ pattern <+: c :: cs) :
    replaceAll pattern replacement (c :: cs) = c :: replaceAll pattern replacement cs := by
  rw [replaceAll, if_neg (mt List.isPrefixOf_iff_prefix.1 h)]

theorem replaceAll_pattern (hne : pattern ≠ []) (cs : List Char) :
    replaceAll pattern replacement (pattern ++ cs) =
      replacement ++ replaceAll pattern replacement cs := by
  obtain ⟨d, ds, rfl⟩ := List.exists_cons_of_ne_nil hne
  rw [List.cons_append, replaceAll, ← List.cons_append,
    if_pos (List.isPrefixOf_iff_prefix.2 (List.prefix_append _ cs))]
  simp

theorem replaceAll_skip {d : Char} {ds front : List Char} (h : d ∉ front) (cs : List Char) :
    replaceAll (d :: ds) replacement (front ++ cs) =
      front ++ replaceAll (d :: ds) replacement cs := by
  induction front with
  | nil => rfl
  | cons c front ih =>
    obtain ⟨hc, hfront⟩ := not_or.1 (mt List.mem_cons.2 h)
    have hnot : ¬ d :: ds <+: c :: (front ++ cs) := fun hpre => hc (List.cons_prefix_cons.1 hpre).1
    rw [List.cons_append, replaceAll_cons hnot, ih hfront, List.cons_append]

theorem replaceAll_eq_self {cs : List Char} (h : ¬ pattern <:+: cs) :
    replaceAll pattern replacement cs = cs := by
  induction cs with
  | nil => exact replaceAll_nil
  | cons c cs ih =>
    rw [List.infix_cons_iff, not_or] at h
    rw [replaceAll_cons h.1, ih h.2]

theorem prefix_of_prefix_append {cs later : List Char} (h : pattern <+: cs ++ later)
    (hlater : ∀ d ∈ later.head?, d ∉ pattern) : pattern <+: cs := by
  induction pattern generalizing cs with
  | nil => exact List.nil_prefix
  | cons x pattern ih =>
    cases cs with
    | nil =>
      obtain ⟨later, rfl⟩ := h
      exact absurd List.mem_cons_self (hlater x rfl)
    | cons c cs =>
      obtain ⟨rfl, htail⟩ := List.cons_prefix_cons.1 h
      exact List.cons_prefix_cons.2 ⟨rfl,
        ih htail fun d hd hmem => hlater d hd (List.mem_cons_of_mem _ hmem)⟩

/-- A text is read from its front on: past an occurrence of the pattern, or else past one
character. -/
theorem induction_on_occurrences (hne : pattern ≠ []) {motive : List Char → Prop} (nil : motive [])
    (occurrence : ∀ cs, motive cs → motive (pattern ++ cs))
    (other : ∀ c cs, ¬ pattern <+: c :: cs → motive cs → motive (c :: cs)) (cs : List Char) :
    motive cs := by
  by_cases hpre : pattern <+: cs
  · obtain ⟨rest, hrest⟩ := hpre
    rw [← hrest]
    exact occurrence rest (induction_on_occurrences hne nil occurrence other rest)
  · cases cs with
    | nil => exact nil
    | cons c cs => exact other c cs hpre (induction_on_occurrences hne nil occurrence other cs)
termination_by cs.length
decreasing_by
  · have hshorter := List.length_pos_iff.2 hne
    rw [← hrest, List.length_append]
    omega
  · exact Nat.lt_succ_self _

theorem replaceAll_append {later : List Char} (hne : pattern ≠ [])
    (hlater : ∀ d ∈ later.head?, d ∉ pattern) (cs : List Char) :
    replaceAll pattern replacement (cs ++ later) =
      replaceAll pattern replacement cs ++ replaceAll pattern replacement later := by
  induction cs using induction_on_occurrences hne with
  | nil => simp
  | occurrence cs ih =>
    rw [List.append_assoc, replaceAll_pattern hne, ih, replaceAll_pattern hne, List.append_assoc]
  | other c cs hnot ih =>
    have hnot' : ¬ pattern <+: c :: (cs ++ later) :=
      fun h => hnot (prefix_of_prefix_append h hlater)
    rw [List.cons_append, replaceAll_cons hnot', ih, replaceAll_cons hnot, List.cons_append]

section

variable {d : Char} {ds later : List Char} (hlater : ∀ c ∈ later.head?, c ∉ pattern)
  (hd : d ∉ pattern)
include hlater hd

/-- What stands in front after a replacement, and runs into nothing that was inserted, stood there
before. -/
theorem prefix_of_prefix_replaceAll {front cs : List Char} (hne : pattern ≠ [])
    (hfront : front ⊆ pattern) (h : front <+: replaceAll pattern (d :: ds) cs ++ later) :
    front <+: cs := by
  induction front generalizing cs with
  | nil => exact List.nil_prefix
  | cons x front ih =>
    obtain ⟨hx, hfront⟩ := List.cons_subset.1 hfront
    cases cs with
    | nil =>
      obtain ⟨rest, hrest⟩ := h
      exact absurd hx (hlater x (by rw [← List.nil_append later, ← replaceAll_nil, ← hrest]; rfl))
    | cons c cs =>
      by_cases hpre : pattern <+: c :: cs
      · obtain ⟨rest, hrest⟩ := hpre
        rw [← hrest, replaceAll_pattern hne] at h
        exact absurd ((List.cons_prefix_cons.1 h).1 ▸ hx) hd
      · rw [replaceAll_cons hpre] at h
        obtain ⟨rfl, htail⟩ := List.cons_prefix_cons.1 h
        exact List.cons_prefix_cons.2 ⟨rfl, ih hfront htail⟩

/-- No occurrence is left, unless what was inserted begins one. -/
theorem infix_of_infix_replaceAll {cs : List Char} (hne : pattern ≠ [])
    (hinserted : ∀ cs, pattern <:+: d :: ds ++ cs → pattern <:+: cs)
    (h : pattern <:+: replaceAll pattern (d :: ds) cs ++ later) : pattern <:+: later := by
  induction cs using induction_on_occurrences hne with
  | nil => simpa using h
  | occurrence cs ih =>
    rw [replaceAll_pattern hne, List.append_assoc] at h
    exact ih (hinserted _ h)
  | other c cs hnot ih =>
    have hfront : pattern <+: replaceAll pattern (d :: ds) (c :: cs) ++ later →
        pattern <+: c :: cs :=
      prefix_of_prefix_replaceAll hlater hd hne (List.Subset.refl _)
    rw [replaceAll_cons hnot] at h hfront
    rcases List.infix_cons_iff.1 h with h | h
    · exact absurd (hfront h) hnot
    · exact ih h

end

end Text

open Text

theorem placeholder_zero : placeholder 0 = ['\x7b', '0', '\x7d'] := rfl

theorem placeholder_one : placeholder 1 = ['\x7b', '1', '\x7d'] := rfl

theorem fillTemplate_one {front back : String} (hfront : '\x7b' ∉ front.toList)
    (hback : '\x7b' ∉ back.toList) (argument : String) :
    fillTemplate (front ++ "\x7b0\x7d" ++ back) [argument] = front ++ argument ++ back := by
  have hplace : (front ++ "\x7b0\x7d" ++ back).toList =
      front.toList ++ (placeholder 0 ++ (back.toList ++ [])) := by
    simp [placeholder_zero]
  rw [fillTemplate, fillFrom, fillFrom, hplace, placeholder_zero, replaceAll_skip hfront,
    replaceAll_pattern (List.cons_ne_nil _ _), replaceAll_skip hback, replaceAll_nil]
  simp only [String.ofList_append, String.ofList_toList, List.append_nil, String.append_assoc]

namespace Message

theorem fill_unexpected (found : String) :
    fillTemplate unexpected.template [found] = "Unexpected " ++ found ++ "." := by
  have htemplate : unexpected.template = "Unexpected " ++ "\x7b0\x7d" ++ "." := by decide +kernel
  rw [htemplate, fillTemplate_one (by decide +kernel) (by decide +kernel)]

/-- What was expected also goes where the text that was found brings its place along. -/
theorem fill_unexpectedInstead (found expected : String) :
    fillTemplate unexpectedInstead.template [found, expected] =
    "Unexpected " ++ String.ofList (replaceAll (placeholder 1) expected.toList found.toList) ++
      ", " ++ expected ++
      " expected." := by
  have htemplate : unexpectedInstead.template.toList =
      "Unexpected ".toList ++ (placeholder 0 ++
        (", ".toList ++ (placeholder 1 ++ (" expected.".toList ++ [])))) := by
    decide +kernel
  have hfirst : replaceAll (placeholder 0) found.toList unexpectedInstead.template.toList =
      "Unexpected ".toList ++ (found.toList ++
        (", ".toList ++ (placeholder 1 ++ (" expected.".toList ++ [])))) := by
    rw [htemplate, placeholder_zero, replaceAll_skip (by decide +kernel),
      replaceAll_pattern (List.cons_ne_nil _ _), replaceAll_eq_self (by decide +kernel)]
  have hcomma (later : List Char) : ∀ d ∈ (", ".toList ++ later).head?,
      d ∉ ['\x7b', '1', '\x7d'] := by
    intro d hd
    obtain rfl : ',' = d := Option.some.inj hd
    decide
  rw [fillTemplate, fillFrom, fillFrom, fillFrom, hfirst, placeholder_one,
    replaceAll_skip (by decide +kernel), replaceAll_append (List.cons_ne_nil _ _) (hcomma _),
      replaceAll_skip (by decide +kernel),
    replaceAll_pattern (List.cons_ne_nil _ _), replaceAll_skip (by decide +kernel), replaceAll_nil]
  simp only [String.ofList_append, String.ofList_toList, List.append_nil, String.append_assoc]

end Message

end ScriptToPhp
