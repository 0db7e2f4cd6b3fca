import Mathlib.Data.List.DropRight
import ScriptToPhp.Proofs.StringValue
import ScriptToPhp.Proofs.Templates

/-!
# Quoted texts

A name that serves as a key is quoted: its backslashes are doubled and its single quotes escaped.
Between the quotes every single quote has an odd number of backslashes in front of it, and at the
end there is an even number, so that the literal ends at its last quote and nowhere before. PHP
reads the text back from it.
-/

namespace ScriptToPhp

open Text

-- ---------------------------------------------------------------------------
-- Escaped places
-- ---------------------------------------------------------------------------

namespace Text

/-- Whether the character behind a text is escaped by it: the backslashes at its end are odd in
number. -/
def escapesNext (cs : List Char) : Bool := (cs.rtakeWhile (· == '\\')).length % 2 == 1

/-- A backslash escapes what follows unless it is escaped itself. -/
theorem escapesNext_concat (cs : List Char) (c : Char) :
    escapesNext (cs ++ [c]) = (c == '\\' && !escapesNext cs) := by
  by_cases hc : c = '\\'
  · rw [escapesNext, List.rtakeWhile_concat_pos _ _ _ (by simp [hc]), List.length_append,
      escapesNext]
    rcases Nat.mod_two_eq_zero_or_one (cs.rtakeWhile (· == '\\')).length with h | h
    all_goals simp [hc, Nat.add_mod, h]
  · rw [escapesNext, List.rtakeWhile_concat_neg _ _ _ (by simp [hc])]
    simp [hc]

/-- What stands in front of a text without escaping its first character does not matter. -/
theorem escapesNext_append {cs : List Char} (h : escapesNext cs = false) (ds : List Char) :
    escapesNext (cs ++ ds) = escapesNext ds := by
  induction ds using List.reverseRecOn with
  | nil => rw [List.append_nil, h]; rfl
  | append_singleton ds d ih => rw [← List.append_assoc, escapesNext_concat, ih, escapesNext_concat]

theorem escapesNext_escape (c : Char) (cs : List Char) :
    escapesNext ('\\' :: c :: cs) = escapesNext cs := by
  have hunit : escapesNext ['\\', c] = false := by
    rw [← List.singleton_append, escapesNext_concat]
    simp [escapesNext, List.rtakeWhile]
  exact escapesNext_append hunit cs

theorem escapesNext_alone {c : Char} (hc : c ≠ '\\') (cs : List Char) :
    escapesNext (c :: cs) = escapesNext cs := by
  have hunit : escapesNext [c] = false := by
    rw [← List.nil_append [c], escapesNext_concat]
    simp [hc]
  exact escapesNext_append hunit cs

end Text

namespace StringUnits

variable {p : Char → Bool} {cs : List Char} (hbackslash : p '\\' = false)
include hbackslash

theorem ne_backslash {c : Char} (hc : p c = true) : c ≠ '\\' := by
  rintro rfl
  simp [hc] at hbackslash

theorem escapesNext_eq_false (h : StringUnits p cs) : escapesNext cs = false := by
  induction h with
  | nil => rfl
  | escape _ ih => rw [escapesNext_escape, ih]
  | alone hc _ ih => rw [escapesNext_alone (ne_backslash hbackslash hc), ih]

theorem escapesNext_of_mark {mark : Char} (hmark : p mark = false) (hne : mark ≠ '\\')
    {before after : List Char} (h : StringUnits p (before ++ mark :: after)) :
    escapesNext before = true := by
  generalize hcs : before ++ mark :: after = cs at h
  induction h generalizing before with
  | nil => simp at hcs
  | escape _ ih =>
    rcases before with _ | ⟨b, _ | ⟨b', before⟩⟩
    all_goals simp only [List.cons_append, List.nil_append, List.cons.injEq] at hcs
    · exact absurd hcs.1 hne
    · rw [hcs.1]
      rfl
    · obtain ⟨rfl, rfl, hcs⟩ := hcs
      rw [escapesNext_escape, ih hcs]
  | alone hc _ ih =>
    cases before with
    | nil =>
      obtain ⟨rfl, -⟩ := List.cons.inj hcs
      simp [hc] at hmark
    | cons b before =>
      simp only [List.cons_append, List.cons.injEq] at hcs
      obtain ⟨rfl, hcs⟩ := hcs
      rw [escapesNext_alone (ne_backslash hbackslash hc), ih hcs]

end StringUnits

-- ---------------------------------------------------------------------------
-- Quoting
-- ---------------------------------------------------------------------------

section

variable (cs : List Char)

theorem Text.replaceAll_char (d : Char) (replacement : List Char) :
    replaceAll [d] replacement cs = cs.flatMap fun c => if c = d then replacement else [c] := by
  induction cs with
  | nil => simp
  | cons c cs ih =>
    by_cases hc : c = d
    · subst hc
      have hfront : replaceAll [c] replacement (c :: cs) =
          replacement ++ replaceAll [c] replacement cs :=
        replaceAll_pattern (List.cons_ne_nil _ _) cs
      rw [hfront, ih]
      simp
    · rw [replaceAll_cons (by simpa using Ne.symm hc), ih]
      simp [hc]

/-- Backslashes are doubled first, and then quotes are escaped. -/
theorem escapeQuoted_eq_replaceAll :
    escapeQuoted cs = replaceAll ['\''] ['\\', '\''] (replaceAll ['\\'] ['\\', '\\'] cs) := by
  simp only [replaceAll_char]
  induction cs with
  | nil => rfl
  | cons c cs ih =>
    rw [List.flatMap_cons, List.flatMap_append, ← ih, escapeQuoted]
    by_cases hbackslash : c = '\\'
    · simp [hbackslash]
    · by_cases hquote : c = '\'' <;> simp [hbackslash, hquote]

theorem units_escapeQuoted : StringUnits (Php.standsAlone '\'') (escapeQuoted cs) := by
  induction cs with
  | nil => exact .nil
  | cons c cs ih =>
    rw [escapeQuoted]
    split
    next => exact .escape ih
    next hc =>
      simp only [Bool.or_eq_true, beq_iff_eq, not_or] at hc
      exact .alone (by simp [Php.standsAlone, hc]) ih

theorem Php.singleCodes?_escapeQuoted :
    singleCodes? (escapeQuoted cs) = some (cs.map Char.toNat) := by
  induction cs with
  | nil => rfl
  | cons c cs ih =>
    rw [escapeQuoted]
    split
    next hc =>
      simp only [Bool.or_eq_true, beq_iff_eq] at hc
      rcases hc with rfl | rfl <;> simp [singleCodes?, ih]
    next hc =>
      simp only [Bool.or_eq_true, beq_iff_eq, not_or] at hc
      rw [singleCodes?]
      · simp [ih]
      all_goals simp [hc]

end

/-- The literal made of a text by quoting it is printed as it is. Between its quotes stands the
text, with backslashes doubled and then quotes escaped. Each quote in between is escaped and the
closing one is not, so that the literal ends there, and PHP reads the characters of the text from
it. -/
theorem Literal.quoted_round_trip (text : String) (span : Span) :
    Php.string (quoted text span).value = (quoted text span).value ∧
    Php.stringCodes? (quoted text span).value.toList = some (text.toList.map Char.toNat) ∧
    ∃ inside, (quoted text span).value.toList = '\'' :: (inside ++ ['\'']) ∧
      inside = replaceAll ['\''] ['\\', '\''] (replaceAll ['\\'] ['\\', '\\'] text.toList) ∧
      (∀ before after, inside = before ++ '\'' :: after → escapesNext before = true) ∧
      escapesNext inside = false := by
  have hvalue : (quoted text span).value.toList = '\'' :: (escapeQuoted text.toList ++ ['\'']) := by
    simp [quoted]
  have hunits := units_escapeQuoted text.toList
  refine ⟨Php.string_quoted text span, ?_, escapeQuoted text.toList, hvalue,
    escapeQuoted_eq_replaceAll _, ?_, ?_⟩
  · rw [hvalue, Php.stringCodes?_single, Php.singleCodes?_escapeQuoted]
  · intro before after hinside
    rw [hinside] at hunits
    exact hunits.escapesNext_of_mark (by decide) (by decide) (by decide)
  · exact hunits.escapesNext_eq_false (by decide)

/-- A backslash in front of a quote, and one at the end. Three backslashes escape the quote inside,
and two leave the closing one as it is. -/
theorem Literal.quoted_round_trip_backslashes : (quoted "a\\'\\" default).value = "'a\\\\\\'\\\\'" ∧
    Php.string "'a\\\\\\'\\\\'" = "'a\\\\\\'\\\\'" ∧
    Php.stringCodes? "'a\\\\\\'\\\\'".toList = some [97, 92, 39, 92] ∧
    escapesNext ['a', '\\', '\\', '\\'] = true ∧
    escapesNext ['a', '\\', '\\', '\\', '\'', '\\', '\\'] = false := by
  have hvalue : (quoted "a\\'\\" default).value = "'a\\\\\\'\\\\'" := by decide +kernel
  obtain ⟨hprinted, hcodes, inside, hinside, -, hescaped, hend⟩ :=
    quoted_round_trip "a\\'\\" default
  rw [hvalue] at hprinted hcodes hinside
  have hsame : inside = ['a', '\\', '\\', '\\', '\'', '\\', '\\'] := by
    simpa using (List.append_cancel_right ((List.cons.inj hinside).2)).symm
  exact ⟨hvalue, hprinted, hcodes, hescaped _ ['\\', '\\'] hsame, hsame ▸ hend⟩

end ScriptToPhp
