import ScriptToPhp.Proofs.PrintedLiteral

/-!
# Strings in PHP quotes

Between its quotes a string is a row of units: a backslash with the character behind it, or a
character that stands for itself. The quote, the backslash and, in double quotes, the dollar sign
never stand for themselves in a printed string, so that it ends where it should and nothing is
interpolated.
-/

namespace ScriptToPhp

open Text

/-- A row of units: a backslash with the character behind it, or a character of the class. -/
inductive StringUnits (standsAlone : Char → Bool) : List Char → Prop
  | nil : StringUnits standsAlone []
  | escape {c : Char} {cs : List Char} (h : StringUnits standsAlone cs) :
    StringUnits standsAlone ('\\' :: c :: cs)
  | alone {c : Char} {cs : List Char} (hc : standsAlone c = true) (h : StringUnits standsAlone cs) :
      StringUnits standsAlone (c :: cs)

theorem StringUnits.append {p : Char → Bool} (h : StringUnits p cs) (h' : StringUnits p cs') :
    StringUnits p (cs ++ cs') := by
  induction h with
  | nil => exact h'
  | escape _ ih => exact .escape ih
  | alone hc _ ih => exact .alone hc ih

theorem StringUnits.of_forall {p : Char → Bool} (h : ∀ c ∈ cs, p c = true) : StringUnits p cs := by
  induction cs with
  | nil => exact .nil
  | cons c cs ih =>
    obtain ⟨hc, hcs⟩ := List.forall_mem_cons.1 h
    exact .alone hc (ih hcs)

theorem StringUnits.mono {p q : Char → Bool} (hpq : ∀ c, p c = true → q c = true)
    (h : StringUnits p cs) :
    StringUnits q cs := by
  induction h with
  | nil => exact .nil
  | escape _ ih => exact .escape ih
  | alone hc _ ih => exact .alone (hpq _ hc) ih

theorem StringUnits.of_escape {p : Char → Bool} (h : StringUnits p ('\\' :: c :: cs))
    (hp : p '\\' = false) :
    StringUnits p cs := by
  cases h with
  | escape h => exact h
  | alone hc => simp [hp] at hc

theorem StringUnits.of_alone {p : Char → Bool} (h : StringUnits p (c :: cs)) (hc : c ≠ '\\') :
    p c = true ∧ StringUnits p cs := by
  cases h with
  | escape => exact absurd rfl hc
  | alone hc h => exact ⟨hc, h⟩

-- ---------------------------------------------------------------------------
-- Strings of a script
-- ---------------------------------------------------------------------------

def Text.standsAlone (quote c : Char) : Bool := c != quote && c != '\\'

theorem Matcher.units_of_stringTail {quote : Char} (h : stringTail quote cs = some cs.length) :
    ∃ inside, cs = inside ++ [quote] ∧ StringUnits (standsAlone quote) inside := by
  fun_induction stringTail quote cs with
  | case1 => cases h
  | case2 c cs hquote =>
    simp only [beq_iff_eq] at hquote
    have hnil : cs = [] := by simpa using h
    exact ⟨[], by simp [hquote, hnil], .nil⟩
  | case3 => cases h
  | case4 c _ hescape d cs ih =>
    simp only [beq_iff_eq] at hescape
    obtain ⟨n, hn, hlength⟩ := Option.map_eq_some_iff.1 h
    simp only [List.length_cons] at hlength
    obtain ⟨inside, rfl, hunits⟩ := ih (by rw [hn]; congr 1; omega)
    exact ⟨'\\' :: d :: inside, by simp [hescape], .escape hunits⟩
  | case5 c cs hquote hescape ih =>
    simp only [beq_iff_eq] at hquote hescape
    obtain ⟨n, hn, hlength⟩ := Option.map_eq_some_iff.1 h
    simp only [List.length_cons] at hlength
    obtain ⟨inside, rfl, hunits⟩ := ih (by rw [hn]; congr 1; omega)
    exact ⟨c :: inside, rfl, .alone (by simp [standsAlone, hquote, hescape]) hunits⟩

/-- A string of a script is a row of units between two equal quotes. -/
theorem Token.Lexed.string_units {t : Token} (h : t.Lexed reserved chars pre)
    (ht : t.kind = .string) :
    ∃ quote inside, (quote = '\'' ∨ quote = '"') ∧ t.text.toList = quote :: (inside ++ [quote]) ∧
      StringUnits (standsAlone quote) inside := by
  obtain ⟨post, hmatcher⟩ := h.matcher
  rw [ht] at hmatcher
  have hstring := Matcher.string_of_append hmatcher
  cases htext : t.text.toList with
  | nil => exact absurd htext h.text_ne_nil
  | cons quote cs =>
    simp only [htext, Matcher.string, Option.ite_none_right_eq_some, Option.map_eq_some_iff,
      List.length_cons, Bool.or_eq_true, beq_iff_eq] at hstring
    obtain ⟨hquote, n, hn, hlength⟩ := hstring
    obtain ⟨inside, rfl, hunits⟩ := Matcher.units_of_stringTail (hn.trans (by congr 1; omega))
    exact ⟨quote, inside, hquote.symm, rfl, hunits⟩

-- ---------------------------------------------------------------------------
-- Printed strings
-- ---------------------------------------------------------------------------

namespace Php

/-- Whether a character stands for itself between the quotes of a PHP string. In double quotes a
dollar sign begins a variable. -/
def standsAlone (quote c : Char) : Bool := c != quote && c != '\\' && !(quote == '"' && c == '$')

theorem standsAlone_of_isHexDigit (h : Matcher.isHexDigit c = true) : standsAlone '"' c = true := by
  have hne : ∀ d, Matcher.isHexDigit d = false → c ≠ d := by
    rintro d hd rfl
    simp [h] at hd
  simp [standsAlone, hne '"' (by decide), hne '\\' (by decide), hne '$' (by decide)]

theorem units_escapeDouble (inside : List Char) :
    StringUnits (standsAlone '"') (escapeDouble inside) := by
  fun_induction escapeDouble inside with
  | case1 => exact .nil
  | case2 => exact .escape .nil
  | case3 rest ih => exact .alone (by decide) ih
  | case4 rest ih => exact .escape ih
  | case5 rest _ hcode ih =>
    simp only [startsWithCode, Bool.and_eq_true, List.all_eq_true] at hcode
    have hdigits : StringUnits (standsAlone '"') (rest.take 4) :=
      .of_forall fun c hc => standsAlone_of_isHexDigit (hcode.2 c hc)
    exact .escape (.alone (by decide) (hdigits.append (.alone (by decide) ih)))
  | case6 rest _ _ ih => exact .escape ih
  | case7 c rest _ _ _ ih => exact .escape ih
  | case8 rest ih => exact .escape ih
  | case9 rest ih => exact .escape ih
  | case10 c rest hend _ _ _ hescape hdouble hdollar ih =>
    have hc : c ≠ '\\' := by
      intro hc
      cases rest with
      | nil => exact hend hc rfl
      | cons d rest => exact hescape d rest hc rfl
    have hc' : c ≠ '"' ∧ c ≠ '$' := ⟨hdouble, hdollar⟩
    exact .alone (by simp [standsAlone, hc, hc']) ih

/-- The characters that escaping neither drops nor adds. -/
def isContent (c : Char) : Bool := c != '\\' && c != '\x7b' && c != '\x7d'

theorem filter_escapeDouble (inside : List Char) :
    (escapeDouble inside).filter isContent = inside.filter isContent := by
  fun_induction escapeDouble inside with
  | case5 rest _ _ ih =>
    have hsplit := congrArg (List.filter isContent) (List.take_append_drop 4 rest)
    rw [List.filter_append] at hsplit
    simpa [isContent, ih] using hsplit
  | _ => simp_all [List.filter_cons, isContent]

theorem string_eq {quote : Char} (hquote : quote = '\'' ∨ quote = '"')
    (htext : text.toList = quote :: (inside ++ [quote])) :
    (string text).toList = if quote = '"' ∨ needsDoubleQuotes inside = true then
      '"' :: (escapeDouble inside ++ ['"']) else quote :: (inside ++ [quote]) := by
  have hne : inside ++ [quote] ≠ [] := by simp
  obtain ⟨c, cs, hcs⟩ := List.exists_cons_of_ne_nil hne
  have hdrop : (c :: cs).dropLast = inside := by rw [← hcs, List.dropLast_concat]
  unfold string
  rw [htext, hcs]
  simp only [hdrop]
  rcases hquote with rfl | rfl
  · cases needsDoubleQuotes inside <;> simp [htext, hcs]
  · simp

theorem needsDoubleQuotes_escapeQuoted (cs : List Char) :
    needsDoubleQuotes (escapeQuoted cs) = false := by
  induction cs with
  | nil => rfl
  | cons c cs ih =>
    rw [escapeQuoted]
    split
    next hc =>
      simp only [Bool.or_eq_true, beq_iff_eq] at hc
      rcases hc with rfl | rfl <;> simpa [needsDoubleQuotes] using ih
    next hc =>
      simp only [Bool.or_eq_true, beq_iff_eq, not_or] at hc
      rw [needsDoubleQuotes]
      · exact ih
      all_goals simp [hc.1]

/-- A literal that was made by quoting a text is printed as it is. -/
theorem string_quoted (content : String) (span : Span) :
    string (Literal.quoted content span).value = (Literal.quoted content span).value := by
  have hvalue : (Literal.quoted content span).value.toList =
      '\'' :: (escapeQuoted content.toList ++ ['\'']) := by
    simp [Literal.quoted]
  apply String.toList_injective
  rw [string_eq (.inl rfl) hvalue, needsDoubleQuotes_escapeQuoted, hvalue]
  simp

end Php

/-- A string of a script is printed as one complete PHP string: between two equal quotes it is a row
of units, where neither the quote nor a backslash stands for itself, nor a dollar sign in double
quotes. Apart from backslashes and braces it has the characters of the script's string in their
order. -/
theorem Source.printed_string_safe (source : Source) (reserved : ReservedPrefixes) {t : Token}
    (ht : t ∈ (source.scan reserved).tokens) (hkind : t.kind = .string) :
    ∃ quote inside, (quote = '\'' ∨ quote = '"') ∧
    (Php.string t.text).toList = quote :: (inside ++ [quote]) ∧
      StringUnits (Php.standsAlone quote) inside ∧
      inside.filter Php.isContent = (t.text.toList.tail.dropLast).filter Php.isContent := by
  obtain ⟨pre, hlexed⟩ := (source.scan_lexed reserved).1 t ht
  obtain ⟨quote, inside, hquote, htext, hunits⟩ := hlexed.string_units hkind
  have hinside : t.text.toList.tail.dropLast = inside := by simp [htext]
  have hprinted := Php.string_eq hquote htext
  rw [hinside]
  split at hprinted
  next => exact ⟨'"', Php.escapeDouble inside, .inr rfl, hprinted, Php.units_escapeDouble _,
    Php.filter_escapeDouble _⟩
  next hsingle =>
    -- What stays in single quotes was a row of units before.
    have hquote : quote = '\'' := hquote.resolve_right fun h => hsingle (.inl h)
    subst hquote
    exact ⟨'\'', inside, .inl rfl, hprinted,
      hunits.mono (by simp [standsAlone, Php.standsAlone]), rfl⟩

/-- An escape without braces, a quote, a dollar sign and an escaped quote. -/
theorem Source.printed_string_safe_mixed :
    ∃ t ∈ ((Source.ofText "" "'\\u0041\"$\\''").scan ⟨"", ""⟩).tokens,
    t.kind = .string ∧ (Php.string t.text).toList =
      '"' :: ("\\u\x7b0041\x7d\\\"\\$'".toList ++ ['"']) ∧
      StringUnits (Php.standsAlone '"') "\\u\x7b0041\x7d\\\"\\$'".toList := by
  have hfacts : ((Source.ofText "" "'\\u0041\"$\\''").scan ⟨"", ""⟩).tokens.any
    (fun t => t.kind == .string &&
      (Php.string t.text).toList == '"' :: ("\\u\x7b0041\x7d\\\"\\$'".toList ++ ['"'])) =
        true := by decide +kernel
  simp only [List.any_eq_true, Bool.and_eq_true, beq_iff_eq] at hfacts
  obtain ⟨t, ht, hkind, htext⟩ := hfacts
  obtain ⟨quote, inside, -, hprinted, hunits, -⟩ := printed_string_safe _ _ ht hkind
  rw [htext, List.cons.injEq] at hprinted
  obtain ⟨rfl, hinside⟩ := hprinted
  exact ⟨t, ht, hkind, htext, List.append_cancel_right hinside ▸ hunits⟩

end ScriptToPhp
