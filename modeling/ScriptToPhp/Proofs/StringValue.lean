import ScriptToPhp.Proofs.StringUnits

/-!
# The value of a string

The same characters between quotes mean one thing to a script and another to PHP. Both readings are
given here as functions to code points. A string whose escapes are the common ones is printed so
that the two readings agree.
-/

namespace ScriptToPhp

open Text

-- ---------------------------------------------------------------------------
-- Code points
-- ---------------------------------------------------------------------------

/-- The code point that hexadecimal digits write. Halves of a character are none. -/
def Text.codePoint? (digits : List Char) : Option Nat :=
  (hexNumber? digits).filter fun code => code.isValidChar

/-- The code point at the front of what follows an opening brace, and the number of characters up to
the closing one. -/
def Text.bracedCode? (cs : List Char) : Option (Nat × Nat) :=
  let digits := cs.takeWhile Matcher.isHexDigit
  if digits.isEmpty || cs[digits.length]? != some '\x7d' then none
  else (codePoint? digits).map (·, digits.length + 1)

section

variable {digits : List Char}

theorem Text.codePoint?_eq_some : codePoint? digits = some code ↔
    hexNumber? digits = some code ∧ code.isValidChar := by
  simp [codePoint?, Option.filter_eq_some_iff]

theorem Text.isHexDigit_of_hexDigit? (h : hexDigit? c = some n) : Matcher.isHexDigit c = true := by
  unfold Matcher.isHexDigit
  rw [← Bool.not_eq_false]
  intro hnone
  simp only [Bool.or_eq_false_iff] at hnone
  simp [hexDigit?, hnone] at h

theorem Text.isHexDigit_of_hexNumber? (h : hexNumber? digits = some code) :
    ∀ c ∈ digits, Matcher.isHexDigit c = true := by
  unfold hexNumber? at h
  generalize 0 = start at h
  induction digits generalizing start with
  | nil => simp
  | cons c digits ih =>
    simp only [List.foldlM_cons, Option.bind_eq_bind, Option.bind_eq_some_iff,
      Option.map_eq_some_iff] at h
    obtain ⟨_, ⟨n, hn, rfl⟩, hrest⟩ := h
    exact List.forall_mem_cons.2 ⟨isHexDigit_of_hexDigit? hn, ih _ hrest⟩

theorem Text.bracedCode?_append (hne : digits ≠ []) (h : codePoint? digits = some code) :
    bracedCode? (digits ++ '\x7d' :: cs) = some (code, digits.length + 1) := by
  have hdigits := isHexDigit_of_hexNumber? (codePoint?_eq_some.1 h).1
  have htake : (digits ++ '\x7d' :: cs).takeWhile Matcher.isHexDigit = digits := by
    rw [List.takeWhile_append_of_pos hdigits, List.takeWhile_cons_of_neg (by decide),
      List.append_nil]
  simp [bracedCode?, htake, hne, h]

end

-- ---------------------------------------------------------------------------
-- In a script
-- ---------------------------------------------------------------------------

def Text.escapedLetters : List Char := ['\\', '\'', '"', '$', 'n', 'r', 't', 'v', 'f']

def Text.scriptEscape? (c : Char) : Option Nat :=
  match c with
  | '\\' | '\'' | '"' | '$' => some c.toNat
  | 'n' => some 10
  | 'r' => some 13
  | 't' => some 9
  | 'v' => some 11
  | 'f' => some 12
  | _ => none

/-- The code points that the inside of a string denotes in a script. There are none if an escape is
not a common one. -/
def Text.scriptCodes? (inside : List Char) : Option (List Nat) :=
  match inside with
  | [] => some []
  | '\\' :: [] => none
  | '\\' :: 'u' :: '\x7b' :: cs => do
    let (code, length) ← bracedCode? cs
    let codes ← scriptCodes? (cs.drop length)
    return code :: codes
  | '\\' :: 'u' :: a :: b :: c :: d :: cs => do
    let code ← codePoint? [a, b, c, d]
    let codes ← scriptCodes? cs
    return code :: codes
  | '\\' :: c :: cs => do
    let code ← scriptEscape? c
    let codes ← scriptCodes? cs
    return code :: codes
  | c :: cs => do
    let codes ← scriptCodes? cs
    return c.toNat :: codes
termination_by inside.length
decreasing_by all_goals simp only [List.length_cons, List.length_drop]; omega

/-- Every escape is a common one: of a mark or a letter, or of a code point in four digits or in
braces. -/
inductive CommonEscapes : List Char → Prop
  | nil : CommonEscapes []
  | alone (hc : c ≠ '\\') (h : CommonEscapes cs) : CommonEscapes (c :: cs)
  | letter (hc : c ∈ escapedLetters) (h : CommonEscapes cs) :
      CommonEscapes ('\\' :: c :: cs)
  | code (hlength : digits.length = 4) (hcode : hexNumber? digits = some code)
    (hvalid : code.isValidChar)
      (h : CommonEscapes cs) : CommonEscapes ('\\' :: 'u' :: (digits ++ cs))
  | braced (hne : digits ≠ []) (hcode : hexNumber? digits = some code) (hvalid : code.isValidChar)
      (h : CommonEscapes cs) : CommonEscapes ('\\' :: 'u' :: '\x7b' :: (digits ++ '\x7d' :: cs))

section

variable {cs digits : List Char}

attribute [local simp] Text.scriptCodes?

theorem Text.scriptCodes?_alone (hc : c ≠ '\\') :
    scriptCodes? (c :: cs) = (scriptCodes? cs).map (c.toNat :: ·) := by
  cases h : scriptCodes? cs <;> simp [hc, h]

theorem Text.scriptCodes?_letter (hc : scriptEscape? c = some code) :
    scriptCodes? ('\\' :: c :: cs) = (scriptCodes? cs).map (code :: ·) := by
  have hu : c ≠ 'u' := by
    rintro rfl
    cases hc
  cases h : scriptCodes? cs <;> simp [hc, hu, h]

theorem Text.scriptCodes?_braced (hne : digits ≠ []) (hcode : codePoint? digits = some code) :
    scriptCodes? ('\\' :: 'u' :: '\x7b' :: (digits ++ '\x7d' :: cs)) =
      (scriptCodes? cs).map (code :: ·) := by
  cases h : scriptCodes? cs <;> simp [bracedCode?_append hne hcode, h]

theorem Text.scriptCodes?_code (hlength : digits.length = 4)
    (hcode : codePoint? digits = some code) :
    scriptCodes? ('\\' :: 'u' :: (digits ++ cs)) = (scriptCodes? cs).map (code :: ·) := by
  have hdigits := isHexDigit_of_hexNumber? (codePoint?_eq_some.1 hcode).1
  obtain ⟨a, b, c, d, rfl⟩ : ∃ a b c d, digits = [a, b, c, d] := by
    rcases digits with _ | ⟨a, _ | ⟨b, _ | ⟨c, _ | ⟨d, _ | ⟨e, digits⟩⟩⟩⟩⟩ <;> simp_all
  have ha : a ≠ '\x7b' := by
    rintro rfl
    cases hdigits '\x7b' (by simp)
  cases h : scriptCodes? cs <;> simp [ha, hcode, h]

theorem Text.scriptEscape?_isSome (hc : c ∈ escapedLetters) :
    ∃ code, scriptEscape? c = some code := by
  have hall : escapedLetters.all (scriptEscape? · |>.isSome) = true := by decide
  exact Option.isSome_iff_exists.1 (List.all_eq_true.1 hall c hc)

theorem CommonEscapes.exists_codes (h : CommonEscapes cs) :
    ∃ codes, scriptCodes? cs = some codes := by
  induction h with
  | nil => exact ⟨[], by simp⟩
  | alone hc _ ih =>
    obtain ⟨codes, hcodes⟩ := ih
    exact ⟨_, by rw [scriptCodes?_alone hc, hcodes, Option.map_some]⟩
  | letter hc _ ih =>
    obtain ⟨codes, hcodes⟩ := ih
    obtain ⟨code, hcode⟩ := scriptEscape?_isSome hc
    exact ⟨_, by rw [scriptCodes?_letter hcode, hcodes, Option.map_some]⟩
  | code hlength hcode hvalid _ ih =>
    obtain ⟨codes, hcodes⟩ := ih
    exact ⟨_, by rw [scriptCodes?_code hlength (codePoint?_eq_some.2 ⟨hcode, hvalid⟩), hcodes,
      Option.map_some]⟩
  | braced hne hcode hvalid _ ih =>
    obtain ⟨codes, hcodes⟩ := ih
    exact ⟨_, by rw [scriptCodes?_braced hne (codePoint?_eq_some.2 ⟨hcode, hvalid⟩), hcodes,
      Option.map_some]⟩

end

-- ---------------------------------------------------------------------------
-- In PHP
-- ---------------------------------------------------------------------------

namespace Php

/-- The code points that the inside of a string in single quotes denotes. There are none if a quote
ends it. -/
def singleCodes? : List Char → Option (List Nat)
  | [] => some []
  | '\\' :: '\\' :: cs => (singleCodes? cs).map ('\\'.toNat :: ·)
  | '\\' :: '\'' :: cs => (singleCodes? cs).map ('\''.toNat :: ·)
  | '\'' :: _ => none
  | c :: cs => (singleCodes? cs).map (c.toNat :: ·)

def doubleEscape? (c : Char) : Option Nat :=
  match c with
  | '\\' | '"' | '$' => some c.toNat
  | 'n' => some 10
  | 'r' => some 13
  | 't' => some 9
  | 'v' => some 11
  | 'f' => some 12
  | _ => none

/-- The code points that the inside of a string in double quotes denotes. There are none if a quote
ends it, a dollar sign begins a variable, or the braces of an escape hold no code point. -/
def doubleCodes? (inside : List Char) : Option (List Nat) :=
  match inside with
  | [] => some []
  | '\\' :: 'u' :: '\x7b' :: cs => do
    let (code, length) ← bracedCode? cs
    let codes ← doubleCodes? (cs.drop length)
    return code :: codes
  | '\\' :: c :: cs =>
    match doubleEscape? c with
    | some code => (doubleCodes? cs).map (code :: ·)
    | none => (doubleCodes? (c :: cs)).map ('\\'.toNat :: ·)
  | c :: cs => if c == '"' || c == '$' then none else (doubleCodes? cs).map (c.toNat :: ·)
termination_by inside.length
decreasing_by all_goals simp only [List.length_cons, List.length_drop]; omega

def stringCodes? (text : List Char) : Option (List Nat) :=
  match text with
  | [] => none
  | quote :: rest =>
    if rest.getLast? != some quote then none
    else if quote == '\'' then singleCodes? rest.dropLast
    else if quote == '"' then doubleCodes? rest.dropLast
    else none

section

variable {cs digits : List Char}

attribute [local simp] doubleCodes?

theorem doubleCodes?_alone (hc : standsAlone '"' c = true) :
    doubleCodes? (c :: cs) = (doubleCodes? cs).map (c.toNat :: ·) := by
  simp only [standsAlone, Bool.and_eq_true, bne_iff_ne, beq_self_eq_true, Bool.true_and,
    Bool.not_eq_true', beq_eq_false_iff_ne] at hc
  obtain ⟨⟨hquote, hescape⟩, hdollar⟩ := hc
  simp [hquote, hescape, hdollar]

theorem doubleCodes?_letter (hc : doubleEscape? c = some code) :
    doubleCodes? ('\\' :: c :: cs) = (doubleCodes? cs).map (code :: ·) := by
  have hu : c ≠ 'u' := by
    rintro rfl
    cases hc
  simp [hc, hu]

theorem doubleCodes?_braced (hne : digits ≠ []) (hcode : codePoint? digits = some code) :
    doubleCodes? ('\\' :: 'u' :: '\x7b' :: (digits ++ '\x7d' :: cs)) =
      (doubleCodes? cs).map (code :: ·) := by
  cases h : doubleCodes? cs <;> simp [bracedCode?_append hne hcode, h]

end

-- ---------------------------------------------------------------------------
-- Both readings
-- ---------------------------------------------------------------------------

section

variable {cs digits inside : List Char}

attribute [local simp] escapeDouble

theorem escapeDouble_alone (hc : standsAlone '"' c = true) :
    escapeDouble (c :: cs) = c :: escapeDouble cs := by
  simp only [standsAlone, Bool.and_eq_true, bne_iff_ne, beq_self_eq_true, Bool.true_and,
    Bool.not_eq_true', beq_eq_false_iff_ne] at hc
  obtain ⟨⟨hquote, hescape⟩, hdollar⟩ := hc
  rw [escapeDouble]
  all_goals simp [hquote, hescape, hdollar]

theorem escapeDouble_append (h : ∀ c ∈ digits, standsAlone '"' c = true) :
    escapeDouble (digits ++ cs) = digits ++ escapeDouble cs := by
  induction digits with
  | nil => rfl
  | cons c digits ih =>
    obtain ⟨hc, hdigits⟩ := List.forall_mem_cons.1 h
    rw [List.cons_append, escapeDouble_alone hc, ih hdigits, List.cons_append]

theorem escapeDouble_letter (hquote : c ≠ '\'') (hu : c ≠ 'u') :
    escapeDouble ('\\' :: c :: cs) = '\\' :: c :: escapeDouble cs := by
  simp [hquote, hu]

theorem escapeDouble_braced (h : ∀ c ∈ digits, Matcher.isHexDigit c = true) :
    escapeDouble ('\\' :: 'u' :: '\x7b' :: (digits ++ '\x7d' :: cs)) =
      '\\' :: 'u' :: '\x7b' :: (digits ++ '\x7d' :: escapeDouble cs) := by
  rw [escapeDouble, escapeDouble_alone (by decide),
    escapeDouble_append fun c hc =>
      standsAlone_of_isHexDigit (h c hc), escapeDouble_alone (by decide)]

theorem escapeDouble_code (hlength : digits.length = 4)
    (h : ∀ c ∈ digits, Matcher.isHexDigit c = true) :
    escapeDouble ('\\' :: 'u' :: (digits ++ cs)) =
      '\\' :: 'u' :: '\x7b' :: (digits ++ '\x7d' :: escapeDouble cs) := by
  have htake : (digits ++ cs).take 4 = digits := by rw [← hlength, List.take_left]
  have hdrop : (digits ++ cs).drop 4 = cs := by rw [← hlength, List.drop_left]
  have hcode : startsWithCode (digits ++ cs) = true := by
    simpa [startsWithCode, htake, hlength] using h
  rw [escapeDouble]
  · simp [hcode, htake, hdrop]
  · rintro rest hrest
    cases digits with
    | nil => cases hlength
    | cons c digits =>
      cases hrest
      cases h '\x7b' (by simp)

/-- The value of a string does not change when it is escaped for double quotes. -/
theorem doubleCodes?_escapeDouble (h : CommonEscapes inside) :
    doubleCodes? (escapeDouble inside) = scriptCodes? inside := by
  induction h with
  | nil => rw [escapeDouble, doubleCodes?, scriptCodes?]
  | @alone c cs hc _ ih =>
    rw [scriptCodes?_alone hc]
    by_cases hquote : c = '"'
    · have hescape : doubleEscape? '"' = some '"'.toNat := rfl
      rw [hquote, escapeDouble, doubleCodes?_letter hescape, ih]
    · by_cases hdollar : c = '$'
      · have hescape : doubleEscape? '$' = some '$'.toNat := rfl
        rw [hdollar, escapeDouble, doubleCodes?_letter hescape, ih]
      · have halone : standsAlone '"' c = true := by simp [standsAlone, hc, hquote, hdollar]
        rw [escapeDouble_alone halone, doubleCodes?_alone halone, ih]
  | @letter c cs hc _ ih =>
    by_cases hquote : c = '\''
    · have hescape : scriptEscape? '\'' = some '\''.toNat := rfl
      rw [hquote, escapeDouble, doubleCodes?_alone (by decide), ih, scriptCodes?_letter hescape]
    · have hall : escapedLetters.all
          (fun c => c != 'u' && (c == '\'' || doubleEscape? c == scriptEscape? c)) =
            true := by decide
      have hfacts := List.all_eq_true.1 hall c hc
      simp only [Bool.and_eq_true, bne_iff_ne, Bool.or_eq_true, beq_iff_eq, hquote,
        false_or] at hfacts
      obtain ⟨hu, hsame⟩ := hfacts
      obtain ⟨code, hcode⟩ := scriptEscape?_isSome hc
      rw [escapeDouble_letter hquote hu, doubleCodes?_letter (hsame.trans hcode), ih,
        scriptCodes?_letter hcode]
  | code hlength hcode hvalid _ ih =>
    have hpoint := codePoint?_eq_some.2 ⟨hcode, hvalid⟩
    have hne : _ ≠ [] := List.ne_nil_of_length_pos (by rw [hlength]; decide)
    rw [escapeDouble_code hlength (isHexDigit_of_hexNumber? hcode),
      doubleCodes?_braced hne hpoint, ih, scriptCodes?_code hlength hpoint]
  | braced hne hcode hvalid _ ih =>
    have hpoint := codePoint?_eq_some.2 ⟨hcode, hvalid⟩
    rw [escapeDouble_braced (isHexDigit_of_hexNumber? hcode), doubleCodes?_braced hne hpoint, ih,
      scriptCodes?_braced hne hpoint]

/-- Where single quotes stay, the only escapes are those that both readings know. -/
theorem singleCodes?_eq (hunits : StringUnits (Text.standsAlone '\'') inside)
    (hsingle : needsDoubleQuotes inside = false) : singleCodes? inside = scriptCodes? inside := by
  have hunit : Text.standsAlone '\'' '\\' = false := by decide
  have hquote : scriptEscape? '\'' = some '\''.toNat := rfl
  have hescape : scriptEscape? '\\' = some '\\'.toNat := rfl
  fun_induction needsDoubleQuotes inside with
  | case1 => rw [singleCodes?, scriptCodes?]
  | case2 cs ih =>
    rw [singleCodes?, scriptCodes?_letter hquote, ih (hunits.of_escape hunit) hsingle]
  | case3 cs ih =>
    rw [singleCodes?, scriptCodes?_letter hescape, ih (hunits.of_escape hunit) hsingle]
  | case4 => cases hsingle
  | case5 c cs _ _ hc ih =>
    obtain ⟨halone, hunits⟩ := hunits.of_alone hc
    simp only [Text.standsAlone, Bool.and_eq_true, bne_iff_ne] at halone
    rw [singleCodes?, scriptCodes?_alone hc, ih hunits hsingle]
    all_goals simp [halone]

end

theorem stringCodes?_single : stringCodes? ('\'' :: (inside ++ ['\''])) = singleCodes? inside := by
  simp [stringCodes?]

theorem stringCodes?_double : stringCodes? ('"' :: (inside ++ ['"'])) = doubleCodes? inside := by
  simp [stringCodes?]

end Php

/-- A string of a script with common escapes has a value, and it is printed as a PHP string with the
same value. -/
theorem Source.printed_string_value (source : Source) (reserved : ReservedPrefixes) {t : Token}
    (ht : t ∈ (source.scan reserved).tokens) (hkind : t.kind = .string)
    (hcommon : CommonEscapes t.text.toList.tail.dropLast) :
    ∃ codes, scriptCodes? t.text.toList.tail.dropLast = some codes ∧
      Php.stringCodes? (Php.string t.text).toList = some codes := by
  obtain ⟨pre, hlexed⟩ := (source.scan_lexed reserved).1 t ht
  obtain ⟨quote, inside, hquote, htext, hunits⟩ := hlexed.string_units hkind
  have hinside : t.text.toList.tail.dropLast = inside := by simp [htext]
  rw [hinside] at hcommon ⊢
  obtain ⟨codes, hcodes⟩ := hcommon.exists_codes
  refine ⟨codes, hcodes, ?_⟩
  rw [Php.string_eq hquote htext]
  split
  next => rw [Php.stringCodes?_double, Php.doubleCodes?_escapeDouble hcommon, hcodes]
  next hsingle =>
    have hquote : quote = '\'' := hquote.resolve_right fun h => hsingle (.inl h)
    subst hquote
    have hkept : Php.needsDoubleQuotes inside = false :=
      Bool.eq_false_iff.2 fun h => hsingle (.inr h)
    rw [Php.stringCodes?_single, Php.singleCodes?_eq hunits hkept, hcodes]

/-- A code point in four digits and one in braces, an escaped letter and quote, and characters that
PHP escapes. -/
theorem Source.printed_string_value_mixed :
    ∃ t ∈ ((Source.ofText "" "'\\u00e9\\u\x7b1F600\x7d\\n$\\'\"'").scan ⟨"", ""⟩).tokens,
      t.kind = .string ∧ CommonEscapes t.text.toList.tail.dropLast ∧
        Php.string t.text = "\"\\u\x7b00e9\x7d\\u\x7b1F600\x7d\\n\\$'\\\"\"" ∧
        Php.stringCodes? (Php.string t.text).toList = some [0xe9, 0x1f600, 10, 36, 39, 34] := by
  have hfacts : ((Source.ofText "" "'\\u00e9\\u\x7b1F600\x7d\\n$\\'\"'").scan ⟨"", ""⟩).tokens.any
    (fun t =>
      t.kind == .string && t.text.toList.tail.dropLast ==
        "\\u00e9\\u\x7b1F600\x7d\\n$\\'\"".toList &&
      scriptCodes? t.text.toList.tail.dropLast == some [0xe9, 0x1f600, 10, 36, 39, 34] &&
      Php.string t.text == "\"\\u\x7b00e9\x7d\\u\x7b1F600\x7d\\n\\$'\\\"\"") =
        true := by decide +kernel
  simp only [List.any_eq_true, Bool.and_eq_true, beq_iff_eq] at hfacts
  obtain ⟨t, ht, ⟨⟨hkind, hinside⟩, hcodes⟩, hprinted⟩ := hfacts
  have hend : CommonEscapes ('\\' :: 'n' :: '$' :: '\\' :: '\'' :: '"' :: []) :=
    .letter (by decide) (.alone (by decide) (.letter (by decide) (.alone (by decide) .nil)))
  have hbraced : CommonEscapes ('\\' :: 'u' :: '\x7b' :: (['1', 'F', '6', '0', '0'] ++ '\x7d' ::
      '\\' :: 'n' :: '$' :: '\\' :: '\'' :: '"' :: [])) :=
    .braced (by decide) (show hexNumber? _ = some 0x1f600 by decide) (by decide) hend
  have hcode : CommonEscapes ('\\' :: 'u' :: (['0', '0', 'e', '9'] ++ '\\' :: 'u' :: '\x7b' ::
      (['1', 'F', '6', '0', '0'] ++ '\x7d' :: '\\' :: 'n' :: '$' :: '\\' :: '\'' :: '"' :: []))) :=
    .code rfl (show hexNumber? _ = some 0xe9 by decide) (by decide) hbraced
  have hcommon : CommonEscapes t.text.toList.tail.dropLast := by
    rw [hinside]
    exact hcode
  obtain ⟨codes, hscript, hphp⟩ := printed_string_value _ _ ht hkind hcommon
  rw [hcodes] at hscript
  exact ⟨t, ht, hkind, hcommon, hprinted, hphp.trans hscript.symm⟩

end ScriptToPhp
