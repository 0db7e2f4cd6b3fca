import ScriptToPhp.Php.Literal
import ScriptToPhp.Proofs.Derivation
import ScriptToPhp.Proofs.Lexeme

/-!
# Printed literals

A literal of a script, written as PHP writes it, is read again as one token of the same kind.
-/

namespace ScriptToPhp

open Text

namespace Matcher

-- ---------------------------------------------------------------------------
-- Constants
-- ---------------------------------------------------------------------------

theorem constant_math (h : constant ('M' :: 'a' :: 't' :: 'h' :: '.' :: w) = some (w.length + 5)) :
    oneThen Char.isUpper isUpperTail w = some w.length := by
  have hcapitals : capitals ('M' :: 'a' :: 't' :: 'h' :: '.' :: w) = some 1 := rfl
  simp only [constant, firstOf, List.findSome?_cons] at h
  simp [word, List.isPrefixOf_cons_cons, andThen, hcapitals] at h
  cases hw : oneThen Char.isUpper isUpperTail w with
  | none => simp [hw] at h
  | some n =>
    simp only [hw, Option.bind_some, Option.some.injEq] at h
    congr 1
    omega

theorem constant_capitals (hw : oneThen Char.isUpper isUpperTail w = some w.length) :
    constant ('M' :: '_' :: w) = some (w.length + 2) := by
  have hrun : run isUpperTail ('_' :: w) = w.length + 1 := by
    refine run_eq_length (List.forall_mem_cons.2 ⟨by decide, ?_⟩)
    cases w with
    | nil => simp
    | cons c w =>
      simp only [oneThen, Option.ite_none_right_eq_some, Option.some.injEq, List.length_cons] at hw
      have hc : isUpperTail c = true := by simp [isUpperTail, hw.1]
      exact List.forall_mem_cons.2 ⟨hc, forall_of_run_eq_length (by omega)⟩
  have hcapitals : capitals ('M' :: '_' :: w) = some (w.length + 2) := by
    have hname : capitals ('M' :: '_' :: w) = some (0 + (1 + run isUpperTail ('_' :: w))) := rfl
    rw [hname, hrun]
    congr 1
    omega
  simp only [constant, firstOf, List.findSome?_cons]
  simp [word, List.isPrefixOf_cons_cons, andThen, hcapitals]

theorem constant_constantValue (h : constant text.toList = some text.toList.length) :
    constant (Token.constantValue text).toList = some (Token.constantValue text).toList.length := by
  unfold Token.constantValue
  split
  next => decide
  next =>
    split
    next => decide
    next =>
      split
      next => decide
      next =>
        split
        next hmath =>
          obtain ⟨w, hw⟩ := List.isPrefixOf_iff_prefix.1 hmath
          have hconstant := constant_capitals (constant_math (w := w) (by simpa [← hw] using h))
          simpa [← hw] using hconstant
        next => exact h

-- ---------------------------------------------------------------------------
-- Numbers
-- ---------------------------------------------------------------------------

theorem radix_digits {lower upper : Char} (hlower : lower.isDigit = false)
    (hupper : upper.isDigit = false) (hw : ∀ c ∈ w, c.isDigit = true) :
    radix lower upper digit w = none := by
  match w with
  | [] => rfl
  | [c] => cases hc : c == '0' <;> simp [radix, andThen, one, hc]
  | c :: d :: w =>
    have hd : d.isDigit = true := hw d (by simp)
    have hne : (d == lower || d == upper) = false := by
      simp only [Bool.or_eq_false_iff, beq_eq_false_iff_ne]
      constructor <;> rintro rfl <;> simp_all
    refine andThen_eq_none.2 fun k hk => ?_
    simp only [one, Option.ite_none_right_eq_some] at hk
    cases hk.2
    exact andThen_needs one_needs d w hne

theorem number_digits (hw : ∀ c ∈ w, c.isDigit = true) (hne : w ≠ []) :
    number w = some w.length := by
  have hpos : w.length ≠ 0 := by simpa using hne
  have hmantissa : mantissa w = some w.length := by
    simp [mantissa, firstOf, andMaybe, run1, run_eq_length hw, hpos, oneThen]
  have hexponent : exponent [] = none := rfl
  have hbinary : radix 'b' 'B' isBinaryDigit w = none := radix_digits (by decide) (by decide) hw
  have hoctal : radix 'o' 'O' isOctalDigit w = none := radix_digits (by decide) (by decide) hw
  have hhexadecimal : radix 'x' 'X' isHexDigit w = none := radix_digits (by decide) (by decide) hw
  simp [number, firstOf, hbinary, hoctal, hhexadecimal, andMaybe, hmantissa, hexponent]

theorem isDigit_of_isOctalDigit (h : isOctalDigit c = true) : c.isDigit = true := by
  simp only [isOctalDigit, Bool.and_eq_true, decide_eq_true_eq] at h
  simp only [Char.isDigit, Bool.and_eq_true, decide_eq_true_eq]
  obtain ⟨hlow, hhigh⟩ := h
  refine ⟨hlow, ?_⟩
  exact UInt32.le_trans hhigh (by decide)

theorem number_octal (hletter : letter = 'o' ∨ letter = 'O')
    (h : number ('0' :: letter :: w) = some (w.length + 2)) :
    run1 isOctalDigit w = some w.length := by
  have hmantissa : mantissa ('0' :: letter :: w) = some 1 := by
    rcases hletter with rfl | rfl <;> rfl
  have hexponent : exponent (letter :: w) = none := by rcases hletter with rfl | rfl <;> rfl
  have hbinary : radix 'b' 'B' isBinaryDigit ('0' :: letter :: w) = none := by
    rcases hletter with rfl | rfl <;> rfl
  have hhexadecimal : radix 'x' 'X' isHexDigit ('0' :: letter :: w) = none := by
    rcases hletter with rfl | rfl <;> rfl
  have hoctal : radix 'o' 'O' isOctalDigit ('0' :: letter :: w) =
      (run1 isOctalDigit w).map (· + 2) := by
    cases hw : run1 isOctalDigit w <;> simp [radix, andThen, one, hletter, hw]
    omega
  simp only [number, firstOf, List.findSome?_cons, hbinary, hhexadecimal, hoctal] at h
  cases hw : run1 isOctalDigit w with
  | none => simp [hw, andMaybe, hmantissa, hexponent] at h
  | some n =>
    simp only [hw, Option.map_some, Option.some.injEq] at h
    congr 1
    omega

theorem number_number (h : number text.toList = some text.toList.length) :
    number (Php.number text).toList = some (Php.number text).toList.length := by
  have hdigits : ∀ letter w, letter = 'o' ∨ letter = 'O' → text.toList = '0' :: letter :: w →
      number ('0' :: w) = some ('0' :: w).length := by
    intro letter w hletter heq
    rw [heq] at h
    have hrun := number_octal hletter h
    simp only [run1, Option.ite_none_left_eq_some, Option.some.injEq] at hrun
    refine number_digits (List.forall_mem_cons.2 ⟨by decide, fun c hc => ?_⟩) (by simp)
    exact isDigit_of_isOctalDigit (forall_of_run_eq_length hrun.2 c hc)
  unfold Php.number
  split
  next w heq => simpa using hdigits 'o' w (.inl rfl) heq
  next w heq => simpa using hdigits 'O' w (.inr rfl) heq
  next => exact h

-- ---------------------------------------------------------------------------
-- Strings
-- ---------------------------------------------------------------------------

variable {quote : Char}

theorem stringTail_escape_some (hquote : quote ≠ '\\') (h : stringTail quote cs = some n) :
    stringTail quote ('\\' :: c :: cs) = some (n + 2) := by
  rw [stringTail_escape hquote, h, Option.map_some, Nat.add_comm]

theorem stringTail_other_some (hquote : c ≠ quote) (hescape : c ≠ '\\')
    (h : stringTail quote cs = some n) :
    stringTail quote (c :: cs) = some (n + 1) := by
  rw [stringTail_other hquote hescape, h, Option.map_some, Nat.add_comm]

theorem stringTail_plain (hxs : ∀ c ∈ xs, c ≠ quote ∧ c ≠ '\\') (h : stringTail quote cs = some n) :
    stringTail quote (xs ++ cs) = some (xs.length + n) := by
  induction xs with
  | nil => simpa using h
  | cons c xs ih =>
    simp only [List.mem_cons, forall_eq_or_imp] at hxs
    rw [List.cons_append, stringTail_other_some hxs.1.1 hxs.1.2 (ih hxs.2), List.length_cons]
    congr 1
    omega

theorem isHexDigit_plain (h : isHexDigit c = true) : c ≠ '"' ∧ c ≠ '\\' := by
  constructor <;> rintro rfl <;> revert h <;> decide

/-- What is escaped for double quotes does not end the string. -/
theorem stringTail_escapeDouble (h : stringTail '"' cs = some n) :
    stringTail '"' (Php.escapeDouble inside ++ cs) =
      some ((Php.escapeDouble inside).length + n) := by
  have hquote : '"' ≠ '\\' := by decide
  fun_induction Php.escapeDouble inside with
  | case1 => simpa using h
  | case2 => exact (stringTail_escape_some hquote h).trans (by simp [Nat.add_comm])
  | case3 rest ih => exact (stringTail_other_some (by decide) (by decide) ih).trans (by simp; omega)
  | case4 rest ih => exact (stringTail_escape_some hquote ih).trans (by simp; omega)
  | case5 rest _ hcode ih =>
    simp only [Php.startsWithCode, Bool.and_eq_true, beq_iff_eq, List.all_eq_true] at hcode
    have hplain : ∀ c ∈ '\x7b' :: rest.take 4 ++ ['\x7d'], c ≠ '"' ∧ c ≠ '\\' := by
      intro c hc
      simp only [List.cons_append, List.mem_cons, List.mem_append, List.not_mem_nil, or_false] at hc
      rcases hc with rfl | hc | rfl
      · decide
      · exact isHexDigit_plain (hcode.2 c hc)
      · decide
    have htail := stringTail_escape_some (c := 'u') hquote (stringTail_plain hplain ih)
    simp only [List.cons_append, List.append_assoc, List.nil_append] at htail ⊢
    exact htail.trans (by simp; omega)
  | case6 rest _ _ ih => exact (stringTail_escape_some hquote ih).trans (by simp; omega)
  | case7 c rest _ _ _ ih => exact (stringTail_escape_some hquote ih).trans (by simp; omega)
  | case8 rest ih => exact (stringTail_escape_some hquote ih).trans (by simp; omega)
  | case9 rest ih => exact (stringTail_escape_some hquote ih).trans (by simp; omega)
  | case10 c rest hend _ _ _ hescape hdouble _ ih =>
    have hc : c ≠ '\\' := by
      intro hc
      cases rest with
      | nil => exact hend hc rfl
      | cons d rest => exact hescape d rest hc rfl
    exact (stringTail_other_some hdouble hc ih).trans (by simp; omega)

theorem string_string (h : string text.toList = some text.toList.length) :
    string (Php.string text).toList = some (Php.string text).toList.length := by
  unfold Php.string
  split
  next quote c inside heq =>
    split
    next =>
      have htail : stringTail '"' ['"'] = some 1 := rfl
      simp [string, stringTail_escapeDouble htail]
      omega
    next => exact h
  next => exact h

end Matcher

-- ---------------------------------------------------------------------------
-- Tokens
-- ---------------------------------------------------------------------------

def IsLiteralText (w : List Char) : TokenKind → Prop
  | .constant => Matcher.constant w = some w.length
  | .number => Matcher.number w = some w.length
  | .string => Matcher.string w = some w.length
  | _ => False

theorem IsLiteralText.first? (h : IsLiteralText w found) (htail : Stopped tail) :
    Rule.first? (w ++ tail) = some (found, w.length) := by
  unfold IsLiteralText at h
  split at h
  · exact Rule.first?_constant h htail
  · exact Rule.first?_number h htail
  · exact Rule.first?_string h
  · exact h.elim

theorem IsLiteralText.head_ne (h : IsLiteralText w found) : ∃ c cs, w = c :: cs ∧ c ≠ '=' := by
  cases w with
  | nil => cases found <;> cases h
  | cons c cs =>
    refine ⟨c, cs, rfl, ?_⟩
    rintro rfl
    cases found with
    | constant => exact absurd (Matcher.constant_needs.of_some h) (by decide)
    | number => exact absurd (Matcher.number_needs.of_some h) (by decide)
    | string => exact absurd (Matcher.string_needs.of_some h) (by decide)
    | _ => exact h

theorem Matcher.string_of_append (h : string (w ++ post) = some w.length) :
    string w = some w.length := by
  cases w with
  | nil =>
    cases post with
    | nil => cases h
    | cons c post =>
      simp only [List.nil_append, string, Option.ite_none_right_eq_some,
        Option.map_eq_some_iff] at h
      obtain ⟨-, n, -, hn⟩ := h
      simp at hn
  | cons c w =>
    simp only [List.cons_append, string, Option.ite_none_right_eq_some, Option.map_eq_some_iff,
      List.length_cons] at h ⊢
    obtain ⟨hquote, n, htail, hn⟩ := h
    exact ⟨hquote, n, stringTail_of_append htail (by omega), hn⟩

/-- A literal of the text is one token of its kind in PHP too. -/
theorem Token.Lexed.isLiteralText {t : Token} (h : t.Lexed reserved chars pre)
    (hl : t.literal? = some l) :
    IsLiteralText (Php.literal l).toList t.kind := by
  obtain ⟨post, hmatcher⟩ := h.matcher
  have hvalue := h.value
  unfold literal? at hl
  split at hl
  next hkind =>
    cases hl
    rw [hkind] at hmatcher hvalue ⊢
    simp only [Php.literal, hvalue, ↓reduceIte]
    refine Matcher.constant_constantValue ?_
    simpa using Matcher.constant_stops.takes _ post [] _ hmatcher (Nat.le_refl _) trivial
  next hkind =>
    cases hl
    rw [hkind] at hmatcher hvalue ⊢
    simp only [Php.literal, hvalue, reduceCtorEq, ↓reduceIte]
    refine Matcher.number_number ?_
    simpa using Matcher.number_stops.takes _ post [] _ hmatcher (Nat.le_refl _) trivial
  next hkind =>
    cases hl
    rw [hkind] at hmatcher hvalue ⊢
    simp only [Php.literal, hvalue, reduceCtorEq, ↓reduceIte]
    exact Matcher.string_string (Matcher.string_of_append hmatcher)
  next => cases hl

-- ---------------------------------------------------------------------------
-- Carriage returns
-- ---------------------------------------------------------------------------

theorem Php.mem_of_mem_escapeDouble (h : '\r' ∈ escapeDouble inside) : '\r' ∈ inside := by
  fun_induction escapeDouble inside with
  | case1 => exact h
  | case2 => simp at h
  | case3 cs ih => simpa using ih (by simpa using h)
  | case4 cs ih => simpa using ih (by simpa using h)
  | case5 cs _ _ ih =>
    simp only [List.cons_append, List.mem_cons, List.mem_append, Char.reduceEq, false_or] at h ⊢
    rcases h with h | h
    · exact List.mem_of_mem_take h
    · exact List.mem_of_mem_drop (ih h)
  | case6 cs _ _ ih => simpa using ih (by simpa using h)
  | case7 c cs _ _ _ ih =>
    simp only [List.mem_cons, Char.reduceEq, false_or] at h ⊢
    exact h.imp_right ih
  | case8 cs ih => simpa using ih (by simpa using h)
  | case9 cs ih => simpa using ih (by simpa using h)
  | case10 c cs _ _ _ _ _ _ _ ih =>
    simp only [List.mem_cons] at h ⊢
    exact h.imp_right ih

theorem Php.mem_of_mem_literal (h : '\r' ∈ (literal l).toList) : '\r' ∈ l.value.toList := by
  unfold literal at h
  split at h
  next => exact h
  next =>
    unfold number at h
    split at h
    next w heq => simp_all
    next w heq => simp_all
    next => exact h
  next =>
    unfold string at h
    split at h
    next quote c inside heq =>
      split at h
      next =>
        simp only [String.toList_ofList, List.cons_append, List.mem_cons, List.mem_append,
          Char.reduceEq, List.not_mem_nil, or_false, false_or] at h
        rw [heq]
        exact List.mem_cons_of_mem _ (List.dropLast_subset _ (mem_of_mem_escapeDouble h))
      next => exact h
    next => exact h

theorem Token.mem_of_mem_constantValue {name : String} (h : '\r' ∈ (constantValue name).toList) :
    '\r' ∈ name.toList := by
  unfold constantValue at h
  split at h
  next => exact absurd h (by decide)
  next =>
    split at h
    next => exact absurd h (by decide)
    next =>
      split at h
      next => exact absurd h (by decide)
      next =>
        split at h
        next => exact List.mem_of_mem_drop (by simpa using h)
        next => exact h

theorem Token.Lexed.mem_of_mem_literal {t : Token} (h : t.Lexed reserved chars pre)
    (hl : t.literal? = some l) (hmem : '\r' ∈ (Php.literal l).toList) : '\r' ∈ chars := by
  have hvalue : '\r' ∈ t.value.toList := by
    have hl' := Php.mem_of_mem_literal hmem
    unfold literal? at hl
    split at hl <;> cases hl <;> exact hl'
  have htext : '\r' ∈ t.text.toList := by
    rw [h.value] at hvalue
    split at hvalue
    · exact mem_of_mem_constantValue hvalue
    · exact hvalue
  obtain ⟨post, hchars, -⟩ := h.first
  simp [hchars, htext]

end ScriptToPhp
