import ScriptToPhp.Proofs.Outline
import ScriptToPhp.Proofs.Refusal
import ScriptToPhp.Proofs.Templates

/-!
# What is said about an unexpected token

A token that the grammar has no use for is reported with its text. Where a certain mark was expected
instead, the mark is filled in last: into the message, and also into the text of the token if that
has a place for it. Only a string can have one.
-/

namespace ScriptToPhp

open Text

-- ---------------------------------------------------------------------------
-- Tokens in words
-- ---------------------------------------------------------------------------

namespace Token

/-- In words, the token is its text with something in front of it that has no place for an argument,
and nothing or a quote behind it. -/
structure DescribedBy (t : Token) (front back : List Char) : Prop where
  eq : t.describe.toList = front ++ (t.text.toList ++ back)
  front : '\x7b' ∉ front
  back : back = [] ∨ back = ['\'']

variable {t : Token} {front back : List Char}

theorem exists_describedBy (h : t.isNeutral = false) : ∃ front back, t.DescribedBy front back := by
  have hnamed (hdescribe : t.describe = s!"{t.kind.name} {t.text}") : ∃ front back,
      t.DescribedBy front back := by
    refine ⟨t.kind.name.toList ++ [' '], [], by simp [hdescribe, toString], ?_, .inl rfl⟩
    cases t.kind <;> decide
  have hquoted (hdescribe : t.describe = s!"'{t.text}'") : ∃ front back, t.DescribedBy front back :=
    ⟨['\''], ['\''], by simp [hdescribe, toString], by decide, .inr rfl⟩
  cases hkind : t.kind with
  | comment | newline => simp [isNeutral, TokenKind.isNeutral, hkind] at h
  | punctuation | operator | lambda => exact hquoted (by simp [describe, hkind])
  | _ => exact hnamed (by simp [describe, hkind])

theorem DescribedBy.infix_describe (h : t.DescribedBy front back) :
    t.text.toList <:+: t.describe.toList :=
  ⟨front, back, by rw [h.eq, List.append_assoc]⟩

/-- Only the text of a string can have a place for an argument. -/
theorem Lexed.string_of_place (h : t.Lexed reserved chars pre) (hneutral : t.isNeutral = false)
    (hplace : placeholder 1 <:+: t.text.toList) : t.kind = .string := by
  have hbrace : '\x7b' ∈ t.text.toList := hplace.subset (by decide)
  have hnone {kind : TokenKind} (hkind : t.kind = kind)
      (htakes : kind.matcher.Takes (· != '\x7b')) : False := by
    exact absurd (h.forall_of_takes (hkind ▸ htakes) _ hbrace) (by decide)
  have hliteral (c : Char) (hc : Matcher.isLiteralCharacter c = true) : (c != '\x7b') = true := by
    rw [bne, Rule.beq_false_of_class hc (by decide)]
    rfl
  cases hkind : t.kind with
  | string => rfl
  | comment | newline => simp [isNeutral, TokenKind.isNeutral, hkind] at hneutral
  | constant =>
    exact (hnone hkind fun cs n hn c hc => hliteral c (Matcher.constant_takes cs n hn c hc)).elim
  | number =>
    exact (hnone hkind fun cs n hn c hc => hliteral c (Matcher.number_takes cs n hn c hc)).elim
  | function | lambda => exact (hnone hkind (Matcher.word_takes (by decide))).elim
  | keyword | operator => exact (hnone hkind (Matcher.longest_takes (by decide))).elim
  | «variable» => exact absurd (h.continuesName hkind _ hbrace) (by decide)
  | punctuation =>
    -- A mark is one character, and a place has three.
    obtain ⟨post, hmatcher⟩ := h.matcher
    obtain ⟨c, w, htext⟩ := List.exists_cons_of_ne_nil h.text_ne_nil
    rw [hkind, htext, List.cons_append] at hmatcher
    simp only [TokenKind.matcher, Matcher.one, Option.ite_none_right_eq_some,
      Option.some.injEq] at hmatcher
    have hlength := hplace.length_le
    rw [htext, ← hmatcher.2] at hlength
    exact absurd hlength (by decide)

end Token

-- ---------------------------------------------------------------------------
-- Messages
-- ---------------------------------------------------------------------------

theorem Text.infix_of_infix_append {d : Char} {ds front cs : List Char} (hfront : d ∉ front)
    (h : d :: ds <:+: front ++ cs) : d :: ds <:+: cs := by
  induction front with
  | nil => exact h
  | cons c front ih =>
    obtain ⟨hc, hfront⟩ := not_or.1 (mt List.mem_cons.2 hfront)
    rcases List.infix_cons_iff.1 h with h | h
    · exact absurd (List.cons_prefix_cons.1 h).1 hc
    · exact ih hfront h

theorem Parse.toList_quoteMark (c : Char) :
    (quoteMark c).toList = ['\'', c, '\''] := by simp [quoteMark]

namespace Token.DescribedBy

variable {t : Token} {front back : List Char} (h : t.DescribedBy front back) (c : Char)
include h

theorem head_behind {later : List Char} :
    ∀ d ∈ (back ++ (", ".toList ++ later)).head?, d ∉ placeholder 1 := by
  intro d hd
  rcases h.back with rfl | rfl
  · obtain rfl : ',' = d := Option.some.inj hd
    decide
  · obtain rfl : '\'' = d := Option.some.inj hd
    decide

theorem not_infix_behind :
    ¬ placeholder 1 <:+: back ++ (", ".toList ++ (['\'', c, '\''] ++ " expected.".toList)) := by
  intro hin
  have heq (d : Char) (hd : d ∈ placeholder 1)
      (hother : d ∉ '\'' :: (", ".toList ++ " expected.".toList)) : d = c := by
    have hmem := hin.subset hd
    rcases h.back with rfl | rfl <;> grind
  have hbrace := heq '\x7b' (by decide) (by decide +kernel)
  have hone := heq '1' (by decide) (by decide +kernel)
  exact absurd (hbrace.trans hone.symm) (by decide)

theorem unexpectedInstead_eq :
    (fillTemplate Message.unexpectedInstead.template [t.describe, Parse.quoteMark c]).toList =
      ("Unexpected ".toList ++ front) ++
        (replaceAll (placeholder 1) ['\'', c, '\''] t.text.toList ++
        (back ++ (", ".toList ++ (['\'', c, '\''] ++ " expected.".toList)))) := by
  have hback : ∀ d ∈ back.head?, d ∉ placeholder 1 := by
    rcases h.back with rfl | rfl <;> simp [placeholder_one]
  have hself : replaceAll (placeholder 1) ['\'', c, '\''] back = back := by
    refine replaceAll_eq_self fun hin => ?_
    rcases h.back with rfl | rfl <;> simpa [placeholder_one] using hin.length_le
  have hfound : replaceAll (placeholder 1) ['\'', c, '\''] t.describe.toList =
      front ++ (replaceAll (placeholder 1) ['\'', c, '\''] t.text.toList ++ back) := by
    rw [h.eq, placeholder_one, replaceAll_skip h.front, ← placeholder_one,
      replaceAll_append (by decide) hback, hself]
  rw [Message.fill_unexpectedInstead, Parse.toList_quoteMark, hfound]
  simp only [String.toList_append, String.toList_ofList, Parse.toList_quoteMark, List.append_assoc]

/-- The text is in the message unless it has a place for the mark: of that nothing is left
anywhere. -/
theorem infix_unexpectedInstead_iff :
    t.text.toList <:+: (fillTemplate Message.unexpectedInstead.template
      [t.describe, Parse.quoteMark c]).toList ↔
      ¬ placeholder 1 <:+: t.text.toList := by
  rw [h.unexpectedInstead_eq c]
  constructor
  · intro hin hplace
    have hfront : '\x7b' ∉ "Unexpected ".toList ++ front := by simpa using h.front
    refine h.not_infix_behind c (infix_of_infix_replaceAll h.head_behind (by decide) (by decide)
      (fun cs hcs => ?_)
      (infix_of_infix_append hfront (hplace.trans hin)))
    simpa [placeholder_one, List.infix_cons_iff] using hcs
  · intro hplace
    rw [replaceAll_eq_self hplace]
    exact ⟨_, _, List.append_assoc _ _ _⟩

end Token.DescribedBy

-- ---------------------------------------------------------------------------
-- Refusals
-- ---------------------------------------------------------------------------

namespace Script

/-- An unexpected token of the text is reported with the text at the span of the report. The only
texts that the message does not hold as they are have a place for the mark that was expected
instead, and are strings. -/
theorem unexpected_quoted {options : Options} {source : Source} {diagnostic : Diagnostic}
    (h : parse options source = .error diagnostic) (hkind : diagnostic.kind = .unexpectedToken)
    (hspan : diagnostic.location.span.isEmpty = false) :
    ∃ t ∈ source.tokens options.reserved, t.span = diagnostic.location.span ∧
      slice? source.chars diagnostic.location.span.start diagnostic.location.span.stop =
        some t.text.toList ∧
      (diagnostic.message = "Unexpected " ++ t.describe ++ "." ∧
        t.text.toList <:+: diagnostic.message.toList ∨
        ∃ c, diagnostic.message =
            "Unexpected " ++ String.ofList
              (replaceAll (placeholder 1) (Parse.quoteMark c).toList t.describe.toList) ++
              ", " ++ Parse.quoteMark c ++ " expected." ∧
          (t.text.toList <:+: diagnostic.message.toList ↔ ¬ placeholder 1 <:+: t.text.toList) ∧
          (placeholder 1 <:+: t.text.toList → t.kind = .string)) := by
  obtain ⟨fault, hcause, rfl⟩ := cause_of_parse h
  have htoken (t : Token) (ht : t ∈ source.tokens options.reserved) :
      slice? source.chars t.span.start t.span.stop = some t.text.toList ∧
      (placeholder 1 <:+: t.text.toList → t.kind = .string) ∧
        ∃ front back, t.DescribedBy front back := by
    obtain ⟨hneutral, pre, hlexed⟩ := Source.mem_tokens ht
    exact ⟨hlexed.piece.2, hlexed.string_of_place hneutral, Token.exists_describedBy hneutral⟩
  cases hcause with
  | @unexpected t ht =>
    obtain ⟨hpiece, -, front, back, hdescribed⟩ := htoken t ht
    refine ⟨t, ht, rfl, hpiece, .inl ⟨Message.fill_unexpected t.describe, ?_⟩⟩
    show t.text.toList <:+: (fillTemplate Message.unexpected.template [t.describe]).toList
    rw [Message.fill_unexpected, String.toList_append, String.toList_append]
    exact hdescribed.infix_describe.trans ⟨_, _, rfl⟩
  | @unexpectedInstead t c ht =>
    obtain ⟨hpiece, hstring, front, back, hdescribed⟩ := htoken t ht
    exact ⟨t, ht, rfl, hpiece, .inr
      ⟨c, Message.fill_unexpectedInstead _ _, hdescribed.infix_unexpectedInstead_iff c, hstring⟩⟩
  | scan hfault =>
    rcases Scanner.kind_of_scan hfault with hscan | hscan <;> cases hscan.symm.trans hkind
  | unclosed _ _ _ hmessage =>
    simp only [Token.unclosedMessages, List.mem_cons, Prod.mk.injEq, List.not_mem_nil,
      or_false] at hmessage
    rcases hmessage with ⟨-, rfl⟩ | ⟨-, rfl⟩ | ⟨-, rfl⟩ <;> cases hkind
  | unexpectedEnd =>
    have hempty (position : Nat) : (Span.empty position).isEmpty = true := by
      simp [Span.isEmpty, Span.length, Span.empty]
    exact absurd ((hempty _).symm.trans hspan) (by decide)
  | token _ _ hne | ending _ _ hne => exact absurd hkind hne
  | valueExpected | target => cases hkind

/-- A parenthesis that was expected instead of a string is filled into the string. -/
theorem unexpected_quoted_place :
    ∃ diagnostic, parse {} (.ofText "" "function '\x7b1\x7d'") = .error diagnostic ∧
      diagnostic.kind = .unexpectedToken ∧ diagnostic.location.span = ⟨9, 14⟩ ∧
      diagnostic.message = "Unexpected string ''('', '(' expected." ∧
      ∃ t ∈ (Source.ofText "" "function '\x7b1\x7d'").tokens ({} : Options).reserved,
        slice? (Source.ofText "" "function '\x7b1\x7d'").chars 9 14 = some t.text.toList ∧
          t.kind = .string ∧ ¬ t.text.toList <:+: diagnostic.message.toList := by
  have hfacts : (refusal? {} (.ofText "" "function '\x7b1\x7d'")).any (fun diagnostic =>
      diagnostic.kind == .unexpectedToken && diagnostic.location.span == ⟨9, 14⟩ &&
        diagnostic.message == "Unexpected string ''('', '(' expected.") = true := by
    decide +kernel
  obtain ⟨diagnostic, h, hfacts⟩ := exists_of_any_refusal hfacts
  simp only [Bool.and_eq_true, beq_iff_eq] at hfacts
  obtain ⟨⟨hkind, hspan⟩, hmessage⟩ := hfacts
  obtain ⟨t, ht, -, hslice, hquoted⟩ := unexpected_quoted h hkind (by rw [hspan]; rfl)
  rw [hspan] at hslice
  have hpiece : slice? (Source.ofText "" "function '\x7b1\x7d'").chars 9 14 =
      some "'\x7b1\x7d'".toList := by
    decide +kernel
  have hplace : placeholder 1 <:+: t.text.toList := by
    rw [Option.some.inj (hslice.symm.trans hpiece)]
    decide +kernel
  refine ⟨diagnostic, h, hkind, hspan, hmessage, t, ht, hslice, ?_⟩
  rcases hquoted with ⟨-, hin⟩ | ⟨c, -, hiff, hstring⟩
  · rw [Option.some.inj (hslice.symm.trans hpiece), hmessage] at hin
    exact absurd hin (by decide +kernel)
  · exact ⟨hstring hplace, fun hin => hiff.1 hin hplace⟩

end Script

end ScriptToPhp
