import ScriptToPhp.Token.Stream

/-!
# What a scan yields

Every token of a scan is a piece of the text: the first rule that takes something at its start takes
exactly its characters, its span counts the bytes before and in it, and its name is not reserved.
The tokens stand in the order of the text and do not overlap.
-/

namespace ScriptToPhp

open Text

-- ---------------------------------------------------------------------------
-- Bytes
-- ---------------------------------------------------------------------------

@[simp] theorem Text.byteLength_append (cs ds : List Char) :
    byteLength (cs ++ ds) = byteLength cs + byteLength ds := by
  induction cs with
  | nil => simp [byteLength]
  | cons c cs ih => simp [byteLength, ih, Nat.add_assoc]

theorem Text.byteLength_pos {cs : List Char} (h : cs ≠ []) : 0 < byteLength cs := by
  cases cs with
  | nil => exact absurd rfl h
  | cons c cs =>
    have hc := c.utf8Size_pos
    simp only [byteLength]
    omega

-- ---------------------------------------------------------------------------
-- Rules take no more than there is
-- ---------------------------------------------------------------------------

namespace Matcher

def Bounded (m : Matcher) : Prop := ∀ cs n, m cs = some n → n ≤ cs.length

theorem word_bounded (w : String) : (word w).Bounded := by
  intro cs n h
  simp only [word, Option.ite_none_right_eq_some, Option.some.injEq] at h
  obtain ⟨hfront, rfl⟩ := h
  exact (List.isPrefixOf_iff_prefix.1 hfront).length_le

theorem longest_bounded (words : List String) : (longest words).Bounded := by
  intro cs n h
  obtain ⟨w, -, hw⟩ := List.mem_filterMap.1 (List.max?_mem h)
  exact word_bounded w cs n hw

theorem firstOf_bounded {matchers : List Matcher} (hm : ∀ m ∈ matchers, m.Bounded) :
    (firstOf matchers).Bounded := by
  intro cs n h
  obtain ⟨m, hmem, hn⟩ := List.exists_of_findSome?_eq_some h
  exact hm m hmem cs n hn

theorem run_le (p : Char → Bool) (cs : List Char) : run p cs ≤ cs.length :=
  (List.takeWhile_prefix p).length_le

theorem take_run (p : Char → Bool) (cs : List Char) : cs.take (run p cs) = cs.takeWhile p :=
  (List.prefix_iff_eq_take.1 (List.takeWhile_prefix p)).symm

theorem forall_take_run (p : Char → Bool) (cs : List Char) :
    ∀ c ∈ cs.take (run p cs), p c = true := by
  rw [take_run]
  exact List.all_eq_true.1 List.all_takeWhile

theorem one_bounded (p : Char → Bool) : (one p).Bounded := by
  intro cs n h
  cases cs with
  | nil => simp [one] at h
  | cons c cs =>
    simp only [one, Option.ite_none_right_eq_some, Option.some.injEq] at h
    obtain ⟨-, rfl⟩ := h
    simp

theorem run1_bounded (p : Char → Bool) : (run1 p).Bounded := by
  intro cs n h
  simp only [run1, Option.ite_none_left_eq_some, Option.some.injEq] at h
  obtain ⟨-, rfl⟩ := h
  exact run_le p cs

theorem oneThen_bounded (p q : Char → Bool) : (oneThen p q).Bounded := by
  intro cs n h
  cases cs with
  | nil => simp [oneThen] at h
  | cons c cs =>
    simp only [oneThen, Option.ite_none_right_eq_some, Option.some.injEq] at h
    obtain ⟨-, rfl⟩ := h
    have hrun := run_le q cs
    simp only [List.length_cons]
    omega

theorem andThen_bounded {m₁ m₂ : Matcher} (h₁ : m₁.Bounded) (h₂ : m₂.Bounded) :
    (andThen m₁ m₂).Bounded := by
  intro cs n h
  simp only [andThen, Option.bind_eq_bind, Option.bind_eq_some_iff, Option.pure_def,
    Option.some.injEq] at h
  obtain ⟨k, hk, l, hl, rfl⟩ := h
  have hk := h₁ cs k hk
  have hl := h₂ _ l hl
  simp only [List.length_drop] at hl
  omega

theorem andMaybe_bounded {m₁ m₂ : Matcher} (h₁ : m₁.Bounded) (h₂ : m₂.Bounded) :
    (andMaybe m₁ m₂).Bounded := by
  intro cs n h
  simp only [andMaybe, Option.bind_eq_bind, Option.bind_eq_some_iff, Option.pure_def,
    Option.some.injEq] at h
  obtain ⟨k, hk, rfl⟩ := h
  have hk := h₁ cs k hk
  cases hl : m₂ (cs.drop k) with
  | none => simpa using hk
  | some l =>
    have hl := h₂ _ l hl
    simp only [List.length_drop] at hl
    simp only [Option.getD_some]
    omega

theorem blockTail_le (cs : List Char) : blockTail cs ≤ cs.length := by
  fun_induction blockTail cs with
  | case1 => simp
  | case2 => simp
  | case3 c cs _ ih => simp only [List.length_cons]; omega

theorem comment_bounded : Matcher.Bounded comment := by
  intro cs n h
  unfold comment at h
  split at h
  next cs =>
    have hrun := run_le (· != '\n') cs
    simp only [Option.some.injEq] at h
    simp only [List.length_cons]
    omega
  next cs =>
    have htail := blockTail_le cs
    simp only [Option.some.injEq] at h
    simp only [List.length_cons]
    omega
  next => simp at h

theorem capitals_bounded : Matcher.Bounded capitals := by
  intro cs n h
  simp only [capitals, Option.map_eq_some_iff] at h
  obtain ⟨k, hk, rfl⟩ := h
  have hk := oneThen_bounded _ _ _ k hk
  have hrun := run_le (· == '_') cs
  simp only [List.length_drop] at hk
  omega

theorem constant_bounded : Matcher.Bounded constant := by
  refine firstOf_bounded ?_
  simp only [List.mem_cons, List.not_mem_nil, or_false, forall_eq_or_imp, forall_eq]
  exact ⟨word_bounded _, word_bounded _, word_bounded _, word_bounded _, word_bounded _,
    word_bounded _, andThen_bounded (word_bounded _) (oneThen_bounded _ _), capitals_bounded⟩

theorem radix_bounded (lower upper : Char) (digit : Char → Bool) :
    (radix lower upper digit).Bounded :=
  andThen_bounded (one_bounded _) (andThen_bounded (one_bounded _) (run1_bounded _))

theorem mantissa_bounded : Matcher.Bounded mantissa := by
  refine firstOf_bounded ?_
  simp only [List.mem_cons, List.not_mem_nil, or_false, forall_eq_or_imp, forall_eq]
  exact ⟨andMaybe_bounded (run1_bounded _) (oneThen_bounded _ _),
    andThen_bounded (one_bounded _) (run1_bounded _)⟩

theorem exponent_bounded : Matcher.Bounded exponent := by
  refine andThen_bounded (one_bounded _) (firstOf_bounded ?_)
  simp only [List.mem_cons, List.not_mem_nil, or_false, forall_eq_or_imp, forall_eq]
  exact ⟨andThen_bounded (one_bounded _) (run1_bounded _), run1_bounded _⟩

theorem number_bounded : Matcher.Bounded number := by
  refine firstOf_bounded ?_
  simp only [List.mem_cons, List.not_mem_nil, or_false, forall_eq_or_imp, forall_eq]
  exact ⟨radix_bounded _ _ _, radix_bounded _ _ _, radix_bounded _ _ _,
    andMaybe_bounded mantissa_bounded exponent_bounded⟩

theorem stringTail_bounded (quote : Char) : (stringTail quote).Bounded := by
  intro cs n h
  fun_induction stringTail quote cs generalizing n with
  | case1 => simp at h
  | case2 c cs hquote =>
    simp only [Option.some.injEq] at h
    simp only [List.length_cons]
    omega
  | case3 => simp at h
  | case4 c _ _ d cs ih =>
    obtain ⟨k, hk, rfl⟩ := Option.map_eq_some_iff.1 h
    have hk := ih k hk
    simp only [List.length_cons]
    omega
  | case5 c cs _ _ ih =>
    obtain ⟨k, hk, rfl⟩ := Option.map_eq_some_iff.1 h
    have hk := ih k hk
    simp only [List.length_cons]
    omega

theorem string_bounded : Matcher.Bounded string := by
  intro cs n h
  cases cs with
  | nil => simp [string] at h
  | cons c cs =>
    simp only [string, Option.ite_none_right_eq_some, Option.map_eq_some_iff] at h
    obtain ⟨-, k, hk, rfl⟩ := h
    have hk := stringTail_bounded c cs k hk
    simp only [List.length_cons]
    omega

end Matcher

namespace Rule

theorem all_bounded : ∀ rule ∈ all, rule.matcher.Bounded := by
  simp only [all, List.mem_cons, List.not_mem_nil, or_false, forall_eq_or_imp, forall_eq]
  exact ⟨Matcher.one_bounded _, Matcher.comment_bounded, Matcher.constant_bounded,
    Matcher.word_bounded _, Matcher.longest_bounded _, Matcher.word_bounded _,
      Matcher.number_bounded, Matcher.string_bounded,
    Matcher.longest_bounded _, Matcher.oneThen_bounded _ _, Matcher.one_bounded _⟩

theorem take?_matcher {rule : Rule} (h : rule.take? cs = some n) :
    rule.matcher cs = some n ∧ (rule.wholeWord = true → cutsWord cs n = false) := by
  unfold take? at h
  split at h
  next m hm =>
    split at h
    next => simp at h
    next hcut =>
      simp only [Option.some.injEq] at h
      subst h
      exact ⟨hm, fun hword => by simpa [hword] using hcut⟩
  next => simp at h

theorem first?_le {cs : List Char} (h : first? cs = some (found, n)) : n ≤ cs.length := by
  obtain ⟨rule, hmem, hrule⟩ := List.exists_of_findSome?_eq_some h
  obtain ⟨m, hm, heq⟩ := Option.map_eq_some_iff.1 hrule
  cases heq
  exact all_bounded rule hmem cs n (take?_matcher hm).1

end Rule

-- ---------------------------------------------------------------------------
-- Tokens
-- ---------------------------------------------------------------------------

/-- The token is what the rules read in a text behind the characters `pre`. -/
structure Token.Lexed (reserved : ReservedPrefixes) (chars pre : List Char) (t : Token) : Prop where
  first : ∃ post, chars = pre ++ (t.text.toList ++ post) ∧
    Rule.first? (t.text.toList ++ post) = some (t.kind, t.text.toList.length)
  span : t.span = .ofLength (byteLength pre) (byteLength t.text.toList)
  value : t.value = if t.kind = .constant then Token.constantValue t.text else t.text
  notConstantPrefix : t.kind = .constant ∨ t.kind = .variable →
    Token.isReserved t.text reserved.forConstants = false
  notVariablePrefix : t.kind = .variable → Token.isReserved t.text reserved.forVariables = false

/-- The scanner stands in a text behind the characters `pre`. -/
structure Scanner.At (s : Scanner) (chars pre : List Char) : Prop where
  rest : chars = pre ++ s.rest
  position : s.position = byteLength pre

theorem Token.make_ok (h : Token.make reserved found lexeme place = .ok t) :
    t.kind = found ∧ t.text = lexeme ∧ t.span = place ∧
      t.value = (if found = .constant then constantValue lexeme else lexeme) ∧
      (found = .constant ∨ found = .variable → isReserved lexeme reserved.forConstants = false) ∧
      (found = .variable → isReserved lexeme reserved.forVariables = false) := by
  unfold Token.make at h
  dsimp only at h
  split at h
  next =>
    split at h
    next => cases h
    next hconstant => cases h; simpa using hconstant
  next =>
    split at h
    next => cases h
    next hvariable =>
      split at h
      next => cases h
      next hconstant => cases h; simp_all
  next hnotConstant hnotVariable => cases h; simp_all

/-- A token is refused for its prefix only, and at its own place. -/
theorem Token.make_error (h : Token.make reserved found lexeme place = .error fault) :
    fault = ⟨.reservedConstant, [reserved.forConstants], place⟩ ∨
      fault = ⟨.reservedVariable, [reserved.forVariables], place⟩ := by
  unfold Token.make at h
  dsimp only at h
  split at h
  next =>
    split at h
    next => cases h; exact .inl rfl
    next => cases h
  next =>
    split at h
    next => cases h; exact .inr rfl
    next =>
      split at h
      next => cases h; exact .inl rfl
      next => cases h
  next => cases h

theorem Token.Lexed.text_ne_nil (h : Lexed reserved chars pre t) : t.text.toList ≠ [] := by
  obtain ⟨post, -, hfirst⟩ := h.first
  intro hnil
  have hpos := Rule.first?_pos hfirst
  simp [hnil] at hpos

theorem Token.Lexed.span_start (h : Lexed reserved chars pre t) :
    t.span.start = byteLength pre := by
  rw [h.span]; rfl

theorem Token.Lexed.span_stop (h : Lexed reserved chars pre t) :
    t.span.stop = byteLength (pre ++ t.text.toList) := by
  rw [h.span, byteLength_append]; rfl

theorem Token.Lexed.start_lt_stop (h : Lexed reserved chars pre t) :
    t.span.start < t.span.stop := by
  have hpos := byteLength_pos h.text_ne_nil
  rw [h.span_start, h.span_stop, byteLength_append]
  omega

namespace Scanner

theorem scan_of_next {s s' : Scanner} (h : s.next = (.ok (some t), s')) :
    s.scan = ⟨t :: s'.scan.tokens, s'.scan.fault⟩ := by
  rw [scan]
  split <;> simp_all

theorem scan_of_next_none {s s' : Scanner} (h : s.next = (.ok none, s')) : s.scan = ⟨[], none⟩ := by
  rw [scan]
  split <;> simp_all

theorem scan_of_next_error {s s' : Scanner} (h : s.next = (.error fault, s')) :
    s.scan = ⟨[], some fault⟩ := by
  rw [scan]
  split <;> simp_all

theorem At.advance {s : Scanner} (h : s.At chars pre) (n : Nat) :
    (s.advance n).At chars (pre ++ s.rest.take n) where
  rest := by simp [Scanner.advance, h.rest]
  position := by simp [Scanner.advance, h.position]

/-- One token: it is read behind some blanks, and the scanner moves behind it. -/
theorem next_lexed {s s' : Scanner} (hs : s.At chars pre) (h : s.next = (.ok (some t), s')) :
    ∃ blanks, (∀ c ∈ blanks, isBlank c = true) ∧ t.Lexed s.reserved chars (pre ++ blanks) ∧
      s'.At chars (pre ++ blanks ++ t.text.toList) ∧ s'.reserved = s.reserved ∧
      s'.failed = false := by
  unfold next at h
  split at h
  next => simp at h
  next hfailed =>
    refine ⟨s.rest.take (Matcher.run isBlank s.rest), Matcher.forall_take_run isBlank s.rest, ?_⟩
    have hat := hs.advance (Matcher.run isBlank s.rest)
    generalize pre ++ s.rest.take (Matcher.run isBlank s.rest) = start at hat ⊢
    unfold readToken at h
    split at h
    next => simp at h
    next =>
      split at h
      next => simp at h
      next kind n hfirst =>
        dsimp only at h
        split at h
        next => simp at h
        next token hmake =>
          simp only [Prod.mk.injEq, Except.ok.injEq, Option.some.injEq] at h
          obtain ⟨rfl, rfl⟩ := h
          obtain ⟨hkind, htext, hspan, hvalue, hconstant, hvariable⟩ := Token.make_ok hmake
          have hchars : token.text.toList = s.skipBlanks.rest.take n := by simp [htext]
          have hlength : token.text.toList.length = n := by
            rw [hchars, List.length_take, Nat.min_eq_left (Rule.first?_le hfirst)]
          refine ⟨⟨⟨s.skipBlanks.rest.drop n, ?_, ?_⟩, ?_, ?_, ?_, ?_⟩, ?_, rfl,
            Bool.eq_false_iff.2 hfailed⟩
          · rw [hchars, List.take_append_drop]
            exact hat.rest
          · rw [hlength, hchars, List.take_append_drop, hkind]
            exact hfirst
          · rw [hspan, hchars, ← hat.position]
            rfl
          · rw [hkind, htext]
            exact hvalue
          · rw [hkind, htext]
            exact hconstant
          · rw [hkind, htext]
            exact hvariable
          · rw [hchars]
            exact hat.advance n

/-- Every token of a scan was read behind the scanner's place, and the tokens do not overlap. -/
theorem scan_lexed {s : Scanner} (hs : s.At chars pre) :
    (∀ t ∈ s.scan.tokens, ∃ before,
      byteLength pre ≤ byteLength before ∧ t.Lexed s.reserved chars before) ∧
      s.scan.tokens.Pairwise (·.span.stop ≤ ·.span.start) := by
  fun_induction scan s generalizing pre with
  | case1 => simp
  | case2 => simp
  | case3 s token s' hnext later =>
    rename_i ih
    obtain ⟨blanks, -, hlexed, hs', hreserved, -⟩ := next_lexed hs hnext
    obtain ⟨hlater, hordered⟩ := ih hs'
    refine ⟨?_, List.pairwise_cons.2 ⟨?_, hordered⟩⟩
    · intro t ht
      rcases List.mem_cons.1 ht with rfl | ht
      · exact ⟨_, by simp, hlexed⟩
      · obtain ⟨before, hle, hbefore⟩ := hlater t ht
        simp only [byteLength_append] at hle
        exact ⟨before, by omega, hreserved ▸ hbefore⟩
    · intro t ht
      obtain ⟨before, hle, hbefore⟩ := hlater t ht
      rw [hlexed.span_stop, hbefore.span_start]
      exact hle

end Scanner

theorem Source.scan_lexed (source : Source) (reserved : ReservedPrefixes) :
    (∀ t ∈ (source.scan reserved).tokens, ∃ pre, t.Lexed reserved source.chars pre) ∧
      (source.scan reserved).tokens.Pairwise (·.span.stop ≤ ·.span.start) := by
  have hat : (Scanner.ofSource reserved source).At source.chars [] := ⟨rfl, rfl⟩
  obtain ⟨hlexed, hordered⟩ := Scanner.scan_lexed hat
  refine ⟨fun t ht => ?_, hordered⟩
  obtain ⟨pre, -, hpre⟩ := hlexed t ht
  exact ⟨pre, hpre⟩

-- ---------------------------------------------------------------------------
-- Meaningful tokens
-- ---------------------------------------------------------------------------

namespace Token

theorem mem_meaningfulAfter (h : t ∈ meaningfulAfter pending ts) :
    ∃ u ∈ ts, ∃ b, u.isNeutral = false ∧ t = { u with newlineBefore := b } := by
  fun_induction meaningfulAfter pending ts with
  | case1 => simp at h
  | case2 pending u us _ ih =>
    obtain ⟨w, hw, hrest⟩ := ih h
    exact ⟨w, List.mem_cons_of_mem _ hw, hrest⟩
  | case3 pending u us hneutral ih =>
    rcases List.mem_cons.1 h with rfl | h
    · exact ⟨u, List.mem_cons_self, pending, by simpa using hneutral, rfl⟩
    · obtain ⟨w, hw, hrest⟩ := ih h
      exact ⟨w, List.mem_cons_of_mem _ hw, hrest⟩

theorem pairwise_meaningfulAfter (h : ts.Pairwise (·.span.stop ≤ ·.span.start)) :
    (meaningfulAfter pending ts).Pairwise (·.span.stop ≤ ·.span.start) := by
  fun_induction meaningfulAfter pending ts with
  | case1 => simp
  | case2 pending u us _ ih => exact ih (List.pairwise_cons.1 h).2
  | case3 pending u us _ ih =>
    obtain ⟨hu, hus⟩ := List.pairwise_cons.1 h
    refine List.pairwise_cons.2 ⟨fun t ht => ?_, ih hus⟩
    obtain ⟨w, hw, b, -, rfl⟩ := mem_meaningfulAfter ht
    exact hu w hw

end Token

def Source.tokens (source : Source) (reserved : ReservedPrefixes) : List Token :=
  Token.meaningful (source.scan reserved).tokens

theorem Source.mem_tokens {source : Source} (h : t ∈ source.tokens reserved) :
    t.isNeutral = false ∧ ∃ pre, t.Lexed reserved source.chars pre := by
  obtain ⟨u, hu, b, hneutral, rfl⟩ := Token.mem_meaningfulAfter h
  obtain ⟨pre, hpre⟩ := (source.scan_lexed reserved).1 u hu
  exact ⟨hneutral, pre, hpre.first, hpre.span, hpre.value, hpre.notConstantPrefix,
    hpre.notVariablePrefix⟩

theorem Source.tokens_apart (source : Source) (reserved : ReservedPrefixes) :
    (source.tokens reserved).Pairwise (·.span.stop ≤ ·.span.start) :=
  Token.pairwise_meaningfulAfter (source.scan_lexed reserved).2

theorem Source.tokens_ordered (source : Source) (reserved : ReservedPrefixes) :
    (source.tokens reserved).Pairwise (·.span.start < ·.span.start) := by
  refine (source.tokens_apart reserved).imp_of_mem fun ha _ hle => ?_
  obtain ⟨-, pre, hpre⟩ := Source.mem_tokens ha
  exact Nat.lt_of_lt_of_le hpre.start_lt_stop hle

end ScriptToPhp
