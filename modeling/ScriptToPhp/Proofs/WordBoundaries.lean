import ScriptToPhp.Proofs.Outline

/-!
# Where words end

A word of the language is taken out of a text unless it runs into a longer word. What makes a word
longer is told by one class of characters, and what makes a name longer by another. So a word is the
whole name at its place, unless a character of the second class that is not in the first stands
behind it.
-/

namespace ScriptToPhp

open Text

-- ---------------------------------------------------------------------------
-- Classes of characters
-- ---------------------------------------------------------------------------

namespace Text

def isWordLetter (c : Char) : Bool := isAsciiAlphanumeric c || c == '_'

/-- A character that makes a name longer but no word. -/
def isOverlooked (c : Char) : Bool := continuesName c && !isWordCharacter c

theorem toNat_lt_of_isAlpha {c : Char} (h : c.isAlpha = true) : c.toNat < 0x80 := by
  have halpha : c.isAlpha = (decide ('A'.val ≤ c.val ∧ c.val ≤ 'Z'.val) ||
      decide ('a'.val ≤ c.val) && decide (c.val ≤ 'z'.val)) := rfl
  simp only [halpha, Bool.or_eq_true, Bool.and_eq_true, decide_eq_true_eq,
    UInt32.le_iff_toNat_le] at h
  have hz : 'Z'.val.toNat < 0x80 ∧ 'z'.val.toNat < 0x80 := by decide
  show c.val.toNat < 0x80
  omega

theorem toNat_lt_of_isDigit {c : Char} (h : c.isDigit = true) : c.toNat < 0x80 := by
  simp only [Char.isDigit, Bool.and_eq_true, decide_eq_true_eq, UInt32.le_iff_toNat_le] at h
  have hnine : '9'.val.toNat < 0x80 := by decide
  show c.val.toNat < 0x80
  omega

theorem toNat_lt_of_isWordLetter {c : Char} (h : isWordLetter c = true) : c.toNat < 0x80 := by
  simp only [isWordLetter, isAsciiAlphanumeric, Bool.or_eq_true, beq_iff_eq] at h
  rcases h with (h | h) | rfl
  · exact toNat_lt_of_isAlpha h
  · exact toNat_lt_of_isDigit h
  · decide

theorem continuesName_of_isWordLetter {c : Char} (h : isWordLetter c = true) :
    continuesName c = true := by
  rw [continuesName, if_pos (toNat_lt_of_isWordLetter h)]
  simp only [isWordLetter] at h
  simp [h]

theorem isWordCharacter_of_isWordLetter {c : Char} (h : isWordLetter c = true) :
    isWordCharacter c = true := by
  rw [isWordCharacter, if_pos (toNat_lt_of_isWordLetter h)]
  simp only [isWordLetter, Bool.or_eq_true] at h
  rcases h with h | h <;> simp [h]

theorem startsName_of_beginsWord {c : Char} (h : Matcher.beginsWord c = true) :
    startsName c = true := by
  simp only [Matcher.beginsWord, Bool.or_eq_true, beq_iff_eq] at h
  rcases h with h | rfl
  · rw [startsName, if_pos (toNat_lt_of_isAlpha h), h]
    rfl
  · rfl

end Text

-- ---------------------------------------------------------------------------
-- Words
-- ---------------------------------------------------------------------------

def wordOperators : List String := ["instanceof", "typeof", "delete", "void"]

/-- Whether the token is a word of the language: `function`, a keyword, an operator that is a word,
or a constant without a dot. -/
def Token.isWord (t : Token) : Bool :=
  match t.kind with
  | .function | .keyword => true
  | .operator => wordOperators.contains t.text
  | .constant => !t.text.toList.contains '.'
  | _ => false

namespace Matcher

theorem capitals_takes_wordLetters : capitals.Takes isWordLetter := by
  have htail (c : Char) (hc : isUpperTail c = true) : isWordLetter c = true := by
    rw [isWordLetter, isAsciiAlphanumeric, show c.isAlpha = (c.isUpper || c.isLower) from rfl]
    simp only [isUpperTail, Bool.or_eq_true] at hc
    rcases hc with (hc | hc) | hc <;> simp [hc]
  intro cs n hn
  simp only [capitals, Option.map_eq_some_iff] at hn
  obtain ⟨k, hk, rfl⟩ := hn
  rw [List.take_add]
  refine List.forall_mem_append.2 ⟨fun c hc => htail c ?_, ?_⟩
  · have hunderscore : (c == '_') = true := forall_take_run (· == '_') cs c hc
    simp [isUpperTail, eq_of_beq hunderscore]
  · exact oneThen_takes (fun c hc => htail c (by simp [isUpperTail, hc])) htail _ k hk

/-- What is taken for a constant is a word, or goes on behind a dot. -/
theorem constant_cases {cs : List Char} (h : constant cs = some n) :
    (∀ c ∈ cs.take n, isWordLetter c = true) ∨ "Math.".toList <+: cs.take n := by
  obtain ⟨m, hm, hn⟩ := List.exists_of_findSome?_eq_some h
  simp only [List.mem_cons, List.not_mem_nil, or_false] at hm
  rcases hm with rfl | rfl | rfl | rfl | rfl | rfl | rfl | rfl
  case inr.inr.inr.inr.inr.inr.inl =>
    obtain ⟨k, l, hk, -, rfl⟩ := andThen_eq_some.1 hn
    simp only [word, Option.ite_none_right_eq_some, Option.some.injEq] at hk
    obtain ⟨hfront, rfl⟩ := hk
    refine .inr ?_
    rw [List.take_add, ← List.prefix_iff_eq_take.1 (List.isPrefixOf_iff_prefix.1 hfront)]
    exact List.prefix_append _ _
  case inr.inr.inr.inr.inr.inr.inr => exact .inl (capitals_takes_wordLetters cs n hn)
  all_goals exact .inl (word_takes (by decide) cs n hn)

end Matcher

/-- A rule for words takes nothing that runs into a longer word. -/
theorem Rule.cutsWord_of_first? {cs : List Char} (h : first? cs = some (found, n))
    (hfound : found ∈ [.constant, .function, .keyword, .operator]) : cutsWord cs n = false := by
  obtain ⟨rule, hmem, hrule⟩ := List.exists_of_findSome?_eq_some h
  obtain ⟨m, hm, heq⟩ := Option.map_eq_some_iff.1 hrule
  cases heq
  refine (take?_matcher hm).2 ?_
  simp only [all, List.mem_cons, List.not_mem_nil, or_false] at hmem
  rcases hmem with rfl | rfl | rfl | rfl | rfl | rfl | rfl | rfl | rfl | rfl | rfl <;>
    simp at hfound ⊢

namespace Token

variable {t : Token}

theorem Lexed.letters (h : t.Lexed reserved chars pre) (ht : t.isWord = true) :
    t.text.toList.head?.any Matcher.beginsWord = true ∧
    ∀ c ∈ t.text.toList, isWordLetter c = true := by
  obtain ⟨post, hmatcher⟩ := h.matcher
  have hhead (hneeds : t.kind.matcher.Needs Matcher.beginsWord) :
      t.text.toList.head?.any Matcher.beginsWord = true := by
    cases htext : t.text.toList with
    | nil => exact absurd htext h.text_ne_nil
    | cons c w =>
      rw [htext, List.cons_append] at hmatcher
      simpa using hneeds.of_some hmatcher
  have htakes := h.forall_of_takes (p := isWordLetter)
  cases hkind : t.kind <;> rw [hkind] at hhead htakes hmatcher <;>
    simp only [isWord, hkind, Bool.false_eq_true] at ht
  case function => exact ⟨hhead (Matcher.word_needs (by decide)),
    htakes (Matcher.word_takes (by decide))⟩
  case keyword => exact ⟨hhead Matcher.keywords_needs, htakes (Matcher.longest_takes (by decide))⟩
  case operator =>
    have hwords : ∀ op ∈ wordOperators, op.toList.head?.any Matcher.beginsWord = true ∧
        op.toList.all isWordLetter = true := by decide
    obtain ⟨hfirst, hletters⟩ := hwords t.text (List.contains_iff_mem.1 ht)
    exact ⟨hfirst, List.all_eq_true.1 hletters⟩
  case constant =>
    refine ⟨hhead Matcher.constant_needs, ?_⟩
    have hcases := Matcher.constant_cases hmatcher
    rw [List.take_left] at hcases
    refine hcases.resolve_right fun hdotted => ?_
    have hdot : '.' ∈ t.text.toList := hdotted.subset (by decide)
    simp [hdot] at ht

/-- Behind a word stands no character that makes it longer. -/
theorem Lexed.head_after (h : t.Lexed reserved chars pre) (ht : t.isWord = true)
    (hfirst : Rule.first? (t.text.toList ++ post) = some (t.kind, t.text.toList.length)) :
    post.head?.any isWordCharacter = false := by
  have hkind : t.kind ∈ [.constant, .function, .keyword, .operator] := by
    cases hkind : t.kind <;> simp [isWord, hkind] at ht ⊢
  have hlast : t.text.toList.getLast?.any isWordCharacter = true := by
    rw [List.getLast?_eq_some_getLast h.text_ne_nil]
    exact isWordCharacter_of_isWordLetter ((h.letters ht).2 _ (List.getLast_mem h.text_ne_nil))
  have hcut := Rule.cutsWord_of_first? hfirst hkind
  rw [Rule.cutsWord, List.take_left, List.drop_left, hlast, Bool.true_and] at hcut
  exact hcut

end Token

-- ---------------------------------------------------------------------------
-- Names
-- ---------------------------------------------------------------------------

theorem Matcher.run_eq_zero_iff {p : Char → Bool} : run p cs = 0 ↔ cs.head?.any p = false := by
  cases cs with
  | nil => simp [run]
  | cons c cs => simp [run, List.takeWhile_cons]

theorem Text.startsName_of_beginsNumber {c : Char} (h : Matcher.beginsNumber c = true) :
    startsName c = false := by
  have hascii : c.toNat < 0x80 := by
    rcases Bool.or_eq_true_iff.1 h with hdigit | hpoint
    · exact toNat_lt_of_isDigit hdigit
    · rw [eq_of_beq hpoint]
      decide
  have hword := Matcher.beginsWord_of_beginsNumber h
  rw [startsName, if_pos hascii]
  rw [Matcher.beginsWord] at hword
  rw [hword, Bool.false_or]
  exact Rule.beq_false_of_class h (by decide)

theorem Text.startsName_of_isMark {c : Char} (h : Matcher.isMark c = true) :
    startsName c = false := by
  simp only [Matcher.isMark, Bool.or_eq_true, beq_iff_eq] at h
  rcases h with ((((((((rfl | rfl) | rfl) | rfl) | rfl) | rfl) | rfl) | rfl) | rfl) | rfl <;> decide

theorem TokenKind.matcher_of_startsName {kind : TokenKind} (hc : startsName c = true)
    (hkind : kind ∉ [.constant, .function, .keyword, .operator, .variable]) :
    kind.matcher (c :: cs) = none := by
  have hbeq (d : Char) (hd : startsName d = false) : (c == d) = false :=
    Rule.beq_false_of_class hc hd
  cases kind with
  | newline => exact Matcher.one_needs (p := (· == '\n')) c cs (hbeq _ (by decide))
  | comment => exact Matcher.comment_needs c cs (hbeq _ (by decide))
  | lambda => exact Matcher.arrow_needs c cs (hbeq _ (by decide))
  | string =>
    exact Matcher.string_needs c cs
      (Bool.or_eq_false_iff.2 ⟨hbeq _ (by decide), hbeq _ (by decide)⟩)
  | number =>
    refine Matcher.number_needs c cs (Bool.eq_false_iff.2 fun h => ?_)
    simp [startsName_of_beginsNumber h] at hc
  | punctuation =>
    refine Matcher.one_needs c cs (Bool.eq_false_iff.2 fun h => ?_)
    simp [startsName_of_isMark h] at hc
  | _ => simp at hkind

namespace Token

variable {t : Token}

/-- Where a word stands, the rule of names takes the word and all characters behind it that continue
a name. -/
theorem Lexed.name_at_word (h : t.Lexed reserved chars pre) (ht : t.isWord = true)
    (post : List Char) :
    TokenKind.variable.matcher (t.text.toList ++ post) =
      some (t.text.toList.length + Matcher.run Text.continuesName post) := by
  obtain ⟨hhead, hletters⟩ := h.letters ht
  cases htext : t.text.toList with
  | nil => exact absurd htext h.text_ne_nil
  | cons c w =>
    simp only [htext, List.head?_cons, Option.any_some] at hhead
    rw [htext] at hletters
    have hrun : Matcher.run Text.continuesName w = w.length :=
      Matcher.run_eq_length fun d hd =>
        continuesName_of_isWordLetter (hletters d (List.mem_cons_of_mem c hd))
    have hmatcher : TokenKind.variable.matcher (c :: (w ++ post)) =
        some (1 + Matcher.run Text.continuesName (w ++ post)) :=
          if_pos (startsName_of_beginsWord hhead)
    rw [List.cons_append, hmatcher, Matcher.run_append, if_pos hrun, List.length_cons]
    congr 1
    omega

/-- At the place of a name stands a variable, a word, or a constant that goes on behind a dot. -/
theorem Lexed.cases_of_name (h : t.Lexed reserved chars pre)
    (hfirst : Rule.first? (t.text.toList ++ post) = some (t.kind, t.text.toList.length))
    (hname : TokenKind.variable.matcher (t.text.toList ++ post) = some n) :
    t.kind = .variable ∧ t.text.toList.length = n ∨ t.isWord = true ∨
      t.kind = .constant ∧ "Math.".toList <+: t.text.toList := by
  have hmatcher := Rule.matcher_of_first? hfirst
  have hhead : t.text.toList.head?.any startsName = true := by
    cases hchars : t.text.toList with
    | nil => exact absurd hchars h.text_ne_nil
    | cons c cs =>
      rw [hchars, List.cons_append] at hname
      simpa using Matcher.oneThen_needs.of_some hname
  cases hkind : t.kind with
  | «variable» =>
    rw [hkind, hname] at hmatcher
    exact .inl ⟨rfl, (Option.some.inj hmatcher).symm⟩
  | function | keyword => simp [isWord, hkind]
  | constant =>
    rw [hkind] at hmatcher
    have hcases := Matcher.constant_cases hmatcher
    rw [List.take_left] at hcases
    refine hcases.elim (fun hletters => .inr (.inl ?_)) fun hdotted => .inr (.inr ⟨rfl, hdotted⟩)
    have hdot : '.' ∉ t.text.toList := fun hdot => absurd (hletters _ hdot) (by decide)
    simp [isWord, hkind, hdot]
  | operator =>
    have hwords : ∀ op ∈ operators, op.toList.head?.any startsName = true →
      op ∈ wordOperators := by decide
    rw [hkind] at hmatcher
    have hword := hwords t.text (Matcher.mem_of_longest hmatcher) hhead
    simp [isWord, hkind, hword]
  | _ =>
    obtain ⟨c, w, htext⟩ := List.exists_cons_of_ne_nil h.text_ne_nil
    rw [htext] at hhead hmatcher
    rw [List.cons_append, TokenKind.matcher_of_startsName (by simpa using hhead)
      (by simp [hkind])] at hmatcher
    cases hmatcher

end Token

-- ---------------------------------------------------------------------------
-- Scans
-- ---------------------------------------------------------------------------

theorem Text.head_isOverlooked {post : List Char} (h : post.head?.any isWordCharacter = false) :
    post.head?.any isOverlooked = post.head?.any continuesName := by
  cases post with
  | nil => rfl
  | cons c post =>
    simp only [List.head?_cons, Option.any_some] at h ⊢
    simp [isOverlooked, h]

/-- A word of a scan is the longest name at its place, unless an overlooked character stands behind
it. A name at the place of a token is one variable, unless a word or a constant with a dot stands
there: and the word is all of the name, with the same exception. -/
theorem Source.words_end (source : Source) (reserved : ReservedPrefixes) :
    ∀ t ∈ (source.scan reserved).tokens, ∃ before after,
      source.chars = before ++ (t.text.toList ++ after) ∧ byteLength before = t.span.start ∧
        (t.isWord = true → ∃ n, TokenKind.variable.matcher (t.text.toList ++ after) = some n ∧
          t.text.toList.length ≤ n ∧ (n = t.text.toList.length ↔
            after.head?.any isOverlooked = false)) ∧
        ∀ n, TokenKind.variable.matcher (t.text.toList ++ after) = some n →
          t.kind = .variable ∧ t.text.toList.length = n ∨
            t.isWord = true ∧ (t.text.toList.length = n ∨ after.head?.any isOverlooked = true) ∨
            t.kind = .constant ∧ "Math.".toList <+: t.text.toList := by
  intro t ht
  obtain ⟨before, hlexed⟩ := (source.scan_lexed reserved).1 t ht
  obtain ⟨after, hchars, hfirst⟩ := hlexed.first
  have hword (hword : t.isWord = true) : ∃ n,
      TokenKind.variable.matcher (t.text.toList ++ after) = some n ∧
        t.text.toList.length ≤ n ∧ (n = t.text.toList.length ↔
          after.head?.any isOverlooked = false) := by
    refine ⟨_, hlexed.name_at_word hword after, by omega, ?_⟩
    rw [head_isOverlooked (hlexed.head_after hword hfirst), ← Matcher.run_eq_zero_iff]
    omega
  refine ⟨before, after, hchars, hlexed.span_start.symm, hword, fun n hname => ?_⟩
  rcases hlexed.cases_of_name hfirst hname with hvariable | hisWord | hdotted
  · exact .inl hvariable
  · obtain ⟨m, hm, -, hiff⟩ := hword hisWord
    obtain rfl : n = m := Option.some.inj (hname.symm.trans hm)
    refine .inr (.inl ⟨hisWord, ?_⟩)
    cases hafter : after.head?.any isOverlooked with
    | true => exact .inr rfl
    | false => exact .inl (hiff.2 hafter).symm
  · exact .inr (.inr hdotted)

/-- A middle dot continues a name and is overlooked behind a keyword. -/
theorem Source.words_end_middle_dot :
    ∃ t ∈ ((Source.ofText "" "if·").scan ⟨"", ""⟩).tokens, t.kind = .keyword ∧ t.text = "if" ∧
      ∃ before after, "if·".toList = before ++ (t.text.toList ++ after) ∧
      byteLength before = t.span.start ∧
        ∃ n, TokenKind.variable.matcher (t.text.toList ++ after) = some n ∧
        t.text.toList.length < n := by
  have hscan : ((Source.ofText "" "if·").scan ⟨"", ""⟩).tokens =
      [⟨.keyword, "if", "if", ⟨0, 2⟩, false⟩] := by
    decide +kernel
  have hmem : ⟨.keyword, "if", "if", ⟨0, 2⟩, false⟩ ∈
      ((Source.ofText "" "if·").scan ⟨"", ""⟩).tokens := by
    rw [hscan]
    exact List.mem_singleton_self _
  obtain ⟨before, after, hchars, hstart, hword, -⟩ := words_end (.ofText "" "if·") ⟨"", ""⟩ _ hmem
  obtain ⟨n, hname, hle, hiff⟩ := hword rfl
  refine ⟨_, hmem, rfl, rfl, before, after, hchars, hstart, n, hname,
    Nat.lt_of_le_of_ne hle fun heq => ?_⟩
  obtain rfl : before = [] := by
    cases before with
    | nil => rfl
    | cons c before =>
      exact absurd hstart (Nat.ne_of_gt (byteLength_pos (List.cons_ne_nil c before)))
  have hcut : ['i', 'f'] ++ ['·'] = ['i', 'f'] ++ after := hchars
  obtain rfl := List.append_cancel_left hcut
  exact absurd (hiff.1 heq.symm) (by decide +kernel)

end ScriptToPhp
