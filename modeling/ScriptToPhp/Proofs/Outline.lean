import Mathlib.Tactic.SplitIfs
import ScriptToPhp.Proofs.Brackets
import ScriptToPhp.Proofs.Spelling
import ScriptToPhp.Proofs.Tiling

/-!
# The outline of a text

The outline of a text are its brackets, its semicolons and its question marks, as far as they are
tokens of their own and do not stand in a string. It can be told from the text piece by piece,
whatever other words stand around, and it is enough to count the marks at a depth of brackets.
-/

namespace ScriptToPhp

open Text

abbrev Lexeme := TokenKind × String

-- ---------------------------------------------------------------------------
-- The lexemes of any text
-- ---------------------------------------------------------------------------

/-- The lexemes of a text. Blanks, and characters that begin no token, are passed over. -/
def lexemesIn (cs : List Char) : List Lexeme :=
  match cs with
  | [] => []
  | c :: cs =>
    match _h : Rule.first? (c :: cs) with
    | none => lexemesIn cs
    | some (found, n) => (found, String.ofList ((c :: cs).take n)) :: lexemesIn ((c :: cs).drop n)
termination_by cs.length
decreasing_by
  · simp
  · have := Rule.first?_pos _h
    simp only [List.length_drop, List.length_cons]
    omega

theorem lexemesIn_nil : lexemesIn [] = [] := by rw [lexemesIn]

theorem lexemesIn_none (h : Rule.first? (c :: cs) = none) : lexemesIn (c :: cs) = lexemesIn cs := by
  rw [lexemesIn]
  split <;> simp_all

theorem lexemesIn_some {cs : List Char} (h : Rule.first? cs = some (found, n)) :
    lexemesIn cs = (found, String.ofList (cs.take n)) :: lexemesIn (cs.drop n) := by
  cases cs with
  | nil => cases h
  | cons c cs =>
    rw [lexemesIn]
    split <;> simp_all

theorem lexemesIn_append (h : Rule.first? (w ++ cs) = some (found, w.length)) :
    lexemesIn (w ++ cs) = (found, String.ofList w) :: lexemesIn cs := by
  rw [lexemesIn_some h, List.take_left, List.drop_left]

theorem lexemesIn_blanks (h : ∀ c ∈ blanks, isBlank c = true) :
    lexemesIn (blanks ++ cs) = lexemesIn cs := by
  induction blanks with
  | nil => rfl
  | cons c blanks ih =>
    obtain ⟨hc, hblanks⟩ := List.forall_mem_cons.1 h
    have hnone : Rule.first? (c :: (blanks ++ cs)) = none := by
      rw [Option.eq_none_iff_forall_ne_some]
      intro found hfound
      rw [Rule.isBlank_of_first? hfound] at hc
      cases hc
    rw [List.cons_append, lexemesIn_none hnone, ih hblanks]

theorem Scanner.map_lexeme_scan {s : Scanner} (hs : s.At chars pre) (hfailed : s.failed = false)
    (h : s.scan.fault = none) : s.scan.tokens.map Token.lexeme = lexemesIn s.rest := by
  fun_induction scan s generalizing pre with
  | case1 => cases h
  | case2 s s' hnext =>
    obtain ⟨blanks, hblank, hchars⟩ := next_end hs hfailed hnext
    rw [List.append_cancel_left (hs.rest.symm.trans hchars), ← List.append_nil blanks,
      lexemesIn_blanks hblank, lexemesIn_nil]
    rfl
  | case3 s token s' hnext later =>
    rename_i ih
    obtain ⟨blanks, hblank, hlexed, hs', -, hfailed'⟩ := next_lexed hs hnext
    obtain ⟨post, hchars, hfirst⟩ := hlexed.first
    have hrest : pre ++ s.rest = pre ++ (blanks ++ (token.text.toList ++ post)) := by
      rw [← hs.rest, hchars, List.append_assoc]
    have hrest' : pre ++ blanks ++ token.text.toList ++ s'.rest =
        pre ++ blanks ++ token.text.toList ++ post := by
      rw [← hs'.rest, hchars, List.append_assoc (pre ++ blanks)]
    rw [List.append_cancel_left hrest, lexemesIn_blanks hblank, lexemesIn_append hfirst,
      ← List.append_cancel_left hrest', ← ih hs' hfailed' h]
    simp [later, Token.lexeme]

theorem Source.map_lexeme_scan {source : Source} (h : (source.scan reserved).fault = none) :
    (source.scan reserved).tokens.map Token.lexeme = lexemesIn source.chars := by
  have hat : (Scanner.ofSource reserved source).At source.chars [] := ⟨rfl, rfl⟩
  exact Scanner.map_lexeme_scan hat rfl h

-- ---------------------------------------------------------------------------
-- Depth
-- ---------------------------------------------------------------------------

namespace Lexeme

def question : Lexeme := (.operator, "?")

def semicolon : Lexeme := (.punctuation, ";")

def isOpening (l : Lexeme) : Bool :=
  l.1 == .punctuation && (l.2 == "(" || l.2 == "[" || l.2 == "\x7b")

def isClosing (l : Lexeme) : Bool :=
  l.1 == .punctuation && (l.2 == ")" || l.2 == "]" || l.2 == "\x7d")

def isLoud (l : Lexeme) : Bool := l.isOpening || l.isClosing || l == question || l == semicolon

end Lexeme

def depthAfter : Nat → List Lexeme → Nat
  | d, [] => d
  | d, l :: ls =>
    if l.isOpening then depthAfter (d + 1) ls else if l.isClosing then depthAfter (d - 1) ls
      else depthAfter d ls

/-- The lexemes that stand inside so many brackets, other than brackets, from a depth on. -/
def lexemesAt (depth : Nat) : Nat → List Lexeme → List Lexeme
  | _, [] => []
  | d, l :: ls =>
    if l.isOpening then lexemesAt depth (d + 1) ls
    else if l.isClosing then lexemesAt depth (d - 1) ls
    else if d = depth then l :: lexemesAt depth d ls
    else lexemesAt depth d ls

theorem lexemesAt_append (ls ls' : List Lexeme) :
    lexemesAt depth d (ls ++ ls') =
      lexemesAt depth d ls ++ lexemesAt depth (depthAfter d ls) ls' := by
  induction ls generalizing d with
  | nil => rfl
  | cons l ls ih =>
    simp only [List.cons_append, lexemesAt, depthAfter]
    split_ifs <;> simp [ih]

theorem depthAfter_append (ls ls' : List Lexeme) :
    depthAfter d (ls ++ ls') = depthAfter (depthAfter d ls) ls' := by
  induction ls generalizing d with
  | nil => rfl
  | cons l ls ih =>
    simp only [List.cons_append, depthAfter]
    split_ifs <;> exact ih

/-- Only the outline matters for where its marks stand. -/
theorem count_lexemesAt_filter (hl : Lexeme.isLoud l = true) (ls : List Lexeme) :
    (lexemesAt depth d (ls.filter Lexeme.isLoud)).count l = (lexemesAt depth d ls).count l := by
  induction ls generalizing d with
  | nil => rfl
  | cons first ls ih =>
    cases hloud : first.isLoud with
    | true =>
      rw [List.filter_cons_of_pos hloud]
      simp only [lexemesAt]
      split_ifs <;> simp [List.count_cons, ih]
    | false =>
      have hne : first ≠ l := by
        rintro rfl
        simp [hl] at hloud
      rw [List.filter_cons_of_neg (by simp [hloud]), ih]
      simp only [Lexeme.isLoud, Bool.or_eq_false_iff] at hloud
      simp only [lexemesAt, hloud.1.1.1, hloud.1.1.2, Bool.false_eq_true, if_false]
      split_ifs
      · rw [List.count_cons_of_ne hne]
      · rfl

-- ---------------------------------------------------------------------------
-- Brackets in pairs
-- ---------------------------------------------------------------------------

/-- `Nested ls q p`: in these lexemes of an outline every bracket has its partner, and outside of
all brackets there are `q` question marks and `p` semicolons. -/
inductive Nested : List Lexeme → Nat → Nat → Prop
  | nil : Nested [] 0 0
  | question (h : Nested ls q p) : Nested (.question :: ls) (q + 1) p
  | semicolon (h : Nested ls q p) : Nested (.semicolon :: ls) q (p + 1)
  | brackets {opening closing : Lexeme} (ho : opening.isOpening = true)
    (hc : closing.isClosing = true)
      (hinside : Nested inside q' p') (h : Nested ls q p) :
        Nested (opening :: (inside ++ closing :: ls)) q p

namespace Nested

theorem append (h : Nested ls q p) (h' : Nested ls' q' p') :
    Nested (ls ++ ls') (q + q') (p + p') := by
  induction h with
  | nil => simpa using h'
  | @question ls q p _ ih =>
    rw [Nat.add_right_comm]
    exact ih.question
  | @semicolon ls q p _ ih =>
    rw [Nat.add_right_comm]
    exact ih.semicolon
  | brackets ho hc hinside _ _ ih =>
    rw [List.cons_append, List.append_assoc, List.cons_append]
    exact .brackets ho hc hinside ih

theorem isOpening_of_isClosing {l : Lexeme} (h : l.isClosing = true) : l.isOpening = false := by
  simp only [Lexeme.isClosing, Lexeme.isOpening, Bool.and_eq_true, Bool.or_eq_true,
    beq_iff_eq] at h ⊢
  obtain ⟨-, (h | h) | h⟩ := h <;> simp [h]

theorem depthAfter (h : Nested ls q p) : ∀ d, depthAfter d ls = d := by
  induction h with
  | nil => exact fun _ => rfl
  | question _ ih => exact ih
  | semicolon _ ih => exact ih
  | brackets ho hc _ _ ih ih' =>
    intro d
    simp [ScriptToPhp.depthAfter, depthAfter_append, ho, hc, isOpening_of_isClosing hc, ih, ih']

theorem lexemesAt_deeper (h : Nested ls q p) : ∀ d, depth < d → lexemesAt depth d ls = [] := by
  induction h with
  | nil => exact fun _ _ => rfl
  | question _ ih =>
    intro d hd
    rw [lexemesAt, if_neg (by decide), if_neg (by decide), if_neg (by omega)]
    exact ih d hd
  | semicolon _ ih =>
    intro d hd
    rw [lexemesAt, if_neg (by decide), if_neg (by decide), if_neg (by omega)]
    exact ih d hd
  | brackets ho hc hinside _ ih ih' =>
    intro d hd
    rw [lexemesAt, if_pos ho, lexemesAt_append, hinside.depthAfter, ih _ (by omega), lexemesAt,
      if_neg (by simp [isOpening_of_isClosing hc]), if_pos hc, Nat.add_sub_cancel]
    exact ih' d hd

theorem count_lexemesAt (h : Nested ls q p) (d : Nat) :
    (lexemesAt d d ls).count .question = q ∧ (lexemesAt d d ls).count .semicolon = p := by
  induction h with
  | nil => exact ⟨rfl, rfl⟩
  | question _ ih =>
    rw [lexemesAt, if_neg (by decide), if_neg (by decide), if_pos rfl, List.count_cons_self,
      List.count_cons_of_ne (by decide)]
    exact ⟨congrArg (· + 1) ih.1, ih.2⟩
  | semicolon _ ih =>
    rw [lexemesAt, if_neg (by decide), if_neg (by decide), if_pos rfl, List.count_cons_self,
      List.count_cons_of_ne (by decide)]
    exact ⟨ih.1, congrArg (· + 1) ih.2⟩
  | brackets ho hc hinside _ _ ih =>
    rw [lexemesAt, if_pos ho, lexemesAt_append, hinside.depthAfter,
      hinside.lexemesAt_deeper _ (Nat.lt_succ_self d), lexemesAt,
        if_neg (by simp [isOpening_of_isClosing hc]), if_pos hc, Nat.add_sub_cancel]
    exact ih

end Nested

-- ---------------------------------------------------------------------------
-- Quiet characters
-- ---------------------------------------------------------------------------

/-- The characters that a lexeme of an outline, a string or a comment may begin with. -/
def loudCharacters : List Char := ['(', ')', '[', ']', '\x7b', '\x7d', ';', '?', '"', '\'', '/']

def isQuiet (c : Char) : Bool := !loudCharacters.contains c

theorem contains_eq_false_of_class {chars : List Char} {p : Char → Bool}
    (h : chars.all (!p ·) = true) (hc : p c = true) : chars.contains c = false := by
  rw [← Bool.not_eq_true, List.contains_iff_mem]
  intro hmem
  have hp := List.all_eq_true.1 h c hmem
  simp [hc] at hp

theorem isQuiet_of_class {p : Char → Bool} (h : loudCharacters.all (!p ·) = true)
    (hc : p c = true) : isQuiet c = true := by
  rw [isQuiet, contains_eq_false_of_class h hc, Bool.not_false]

theorem isQuiet_beq (hd : loudCharacters.contains d = true) (hc : isQuiet c = true) :
    (c == d) = false := by
  rw [beq_eq_false_iff_ne]
  rintro rfl
  simp [isQuiet, hd, -List.contains_eq_mem] at hc

namespace Matcher

def Takes (p : Char → Bool) (m : Matcher) : Prop :=
  ∀ cs n, m cs = some n → ∀ c ∈ cs.take n, p c = true

section

variable {p q r : Char → Bool}

theorem word_takes (h : u.toList.all p = true) : (word u).Takes p := by
  intro cs n hn
  simp only [word, Option.ite_none_right_eq_some, Option.some.injEq] at hn
  obtain ⟨hfront, rfl⟩ := hn
  rw [← List.prefix_iff_eq_take.1 (List.isPrefixOf_iff_prefix.1 hfront)]
  exact List.all_eq_true.1 h

theorem longest_takes (h : ∀ u ∈ words, u.toList.all p = true) : (longest words).Takes p := by
  intro cs n hn
  obtain ⟨u, hu, hword⟩ := List.mem_filterMap.1 (List.max?_mem hn)
  exact word_takes (h u hu) cs n hword

theorem one_takes (h : ∀ c, q c = true → p c = true) : (one q).Takes p := by
  intro cs n hn
  cases cs with
  | nil => cases hn
  | cons c cs =>
    simp only [one, Option.ite_none_right_eq_some, Option.some.injEq] at hn
    obtain ⟨hc, rfl⟩ := hn
    simpa using h c hc

theorem run1_takes (h : ∀ c, q c = true → p c = true) : (run1 q).Takes p := by
  intro cs n hn
  simp only [run1, Option.ite_none_left_eq_some, Option.some.injEq] at hn
  obtain ⟨-, rfl⟩ := hn
  exact fun c hc => h c (forall_take_run q cs c hc)

theorem oneThen_takes (hq : ∀ c, q c = true → p c = true) (hr : ∀ c, r c = true → p c = true) :
    (oneThen q r).Takes p := by
  intro cs n hn
  cases cs with
  | nil => cases hn
  | cons c cs =>
    simp only [oneThen, Option.ite_none_right_eq_some, Option.some.injEq] at hn
    obtain ⟨hc, rfl⟩ := hn
    rw [Nat.add_comm, List.take_succ_cons]
    exact List.forall_mem_cons.2 ⟨hq c hc, fun d hd => hr d (forall_take_run r cs d hd)⟩

theorem firstOf_takes (h : ∀ m ∈ ms, Takes p m) : (firstOf ms).Takes p := by
  intro cs n hn
  obtain ⟨m, hm, hn⟩ := List.exists_of_findSome?_eq_some hn
  exact h m hm cs n hn

theorem andThen_takes (h : Takes p m) (h' : Takes p m') : (andThen m m').Takes p := by
  intro cs n hn
  obtain ⟨k, l, hk, hl, rfl⟩ := andThen_eq_some.1 hn
  rw [List.take_add]
  exact List.forall_mem_append.2 ⟨h cs k hk, h' _ l hl⟩

theorem andMaybe_takes (h : Takes p m) (h' : Takes p m') : (andMaybe m m').Takes p := by
  intro cs n hn
  simp only [andMaybe, Option.bind_eq_bind, Option.bind_eq_some_iff, Option.pure_def,
    Option.some.injEq] at hn
  obtain ⟨k, hk, rfl⟩ := hn
  rw [List.take_add]
  refine List.forall_mem_append.2 ⟨h cs k hk, ?_⟩
  cases hl : m' (cs.drop k) with
  | none => simp
  | some l => exact h' _ l hl

end

def isLiteralCharacter (c : Char) : Bool :=
  isAsciiAlphanumeric c || c == '_' || c == '.' || c == '+' || c == '-'

theorem isLiteralCharacter_eq (c : Char) : isLiteralCharacter c =
    (c.isUpper || c.isLower || c.isDigit || c == '_' || c == '.' || c == '+' || c == '-') := rfl

theorem isLiteralCharacter_of_isUpper (c : Char) (h : c.isUpper = true) :
    isLiteralCharacter c = true := by
  simp [isLiteralCharacter_eq, h]

theorem isLiteralCharacter_of_isUpperTail (c : Char) (h : isUpperTail c = true) :
    isLiteralCharacter c = true := by
  simp only [isUpperTail, Bool.or_eq_true] at h
  rcases h with (h | h) | h <;> simp [isLiteralCharacter_eq, h]

theorem isLiteralCharacter_of_isDigit (c : Char) (h : c.isDigit = true) :
    isLiteralCharacter c = true := by
  simp [isLiteralCharacter_eq, h]

theorem isDigit_of_isBinaryDigit (h : isBinaryDigit c = true) : c.isDigit = true := by
  simp only [isBinaryDigit, Bool.or_eq_true, beq_iff_eq] at h
  rcases h with rfl | rfl <;> rfl

theorem isLiteralCharacter_of_isHexDigit (c : Char) (h : isHexDigit c = true) :
    isLiteralCharacter c = true := by
  simp only [isHexDigit, Bool.or_eq_true, Bool.and_eq_true, decide_eq_true_eq, Char.le_def] at h
  rcases h with (hdigit | ⟨hfrom, hto⟩) | ⟨hfrom, hto⟩
  · exact isLiteralCharacter_of_isDigit c hdigit
  · have hlower : c.isLower = true :=
      Bool.and_eq_true_iff.2 ⟨decide_eq_true hfrom,
        decide_eq_true (UInt32.le_trans hto (by decide))⟩
    simp [isLiteralCharacter_eq, hlower]
  · exact isLiteralCharacter_of_isUpper c (decide_eq_true ⟨hfrom, UInt32.le_trans hto (by decide)⟩)

theorem capitals_takes : capitals.Takes isLiteralCharacter := by
  intro cs n hn
  simp only [capitals, Option.map_eq_some_iff] at hn
  obtain ⟨k, hk, rfl⟩ := hn
  rw [List.take_add]
  refine List.forall_mem_append.2 ⟨fun c hc => ?_, ?_⟩
  · have hunderscore := forall_take_run _ cs c hc
    simp [isLiteralCharacter, eq_of_beq hunderscore]
  · exact oneThen_takes isLiteralCharacter_of_isUpper isLiteralCharacter_of_isUpperTail _ k hk

theorem constant_takes : constant.Takes isLiteralCharacter := by
  refine firstOf_takes ?_
  simp only [List.forall_mem_cons, List.not_mem_nil, false_imp_iff, implies_true, and_true]
  refine ⟨?_, ?_, ?_, ?_, ?_, ?_, andThen_takes ?_ ?_, capitals_takes⟩
  case refine_8 =>
    exact oneThen_takes isLiteralCharacter_of_isUpper isLiteralCharacter_of_isUpperTail
  all_goals exact word_takes (by decide)

theorem one_beq_takes (hd : isLiteralCharacter d = true) :
    (one (· == d)).Takes isLiteralCharacter :=
  one_takes fun _ hc => eq_of_beq hc ▸ hd

theorem one_either_takes (hd : isLiteralCharacter d = true) (hd' : isLiteralCharacter d' = true) :
    (one fun c => c == d || c == d').Takes isLiteralCharacter := by
  refine one_takes fun c hc => ?_
  rcases Bool.or_eq_true_iff.1 hc with hc | hc
  · exact eq_of_beq hc ▸ hd
  · exact eq_of_beq hc ▸ hd'

theorem radix_takes (hlower : isLiteralCharacter lower = true)
    (hupper : isLiteralCharacter upper = true)
    (hdigit : ∀ c, digit c = true → isLiteralCharacter c = true) :
    (radix lower upper digit).Takes isLiteralCharacter :=
  andThen_takes (one_beq_takes (by decide))
    (andThen_takes (one_either_takes hlower hupper) (run1_takes hdigit))

theorem mantissa_takes : mantissa.Takes isLiteralCharacter := by
  have hdigits := run1_takes isLiteralCharacter_of_isDigit
  refine firstOf_takes ?_
  simp only [List.forall_mem_cons, List.not_mem_nil, false_imp_iff, implies_true, and_true]
  refine ⟨andMaybe_takes hdigits (oneThen_takes (fun c hc => ?_) isLiteralCharacter_of_isDigit),
    andThen_takes (one_beq_takes (by decide)) hdigits⟩
  simp [isLiteralCharacter, eq_of_beq hc]

theorem exponent_takes : exponent.Takes isLiteralCharacter := by
  have hdigits := run1_takes isLiteralCharacter_of_isDigit
  refine andThen_takes (one_either_takes (by decide) (by decide)) (firstOf_takes ?_)
  simp only [List.forall_mem_cons, List.not_mem_nil, false_imp_iff, implies_true, and_true]
  exact ⟨andThen_takes (one_either_takes (by decide) (by decide)) hdigits, hdigits⟩

theorem number_takes : number.Takes isLiteralCharacter := by
  refine firstOf_takes ?_
  simp only [List.forall_mem_cons, List.not_mem_nil, false_imp_iff, implies_true, and_true]
  exact ⟨radix_takes (by decide) (by decide) fun c hc =>
    isLiteralCharacter_of_isDigit c (isDigit_of_isBinaryDigit hc), radix_takes (by decide)
      (by decide) fun c hc => isLiteralCharacter_of_isDigit c (isDigit_of_isOctalDigit hc),
    radix_takes (by decide) (by decide) isLiteralCharacter_of_isHexDigit,
      andMaybe_takes mantissa_takes exponent_takes⟩

theorem operators_quiet (hc : isQuiet c = true) (hn : longest operators (c :: cs) = some n) :
    ∀ d ∈ (c :: cs).take n, isQuiet d = true := by
  have hclosed : ∀ op ∈ operators, op.toList.head?.all isQuiet = true →
      op.toList.all isQuiet = true := by
    decide +kernel
  obtain ⟨op, hop, hword⟩ := List.mem_filterMap.1 (List.max?_mem hn)
  have hfront : op.toList.head?.all isQuiet = true := by
    have hpre := hword
    simp only [word, Option.ite_none_right_eq_some] at hpre
    obtain ⟨rest, hrest⟩ := List.isPrefixOf_iff_prefix.1 hpre.1
    cases hchars : op.toList with
    | nil => rfl
    | cons d ds =>
      rw [hchars, List.cons_append, List.cons.injEq] at hrest
      simp [hrest.1, hc]
  exact word_takes (hclosed op hop hfront) _ n hword

end Matcher

theorem Token.Lexed.forall_of_takes {t : Token} {p : Char → Bool} (h : t.Lexed reserved chars pre)
    (htakes : t.kind.matcher.Takes p) : ∀ c ∈ t.text.toList, p c = true := by
  obtain ⟨post, hmatcher⟩ := h.matcher
  simpa using htakes _ _ hmatcher

theorem isQuiet_of_isLiteralCharacter (h : Matcher.isLiteralCharacter c = true) :
    isQuiet c = true :=
  isQuiet_of_class (by decide) h

theorem Rule.quiet_of_first? (hc : isQuiet c = true) (h : Rule.first? (c :: cs) = some (found, n)) :
    ∀ d ∈ (c :: cs).take n, isQuiet d = true := by
  have hn := Rule.matcher_of_first? h
  cases found with
  | comment =>
    exact absurd (Matcher.comment_needs.of_some hn)
      (by simp [isQuiet_beq (d := '/') (by decide) hc])
  | constant => exact fun d hd => isQuiet_of_isLiteralCharacter (Matcher.constant_takes _ n hn d hd)
  | function => exact Matcher.word_takes (by decide) _ n hn
  | keyword => exact Matcher.longest_takes (by decide) _ n hn
  | lambda => exact Matcher.word_takes (by decide) _ n hn
  | number => exact fun d hd => isQuiet_of_isLiteralCharacter (Matcher.number_takes _ n hn d hd)
  | string =>
    have hquote := Matcher.string_needs.of_some hn
    simp [isQuiet_beq (d := '"') (by decide) hc, isQuiet_beq (d := '\'') (by decide) hc] at hquote
  | operator => exact Matcher.operators_quiet hc hn
  | «variable» =>
    exact Matcher.oneThen_takes (fun _ => isQuiet_of_class (by decide +kernel))
      (fun _ => isQuiet_of_class (by decide +kernel)) _ n hn
  | newline | punctuation =>
    simp only [TokenKind.matcher, Matcher.one, Option.ite_none_right_eq_some,
      Option.some.injEq] at hn
    obtain ⟨-, rfl⟩ := hn
    simpa using hc

-- ---------------------------------------------------------------------------
-- Outlines
-- ---------------------------------------------------------------------------

def loudOperators : List String := ["?", "??", "/", "/="]

/-- `Outline cs ls`: the text has this outline. Strings have none. An operator that begins with a
loud character has a blank behind it, so that it can be told from a comment and from a longer
operator. -/
inductive Outline : List Char → List Lexeme → Prop
  | nil : Outline [] []
  | quiet (hc : isQuiet c = true) (h : Outline cs ls) : Outline (c :: cs) ls
  | string (hw : Matcher.string w = some w.length) (h : Outline cs ls) : Outline (w ++ cs) ls
  | mark (hc : c ∈ ['(', ')', '[', ']', '\x7b', '\x7d', ';']) (h : Outline cs ls) :
      Outline (c :: cs) ((.punctuation, String.ofList [c]) :: ls)
  | operator (hop : op ∈ loudOperators) (h : Outline (' ' :: cs) ls) :
      Outline (op.toList ++ ' ' :: cs) ([(.operator, op)].filter Lexeme.isLoud ++ ls)

namespace Outline

theorem append (h : Outline cs ls) (h' : Outline cs' ls') : Outline (cs ++ cs') (ls ++ ls') := by
  induction h with
  | nil => exact h'
  | quiet hc _ ih => exact .quiet hc ih
  | string hw _ ih =>
    rw [List.append_assoc]
    exact .string hw ih
  | mark hc _ ih => exact .mark hc ih
  | operator hop _ ih =>
    rw [List.append_assoc, List.append_assoc]
    exact .operator hop ih

theorem tail (hc : isQuiet c = true) (h : Outline (c :: cs) ls) : Outline cs ls := by
  have hloud (d : Char) (hd : loudCharacters.contains d = true) : c ≠ d := by
    rintro rfl
    simp [isQuiet, hd, -List.contains_eq_mem] at hc
  generalize htext : c :: cs = text at h
  cases h with
  | nil => cases htext
  | quiet hc' h =>
    cases htext
    exact h
  | @string w _ _ hw h =>
    exfalso
    cases w with
    | nil => cases hw
    | cons d w =>
      cases htext
      have hquote := Matcher.string_needs.of_some hw
      simp [hloud '"' (by decide), hloud '\'' (by decide)] at hquote
  | mark hd h =>
    cases htext
    simp only [List.mem_cons, List.not_mem_nil, or_false] at hd
    rcases hd with rfl | rfl | rfl | rfl | rfl | rfl | rfl <;>
      exact absurd rfl (hloud _ (by decide))
  | operator hop h =>
    simp only [loudOperators, List.mem_cons, List.not_mem_nil, or_false] at hop
    rcases hop with rfl | rfl | rfl | rfl <;> cases htext <;> exact absurd rfl (hloud _ (by decide))

theorem drop (h : Outline cs ls) (hquiet : ∀ c ∈ cs.take n, isQuiet c = true) :
    Outline (cs.drop n) ls := by
  induction n generalizing cs with
  | zero => exact h
  | succ n ih =>
    cases cs with
    | nil => exact h
    | cons c cs =>
      obtain ⟨hc, hcs⟩ := List.forall_mem_cons.1 hquiet
      exact ih (h.tail hc) hcs

theorem isLoud_quiet (hc : isQuiet c = true) :
    Lexeme.isLoud (found, String.ofList (c :: cs)) = false := by
  have hne (u : String) (hu : u.toList.head?.any loudCharacters.contains = true) :
      String.ofList (c :: cs) ≠ u := by
    intro heq
    rw [← heq, String.toList_ofList, List.head?_cons, Option.any_some] at hu
    simp [isQuiet, hu, -List.contains_eq_mem] at hc
  generalize String.ofList (c :: cs) = text at hne ⊢
  simp [Lexeme.isLoud, Lexeme.isOpening, Lexeme.isClosing, Lexeme.question, Lexeme.semicolon,
    hne "(" (by decide), hne ")" (by decide), hne "[" (by decide), hne "]" (by decide),
      hne "\x7b" (by decide), hne "\x7d" (by decide),
    hne ";" (by decide), hne "?" (by decide)]

/-- The outline of a text are the loud ones of its lexemes. -/
theorem filter_lexemesIn (h : Outline cs ls) : (lexemesIn cs).filter Lexeme.isLoud = ls := by
  induction hn : cs.length using Nat.strongRecOn generalizing cs ls with
  | ind n ih =>
    subst hn
    cases h with
    | nil =>
      rw [lexemesIn_nil]
      rfl
    | @quiet c cs _ hc h =>
      cases hfirst : Rule.first? (c :: cs) with
      | none =>
        rw [lexemesIn_none hfirst]
        exact ih _ (by simp) h rfl
      | some result =>
        obtain ⟨found, n⟩ := result
        have hpos := Rule.first?_pos hfirst
        obtain ⟨m, rfl⟩ := Nat.exists_eq_succ_of_ne_zero (Nat.ne_of_gt hpos)
        rw [lexemesIn_some hfirst, List.take_succ_cons,
          List.filter_cons_of_neg (Bool.eq_false_iff.1 (isLoud_quiet hc))]
        refine ih _ ?_ ((Outline.quiet hc h).drop (Rule.quiet_of_first? hc hfirst)) rfl
        simp only [List.length_drop, List.length_cons]
        omega
    | @string w cs _ hw h =>
      have hne : w ≠ [] := by
        rintro rfl
        cases hw
      have hloud : ¬ Lexeme.isLoud (.string, String.ofList w) = true := by
        simp [Lexeme.isLoud, Lexeme.isOpening, Lexeme.isClosing, Lexeme.question, Lexeme.semicolon]
      rw [lexemesIn_append (Rule.first?_string hw), List.filter_cons_of_neg hloud]
      exact ih _ (by simpa using List.length_pos_iff.2 hne) h rfl
    | @mark c cs ls hc h =>
      have hclosed : ∀ c ∈ ['(', ')', '[', ']', '\x7b', '\x7d', ';'],
          c ∈ ['(', ')', '[', ']', '\x7b', '\x7d', ',', ';', ':'] ∧
            Lexeme.isLoud (.punctuation, String.ofList [c]) = true := by
        simp only [List.forall_mem_cons, List.not_mem_nil, false_imp_iff, implies_true]
        decide
      obtain ⟨hmark, hloud⟩ := hclosed c hc
      rw [← List.singleton_append, lexemesIn_append (Rule.first?_mark hmark),
        List.filter_cons_of_pos hloud]
      exact congrArg _ (ih _ (by simp) h rfl)
    | @operator op cs ls hop h =>
      have hclosed : ∀ op ∈ loudOperators, op ∈ operators ∧ 0 < op.toList.length := by decide
      obtain ⟨hmem, hpos⟩ := hclosed op hop
      rw [lexemesIn_append (Rule.first?_operator hmem (by exact rfl)), ← List.singleton_append,
        List.filter_append, String.ofList_toList, ih _ (by simpa using hpos) h rfl]

end Outline

-- ---------------------------------------------------------------------------
-- Framed texts
-- ---------------------------------------------------------------------------

/-- `Framed cs q p`: in the text every bracket has its partner, and outside of all brackets there
are `q` question marks and `p` semicolons. -/
def Framed (cs : List Char) (q p : Nat) : Prop := ∃ ls, Outline cs ls ∧ Nested ls q p

namespace Framed

theorem append (h : Framed cs q p) (h' : Framed cs' q' p') :
    Framed (cs ++ cs') (q + q') (p + p') := by
  obtain ⟨ls, houtline, hnested⟩ := h
  obtain ⟨ls', houtline', hnested'⟩ := h'
  exact ⟨ls ++ ls', houtline.append houtline', hnested.append hnested'⟩

theorem quiet (h : ∀ c ∈ cs, isQuiet c = true) : Framed cs 0 0 := by
  refine ⟨[], ?_, .nil⟩
  induction cs with
  | nil => exact .nil
  | cons c cs ih =>
    obtain ⟨hc, hcs⟩ := List.forall_mem_cons.1 h
    exact .quiet hc (ih hcs)

theorem string (h : Matcher.string w = some w.length) : Framed w 0 0 := by
  have houtline := Outline.string h .nil
  rw [List.append_nil] at houtline
  exact ⟨[], houtline, .nil⟩

theorem question : Framed " ? ".toList 1 0 := by
  have hmark : Outline ("?".toList ++ [' ']) [.question] :=
    .operator (by decide) (.quiet (by decide) .nil)
  exact ⟨[.question], .quiet (by decide) hmark, .question .nil⟩

theorem semicolon : Framed [';'] 0 1 := ⟨[.semicolon], .mark (by decide) .nil, .semicolon .nil⟩

theorem operator (hop : op ∈ operators) (hne : op ≠ "?") :
    Framed (' ' :: op.toList ++ [' ']) 0 0 := by
  have hclosed : ∀ op ∈ operators, op ≠ "?" →
      op.toList.all isQuiet = true ∨
        (op ∈ loudOperators ∧ Lexeme.isLoud (.operator, op) = false) := by decide +kernel
  rcases hclosed op hop hne with hquiet | ⟨hloud, hsilent⟩
  · refine quiet ?_
    simp only [List.cons_append, List.forall_mem_cons, List.forall_mem_append, List.not_mem_nil,
      false_imp_iff, implies_true, and_true]
    exact ⟨by decide, List.all_eq_true.1 hquiet, by decide⟩
  · have houtline := Outline.operator hloud (.quiet (c := ' ') (by decide) .nil)
    rw [List.filter_cons_of_neg (by simp [hsilent])] at houtline
    exact ⟨_, .quiet (by decide) houtline, .nil⟩

theorem brackets (hpair : (o, c) ∈ [('(', ')'), ('[', ']'), ('\x7b', '\x7d')]) (h : Framed cs q p) :
    Framed (o :: (cs ++ [c])) 0 0 := by
  have hclosed : ∀ pair ∈ [('(', ')'), ('[', ']'), ('\x7b', '\x7d')],
      pair.1 ∈ ['(', ')', '[', ']', '\x7b', '\x7d', ';'] ∧
        pair.2 ∈ ['(', ')', '[', ']', '\x7b', '\x7d', ';'] ∧
        Lexeme.isOpening (.punctuation, String.ofList [pair.1]) = true ∧
        Lexeme.isClosing (.punctuation, String.ofList [pair.2]) = true := by
    simp only [List.forall_mem_cons, List.not_mem_nil, false_imp_iff, implies_true]
    decide
  obtain ⟨ho, hc, hopening, hclosing⟩ := hclosed _ hpair
  obtain ⟨ls, houtline, hnested⟩ := h
  exact ⟨_, .mark ho (houtline.append (.mark hc .nil)), .brackets hopening hclosing hnested .nil⟩

theorem count_question (h : Framed cs q p) :
    (lexemesAt 0 0 (lexemesIn cs)).count .question = q := by
  obtain ⟨ls, houtline, hnested⟩ := h
  rw [← count_lexemesAt_filter (by decide), houtline.filter_lexemesIn]
  exact (hnested.count_lexemesAt 0).1

end Framed

theorem Nested.count_parentheses (h : Nested ls q p) :
    (lexemesAt 1 0 ((.punctuation, "(") :: (ls ++ [(.punctuation, ")")]))).count .semicolon =
      p := by
  rw [lexemesAt, if_pos (by decide), lexemesAt_append, h.depthAfter, List.count_append,
    (h.count_lexemesAt 1).2]
  rfl

theorem Framed.count_parentheses (h : Framed cs q p) :
    (lexemesAt 1 0 (lexemesIn ('(' :: (cs ++ [')'])))).count .semicolon = p := by
  obtain ⟨ls, houtline, hnested⟩ := h
  have hwhole : Outline ('(' :: (cs ++ [')']))
      ((.punctuation, "(") :: (ls ++ [(.punctuation, ")")])) :=
    .mark (c := '(') (by decide) (houtline.append (.mark (c := ')') (by decide) .nil))
  rw [← count_lexemesAt_filter (by decide), hwhole.filter_lexemesIn]
  exact hnested.count_parentheses

-- ---------------------------------------------------------------------------
-- Tokens
-- ---------------------------------------------------------------------------

def outlineOf (ts : List Token) : List Lexeme := (ts.map Token.lexeme).filter Lexeme.isLoud

theorem outlineOf_append (ts ts' : List Token) :
    outlineOf (ts ++ ts') = outlineOf ts ++ outlineOf ts' := by
  simp [outlineOf]

theorem Token.isOpening_lexeme (t : Token) :
    Lexeme.isOpening t.lexeme = (t.isMark '(' || t.isMark '[' || t.isMark '\x7b') := by
  simp [Lexeme.isOpening, lexeme, isMark, Bool.and_or_distrib_left]

theorem Token.isClosing_lexeme (t : Token) :
    Lexeme.isClosing t.lexeme = (t.isMark ')' || t.isMark ']' || t.isMark '\x7d') := by
  simp [Lexeme.isClosing, lexeme, isMark, Bool.and_or_distrib_left]

theorem Token.lexeme_eq_mark {t : Token} :
    t.lexeme = (.punctuation, c.toString) ↔ t.isMark c = true := by
  rw [isMark_iff, lexeme, Prod.mk.injEq]

/-- Balanced tokens have a nested outline, without semicolons on the outside unless they are nested
themselves. -/
theorem Balanced.outline (h : Balanced nested ts ts') :
    ∃ us q p, ts = us ++ ts' ∧ Nested (outlineOf us) q p ∧ (nested = false → p = 0) := by
  induction h with
  | done => exact ⟨[], 0, 0, rfl, .nil, fun _ => rfl⟩
  | @token nested _ _ t hbracket hsemicolon _ ih =>
    obtain ⟨us, q, p, rfl, hnested, houtside⟩ := ih
    obtain ⟨hopening, hclosing⟩ : Lexeme.isOpening t.lexeme = false ∧
      Lexeme.isClosing t.lexeme = false := by
      rw [t.isOpening_lexeme, t.isClosing_lexeme]
      simpa [Token.isBracket, and_assoc, and_comm, and_left_comm] using hbracket
    by_cases hmark : t.isMark ';' = true
    · have hlexeme : t.lexeme = Lexeme.semicolon := Token.lexeme_eq_mark.2 hmark
      refine ⟨t :: us, q, p + 1, rfl, ?_, fun hfalse => by simp [hsemicolon hmark] at hfalse⟩
      rw [outlineOf, List.map_cons, hlexeme, List.filter_cons_of_pos (by decide)]
      exact .semicolon hnested
    by_cases hquestion : t.lexeme = Lexeme.question
    · refine ⟨t :: us, q + 1, p, rfl, ?_, houtside⟩
      rw [outlineOf, List.map_cons, hquestion, List.filter_cons_of_pos (by decide)]
      exact .question hnested
    · refine ⟨t :: us, q, p, rfl, ?_, houtside⟩
      have hsilent : t.lexeme ≠ Lexeme.semicolon :=
        fun hlexeme => hmark (Token.lexeme_eq_mark.1 hlexeme)
      rw [outlineOf, List.map_cons,
        List.filter_cons_of_neg (by simp [Lexeme.isLoud, hopening, hclosing, hquestion, hsilent])]
      exact hnested
  | @brackets _ _ _ _ opening closing hpair _ _ ih ih' =>
    obtain ⟨us, q, p, rfl, hinside, -⟩ := ih
    obtain ⟨us', q', p', rfl, hlater, houtside⟩ := ih'
    obtain ⟨ho, hc⟩ : Lexeme.isOpening opening.lexeme = true ∧
      Lexeme.isClosing closing.lexeme = true := by
      rw [Token.isOpening_lexeme, Token.isClosing_lexeme]
      simp only [Token.isClosedBy, List.any_cons, List.any_nil, Bool.or_false, Bool.or_eq_true,
        Bool.and_eq_true] at hpair
      grind
    refine ⟨opening :: (us ++ closing :: us'), q', p', by simp, ?_, houtside⟩
    have houtline : outlineOf (opening :: (us ++ closing :: us')) =
        opening.lexeme :: (outlineOf us ++ closing.lexeme :: outlineOf us') := by
      simp [outlineOf, Lexeme.isLoud, ho, hc]
    rw [houtline]
    exact .brackets ho hc hinside hlater

end ScriptToPhp
