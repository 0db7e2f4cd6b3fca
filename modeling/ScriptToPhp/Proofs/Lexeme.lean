import ScriptToPhp.Proofs.Scanning

/-!
# Lexemes

What the rules read at the front of a text does not depend on what comes behind it, as long as a
stop does: a blank, a line feed, a mark that ends a value, or the end of the text. So a word that
was read as a token once is read as the same token wherever a stop follows it.
-/

namespace ScriptToPhp

open Text

def Text.isStop (c : Char) : Bool := c == ' ' || c == '\n' || c == ')' || c == ',' || c == ';'

def Text.Stopped : List Char → Prop
  | [] => True
  | c :: _ => isStop c = true

namespace Matcher

-- ---------------------------------------------------------------------------
-- Runs
-- ---------------------------------------------------------------------------

theorem run_append : run p (w ++ post) = if run p w = w.length then w.length + run p post
    else run p w := by
  simp only [run, List.takeWhile_append]
  split <;> simp_all

theorem beq_false_of_stop (h : Stopped (c :: cs)) (hd : isStop d = false) : (c == d) = false := by
  rw [beq_eq_false_iff_ne]
  rintro rfl
  rw [Stopped, hd] at h
  cases h

def Unstopped (p : Char → Bool) : Prop := ∀ c, isStop c = true → p c = false

theorem unstopped_of_all (h : [' ', '\n', ')', ',', ';'].all (!p ·) = true) : Unstopped p := by
  intro c hc
  simp only [isStop, Bool.or_eq_true, beq_iff_eq] at hc
  simp only [List.all_cons, List.all_nil, Bool.and_true, Bool.and_eq_true, Bool.not_eq_true'] at h
  obtain ⟨hblank, hnewline, hclosing, hcomma, hsemicolon⟩ := h
  rcases hc with (((rfl | rfl) | rfl) | rfl) | rfl <;> assumption

theorem run_stopped (hp : Unstopped p) (htail : Stopped tail) : run p tail = 0 := by
  cases tail with
  | nil => rfl
  | cons c cs => simp [run, hp c htail]

theorem run_append_stopped (hp : Unstopped p) (htail : Stopped tail) :
    run p (w ++ tail) = run p w := by
  rw [run_append, run_stopped hp htail]
  split
  next h => omega
  next => rfl

theorem run_eq_length (h : ∀ c ∈ w, p c = true) : run p w = w.length := by
  have htake : (w ++ []).takeWhile p = w ++ [].takeWhile p := List.takeWhile_append_of_pos h
  simp only [List.append_nil, List.takeWhile_nil] at htake
  rw [run, htake]

theorem forall_of_run_eq_length (h : run p w = w.length) : ∀ c ∈ w, p c = true := by
  have htake : w.takeWhile p = w := (List.takeWhile_sublist p).eq_of_length h
  have hall : (w.takeWhile p).all p = true := List.all_takeWhile
  rwa [htake, List.all_eq_true] at hall

theorem run_of_append_le (h : run p (w ++ post) ≤ w.length) : run p w = run p (w ++ post) := by
  rw [run_append] at h ⊢
  split
  next => split at h <;> omega
  next => rfl

-- ---------------------------------------------------------------------------
-- Matchers that stop
-- ---------------------------------------------------------------------------

/-- What is taken from a word, or that nothing is, is the same with a stop behind the word as with
any other text. -/
structure Stops (m : Matcher) : Prop where
  takes : ∀ w post tail n, m (w ++ post) = some n → n ≤ w.length → Stopped tail →
    m (w ++ tail) = some n
  refuses : ∀ w post tail, m (w ++ post) = none → Stopped tail → m (w ++ tail) = none

/-- What is taken beyond a word is not taken with a stop behind the word. -/
def Whole (m : Matcher) : Prop :=
  ∀ w post tail n, m (w ++ post) = some n → w.length < n → Stopped tail → m (w ++ tail) = none

theorem one_stopped (hp : Unstopped p) (htail : Stopped tail) : one p tail = none := by
  cases tail with
  | nil => rfl
  | cons c cs => simp [one, hp c htail]

theorem one_stops (hp : Unstopped p) : (one p).Stops where
  takes w post tail n h hn htail := by
    cases w with
    | nil =>
      cases post with
      | nil => cases h
      | cons c post =>
        simp only [List.nil_append, one, Option.ite_none_right_eq_some] at h
        cases h.2
        simp at hn
    | cons c w => exact h
  refuses w post tail h htail := by
    cases w with
    | nil => exact one_stopped hp htail
    | cons c w => exact h

theorem one_whole (hp : Unstopped p) : (one p).Whole := by
  intro w post tail n h hn htail
  cases w with
  | nil => exact one_stopped hp htail
  | cons c w =>
    simp only [List.cons_append, one, Option.ite_none_right_eq_some] at h
    cases h.2
    simp at hn

theorem run1_stops (hp : Unstopped p) : (run1 p).Stops where
  takes w post tail n h hn htail := by
    simp only [run1, Option.ite_none_left_eq_some] at h
    obtain ⟨hzero, h⟩ := h
    cases h
    simp only [run1, run_append_stopped hp htail, run_of_append_le hn, if_neg hzero]
  refuses w post tail h htail := by
    simp only [run1, ite_eq_left_iff, reduceCtorEq, imp_false, Decidable.not_not] at h
    have hrun : run p w = run p (w ++ post) := run_of_append_le (by omega)
    simp [run1, run_append_stopped hp htail, hrun, h]

theorem oneThen_stops (hp : Unstopped p) (hq : Unstopped q) : (oneThen p q).Stops where
  takes w post tail n h hn htail := by
    cases w with
    | nil =>
      cases post with
      | nil => cases h
      | cons c post =>
        simp only [List.nil_append, oneThen, Option.ite_none_right_eq_some] at h
        cases h.2
        simp at hn
    | cons c w =>
      simp only [List.cons_append, oneThen, Option.ite_none_right_eq_some] at h ⊢
      obtain ⟨hc, h⟩ := h
      cases h
      have hrun : run q w = run q (w ++ post) := run_of_append_le (by simp at hn; omega)
      exact ⟨hc, by rw [run_append_stopped hq htail, hrun]⟩
  refuses w post tail h htail := by
    cases w with
    | nil =>
      cases tail with
      | nil => rfl
      | cons c cs => simp [oneThen, hp c htail]
    | cons c w => simpa [oneThen] using h

-- ---------------------------------------------------------------------------
-- Words
-- ---------------------------------------------------------------------------

theorem isPrefixOf_stopped {u : List Char} (hu : ∀ c ∈ u, isStop c = false) (htail : Stopped tail) :
    u.isPrefixOf (w ++ tail) = u.isPrefixOf w := by
  induction u generalizing w with
  | nil => simp
  | cons c u ih =>
    simp only [List.mem_cons, forall_eq_or_imp] at hu
    cases w with
    | nil =>
      cases tail with
      | nil => rfl
      | cons d tail =>
        have hne : c ≠ d := by
          rintro rfl
          exact absurd htail (by simp [Stopped, hu.1])
        simp [List.isPrefixOf_cons_cons, hne]
    | cons d w => simp [List.isPrefixOf_cons_cons, ih hu.2]

theorem isPrefixOf_append_left {u : List Char} (h : u.isPrefixOf (w ++ post) = true)
    (hle : u.length ≤ w.length) : u.isPrefixOf w = true := by
  rw [List.isPrefixOf_iff_prefix] at h ⊢
  exact List.prefix_of_prefix_length_le h (List.prefix_append w post) hle

theorem isPrefixOf_append_right {u : List Char} (h : u.isPrefixOf w = true) :
    u.isPrefixOf (w ++ post) = true := by
  rw [List.isPrefixOf_iff_prefix] at h ⊢
  exact h.trans (List.prefix_append w post)

def Solid (u : String) : Prop := ∀ c ∈ u.toList, isStop c = false

instance : Decidable (Solid u) := List.decidableBAll (isStop · = false) u.toList

theorem word_stops (hu : Solid u) : (word u).Stops where
  takes w post tail n h hn htail := by
    simp only [word, Option.ite_none_right_eq_some] at h ⊢
    obtain ⟨hword, h⟩ := h
    cases h
    exact ⟨isPrefixOf_append_right (isPrefixOf_append_left hword hn), rfl⟩
  refuses w post tail h htail := by
    simp only [word, ite_eq_right_iff, reduceCtorEq, imp_false] at h ⊢
    rw [isPrefixOf_stopped hu htail]
    exact fun hword => h (isPrefixOf_append_right hword)

theorem word_whole (hu : Solid u) : (word u).Whole := by
  intro w post tail n h hn htail
  simp only [word, Option.ite_none_right_eq_some] at h
  cases h.2
  simp only [word, ite_eq_right_iff, reduceCtorEq, imp_false]
  rw [isPrefixOf_stopped hu htail]
  intro hword
  have hle := (List.isPrefixOf_iff_prefix.1 hword).length_le
  omega

-- ---------------------------------------------------------------------------
-- Combinations
-- ---------------------------------------------------------------------------

theorem firstOf_stops (h : ∀ m ∈ ms, Stops m) : (firstOf ms).Stops where
  takes w post tail n htakes hn htail := by
    unfold firstOf at htakes ⊢
    induction ms with
    | nil => cases htakes
    | cons m ms ih =>
      simp only [List.mem_cons, forall_eq_or_imp] at h
      simp only [List.findSome?_cons] at htakes ⊢
      split at htakes
      next k hk =>
        cases htakes
        rw [h.1.takes w post tail _ hk hn htail]
      next hnone =>
        rw [h.1.refuses w post tail hnone htail]
        exact ih h.2 htakes
  refuses w post tail hrefuses htail := by
    unfold firstOf at hrefuses ⊢
    rw [List.findSome?_eq_none_iff] at hrefuses ⊢
    exact fun m hm => (h m hm).refuses w post tail (hrefuses m hm) htail

theorem andThen_eq_some : andThen m m' cs = some n ↔
    ∃ k l, m cs = some k ∧ m' (cs.drop k) = some l ∧ n = k + l := by
  simp only [andThen, Option.bind_eq_bind, Option.bind_eq_some_iff, Option.pure_def,
    Option.some.injEq]
  grind

theorem andThen_eq_none : andThen m m' cs = none ↔ ∀ k, m cs = some k → m' (cs.drop k) = none := by
  cases hm : m cs with
  | none => simp [andThen, hm]
  | some k => cases hm' : m' (cs.drop k) <;> simp [andThen, hm, hm']

theorem andThen_stops (h : Stops m) (hwhole : Whole m) (h' : Stops m') : (andThen m m').Stops where
  takes w post tail n htakes hn htail := by
    obtain ⟨k, l, hk, hl, rfl⟩ := andThen_eq_some.1 htakes
    rw [List.drop_append_of_le_length (by omega)] at hl
    refine andThen_eq_some.2 ⟨k, l, h.takes w post tail k hk (by omega) htail, ?_, rfl⟩
    rw [List.drop_append_of_le_length (by omega)]
    exact h'.takes _ post tail l hl (by simp; omega) htail
  refuses w post tail hrefuses htail := by
    rw [andThen_eq_none] at hrefuses ⊢
    intro k hk
    cases hpost : m (w ++ post) with
    | none => simp [h.refuses w post tail hpost htail] at hk
    | some l =>
      by_cases hle : l ≤ w.length
      · rw [h.takes w post tail l hpost hle htail] at hk
        cases hk
        have hnone := hrefuses _ hpost
        rw [List.drop_append_of_le_length hle] at hnone ⊢
        exact h'.refuses _ post tail hnone htail
      · simp [hwhole w post tail l hpost (by omega) htail] at hk

theorem andMaybe_stops (h : Stops m) (h' : Stops m') : (andMaybe m m').Stops where
  takes w post tail n htakes hn htail := by
    simp only [andMaybe, Option.bind_eq_bind, Option.bind_eq_some_iff, Option.pure_def,
      Option.some.injEq]
      at htakes ⊢
    obtain ⟨k, hk, rfl⟩ := htakes
    have hle : k ≤ w.length := by omega
    refine ⟨k, h.takes w post tail k hk hle htail, ?_⟩
    rw [List.drop_append_of_le_length hle] at hn ⊢
    rw [List.drop_append_of_le_length hle]
    congr 1
    cases hl : m' (w.drop k ++ post) with
    | none => rw [h'.refuses _ post tail hl htail]
    | some l =>
      rw [h'.takes _ post tail l hl ?_ htail]
      simp only [hl, Option.getD_some] at hn
      simp
      omega
  refuses w post tail hrefuses htail := by
    cases hpost : m (w ++ post) with
    | none => simp [andMaybe, h.refuses w post tail hpost htail]
    | some k => simp [andMaybe, hpost] at hrefuses

theorem longest_refuses (hwords : ∀ u ∈ words, Solid u) (h : longest words (w ++ post) = none)
    (htail : Stopped tail) : longest words (w ++ tail) = none := by
  simp only [longest, List.max?_eq_none_iff, List.filterMap_eq_nil_iff] at h ⊢
  exact fun u hu => (word_stops (hwords u hu)).refuses w post tail (h u hu) htail

theorem mem_of_longest {text : String}
    (h : longest words (text.toList ++ post) = some text.toList.length) :
    text ∈ words := by
  obtain ⟨u, hu, hword⟩ := List.mem_filterMap.1 (List.max?_mem h)
  simp only [word, Option.ite_none_right_eq_some, Option.some.injEq] at hword
  obtain ⟨hfront, hlength⟩ := hword
  have heq : u.toList = text.toList :=
    (List.isPrefixOf_iff_prefix.1 (isPrefixOf_append_left hfront
      (Nat.le_of_eq hlength))).eq_of_length hlength
  rwa [← String.toList_inj.1 heq]

/-- A word is the longest one at the front of a text if the next character begins no longer one. -/
theorem longest_eq (hu : u ∈ words)
    (h : ∀ v ∈ words, v.toList.isPrefixOf (u.toList ++ tail) = true →
      v.toList.length ≤ u.toList.length) :
    longest words (u.toList ++ tail) = some u.toList.length := by
  rw [longest, List.max?_eq_some_iff]
  constructor
  · refine List.mem_filterMap.2 ⟨u, hu, ?_⟩
    simp [word]
  · intro n hn
    obtain ⟨v, hv, hword⟩ := List.mem_filterMap.1 hn
    simp only [word, Option.ite_none_right_eq_some] at hword
    cases hword.2
    exact h v hv hword.1

theorem capitals_eq : capitals cs =
    (oneThen Char.isUpper isUpperTail (cs.drop (run (· == '_') cs))).map
      (run (· == '_') cs + ·) := rfl

theorem capitals_stops : capitals.Stops := by
  have hunderscore : Unstopped (· == '_') := unstopped_of_all (by decide)
  have hname : (oneThen Char.isUpper isUpperTail).Stops :=
    oneThen_stops (unstopped_of_all (by decide)) (unstopped_of_all (by decide))
  constructor
  · intro w post tail n h hn htail
    rw [capitals_eq, Option.map_eq_some_iff] at h
    obtain ⟨k, hk, rfl⟩ := h
    have hle : run (· == '_') (w ++ post) ≤ w.length := by omega
    have hrun := run_of_append_le hle
    rw [capitals_eq, run_append_stopped hunderscore htail, hrun, List.drop_append_of_le_length hle,
      hname.takes _ post tail k (by rwa [← List.drop_append_of_le_length hle])
        (by simp; omega) htail]
    rfl
  · intro w post tail h htail
    rw [capitals_eq, Option.map_eq_none_iff] at h ⊢
    rw [run_append_stopped hunderscore htail]
    by_cases hle : run (· == '_') (w ++ post) ≤ w.length
    · rw [run_of_append_le hle, List.drop_append_of_le_length hle]
      exact hname.refuses _ post tail (by rwa [← List.drop_append_of_le_length hle]) htail
    · have hrun : run (· == '_') w = w.length := by
        rw [run_append] at hle
        split at hle
        next h => exact h
        next => exact absurd (run_le _ _) hle
      rw [hrun, List.drop_left]
      exact hname.refuses [] [] tail rfl htail

theorem constant_stops : constant.Stops := by
  refine firstOf_stops ?_
  simp only [List.mem_cons, List.not_mem_nil, or_false, forall_eq_or_imp, forall_eq]
  exact ⟨word_stops (by decide), word_stops (by decide), word_stops (by decide),
    word_stops (by decide), word_stops (by decide), word_stops (by decide),
    andThen_stops (word_stops (by decide)) (word_whole (by decide))
      (oneThen_stops (unstopped_of_all (by decide)) (unstopped_of_all (by decide))),
    capitals_stops⟩

theorem radix_stops (hletter : Unstopped fun c => c == lower || c == upper)
    (hdigit : Unstopped digit) :
    (radix lower upper digit).Stops :=
  have hzero : Unstopped (· == '0') := unstopped_of_all (by decide)
  andThen_stops (one_stops hzero) (one_whole hzero)
    (andThen_stops (one_stops hletter) (one_whole hletter) (run1_stops hdigit))

theorem exponent_stops : exponent.Stops := by
  have hdigit : Unstopped Char.isDigit := unstopped_of_all (by decide)
  have hletter : Unstopped fun c => c == 'e' || c == 'E' := unstopped_of_all (by decide)
  have hsign : Unstopped fun c => c == '+' || c == '-' := unstopped_of_all (by decide)
  refine andThen_stops (one_stops hletter) (one_whole hletter) (firstOf_stops ?_)
  simp only [List.mem_cons, List.not_mem_nil, or_false, forall_eq_or_imp, forall_eq]
  exact ⟨andThen_stops (one_stops hsign) (one_whole hsign) (run1_stops hdigit), run1_stops hdigit⟩

theorem mantissa_stops : mantissa.Stops := by
  have hdigit : Unstopped Char.isDigit := unstopped_of_all (by decide)
  have hpoint : Unstopped (· == '.') := unstopped_of_all (by decide)
  refine firstOf_stops ?_
  simp only [List.mem_cons, List.not_mem_nil, or_false, forall_eq_or_imp, forall_eq]
  exact ⟨andMaybe_stops (run1_stops hdigit) (oneThen_stops hpoint hdigit),
    andThen_stops (one_stops hpoint) (one_whole hpoint) (run1_stops hdigit)⟩

theorem number_stops : number.Stops := by
  refine firstOf_stops ?_
  simp only [List.mem_cons, List.not_mem_nil, or_false, forall_eq_or_imp, forall_eq]
  exact ⟨radix_stops (unstopped_of_all (by decide)) (unstopped_of_all (by decide)),
    radix_stops (unstopped_of_all (by decide)) (unstopped_of_all (by decide)),
    radix_stops (unstopped_of_all (by decide)) (unstopped_of_all (by decide)),
    andMaybe_stops mantissa_stops exponent_stops⟩

-- ---------------------------------------------------------------------------
-- Strings
-- ---------------------------------------------------------------------------

variable {quote : Char}

theorem stringTail_quote : stringTail quote (quote :: cs) = some 1 := by
  cases cs <;> simp [stringTail]

theorem stringTail_escape (hquote : quote ≠ '\\') :
    stringTail quote ('\\' :: c :: cs) = (stringTail quote cs).map (2 + ·) := by
  simp [stringTail, hquote.symm]

theorem stringTail_other (hquote : c ≠ quote) (hescape : c ≠ '\\') :
    stringTail quote (c :: cs) = (stringTail quote cs).map (1 + ·) := by
  cases cs <;> simp [stringTail, hquote, hescape]

theorem stringTail_pos (h : stringTail quote cs = some n) : 0 < n := by
  fun_induction stringTail quote cs generalizing n with
  | case1 => cases h
  | case2 => cases h; omega
  | case3 => cases h
  | case4 c hquote hescape d cs ih =>
    obtain ⟨m, hm, rfl⟩ := Option.map_eq_some_iff.1 h
    omega
  | case5 c cs hquote hescape ih =>
    obtain ⟨m, hm, rfl⟩ := Option.map_eq_some_iff.1 h
    omega

theorem stringTail_of_append (h : stringTail quote (w ++ post) = some n) (hn : n ≤ w.length) :
    stringTail quote w = some n := by
  fun_induction stringTail quote w generalizing n with
  | case1 =>
    have hpos := stringTail_pos h
    simp at hn
    omega
  | case2 c cs hquote =>
    simp only [beq_iff_eq] at hquote
    subst hquote
    rw [List.cons_append, stringTail_quote] at h
    exact h
  | case3 c hquote hescape =>
    simp only [beq_iff_eq] at hquote hescape
    subst hescape
    cases post with
    | nil => simp [stringTail, hquote] at h
    | cons d post =>
      rw [List.cons_append, List.nil_append, stringTail_escape (Ne.symm hquote),
        Option.map_eq_some_iff] at h
      obtain ⟨m, -, rfl⟩ := h
      simp at hn
      omega
  | case4 c hquote hescape d cs ih =>
    simp only [beq_iff_eq] at hquote hescape
    subst hescape
    rw [List.cons_append, List.cons_append, stringTail_escape (Ne.symm hquote),
      Option.map_eq_some_iff] at h
    obtain ⟨m, hm, rfl⟩ := h
    rw [ih hm (by simp at hn; omega)]
    rfl
  | case5 c cs hquote hescape ih =>
    simp only [beq_iff_eq] at hquote hescape
    rw [List.cons_append, stringTail_other hquote hescape, Option.map_eq_some_iff] at h
    obtain ⟨m, hm, rfl⟩ := h
    rw [ih hm (by simp at hn; omega)]
    rfl

theorem stringTail_append (h : stringTail quote w = some n) :
    stringTail quote (w ++ tail) = some n := by
  fun_induction stringTail quote w generalizing n with
  | case1 => cases h
  | case2 c cs hquote =>
    simp only [beq_iff_eq] at hquote
    subst hquote
    rw [List.cons_append, stringTail_quote, h]
  | case3 c hquote hescape => cases h
  | case4 c hquote hescape d cs ih =>
    simp only [beq_iff_eq] at hquote hescape
    subst hescape
    obtain ⟨m, hm, rfl⟩ := Option.map_eq_some_iff.1 h
    rw [List.cons_append, List.cons_append, stringTail_escape (Ne.symm hquote), ih hm]
    rfl
  | case5 c cs hquote hescape ih =>
    simp only [beq_iff_eq] at hquote hescape
    obtain ⟨m, hm, rfl⟩ := Option.map_eq_some_iff.1 h
    rw [List.cons_append, stringTail_other hquote hescape, ih hm]
    rfl

-- ---------------------------------------------------------------------------
-- First characters
-- ---------------------------------------------------------------------------

/-- Only a text that begins with a character of the class is taken from. -/
def Needs (m : Matcher) (p : Char → Bool) : Prop := ∀ c cs, p c = false → m (c :: cs) = none

theorem Needs.of_some (h : Needs m p) (hm : m (c :: cs) = some n) : p c = true := by
  cases hc : p c with
  | true => rfl
  | false => simp [h c cs hc] at hm

theorem one_needs : (one p).Needs p := fun c cs h => by simp [one, h]

theorem oneThen_needs : (oneThen p q).Needs p := fun c cs h => by simp [oneThen, h]

theorem run1_needs : (run1 p).Needs p := fun c cs h => by simp [run1, run, h]

theorem word_needs (h : u.toList.head?.any p = true) : (word u).Needs p := by
  intro c cs hc
  obtain ⟨d, hd, hp⟩ := (Option.any_eq_true p _).1 h
  obtain ⟨ds, hds⟩ := List.head?_eq_some_iff.1 hd
  have hne : d ≠ c := by
    rintro rfl
    simp [hc] at hp
  simp [word, hds, List.isPrefixOf_cons_cons, hne]

theorem longest_needs (h : ∀ u ∈ words, u.toList.head?.any p = true) : (longest words).Needs p := by
  intro c cs hc
  simp only [longest, List.max?_eq_none_iff, List.filterMap_eq_nil_iff]
  exact fun u hu => word_needs (h u hu) c cs hc

theorem firstOf_needs (h : ∀ m ∈ ms, Needs m p) : (firstOf ms).Needs p := by
  intro c cs hc
  simp only [firstOf, List.findSome?_eq_none_iff]
  exact fun m hm => h m hm c cs hc

theorem andThen_needs (h : Needs m p) : (andThen m m').Needs p :=
  fun c cs hc => andThen_eq_none.2 (by simp [h c cs hc])

theorem andMaybe_needs (h : Needs m p) : (andMaybe m m').Needs p :=
  fun c cs hc => by simp [andMaybe, h c cs hc]

theorem Needs.mono (h : Needs m p) (hpq : ∀ c, p c = true → q c = true) : m.Needs q := by
  intro c cs hq
  cases hp : p c with
  | false => exact h c cs hp
  | true => simp [hpq c hp] at hq

theorem comment_needs : comment.Needs (· == '/') := by
  intro c cs hc
  unfold comment
  split <;> simp_all

theorem comment_refuses (htail : Stopped tail) (h : comment w = none) :
    comment (w ++ tail) = none := by
  match w with
  | [] =>
    cases tail with
    | nil => rfl
    | cons c tail => exact comment_needs c _ (beq_false_of_stop htail (by decide))
  | [c] =>
    cases tail with
    | nil => exact h
    | cons d tail =>
      have hslash : d ≠ '/' := beq_eq_false_iff_ne.1 (beq_false_of_stop htail (by decide))
      have hstar : d ≠ '*' := beq_eq_false_iff_ne.1 (beq_false_of_stop htail (by decide))
      simp only [List.cons_append, List.nil_append]
      unfold comment
      split <;> simp_all
  | c :: d :: w =>
    simp only [List.cons_append]
    unfold comment at h ⊢
    split at h
    next => cases h
    next => cases h
    next hline hblock =>
      split <;> simp_all

theorem capitals_needs : capitals.Needs fun c => c.isUpper || c == '_' := by
  intro c cs hc
  simp only [Bool.or_eq_false_iff, beq_eq_false_iff_ne, ne_eq] at hc
  simp [capitals_eq, run, hc.2, oneThen, hc.1]

def beginsWord (c : Char) : Bool := c.isAlpha || c == '_'

theorem constant_needs : constant.Needs beginsWord := by
  have hcapital : ∀ c : Char, (c.isUpper || c == '_') = true → beginsWord c = true := by
    intro c hc
    rw [beginsWord, show c.isAlpha = (c.isUpper || c.isLower) from rfl]
    simp only [Bool.or_eq_true] at hc ⊢
    exact hc.imp_left .inl
  refine firstOf_needs ?_
  simp only [List.mem_cons, List.not_mem_nil, or_false, forall_eq_or_imp, forall_eq]
  exact ⟨word_needs (by decide), word_needs (by decide), word_needs (by decide),
    word_needs (by decide), word_needs (by decide), word_needs (by decide),
      andThen_needs (word_needs (by decide)),
    capitals_needs.mono hcapital⟩

theorem keywords_needs : (longest keywords).Needs beginsWord := longest_needs (by decide)

theorem arrow_needs : (word "=>").Needs (· == '=') := word_needs (by decide)

def beginsNumber (c : Char) : Bool := c.isDigit || c == '.'

theorem beginsWord_of_beginsNumber (h : beginsNumber c = true) : beginsWord c = false := by
  simp only [beginsNumber, Bool.or_eq_true, beq_iff_eq] at h
  rcases h with hdigit | rfl
  · have hne : c ≠ '_' := by
      rintro rfl
      revert hdigit
      decide
    have halpha : c.isAlpha = (decide ('A'.val ≤ c.val ∧ c.val ≤ 'Z'.val) ||
        decide ('a'.val ≤ c.val) && decide (c.val ≤ 'z'.val)) := rfl
    simp only [Char.isDigit, Bool.and_eq_true, decide_eq_true_eq] at hdigit
    rw [beginsWord, halpha]
    grind
  · decide

theorem number_needs : number.Needs beginsNumber := by
  have hzero : ∀ c : Char, (c == '0') = true → beginsNumber c = true := by
    intro c hc
    simp only [beq_iff_eq] at hc
    subst hc
    decide
  have hdigit : ∀ c : Char, c.isDigit = true → beginsNumber c = true := by
    simp +contextual [beginsNumber]
  have hpoint : ∀ c : Char, (c == '.') = true → beginsNumber c = true := by
    simp +contextual [beginsNumber]
  have hradix : ∀ lower upper digit, (radix lower upper digit).Needs beginsNumber :=
    fun _ _ _ => (andThen_needs one_needs).mono hzero
  have hmantissa : mantissa.Needs beginsNumber := by
    refine firstOf_needs ?_
    simp only [List.mem_cons, List.not_mem_nil, or_false, forall_eq_or_imp, forall_eq]
    exact ⟨andMaybe_needs (run1_needs.mono hdigit), andThen_needs (one_needs.mono hpoint)⟩
  refine firstOf_needs ?_
  simp only [List.mem_cons, List.not_mem_nil, or_false, forall_eq_or_imp, forall_eq]
  exact ⟨hradix _ _ _, hradix _ _ _, hradix _ _ _, andMaybe_needs hmantissa⟩

theorem string_needs : string.Needs fun c => c == '"' || c == '\'' :=
  fun c cs hc => by simp [string, hc]

end Matcher

-- ---------------------------------------------------------------------------
-- Rules
-- ---------------------------------------------------------------------------

namespace Rule

theorem take?_eq_some {rule : Rule} (h : rule.matcher cs = some n) (hn : 0 < n)
    (hcut : rule.wholeWord = true → cutsWord cs n = false) : rule.take? cs = some n := by
  unfold take?
  obtain ⟨m, rfl⟩ := Nat.exists_eq_succ_of_ne_zero (Nat.ne_of_gt hn)
  rw [h]
  cases hword : rule.wholeWord with
  | false => simp
  | true => simp [hcut hword]

theorem take?_eq_none {rule : Rule} (h : rule.matcher cs = none) : rule.take? cs = none := by
  simp [take?, h]

theorem first?_eq_some (i : Nat) (hi : all[i]? = some rule)
    (hbefore : ∀ r ∈ all.take i, r.matcher cs = none) (h : rule.take? cs = some n) :
    first? cs = some (rule.kind, n) := by
  obtain ⟨hlt, hrule⟩ := List.getElem?_eq_some_iff.1 hi
  have hall : all = all.take i ++ rule :: all.drop (i + 1) := by
    rw [← hrule, List.getElem_cons_drop, List.take_append_drop]
  have hnone : (all.take i).findSome? (fun r => (r.take? cs).map (r.kind, ·)) = none := by
    rw [List.findSome?_eq_none_iff]
    intro r hr
    simp [take?_eq_none (hbefore r hr)]
  rw [first?, hall, List.findSome?_append, hnone]
  simp [h]

theorem cutsWord_stopped (htail : Stopped tail) : cutsWord (w ++ tail) w.length = false := by
  have hword : Matcher.Unstopped isWordCharacter := Matcher.unstopped_of_all (by decide)
  rw [cutsWord, List.drop_left]
  cases tail with
  | nil => simp
  | cons c tail => simp [hword c htail]

theorem beq_false_of_class {p : Char → Bool} (hc : p c = true) (hd : p d = false) :
    (c == d) = false := by
  rw [beq_eq_false_iff_ne]
  rintro rfl
  simp [hc] at hd

theorem first?_constant (h : Matcher.constant w = some w.length) (htail : Stopped tail) :
    first? (w ++ tail) = some (.constant, w.length) := by
  cases w with
  | nil => cases h
  | cons c w =>
    have hc := Matcher.constant_needs.of_some h
    have htakes : Matcher.constant (c :: w ++ tail) = some (c :: w).length :=
      Matcher.constant_stops.takes _ [] tail _ (by simpa using h) (Nat.le_refl _) htail
    refine first?_eq_some 2 rfl ?_ (take?_eq_some htakes (by simp) fun _ => cutsWord_stopped htail)
    simp only [all, List.take_succ_cons, List.take_zero, List.mem_cons, List.not_mem_nil, or_false,
      forall_eq_or_imp, forall_eq]
    exact ⟨Matcher.one_needs c _ (beq_false_of_class hc (by decide)),
      Matcher.comment_needs c _ (beq_false_of_class hc (by decide))⟩

theorem first?_number (h : Matcher.number w = some w.length) (htail : Stopped tail) :
    first? (w ++ tail) = some (.number, w.length) := by
  cases w with
  | nil => cases h
  | cons c w =>
    have hc := Matcher.number_needs.of_some h
    have hword := Matcher.beginsWord_of_beginsNumber hc
    have htakes : Matcher.number (c :: w ++ tail) = some (c :: w).length :=
      Matcher.number_stops.takes _ [] tail _ (by simpa using h) (Nat.le_refl _) htail
    refine first?_eq_some 6 rfl ?_ (take?_eq_some htakes (by simp) fun _ => cutsWord_stopped htail)
    simp only [all, List.take_succ_cons, List.take_zero, List.mem_cons, List.not_mem_nil, or_false,
      forall_eq_or_imp, forall_eq]
    exact ⟨Matcher.one_needs c _ (beq_false_of_class hc (by decide)),
      Matcher.comment_needs c _ (beq_false_of_class hc (by decide)),
        Matcher.constant_needs c _ hword,
      Matcher.word_needs (by decide) c _ hword, Matcher.keywords_needs c _ hword,
      Matcher.arrow_needs c _ (beq_false_of_class hc (by decide))⟩

def isSymbol (c : Char) : Bool :=
  !(c == '\n' || c == '/' || Matcher.beginsWord c || c == '=' || Matcher.beginsNumber c)

theorem symbol_refused (hc : isSymbol c = true) : ∀ r ∈ all.take 7, r.matcher (c :: cs) = none := by
  simp only [isSymbol, Bool.not_eq_true', Bool.or_eq_false_iff] at hc
  obtain ⟨⟨⟨⟨hnewline, hslash⟩, hword⟩, hequals⟩, hnumber⟩ := hc
  simp only [all, List.take_succ_cons, List.take_zero, List.mem_cons, List.not_mem_nil, or_false,
    forall_eq_or_imp, forall_eq]
  exact ⟨Matcher.one_needs c _ hnewline, Matcher.comment_needs c _ hslash,
    Matcher.constant_needs c _ hword, Matcher.word_needs (by decide) c _ hword,
      Matcher.keywords_needs c _ hword,
    Matcher.arrow_needs c _ hequals, Matcher.number_needs c _ hnumber⟩

theorem symbol_refused_string (hc : isSymbol c = true) (hquote : (c == '"' || c == '\'') = false) :
    ∀ r ∈ all.take 8, r.matcher (c :: cs) = none := by
  have htake : all.take 8 = all.take 7 ++ [⟨.string, .string, false⟩] := rfl
  simp only [htake, List.mem_append, List.mem_singleton, or_imp, forall_and, forall_eq]
  exact ⟨symbol_refused hc, Matcher.string_needs c _ hquote⟩

theorem first?_string (h : Matcher.string w = some w.length) :
    first? (w ++ tail) = some (.string, w.length) := by
  cases w with
  | nil => cases h
  | cons quote w =>
    simp only [Matcher.string, Option.ite_none_right_eq_some, Option.map_eq_some_iff] at h
    obtain ⟨hquote, n, hn, hlength⟩ := h
    have htakes : Matcher.string (quote :: w ++ tail) = some (quote :: w).length := by
      simp [Matcher.string, hquote, Matcher.stringTail_append hn, hlength]
    refine first?_eq_some 7 rfl (symbol_refused ?_) (take?_eq_some htakes (by simp) (by simp))
    simp only [Bool.or_eq_true, beq_iff_eq] at hquote
    rcases hquote with rfl | rfl <;> decide

theorem symbol_refused_operator (hc : isSymbol c = true) (hquote : (c == '"' || c == '\'') = false)
    (hop : ∀ op ∈ operators, op.toList.head?.any (· != c) = true) :
    ∀ r ∈ all.take 9, r.matcher (c :: cs) = none := by
  have htake : all.take 9 = all.take 8 ++ [⟨.operator, .longest operators, true⟩] := rfl
  simp only [htake, List.mem_append, List.mem_singleton, or_imp, forall_and, forall_eq]
  exact ⟨symbol_refused_string hc hquote, Matcher.longest_needs hop c _ (by simp)⟩

theorem first?_variable (hw : ∀ c ∈ w, continuesName c = true)
    (htail : tail.head?.any continuesName = false) :
    first? ('$' :: w ++ tail) = some (.variable, ('$' :: w).length) := by
  have hrun : Matcher.run continuesName (w ++ tail) = w.length := by
    rw [Matcher.run, List.takeWhile_append_of_pos hw]
    cases tail with
    | nil => simp
    | cons c tail => simpa [List.takeWhile_cons] using htail
  have htakes : Matcher.oneThen startsName continuesName ('$' :: w ++ tail) =
      some ('$' :: w).length := by
    rw [List.cons_append, Matcher.oneThen, hrun, Nat.add_comm]
    rfl
  exact first?_eq_some 9 rfl (symbol_refused_operator (by decide) (by decide) (by decide))
    (take?_eq_some htakes (by simp) (by simp))

theorem first?_mark (hc : c ∈ ['(', ')', '[', ']', '\x7b', '\x7d', ',', ';', ':']) :
    first? (c :: cs) = some (.punctuation, 1) := by
  have hsymbol : ∀ c ∈ ['(', ')', '[', ']', '\x7b', '\x7d', ',', ';', ':'], isSymbol c = true ∧
      (c == '"' || c == '\'') = false ∧
        (∀ op ∈ operators, op.toList.head?.any (· != c) = true) ∧ startsName c = false ∧
        Matcher.isMark c = true := by
    simp only [List.forall_mem_cons, List.not_mem_nil, false_imp_iff, implies_true]
    decide
  obtain ⟨hc, hquote, hop, hname, hmark⟩ := hsymbol c hc
  refine first?_eq_some 10 rfl ?_ (take?_eq_some (by simp [Matcher.one, hmark]) (by simp) (by simp))
  have htake : all.take 10 = all.take 9 ++
    [⟨.variable, .oneThen startsName continuesName, false⟩] := rfl
  simp only [htake, List.mem_append, List.mem_singleton, or_imp, forall_and, forall_eq]
  exact ⟨symbol_refused_operator hc hquote hop, Matcher.oneThen_needs c _ hname⟩

theorem isBlank_of_first? (h : first? (c :: cs) = some found) : isBlank c = false := by
  have hclosed : ∀ c ∈ [' ', '\t', '\x0b', '\x0c', '\u00a0', '\ufeff'], isSymbol c = true ∧
      (c == '"' || c == '\'') = false ∧ (∀ op ∈ operators, op.toList.head?.any (· != c) = true) ∧
      startsName c = false ∧ Matcher.isMark c = false := by
    simp only [List.forall_mem_cons, List.not_mem_nil, false_imp_iff, implies_true]
    decide +kernel
  rw [← Bool.not_eq_true]
  intro hblank
  have hmem : c ∈ [' ', '\t', '\x0b', '\x0c', '\u00a0', '\ufeff'] := by
    simpa [isBlank, or_assoc] using hblank
  obtain ⟨hsymbol, hquote, hop, hname, hmark⟩ := hclosed c hmem
  have hnone : ∀ r ∈ all, r.matcher (c :: cs) = none := by
    have hall : all = all.take 9 ++ [⟨.variable, .oneThen startsName continuesName, false⟩,
      ⟨.punctuation, .one Matcher.isMark, false⟩] := rfl
    rw [hall]
    simp only [List.mem_append, List.mem_cons, List.not_mem_nil, or_false, or_imp,
      forall_and, forall_eq]
    exact ⟨symbol_refused_operator hsymbol hquote hop, Matcher.oneThen_needs c _ hname,
      Matcher.one_needs c _ hmark⟩
  obtain ⟨rule, hrule, htake⟩ := List.exists_of_findSome?_eq_some h
  simp [take?_eq_none (hnone rule hrule)] at htake

theorem first?_newline : first? ('\n' :: cs) = some (.newline, 1) :=
  first?_eq_some 0 rfl (by simp) rfl

/-- A word that a rule refuses alone is refused in front of a stop: the rules for comments, words,
arrows and numbers look no further. -/
theorem refuses_stopped (hr : r ∈ (all.take 7).tail) (h : r.matcher w = none)
    (htail : Stopped tail) :
    r.matcher (w ++ tail) = none := by
  have hcomment : Matcher.comment w = none → Matcher.comment (w ++ tail) = none :=
    Matcher.comment_refuses htail
  have hnil : w = w ++ [] := (List.append_nil w).symm
  rw [hnil] at h
  simp only [all, List.take_succ_cons, List.take_zero, List.tail_cons, List.mem_cons,
    List.not_mem_nil, or_false] at hr
  rcases hr with rfl | rfl | rfl | rfl | rfl | rfl
  · exact hcomment (by simpa using h)
  · exact Matcher.constant_stops.refuses w [] tail h htail
  · exact (Matcher.word_stops (by decide)).refuses w [] tail h htail
  · exact Matcher.longest_refuses (by decide) h htail
  · exact (Matcher.word_stops (by decide)).refuses w [] tail h htail
  · exact Matcher.number_stops.refuses w [] tail h htail

theorem first?_operator (hop : op ∈ operators) (htail : Stopped tail) :
    first? (op.toList ++ tail) = some (.operator, op.toList.length) := by
  have hclosed : ∀ op ∈ operators, 0 < op.toList.length ∧ Matcher.Solid op ∧
      op.toList.head?.any (fun c => c != '\n' && !(c == '"' || c == '\'')) = true ∧
      ∀ r ∈ (all.take 7).tail, r.matcher op.toList = none := by decide +kernel
  obtain ⟨hpos, -, hhead, hrefused⟩ := hclosed op hop
  have hlongest : Matcher.longest operators (op.toList ++ tail) = some op.toList.length := by
    refine Matcher.longest_eq hop fun v hv hfront => ?_
    rw [Matcher.isPrefixOf_stopped (hclosed v hv).2.1 htail] at hfront
    exact (List.isPrefixOf_iff_prefix.1 hfront).length_le
  refine first?_eq_some 8 rfl ?_ (take?_eq_some hlongest hpos fun _ => cutsWord_stopped htail)
  obtain ⟨c, hc, hhead⟩ := (Option.any_eq_true ..).1 hhead
  simp only [Bool.and_eq_true, bne, Bool.not_eq_true'] at hhead
  obtain ⟨hnewline, hquote⟩ := hhead
  obtain ⟨w, hw⟩ := List.head?_eq_some_iff.1 hc
  have htake : all.take 8 = ⟨.newline, .one (· == '\n'), false⟩ :: (all.take 7).tail ++
      [⟨.string, .string, false⟩] := rfl
  simp only [htake, List.mem_append, List.mem_cons, List.not_mem_nil, or_false, or_imp,
    forall_and, forall_eq]
  refine ⟨⟨?_, fun r hr => refuses_stopped hr (hrefused r hr) htail⟩, ?_⟩
  · rw [hw]
    exact Matcher.one_needs c _ hnewline
  · rw [hw]
    exact Matcher.string_needs c _ hquote

/-- An operator before its operand is read as a whole if no longer one begins there. -/
theorem first?_leading (hop : op ∈ ["~", "!", "-", "+", "--", "++"]) (hc : c ≠ '=')
    (hsign : op.toList.getLast?.any (fun d => d == '-' || d == '+') = true → c ≠ '-' ∧ c ≠ '+') :
    first? (op.toList ++ c :: cs) = some (.operator, op.toList.length) := by
  have hclosed : ∀ op ∈ ["~", "!", "-", "+", "--", "++"], op ∈ operators ∧
      op.toList.getLast?.any isWordCharacter = false ∧
      op.toList.head?.any (fun d => isSymbol d && !(d == '"' || d == '\'')) = true ∧
      ∀ v ∈ operators, op.toList.isPrefixOf v.toList = true → v.toList.length ≤ op.toList.length ∨
        (v.toList.drop op.toList.length).head?.any (fun d => d == '=' ||
          op.toList.getLast?.any (fun d => d == '-' || d == '+') &&
            (d == '-' || d == '+')) = true := by
    decide +kernel
  obtain ⟨hmem, hword, hhead, hlonger⟩ := hclosed op hop
  obtain ⟨d, hd, hhead⟩ := (Option.any_eq_true ..).1 hhead
  simp only [Bool.and_eq_true, Bool.not_eq_true'] at hhead
  obtain ⟨hsymbol, hquote⟩ := hhead
  obtain ⟨w, hw⟩ := List.head?_eq_some_iff.1 hd
  have hlongest : Matcher.longest operators (op.toList ++ c :: cs) = some op.toList.length := by
    refine Matcher.longest_eq hmem fun v hv hfront => ?_
    rw [List.isPrefixOf_iff_prefix] at hfront
    refine Nat.le_of_not_lt fun hlt => ?_
    obtain ⟨rest, hrest⟩ : op.toList <+: v.toList :=
      List.prefix_of_prefix_length_le (List.prefix_append _ _) hfront (Nat.le_of_lt hlt)
    obtain hle | hnext := hlonger v hv (List.isPrefixOf_iff_prefix.2 ⟨rest, hrest⟩)
    · omega
    · obtain ⟨d, hd, hnext⟩ := (Option.any_eq_true ..).1 hnext
      simp only [Bool.or_eq_true, Bool.and_eq_true, beq_iff_eq] at hnext
      rw [← hrest, List.prefix_append_right_inj] at hfront
      rw [← hrest, List.drop_left] at hd
      obtain ⟨rest, rfl⟩ := List.head?_eq_some_iff.1 hd
      obtain rfl : d = c := (List.cons_prefix_cons.1 hfront).1
      obtain rfl | ⟨hop, rfl | rfl⟩ := hnext
      · exact hc rfl
      · exact (hsign hop).1 rfl
      · exact (hsign hop).2 rfl
  refine first?_eq_some 8 rfl ?_ (take?_eq_some hlongest (by simp [hw]) fun _ => ?_)
  · rw [hw]
    exact symbol_refused_string hsymbol hquote
  · simp [cutsWord, hword]

end Rule

def TokenKind.matcher : TokenKind → Matcher
  | .newline => .one (· == '\n')
  | .comment => .comment
  | .constant => .constant
  | .function => .word "function"
  | .keyword => .longest keywords
  | .lambda => .word "=>"
  | .number => .number
  | .string => .string
  | .operator => .longest operators
  | .variable => .oneThen startsName continuesName
  | .punctuation => .one Matcher.isMark

theorem Rule.matcher_eq (h : rule ∈ all) : rule.matcher = rule.kind.matcher := by
  simp only [all, List.mem_cons, List.not_mem_nil, or_false] at h
  rcases h with rfl | rfl | rfl | rfl | rfl | rfl | rfl | rfl | rfl | rfl | rfl <;> rfl

theorem Rule.matcher_of_first? {cs : List Char} (h : first? cs = some (found, n)) :
    found.matcher cs = some n := by
  obtain ⟨rule, hmem, hrule⟩ := List.exists_of_findSome?_eq_some h
  obtain ⟨m, hm, heq⟩ := Option.map_eq_some_iff.1 hrule
  cases heq
  rw [← matcher_eq hmem]
  exact (take?_matcher hm).1

theorem Token.Lexed.matcher {t : Token} (h : t.Lexed reserved chars pre) :
    ∃ post, t.kind.matcher (t.text.toList ++ post) = some t.text.toList.length := by
  obtain ⟨post, -, hfirst⟩ := h.first
  exact ⟨post, Rule.matcher_of_first? hfirst⟩

theorem Token.Lexed.mem_keywords {t : Token} (h : t.Lexed reserved chars pre)
    (ht : t.kind = .keyword) :
    t.value ∈ keywords := by
  have hvalue : t.value = t.text := by simp [h.value, ht]
  obtain ⟨post, hmatcher⟩ := h.matcher
  rw [ht] at hmatcher
  rw [hvalue]
  exact Matcher.mem_of_longest hmatcher

end ScriptToPhp
