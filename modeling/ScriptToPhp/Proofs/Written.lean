import ScriptToPhp.Proofs.Reprint

/-!
# Written texts

A text that is put together from words and blanks is read as these words, each at its place, if
every word is read whole in front of what follows it. A word is: the rules that take a word alone
take it in front of a stop, too.
-/

namespace ScriptToPhp

open Text

-- ---------------------------------------------------------------------------
-- Rules in front of a stop
-- ---------------------------------------------------------------------------

namespace Matcher

variable {m : Matcher} {w tail : List Char}

theorem Stops.eq (h : m.Stops) (hbounded : m.Bounded) (htail : Stopped tail) :
    m (w ++ tail) = m w := by
  cases hm : m w with
  | none => exact h.refuses w [] tail (by rwa [List.append_nil]) htail
  | some n => exact h.takes w [] tail n (by rwa [List.append_nil]) (hbounded w n hm) htail

theorem longest_stopped {words : List String} (hwords : ∀ u ∈ words, Solid u)
    (htail : Stopped tail) :
    longest words (w ++ tail) = longest words w := by
  have hword : ∀ u ∈ words, word u (w ++ tail) = word u w :=
    fun u hu => (word_stops (hwords u hu)).eq (word_bounded u) htail
  rw [longest, longest, List.filterMap_congr hword]

end Matcher

namespace Rule

variable {w tail : List Char} {found : TokenKind}

theorem cutsWord_append {n : Nat} (hn : n ≤ w.length) (htail : Stopped tail) :
    cutsWord (w ++ tail) n = cutsWord w n := by
  rcases Nat.lt_or_eq_of_le hn with hlt | rfl
  · have hdrop : w.drop n ≠ [] := by simpa using hlt
    rw [cutsWord, cutsWord, List.take_append_of_le_length hn, List.drop_append_of_le_length hn,
      List.head?_append_of_ne_nil _ hdrop]
  · rw [cutsWord_stopped htail]
    simp [cutsWord]

theorem take?_append {rule : Rule} (hmem : rule ∈ all)
    (h : rule.matcher (w ++ tail) = rule.matcher w) (htail : Stopped tail) :
    rule.take? (w ++ tail) = rule.take? w := by
  rw [take?, take?, h]
  cases hm : rule.matcher w with
  | none => rfl
  | some n =>
    cases n with
    | zero => rfl
    | succ n => simp only [cutsWord_append (all_bounded rule hmem w _ hm) htail]

/-- No rule but those for comments and strings looks behind a stop. -/
theorem matcher_append {c : Char} (htail : Stopped tail) :
    ∀ rule ∈ all, rule.kind ≠ .comment → rule.kind ≠ .string →
    rule.matcher (c :: w ++ tail) = rule.matcher (c :: w) := by
  have hname : (Matcher.oneThen startsName continuesName).Stops :=
    Matcher.oneThen_stops (Matcher.unstopped_of_all (by decide +kernel))
      (Matcher.unstopped_of_all (by decide +kernel))
  simp only [all, List.mem_cons, List.not_mem_nil, or_false, forall_eq_or_imp, forall_eq]
  exact ⟨fun _ _ => rfl, fun h => absurd rfl h,
    fun _ _ => Matcher.constant_stops.eq Matcher.constant_bounded htail,
    fun _ _ => (Matcher.word_stops (by decide)).eq (Matcher.word_bounded _) htail,
    fun _ _ => Matcher.longest_stopped (by decide) htail,
    fun _ _ => (Matcher.word_stops (by decide)).eq (Matcher.word_bounded _) htail,
    fun _ _ => Matcher.number_stops.eq Matcher.number_bounded htail, fun _ h => absurd rfl h,
    fun _ _ => Matcher.longest_stopped (by decide) htail,
    fun _ _ => hname.eq (Matcher.oneThen_bounded _ _) htail, fun _ _ => rfl⟩

theorem quote_of_first? {c : Char} {n : Nat} (h : first? (c :: w) = some (found, n))
    (hfound : found ≠ .string) :
    (c == '"' || c == '\'') = false := by
  obtain ⟨rule, hmem, hrule⟩ := List.exists_of_findSome?_eq_some h
  obtain ⟨m, htake, heq⟩ := Option.map_eq_some_iff.1 hrule
  cases heq
  rw [← Bool.not_eq_true]
  intro hquote
  have hclosed : ∀ c ∈ ['"', '\''], isSymbol c = true ∧
      (∀ op ∈ operators, op.toList.head?.any (· != c) = true) ∧ startsName c = false ∧
        Matcher.isMark c = false := by
    simp only [List.forall_mem_cons, List.not_mem_nil, false_imp_iff, implies_true]
    decide +kernel
  obtain ⟨hsymbol, hop, hname, hmark⟩ := hclosed c (by simpa using hquote)
  have hrefused : rule.matcher (c :: w) = none := by
    have hall : all = all.take 7 ++
      [⟨.string, .string, false⟩, ⟨.operator, .longest operators, true⟩,
        ⟨.variable, .oneThen startsName continuesName, false⟩,
        ⟨.punctuation, .one Matcher.isMark, false⟩] := rfl
    rw [hall] at hmem
    simp only [List.mem_append, List.mem_cons, List.not_mem_nil, or_false] at hmem
    rcases hmem with hmem | rfl | rfl | rfl | rfl
    · exact symbol_refused hsymbol rule hmem
    · exact absurd rfl hfound
    · exact Matcher.longest_needs hop c w (by simp)
    · exact Matcher.oneThen_needs c w hname
    · exact Matcher.one_needs c w hmark
  simp [take?_eq_none hrefused] at htake

/-- A text that does not begin with a comment is not a comment in front of a stop, either. -/
theorem comment_of_first? {n : Nat} (h : first? w = some (found, n)) (hfound : found ≠ .comment) :
    Matcher.comment w = none := by
  cases hcomment : Matcher.comment w with
  | none => rfl
  | some k =>
    obtain ⟨c, w, rfl⟩ : ∃ c u, w = c :: u := by
      cases w with
      | nil => cases hcomment
      | cons c w => exact ⟨c, w, rfl⟩
    obtain rfl := beq_iff_eq.1 (Matcher.comment_needs.of_some hcomment)
    have hpos : 0 < k := by
      unfold Matcher.comment at hcomment
      split at hcomment <;> simp at hcomment <;> omega
    have hfirst : first? ('/' :: w) = some (.comment, k) :=
      first?_eq_some 1 rfl (by simp [all, Matcher.one]) (take?_eq_some hcomment hpos (by simp))
    rw [hfirst] at h
    cases h
    exact absurd rfl hfound

/-- What is read from a word alone is read in front of a stop. -/
theorem first?_stopped (h : first? w = some (found, w.length)) (hfound : found ≠ .comment)
    (htail : Stopped tail) :
    first? (w ++ tail) = some (found, w.length) := by
  -- A string may hold stops itself, so its rule is not one that ends at them.
  by_cases hstring : found = .string
  · subst hstring
    exact first?_string (matcher_of_first? h)
  · have hcomment := comment_of_first? h hfound
    obtain ⟨c, w, rfl⟩ : ∃ c u, w = c :: u :=
      List.exists_cons_of_ne_nil (List.ne_nil_of_length_pos (first?_pos h))
    have hquote := quote_of_first? h hstring
    have hsame : ∀ rule ∈ all, rule.take? (c :: w ++ tail) = rule.take? (c :: w) := by
      intro rule hrule
      refine take?_append hrule ?_ htail
      by_cases hkind : rule.kind = .comment
      · rw [matcher_eq hrule, hkind]
        exact (Matcher.comment_refuses htail hcomment).trans hcomment.symm
      by_cases hkind' : rule.kind = .string
      · rw [matcher_eq hrule, hkind']
        exact (Matcher.string_needs c _ hquote).trans (Matcher.string_needs c _ hquote).symm
      · exact matcher_append htail rule hrule hkind hkind'
    obtain ⟨before, rule, after, hall, htake, hbefore⟩ := List.findSome?_eq_some_iff.1 h
    refine List.findSome?_eq_some_iff.2 ⟨before, rule, after, hall, ?_, fun r hr => ?_⟩
    · rw [hsame rule (by simp [hall])]
      exact htake
    · rw [hsame r (by simp [hall, hr])]
      exact hbefore r hr

end Rule

-- ---------------------------------------------------------------------------
-- Words
-- ---------------------------------------------------------------------------

def Token.standing (kind : TokenKind) (text : String) (position : Nat) : Token :=
  ⟨kind, text, if kind = .constant then constantValue text else text,
    .ofLength position (byteLength text.toList), false⟩

/-- The text by itself is one token of the kind. -/
def IsWord (reserved : ReservedPrefixes) (kind : TokenKind) (text : String) : Prop :=
  (Source.ofText "" text).scan reserved = ⟨[.standing kind text 0], none⟩

instance (reserved : ReservedPrefixes) (kind : TokenKind) (text : String) :
    Decidable (IsWord reserved kind text) :=
  inferInstanceAs (Decidable (_ = _))

theorem Text.length_normalizeLines_le (cs : List Char) :
    (normalizeLines cs).length ≤ cs.length := by
  fun_induction normalizeLines cs <;> simp only [List.length_cons, List.length_nil] <;> omega

section

variable {reserved : ReservedPrefixes} {kind : TokenKind} {text : String}

theorem Token.make_standing (position : Nat)
    (hconstant : kind = .constant ∨ kind = .variable →
      isReserved text reserved.forConstants = false)
    (hvariable : kind = .variable → isReserved text reserved.forVariables = false) :
    Token.make reserved kind text (.ofLength position (byteLength text.toList)) =
      .ok (.standing kind text position) := by
  cases kind <;> simp_all [Token.make, Token.standing]

/-- A word is read whole, and the prefixes that are kept for generated names do not refuse it. -/
theorem IsWord.facts (h : IsWord reserved kind text) :
    Rule.first? text.toList = some (kind, text.toList.length) ∧ '\r' ∉ text.toList ∧
      ∀ position, Token.make reserved kind text (.ofLength position (byteLength text.toList)) =
        .ok (.standing kind text position) := by
  obtain ⟨pre, hlexed⟩ := ((Source.ofText "" text).scan_lexed reserved).1 (.standing kind text 0)
    (by rw [h]; simp)
  obtain ⟨post, hchars, hfirst⟩ := hlexed.first
  have hlength := congrArg List.length hchars
  have hle := length_normalizeLines_le text.toList
  simp only [Source.ofText, Token.standing, List.length_append] at hchars hlength hfirst
  have hpre : pre = [] := List.eq_nil_of_length_eq_zero (by omega)
  have hpost : post = [] := List.eq_nil_of_length_eq_zero (by omega)
  subst hpre hpost
  rw [List.nil_append, List.append_nil] at hchars
  refine ⟨by simpa using hfirst, hchars ▸ not_mem_normalizeLines _, fun position => ?_⟩
  exact Token.make_standing position hlexed.notConstantPrefix hlexed.notVariablePrefix

theorem IsWord.of_first? (hfirst : Rule.first? text.toList = some (kind, text.toList.length))
    (hclean : '\r' ∉ text.toList) (hconstant : kind ≠ .constant) (hvariable : kind ≠ .variable) :
    IsWord reserved kind text := by
  have hmake : Token.make reserved kind (String.ofList text.toList)
      (.ofLength 0 (byteLength text.toList)) =
        .ok (.standing kind text 0) := by
    rw [String.ofList_toList]
    exact Token.make_standing 0 (fun h => (h.elim hconstant hvariable).elim) fun h =>
      absurd h hvariable
  have hfirst : Rule.first? (text.toList ++ []) = some (kind, text.toList.length) := by
    rwa [List.append_nil]
  have hscan := Scanner.scan_token hfirst hmake
  rw [IsWord, Source.scan, Source.ofText, Scanner.ofSource, normalizeLines_eq_self hclean]
  simpa [Scanner.scan_nil] using hscan

end

structure Word (reserved : ReservedPrefixes) where
  kind : TokenKind
  text : String
  meaningful : kind.isNeutral = false
  alone : IsWord reserved kind text

namespace Word

variable {reserved : ReservedPrefixes}

def token (w : Word reserved) (position : Nat) : Token := .standing w.kind w.text position

def size (w : Word reserved) : Nat := byteLength w.text.toList

/-- The marks that begin no number. -/
abbrev marks : List Char := ['(', ')', '[', ']', '\x7b', '\x7d', ',', ';', ':']

def mark (c : Char) (hc : c ∈ marks) : Word reserved where
  kind := .punctuation
  text := String.ofList [c]
  meaningful := rfl
  alone := by
    have hclean : c ≠ '\r' := by
      rintro rfl
      simp at hc
    refine .of_first? ?_ (by simpa using hclean.symm) (by simp) (by simp)
    simpa using Rule.first?_mark hc

@[simp] theorem text_mark {c : Char} (hc : c ∈ marks) :
    (mark c hc : Word reserved).text = String.ofList [c] := rfl

theorem isMark_mark {c : Char} (hc : c ∈ marks) (position : Nat) :
    ((mark c hc : Word reserved).token position).isMark c = true := by
  have htext : String.ofList [c] = c.toString := String.singleton_eq_ofList.symm
  simp [token, mark, Token.standing, Token.isMark, htext]

def keyword (text : String) (hfirst : Rule.first? text.toList = some (.keyword, text.toList.length))
    (hclean : '\r' ∉ text.toList) : Word reserved where
  kind := .keyword
  text := text
  meaningful := rfl
  alone := .of_first? hfirst hclean (by simp) (by simp)

def operator (op : String) (hop : op ∈ operators) : Word reserved where
  kind := .operator
  text := op
  meaningful := rfl
  alone := by
    have hfirst : Rule.first? (op.toList ++ []) = some (.operator, op.toList.length) :=
      Rule.first?_operator hop trivial
    rw [List.append_nil] at hfirst
    exact .of_first? hfirst (Reads.operators_clean op hop) (by simp) (by simp)

end Word

-- ---------------------------------------------------------------------------
-- Lines
-- ---------------------------------------------------------------------------

inductive Piece (reserved : ReservedPrefixes)
  | blank
  | word (w : Word reserved)

section

variable {reserved : ReservedPrefixes}

def Piece.chars : Piece reserved → List Char
  | .blank => [' ']
  | .word w => w.text.toList

def written (ps : List (Piece reserved)) : List Char := ps.flatMap Piece.chars

/-- The tokens of pieces that stand behind so many bytes. -/
def placed : Nat → List (Piece reserved) → List Token
  | _, [] => []
  | position, .blank :: ps => placed (position + 1) ps
  | position, .word w :: ps => w.token position :: placed (position + w.size) ps

/-- Every word is read as it stands in front of what follows it. -/
def Legible : List (Piece reserved) → Prop
  | [] => True
  | .blank :: ps => Legible ps
  | .word w :: ps =>
    Rule.first? (w.text.toList ++ written ps) = some (w.kind, w.text.toList.length) ∧ Legible ps

variable {w : Word reserved} {ps qs : List (Piece reserved)}

@[simp] theorem written_nil : written ([] : List (Piece reserved)) = [] := rfl

@[simp] theorem written_blank : written (.blank :: ps) = ' ' :: written ps := rfl

@[simp] theorem written_word : written (.word w :: ps) = w.text.toList ++ written ps := rfl

@[simp] theorem written_append : written (ps ++ qs) = written ps ++ written qs :=
  List.flatMap_append

theorem written_mark {c : Char} {hc : c ∈ Word.marks} :
    written (.word (.mark c hc) :: ps) = c :: written ps := by
  simp

theorem Legible.word (hstop : Stopped (written ps)) (h : Legible ps) : Legible (.word w :: ps) := by
  have hkind : w.kind ≠ .comment :=
    fun hkind => by simpa [hkind, TokenKind.isNeutral] using w.meaningful
  exact ⟨Rule.first?_stopped w.alone.facts.1 hkind hstop, h⟩

theorem Legible.mark {c : Char} {hc : c ∈ Word.marks} (h : Legible ps) :
    Legible (.word (.mark c hc) :: ps) := by
  refine ⟨?_, h⟩
  simpa [Word.mark] using Rule.first?_mark hc

theorem placed_append (position : Nat) :
    placed position (ps ++ qs) = placed position ps ++
      placed (position + byteLength (written ps)) qs := by
  fun_induction placed position ps with
  | case1 => rfl
  | case2 position ps ih =>
    have hblank : ' '.utf8Size = 1 := rfl
    simpa [placed, byteLength, hblank, Nat.add_assoc] using ih
  | case3 position w ps ih => simpa [placed, Word.size, Nat.add_assoc] using ih

theorem blanks_silent (reserved : ReservedPrefixes) (n : Nat) :
    written (List.replicate n (.blank : Piece reserved)) = List.replicate n ' ' ∧
      Legible (List.replicate n (.blank : Piece reserved)) ∧
      ∀ position, placed position (List.replicate n (.blank : Piece reserved)) = [] := by
  induction n with
  | zero => exact ⟨rfl, trivial, fun _ => rfl⟩
  | succ n ih =>
    obtain ⟨hwritten, hlegible, hplaced⟩ := ih
    rw [List.replicate_succ, List.replicate_succ, written_blank, hwritten]
    exact ⟨rfl, hlegible, fun position => hplaced (position + 1)⟩

/-- A legible line is read as its words. -/
theorem Scanner.scan_written (h : Legible ps) (position : Nat) :
    (Scanner.mk reserved (written ps) position false).scan = ⟨placed position ps, none⟩ := by
  fun_induction placed position ps with
  | case1 => exact scan_nil
  | case2 position ps ih =>
    rw [written_blank, scan_blank]
    exact ih h
  | case3 position w ps ih =>
    obtain ⟨hfirst, h⟩ := h
    have hrest : (mk reserved (written ps) (position + byteLength w.text.toList) false).scan = _ :=
      ih h
    rw [written_word, scan_token hfirst (by simpa using w.alone.facts.2.2 position), hrest]
    rfl

theorem meaningful_placed (position : Nat) :
    Token.meaningful (placed position ps) = placed position ps := by
  rw [Token.meaningful]
  fun_induction placed position ps with
  | case1 => rfl
  | case2 position ps ih => exact ih
  | case3 position w ps ih =>
    have hneutral : (w.token position).isNeutral = false := w.meaningful
    rw [Token.meaningfulAfter, if_neg (by simp [hneutral]), ih]
    rfl

theorem clean_written : '\r' ∉ written ps := by
  induction ps with
  | nil => simp
  | cons p ps ih =>
    cases p with
    | blank => simpa using ih
    | word w => simpa using ⟨w.alone.facts.2.1, ih⟩

theorem Source.tokens_written (file : String) (h : Legible ps) :
    (Source.ofText file (String.ofList (written ps))).tokens reserved = placed 0 ps ∧
      ((Source.ofText file (String.ofList (written ps))).scan reserved).fault = none := by
  have hscan : (Source.ofText file (String.ofList (written ps))).scan reserved =
      ⟨placed 0 ps, none⟩ := by
    rw [Source.scan, Source.ofText, Scanner.ofSource, String.toList_ofList,
      normalizeLines_eq_self clean_written]
    exact Scanner.scan_written h 0
  rw [Source.tokens, hscan]
  exact ⟨meaningful_placed 0, rfl⟩

end

end ScriptToPhp
