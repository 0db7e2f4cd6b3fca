import ScriptToPhp.Php.Render
import ScriptToPhp.Proofs.PrintedLiteral

/-!
# Spelling

A text spells a list of lexemes if it scans without a fault to tokens with these kinds and texts,
marks that only group and separate apart. Whether it does is worked out from the back of the text to
its front, one token at a time.
-/

namespace ScriptToPhp

open Text

-- ---------------------------------------------------------------------------
-- Lexemes of a text
-- ---------------------------------------------------------------------------

namespace Token

def isGrouping (t : Token) : Bool := t.isMark '(' || t.isMark ')' || t.isMark ',' || t.isMark ';'

def lexeme (t : Token) : TokenKind × String := (t.kind, t.text)

/-- The kind and the text of the token in PHP: a name gets one dollar sign, a literal is
translated. -/
def phpLexeme (t : Token) : TokenKind × String :=
  match t.literal? with
  | some l => (t.kind, Php.literal l)
  | none => (t.kind, if t.kind = .variable then "$" ++ Php.Style.bareName t.text else t.text)

end Token

theorem Token.make_unreserved (found : TokenKind) (text : String) (span : Span) :
    ∃ t, Token.make ⟨"", ""⟩ found text span = .ok t ∧ t.lexeme = (found, text) := by
  have hreserved : Token.isReserved text "" = false := rfl
  unfold Token.make
  split <;> simp [hreserved, lexeme]

/-- Whether a lexeme is left out: it is neutral, or it only groups and separates. -/
def isSilent (l : TokenKind × String) : Bool :=
  l.1.isNeutral || (l.1 == .punctuation && (l.2 == "(" || l.2 == ")" || l.2 == "," || l.2 == ";"))

def lexemes (ts : List Token) : List (TokenKind × String) :=
  (ts.map Token.lexeme).filter (!isSilent ·)

theorem isSilent_lexeme (t : Token) : isSilent t.lexeme = (t.isNeutral || t.isGrouping) := by
  cases hkind : t.kind == .punctuation <;>
    simp [isSilent, Token.lexeme, Token.isNeutral, Token.isGrouping, Token.isMark, hkind,
      Bool.or_assoc]

theorem lexemes_cons : lexemes (t :: ts) = [t.lexeme].filter (!isSilent ·) ++ lexemes ts := by
  cases h : isSilent t.lexeme <;> simp [lexemes, h]

theorem lexemes_meaningfulAfter :
    ((Token.meaningfulAfter pending ts).filter (!·.isGrouping)).map Token.lexeme = lexemes ts := by
  fun_induction Token.meaningfulAfter pending ts with
  | case1 => rfl
  | case2 pending t ts hneutral ih => simpa [lexemes_cons, isSilent_lexeme, hneutral] using ih
  | case3 pending t ts hneutral ih =>
    have hgrouping : Token.isGrouping { t with newlineBefore := pending } = t.isGrouping := rfl
    have hlexeme : Token.lexeme { t with newlineBefore := pending } = t.lexeme := rfl
    rw [List.filter_cons, hgrouping, lexemes_cons, ← ih]
    cases h : t.isGrouping <;> simp [isSilent_lexeme, hneutral, h, hlexeme]

/-- Without reserved names, the text scans to the lexemes, wherever it stands. -/
def Spells (cs : List Char) (ls : List (TokenKind × String)) : Prop :=
  ∀ position, (Scanner.mk ⟨"", ""⟩ cs position false).scan.fault = none ∧
    lexemes (Scanner.mk ⟨"", ""⟩ cs position false).scan.tokens = ls

namespace Scanner

theorem scan_congr {s s' : Scanner} (h : s.next = s'.next) : s.scan = s'.scan := by
  rw [scan, scan]
  split <;> split <;> simp_all

theorem readToken_of_first? {s : Scanner} (hfirst : Rule.first? s.rest = some (found, n))
    (hmake : Token.make s.reserved found (String.ofList (s.rest.take n))
      (.ofLength s.position (byteLength (s.rest.take n))) = .ok t) :
    s.readToken = (.ok (some t), s.advance n) := by
  unfold readToken
  split
  next hrest =>
    rw [hrest] at hfirst
    cases hfirst
  next => simp only [hfirst, hmake]

variable {reserved : ReservedPrefixes} {position : Nat}

theorem scan_token {w : List Char} (hfirst : Rule.first? (w ++ cs) = some (found, w.length))
    (hmake : Token.make reserved found (String.ofList w)
      (.ofLength position (byteLength w)) = .ok t) :
    (Scanner.mk reserved (w ++ cs) position false).scan =
      ⟨t :: (Scanner.mk reserved cs (position + byteLength w) false).scan.tokens,
        (Scanner.mk reserved cs (position + byteLength w) false).scan.fault⟩ := by
  obtain ⟨c, w, rfl⟩ := List.exists_cons_of_ne_nil
    (List.ne_nil_of_length_pos (Rule.first?_pos hfirst))
  have hblank : isBlank c = false := Rule.isBlank_of_first? hfirst
  have hskip : (Scanner.mk reserved (c :: w ++ cs) position false).skipBlanks =
      ⟨reserved, c :: w ++ cs, position, false⟩ := by
    simp [skipBlanks, advance, Matcher.run, hblank, byteLength]
  have htake : (c :: w ++ cs).take (c :: w).length = c :: w := List.take_left
  have hdrop : (c :: w ++ cs).drop (c :: w).length = cs := List.drop_left
  apply scan_of_next
  rw [next, if_neg (by simp), hskip, readToken_of_first? hfirst (by rw [htake]; exact hmake)]
  simp only [advance, htake, hdrop]

theorem scan_blank : (Scanner.mk reserved (' ' :: cs) position false).scan =
    (Scanner.mk reserved cs (position + 1) false).scan := by
  have hrun : Matcher.run isBlank (' ' :: cs) = Matcher.run isBlank cs + 1 := by
    simp [Matcher.run, isBlank]
  have hskip : (Scanner.mk reserved (' ' :: cs) position false).skipBlanks =
      (Scanner.mk reserved cs (position + 1) false).skipBlanks := by
    simp only [skipBlanks, advance, hrun, List.drop_succ_cons, List.take_succ_cons, byteLength]
    congr 1
    exact (Nat.add_assoc ..).symm
  exact scan_congr (by simp only [next, hskip, Bool.false_eq_true, ↓reduceIte])

theorem scan_nil : (Scanner.mk reserved [] position false).scan = ⟨[], none⟩ := by
  rw [scan]
  rfl

end Scanner

theorem Text.stopped_cons (h : isStop c = true) : Stopped (c :: cs) := h

theorem Text.stopped_blank : Stopped (' ' :: cs) := rfl

namespace Spells

theorem nil : Spells [] [] := by
  intro position
  rw [Scanner.scan_nil]
  exact ⟨rfl, rfl⟩

theorem blank (h : Spells cs ls) : Spells (' ' :: cs) ls := by
  intro position
  rw [Scanner.scan_blank]
  exact h (position + 1)

theorem token (hfirst : Rule.first? (w ++ cs) = some (found, w.length)) (h : Spells cs ls) :
    Spells (w ++ cs) ([(found, String.ofList w)].filter (!isSilent ·) ++ ls) := by
  intro position
  obtain ⟨t, hmake, hlexeme⟩ := Token.make_unreserved found (String.ofList w)
    (.ofLength position (byteLength w))
  obtain ⟨hfault, hlexemes⟩ := h (position + byteLength w)
  rw [Scanner.scan_token hfirst hmake]
  refine ⟨hfault, ?_⟩
  rw [← hlexemes, ← hlexeme, lexemes_cons]

theorem lexeme {u : String} (hfound : found.isNeutral = false) (hmark : found ≠ .punctuation)
    (hfirst : Rule.first? (u.toList ++ cs) = some (found, u.toList.length)) (h : Spells cs ls) :
    Spells (u.toList ++ cs) ((found, u) :: ls) := by
  have htoken := token hfirst h
  rw [List.filter_cons_of_pos (by simp [isSilent, hfound, hmark])] at htoken
  simpa using htoken

theorem grouping (hc : c ∈ ['(', ')', ',', ';']) (h : Spells cs ls) : Spells (c :: cs) ls := by
  have hclosed : ∀ c ∈ ['(', ')', ',', ';'],
      c ∈ ['(', ')', '[', ']', '\x7b', '\x7d', ',', ';', ':'] ∧
        (!isSilent (.punctuation, String.ofList [c])) = false := by
    simp only [List.forall_mem_cons, List.not_mem_nil, false_imp_iff, implies_true]
    decide
  obtain ⟨hmark, hsilent⟩ := hclosed c hc
  have htoken := token (w := [c]) (Rule.first?_mark hmark) h
  rwa [List.filter_cons_of_neg (by rw [hsilent]; decide)] at htoken

theorem newline (h : Spells cs ls) : Spells ('\n' :: cs) ls :=
  token (w := ['\n']) Rule.first?_newline h

theorem colon (h : Spells cs ls) : Spells (':' :: cs) ((.punctuation, ":") :: ls) :=
  token (w := [':']) (Rule.first?_mark (by decide)) h

end Spells

-- ---------------------------------------------------------------------------
-- Texts that are read as tokens
-- ---------------------------------------------------------------------------

/-- In front of a stop, the text spells the tokens as they are in PHP. -/
structure Reads (text : String) (ts : List Token) : Prop where
  spells : ∀ cs ls, Stopped cs → Spells cs ls →
    Spells (text.toList ++ cs) (ts.map Token.phpLexeme ++ ls)
  /-- No carriage return, which would not be read as it stands. -/
  clean : '\r' ∉ text.toList

namespace Reads

theorem empty : Reads "" [] := ⟨fun _ _ _ h => h, by simp⟩

theorem parenthesized (h : Reads text ts) : Reads ("(" ++ text ++ ")") ts where
  spells cs ls hcs hspells := by
    have hclosing := h.spells (')' :: cs) ls rfl (hspells.grouping (by simp))
    simpa using hclosing.grouping (c := '(') (by simp)
  clean := by simpa using h.clean

theorem operators_clean : ∀ op ∈ operators, '\r' ∉ op.toList := by decide

theorem operator (hop : op ∈ operators) (ht : t.phpLexeme = (.operator, op)) (h : Reads left ts)
    (h' : Reads right ts') : Reads (left ++ (" " ++ op ++ " ") ++ right) (ts ++ t :: ts') where
  spells cs ls hcs hspells := by
    have hright := (h'.spells cs ls hcs hspells).blank
    have hlexeme := hright.lexeme rfl (by simp)
      (Rule.first?_operator hop stopped_blank)
    have hleft := h.spells _ _ stopped_blank hlexeme.blank
    simpa [ht] using hleft
  clean := by simp [h.clean, h'.clean, operators_clean op hop]

theorem separated (hmark : mark = "," ∨ mark = ";") (h : Reads left ts) (h' : Reads right ts') :
    Reads (left ++ (mark ++ " ") ++ right) (ts ++ ts') where
  spells cs ls hcs hspells := by
    have hright := (h'.spells cs ls hcs hspells).blank
    rcases hmark with rfl | rfl
    · simpa using h.spells _ _ (stopped_cons rfl) (hright.grouping (c := ',') (by simp))
    · simpa using h.spells _ _ (stopped_cons rfl) (hright.grouping (c := ';') (by simp))
  clean := by
    rcases hmark with rfl | rfl <;> simp [h.clean, h'.clean]

theorem ternary (hmark : mark.phpLexeme = (.operator, "?"))
    (hcolon : colon.phpLexeme = (.punctuation, ":")) (h : Reads condition ts)
    (h' : Reads whenTrue ts') (h'' : Reads whenFalse ts'') :
    Reads (condition ++ " ? " ++ whenTrue ++ " : " ++ whenFalse)
    (ts ++ mark :: ts' ++ colon :: ts'') where
  spells cs ls hcs hspells := by
    have hfalse := ((h''.spells cs ls hcs hspells).blank.colon).blank
    have htrue := (h'.spells _ _ stopped_blank hfalse).blank
    have hop : "?" ∈ operators := by decide
    have hlexeme := htrue.lexeme rfl (by simp)
      (Rule.first?_operator hop stopped_blank)
    have hcondition := h.spells _ _ stopped_blank hlexeme.blank
    simpa [hmark, hcolon] using hcondition
  clean := by simp [h.clean, h'.clean, h''.clean]

theorem leading_subset (hop : op ∈ ["~", "!", "-", "+", "--", "++"]) : op ∈ operators := by
  revert op
  decide

/-- An operator before its operand, kept apart from it if the two would run together. -/
theorem leading (hop : op ∈ ["~", "!", "-", "+", "--", "++"]) (ht : t.phpLexeme = (.operator, op))
    (hopen : ∃ c cs, text.toList = c :: cs ∧ c ≠ '=') (h : Reads text ts) :
    Reads (op ++ (if Php.gluesTo op text then " " else "") ++ text) (t :: ts) where
  spells cs ls hcs hspells := by
    have hmem : op ∈ operators := leading_subset hop
    have hoperand := h.spells cs ls hcs hspells
    obtain ⟨c, w, htext, hc⟩ := hopen
    cases hglues : Php.gluesTo op text with
    | true =>
      have hlexeme := hoperand.blank.lexeme rfl (by simp)
        (Rule.first?_operator hmem stopped_blank)
      simpa [ht] using hlexeme
    | false =>
      have hsign : op.toList.getLast?.any (fun d => d == '-' || d == '+') = true → c ≠ '-' ∧
          c ≠ '+' := by
        intro hop
        simpa [Php.gluesTo, htext, hop] using hglues
      rw [htext] at hoperand
      have hlexeme := hoperand.lexeme rfl (by simp)
        (Rule.first?_leading hop hc hsign)
      simpa [ht, htext] using hlexeme
  clean := by
    split <;> simp [h.clean, operators_clean op (leading_subset hop)]

theorem literal (hlexed : t.Lexed reserved chars pre) (hl : t.literal? = some l)
    (hchars : '\r' ∉ chars) :
    Reads (Php.literal l) [t] where
  spells cs ls hcs hspells := by
    have htext := hlexed.isLiteralText hl
    have hkind : t.kind.isNeutral = false ∧ t.kind ≠ .punctuation := by
      unfold Token.literal? at hl
      split at hl <;> simp_all [TokenKind.isNeutral]
    have hlexeme := hspells.lexeme hkind.1 hkind.2 (htext.first? hcs)
    simpa [Token.phpLexeme, hl] using hlexeme
  clean hmem := hchars (hlexed.mem_of_mem_literal hl hmem)

end Reads

-- ---------------------------------------------------------------------------
-- Names
-- ---------------------------------------------------------------------------

theorem Text.continuesName_of_startsName (h : startsName c = true) : continuesName c = true := by
  unfold startsName at h
  unfold continuesName
  split at h <;> simp_all [isAsciiAlphanumeric]
  grind

theorem Token.Lexed.continuesName {t : Token} (h : t.Lexed reserved chars pre)
    (ht : t.kind = .variable) :
    ∀ c ∈ t.text.toList, Text.continuesName c = true := by
  obtain ⟨post, hmatcher⟩ := h.matcher
  rw [ht] at hmatcher
  simp only [TokenKind.matcher] at hmatcher
  cases hw : t.text.toList with
  | nil => simp
  | cons c w =>
    rw [hw] at hmatcher
    simp only [List.cons_append, Matcher.oneThen, Option.ite_none_right_eq_some, Option.some.injEq,
      List.length_cons] at hmatcher
    have hrun : Matcher.run Text.continuesName w = Matcher.run Text.continuesName (w ++ post) :=
      Matcher.run_of_append_le (by omega)
    exact List.forall_mem_cons.2 ⟨continuesName_of_startsName hmatcher.1,
      Matcher.forall_of_run_eq_length (by omega)⟩

theorem Php.Style.mem_of_mem_bareName (h : c ∈ (bareName name).toList) : c ∈ name.toList := by
  simp only [bareName, String.toList_ofList] at h
  exact (List.dropWhile_sublist _).subset h

theorem Spells.name {u : String} (hu : ∀ c ∈ u.toList, continuesName c = true)
    (hcs : cs.head?.any continuesName = false) (h : Spells cs ls) :
    Spells (("$" ++ u).toList ++ cs) ((.variable, "$" ++ u) :: ls) := by
  refine h.lexeme rfl (by simp) ?_
  simpa using Rule.first?_variable hu hcs

theorem Token.phpLexeme_name {t : Token} (ht : t.kind = .variable) :
    t.phpLexeme = (.variable, "$" ++ Php.Style.bareName t.text) := by
  simp [phpLexeme, literal?, ht]

namespace Reads

theorem clean_name {t : Token} (hlexed : t.Lexed reserved chars pre) (hchars : '\r' ∉ chars) :
    '\r' ∉ ("$" ++ Php.Style.bareName t.text).toList := by
  obtain ⟨post, htext, -⟩ := hlexed.first
  simp only [String.toList_append, List.mem_append, not_or]
  refine ⟨by decide, fun hmem => hchars ?_⟩
  simp [htext, Php.Style.mem_of_mem_bareName hmem]

theorem name (hlexed : t.Lexed reserved chars pre) (ht : t.kind = .variable)
    (hchars : '\r' ∉ chars) :
    Reads ("$" ++ Php.Style.bareName t.text) [t] where
  spells cs ls hcs hspells := by
    have hstop : cs.head?.any continuesName = false := by
      have hname : Matcher.Unstopped continuesName := Matcher.unstopped_of_all (by decide)
      cases cs with
      | nil => rfl
      | cons c cs => simp [hname c hcs]
    rw [List.map_cons, Token.phpLexeme_name ht]
    exact hspells.name (fun c hc =>
      hlexed.continuesName ht c (Php.Style.mem_of_mem_bareName hc)) hstop
  clean := clean_name hlexed hchars

theorem trailing (hlexed : t.Lexed reserved chars pre) (ht : t.kind = .variable)
    (hchars : '\r' ∉ chars) (hop : isStepOperator op = true) (hu : u.phpLexeme = (.operator, op)) :
    Reads ("$" ++ Php.Style.bareName t.text ++ op) [t, u] := by
  have hname : ∀ c ∈ (Php.Style.bareName t.text).toList, continuesName c = true :=
    fun c hc => hlexed.continuesName ht c (Php.Style.mem_of_mem_bareName hc)
  simp only [isStepOperator, Bool.or_eq_true, beq_iff_eq] at hop
  have hmem : op ∈ operators := by rcases hop with rfl | rfl <;> decide
  constructor
  · intro cs ls hcs hspells
    have hlexeme := hspells.lexeme rfl (by simp) (Rule.first?_operator hmem hcs)
    have hstop : (op.toList ++ cs).head?.any continuesName = false := by
      rcases hop with rfl | rfl <;> rfl
    rw [List.map_cons, List.map_cons, Token.phpLexeme_name ht, hu]
    simpa using hlexeme.name hname hstop
  · rw [String.toList_append, List.mem_append, not_or]
    exact ⟨clean_name hlexed hchars, operators_clean op hmem⟩

end Reads

end ScriptToPhp
