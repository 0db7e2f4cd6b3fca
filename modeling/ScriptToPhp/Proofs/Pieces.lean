import ScriptToPhp.Proofs.PrintedOutline

/-!
# Pieces of printed code

Printed code is put together from pieces, and two pieces never meet inside a word. So a word that
stands in the code stands in one of its pieces, or is cut where it may be. From this it follows
which references to helpers stand in the code: those that were written as such.
-/

namespace ScriptToPhp.Php

-- ---------------------------------------------------------------------------
-- Where pieces meet
-- ---------------------------------------------------------------------------

def dividers : List Char :=
  [' ', '\n', '(', ')', '[', ']', '\x7b', '\x7d', ',', ';', ':', '\'', '&', '!', '~', '+', '-']

/-- Whether two neighbours belong to one piece: two characters of a word, and a word with a quote
behind it. -/
def joins (a b : Char) : Bool := !dividers.contains a && (!dividers.contains b || b == '\'')

/-- The pieces of a text are put together where no neighbours belong to one piece. -/
def Apart (front rest : List Char) : Prop :=
  ∀ a ∈ front.getLast?, ∀ b ∈ rest.head?, joins a b = false

def CutBehind (word front : List Char) : Prop :=
  front ≠ [] ∧ ∃ rest, rest ≠ [] ∧ word = front ++ rest ∧ Apart front rest

/-- The word does not stand in the text, and no text put behind it completes the word. -/
structure Lacks (word text : List Char) : Prop where
  not_within : ¬ word <:+: text
  not_suffix : ∀ front, CutBehind word front → ¬ front <:+ text

theorem suffix_of_append {front text rest : List Char} (h : front ++ rest <:+ text ++ rest) :
    front <:+ text := by
  obtain ⟨before, heq⟩ := h
  exact ⟨before, List.append_cancel_right (by simpa using heq)⟩

theorem getLast?_of_suffix {front text : List Char} (h : front <:+ text)
    (ha : front.getLast? = some a) :
    text.getLast? = some a := by
  obtain ⟨before, rfl⟩ := h
  simp [List.getLast?_append, ha]

theorem Apart.of_suffix {front text rest : List Char} (h : Apart text rest)
    (hsuffix : front <:+ text) :
    Apart front rest := by
  exact fun a ha => h a (getLast?_of_suffix hsuffix ha)

theorem Apart.of_start {front text rest : List Char} (h : Apart front text)
    (hstart : rest <+: text) :
    Apart front rest := by
  intro a ha b hb
  refine h a ha b ?_
  obtain ⟨behind, rfl⟩ := hstart
  simp [List.head?_append, Option.mem_def.1 hb]

theorem suffix_append_cases {front text rest : List Char} (h : front <:+ text ++ rest) :
    front <:+ rest ∨ ∃ front', front' <:+ text ∧ front = front' ++ rest := by
  rcases List.suffix_or_suffix_of_suffix h (List.suffix_append text rest) with h' | ⟨front', rfl⟩
  · exact .inl h'
  · exact .inr ⟨front', suffix_of_append h, rfl⟩

namespace Lacks

variable {word text rest : List Char}

theorem append (h : Lacks word text) (h' : Lacks word rest) (hapart : Apart text rest) :
    Lacks word (text ++ rest) where
  not_within hin := by
    rcases List.infix_append_iff.1 hin with hin | hin | ⟨front, behind, rfl, hfront, hbehind⟩
    · exact h.not_within hin
    · exact h'.not_within hin
    -- The word lies across the border, so it is cut there.
    by_cases hnil : front = []
    · subst hnil
      exact h'.not_within hbehind.isInfix
    by_cases hnil' : behind = []
    · subst hnil'
      exact h.not_within (by simpa using hfront.isInfix)
    · have hcut := (hapart.of_suffix hfront).of_start hbehind
      exact h.not_suffix front ⟨hnil, behind, hnil', rfl, hcut⟩ hfront
  not_suffix front hcut hsuffix := by
    rcases suffix_append_cases hsuffix with hsuffix | ⟨front, hfront, rfl⟩
    · exact h'.not_suffix _ hcut hsuffix
    by_cases hnil : front = []
    · subst hnil
      exact h'.not_suffix _ hcut (List.suffix_refl _)
    by_cases hnil' : rest = []
    · subst hnil'
      exact h.not_suffix _ hcut (by simpa using hfront)
    · obtain ⟨-, behind, -, hword, -⟩ := hcut
      refine h.not_suffix front ⟨hnil,
        rest ++ behind, by simp [hnil'], by simp [hword], fun a ha b hb => ?_⟩ hfront
      exact hapart.of_suffix hfront a ha b (by simpa [List.head?_append_of_ne_nil _ hnil'] using hb)

end Lacks

-- ---------------------------------------------------------------------------
-- References to helpers
-- ---------------------------------------------------------------------------

theorem CutBehind.of_joined {front : List Char} (hjoined : (c :: front).IsChain (joins · · = true))
    (h : CutBehind (c :: front ++ rest) u) : c :: front <+: u := by
  induction front generalizing c u with
  | nil =>
    obtain ⟨hne, behind, -, hword, -⟩ := h
    obtain ⟨d, u, rfl⟩ := List.exists_cons_of_ne_nil hne
    simp only [List.cons_append, List.cons.injEq] at hword
    simp [hword.1]
  | cons c' front ih =>
    obtain ⟨hne, behind, hbehind, hword, hapart⟩ := h
    obtain ⟨d, u, rfl⟩ := List.exists_cons_of_ne_nil hne
    simp only [List.cons_append, List.cons.injEq] at hword
    obtain ⟨rfl, hword⟩ := hword
    rw [List.isChain_cons_cons] at hjoined
    rw [List.cons_prefix_cons]
    refine ⟨rfl, ih hjoined.2 ⟨?_, behind, hbehind, hword, ?_⟩⟩
    · rintro rfl
      have hsplit := hapart c rfl c' (by simpa using congrArg List.head? hword.symm)
      simp [hjoined.1] at hsplit
    · exact hapart.of_suffix (List.suffix_cons c u)

def globals : List Char := ['$', 'G', 'L', 'O', 'B', 'A', 'L', 'S']

def reference (key : List Char) : List Char := globals ++ '[' :: '\'' :: (key ++ ['\'', ']'])

def IsWord (w : List Char) : Prop := ∀ c ∈ w, dividers.contains c = false

theorem isWord_toString (n : Nat) : IsWord (toString n).toList := by
  intro c hc
  rw [Nat.toString_eq_repr, Nat.toList_repr] at hc
  exact contains_eq_false_of_class (by decide)
    (Nat.isDigit_of_mem_toDigits (by decide) (by decide) hc)

section

variable {key text u : List Char}

theorem globals_start_reference : globals <+: reference key := List.prefix_append _ _

theorem reference_eq : reference key = (globals ++ '[' :: '\'' :: (key ++ ['\''])) ++ [']'] := by
  simp [reference]

theorem IsWord.not_mem (h : IsWord key) : ']' ∉ globals ++ '[' :: '\'' :: (key ++ ['\'']) := by
  have hkey : ']' ∉ key := fun hmem => absurd (h _ hmem) (by decide)
  simp [globals, hkey]

/-- Between the characters of the key and behind it no cut is possible. -/
theorem IsWord.exists_divider (hkey : IsWord key) (hsplit : key ++ ['\'', ']'] = u ++ rest)
    (hrest : rest ≠ []) (hne : u ≠ []) (hapart : Apart u rest) :
    ∃ a ∈ u.getLast?, dividers.contains a = true := by
  by_contra hnone
  have hlast : ∀ a ∈ u.getLast?, dividers.contains a = false := by
    simpa [-List.contains_eq_mem] using hnone
  have hhead : ∀ b ∈ rest.head?, dividers.contains b = true ∧ b ≠ '\'' := by
    intro b hb
    have ha : u.getLast hne ∈ u.getLast? := List.getLast?_eq_some_getLast hne
    simpa [joins, hlast _ ha, -List.contains_eq_mem] using hapart _ ha b hb
  rcases List.append_eq_append_iff.1 hsplit with ⟨middle, rfl, hmarks⟩ | ⟨middle, rfl, rfl⟩
  · cases middle with
    | nil =>
      rw [List.nil_append] at hmarks
      exact (hhead '\'' (by rw [← hmarks]; rfl)).2 rfl
    | cons m middle =>
      rw [List.cons_append, List.cons.injEq] at hmarks
      obtain ⟨rfl, hmarks⟩ := hmarks
      cases middle with
      | nil => exact absurd (hlast '\'' (by simp)) (by decide)
      | cons m middle => simp [hrest] at hmarks
  · cases middle with
    | nil => exact (hhead '\'' rfl).2 rfl
    | cons m middle => simp [hkey m (by simp), -List.contains_eq_mem] at hhead

/-- An entry may be cut behind the table and behind each mark but the last. -/
theorem CutBehind.of_reference (hkey : IsWord key) (h : CutBehind (reference key) u) :
    globals <+: u ∧ ']' ∉ u ∧ (u = globals ∨ ∃ a ∈ u.getLast?, dividers.contains a = true) := by
  have hfront : globals <+: u := by
    have hjoined : globals.IsChain (joins · · = true) := by decide
    exact CutBehind.of_joined hjoined h
  obtain ⟨-, behind, hbehind, hword, hapart⟩ := h
  refine ⟨hfront, fun hmem => ?_, ?_⟩
  · rw [reference_eq] at hword
    rcases List.prefix_concat_iff.1 ⟨behind, hword.symm⟩ with rfl | hstart
    · exact hbehind (by simpa using hword)
    · exact hkey.not_mem (hstart.subset hmem)
  obtain ⟨u, rfl⟩ := hfront
  simp only [reference, List.append_assoc, List.append_cancel_left_eq] at hword
  -- The first two marks are dividers themselves.
  cases u with
  | nil => exact .inl (by simp)
  | cons a u =>
    rw [List.cons_append, List.cons.injEq] at hword
    obtain ⟨rfl, hword⟩ := hword
    cases u with
    | nil => exact .inr ⟨'[', by simp, by decide⟩
    | cons a u =>
      rw [List.cons_append, List.cons.injEq] at hword
      obtain ⟨rfl, hword⟩ := hword
      by_cases hnil : u = []
      · exact .inr ⟨'\'', by simp [hnil], by decide⟩
      · have hsuffix : u <:+ globals ++ '[' :: '\'' :: u := ⟨globals ++ ['[', '\''], by simp⟩
        obtain ⟨a, ha, hdivider⟩ := hkey.exists_divider hword hbehind hnil
          (hapart.of_suffix hsuffix)
        refine .inr ⟨a, ?_, hdivider⟩
        simp [List.getLast?_append, List.getLast?_cons, Option.mem_def.1 ha]

theorem lacks_reference (hkey : IsWord key) (h : ¬ globals <:+: text) :
    Lacks (reference key) text where
  not_within hin := h (globals_start_reference.isInfix.trans hin)
  not_suffix _ hcut hsuffix := h ((hcut.of_reference hkey).1.isInfix.trans hsuffix.isInfix)

theorem suffix_reference (key : List Char) : key ++ ['\'', ']'] <:+ reference key :=
  ⟨globals ++ ['[', '\''], by simp [reference]⟩

theorem lacks_reference_of_key {key' : List Char} (hkey : IsWord key) (hkey' : IsWord key')
    (ha : key.getLast? = some a) (ha' : key'.getLast? = some a') (hne : a ≠ a') :
    Lacks (reference key) (reference key') where
  not_within hin := by
    have hmem : ']' ∈ reference key := by simp [reference]
    rw [@reference_eq key'] at hin
    rcases List.infix_concat_iff.1 hin with hsuffix | hin
    · rw [← reference_eq] at hsuffix
      have hends := (suffix_reference key).trans hsuffix
      rcases List.suffix_or_suffix_of_suffix hends (suffix_reference key') with h | h
      · exact hne (Option.some.inj ((getLast?_of_suffix (suffix_of_append h) ha).symm.trans ha'))
      · exact hne (Option.some.inj (ha.symm.trans (getLast?_of_suffix (suffix_of_append h) ha')))
    · exact hkey'.not_mem (hin.subset hmem)
  not_suffix u hcut hsuffix := by
    obtain ⟨-, hmem, -⟩ := hcut.of_reference hkey
    rw [reference_eq] at hsuffix
    rcases List.suffix_concat_iff.1 hsuffix with rfl | ⟨u, rfl, -⟩
    · exact hcut.1 rfl
    · exact hmem (by simp)

theorem lacks_reference_append {front middle name : List Char} (hkey : IsWord key)
    (hfront : ¬ reference key <:+: front) (hmiddle : IsWord (middle ++ '_' :: name))
    (hname : ¬ globals.tail <:+: name) :
    Lacks (reference key) (front ++ (middle ++ '_' :: name)) where
  not_within hin := by
    have hmem : ']' ∉ middle ++ '_' :: name := fun hmem => absurd (hmiddle _ hmem) (by decide)
    rcases List.infix_append_iff.1 hin with hin | hin | ⟨front', behind, heq, hfront', hbehind⟩
    · exact hfront hin
    · exact hmem (hin.subset (by simp [reference]))
    · by_cases hnil : behind = []
      · subst hnil
        exact hfront (by simpa [heq] using hfront'.isInfix)
      · have hlast : behind.getLast? = some ']' := by
          rw [← List.getLast?_append_of_ne_nil front' hnil, ← heq, reference_eq,
            List.getLast?_concat]
        exact hmem (hbehind.subset (List.mem_of_getLast? hlast))
  not_suffix u hcut hsuffix := by
    obtain ⟨-, -, rfl | ⟨a, ha, hdivider⟩⟩ := hcut.of_reference hkey
    · have hsplit : front ++ (middle ++ '_' :: name) = front ++ middle ++ ['_'] ++ name := by simp
      rw [hsplit] at hsuffix
      rcases suffix_append_cases hsuffix with hsuffix | ⟨front', hfront', heq⟩
      · exact hname ((List.tail_suffix _).isInfix.trans hsuffix.isInfix)
      · rcases List.suffix_concat_iff.1 hfront' with rfl | ⟨front', rfl, -⟩
        · obtain rfl : name = globals := by simpa using heq.symm
          exact hname (List.tail_suffix _).isInfix
        · have hmark : '_' ∈ globals := by simp [heq]
          exact absurd hmark (by decide)
    · have hlast := getLast?_of_suffix hsuffix ha
      rw [List.getLast?_append_of_ne_nil _ (by simp)] at hlast
      simp [hmiddle a (List.mem_of_getLast? hlast), -List.contains_eq_mem] at hdivider

end

-- ---------------------------------------------------------------------------
-- Fragments
-- ---------------------------------------------------------------------------

def Style.key (style : Style) (k : Helper) : List Char := (style.helperPrefix ++ k.name).toList

theorem Style.helper_text (style : Style) (k : Helper) :
    (style.helper k).text.toList = reference (style.key k) := by
  have hopening : "$GLOBALS['".toList = globals ++ ['[', '\''] := by decide
  have hclosing : "']".toList = ['\'', ']'] := by decide
  rw [Style.helper, Style.key, String.toList_append, String.toList_append, String.toList_append,
    hopening, hclosing, String.toList_append]
  simp [reference]

def Helper.lastLetter : Helper → Char
  | .dot => 't'
  | .typeof => 'f'

theorem Style.getLast?_key (style : Style) (k : Helper) :
    (style.key k).getLast? = some k.lastLetter := by
  have hname : k.name.toList.getLast? = some k.lastLetter := by cases k <;> decide
  simp [Style.key, List.getLast?_append, hname]

theorem Helpers.contains_union (a b : Helpers) (k : Helper) :
    (a.union b).contains k = (a.contains k || b.contains k) := by
  cases k <;> rfl

def isLead (w : String) : Bool := !w.toList.contains '$' && w.toList.getLast?.any dividers.contains

def isTail (w : String) : Bool :=
  !w.toList.contains '$' && w.toList.head?.any fun c => dividers.contains c && c != '\''

def isLink (w : String) : Bool := isLead w && isTail w

namespace Fragment

/-- The fragment refers to the helper if it says so, and otherwise has no reference to it. -/
def Traced (style : Style) (k : Helper) (f : Fragment) : Prop :=
  if f.helpers.contains k then reference (style.key k) <:+: f.text.toList
  else Lacks (reference (style.key k)) f.text.toList

def Ends (f : Fragment) : Prop := ∀ a ∈ f.text.toList.getLast?, dividers.contains a = true

def Opens (f : Fragment) : Prop := ∀ b ∈ f.text.toList.head?, dividers.contains b = true ∧ b ≠ '\''

variable {style : Style} {k : Helper} {f g : Fragment} {fs : List Fragment} {w w' : String}

theorem Ends.append (h : f.Ends) (h' : g.Ends) : (f ++ g).Ends := by
  intro a ha
  rw [text_append, String.toList_append, List.getLast?_append, Option.mem_def,
    Option.or_eq_some_iff] at ha
  rcases ha with ha | ⟨-, ha⟩
  · exact h' a ha
  · exact h a ha

theorem Opens.append (h : f.Opens) (h' : g.Opens) : (f ++ g).Opens := by
  intro b hb
  rw [text_append, String.toList_append, List.head?_append, Option.mem_def,
    Option.or_eq_some_iff] at hb
  rcases hb with hb | ⟨-, hb⟩
  · exact h b hb
  · exact h' b hb

theorem ends_empty : empty.Ends := by simp [Ends, empty]

theorem opens_empty : empty.Opens := by simp [Opens, empty]

theorem ends_lead (f : Fragment) (hw : isLead w = true) : (f ++ plain w).Ends := by
  simp only [isLead, Bool.and_eq_true, Option.any_eq_true] at hw
  obtain ⟨-, a, ha, hdivider⟩ := hw
  intro a' ha'
  simp [List.getLast?_append, ha] at ha'
  exact ha' ▸ hdivider

theorem opens_tail (f : Fragment) (hw : isTail w = true) : (plain w ++ f).Opens := by
  simp only [isTail, Bool.and_eq_true, Option.any_eq_true, bne_iff_ne] at hw
  obtain ⟨-, b, hb, hdivider⟩ := hw
  intro b' hb'
  simp [List.head?_append, hb] at hb'
  exact hb' ▸ hdivider

theorem opens_enclosed (f g : Fragment) (hw : isTail w = true) : (plain w ++ f ++ g).Opens := by
  simpa [Opens, String.append_assoc] using opens_tail (f ++ g) hw

theorem ends_of_isLead (hw : isLead w = true) :
    (plain w).Ends := by simpa [Ends] using ends_lead empty hw

theorem opens_of_isTail (hw : isTail w = true) :
    (plain w).Opens := by simpa [Opens] using opens_tail empty hw

theorem apart_of_ends (h : f.Ends) (g : Fragment) : Apart f.text.toList g.text.toList := by
  intro a ha b _
  simp [joins, h a ha, -List.contains_eq_mem]

theorem apart_of_opens (f : Fragment) (h : g.Opens) : Apart f.text.toList g.text.toList := by
  intro a _ b hb
  simp [joins, h b hb, -List.contains_eq_mem]

namespace Traced

theorem contains_iff (h : f.Traced style k) :
    f.helpers.contains k = true ↔ reference (style.key k) <:+: f.text.toList := by
  unfold Traced at h
  split at h
  next hcontains => simp [hcontains, h]
  next hcontains => simp [hcontains, h.not_within]

theorem append (h : f.Traced style k) (h' : g.Traced style k)
    (hapart : Apart f.text.toList g.text.toList) :
    (f ++ g).Traced style k := by
  have hhelpers : (f ++ g).helpers.contains k = (f.helpers.contains k || g.helpers.contains k) :=
    Helpers.contains_union _ _ _
  unfold Traced at *
  rw [hhelpers, text_append, String.toList_append]
  by_cases hf : f.helpers.contains k = true
  · simp only [hf, Bool.true_or, if_true] at h ⊢
    exact h.trans (List.prefix_append _ _).isInfix
  by_cases hg : g.helpers.contains k = true
  · simp only [hg, Bool.or_true, if_true] at h' ⊢
    exact h'.trans (List.suffix_append _ _).isInfix
  · simp only [hf, hg, Bool.or_false, Bool.false_eq_true, if_false] at h h' ⊢
    exact h.append h' hapart

theorem of_lacks (h : Lacks (reference (style.key k)) w.toList) : (plain w).Traced style k := by
  have hhelpers : (plain w).helpers.contains k = false := by cases k <;> rfl
  rw [Traced, hhelpers]
  exact h

end Traced

end Fragment

/-- References to a helper can be told from the names and prefixes of a style. -/
structure Style.Tells (style : Style) (k : Helper) : Prop where
  key : ∀ k', IsWord (style.key k')
  varPrefix : ¬ reference (style.key k) <:+: '$' :: style.varPrefix.toList
  newline : style.newline = "\n"
  indent : style.indent = "    "

/-- The name is a word and not that of the table of globals, nor part of it. -/
structure IsPlainName (name : String) : Prop where
  isWord : IsWord name.toList
  not_globals : ¬ globals.tail <:+: name.toList

namespace Fragment

variable {style : Style} {k : Helper} {f g : Fragment} {fs : List Fragment} {w w' : String}

theorem traced_text (h : style.Tells k) (hw : ¬ globals <:+: w.toList) : (plain w).Traced style k :=
  .of_lacks (lacks_reference (h.key k) hw)

theorem traced_word (h : style.Tells k) (w : String) (hw : w.toList.contains '$' = false) :
    (plain w).Traced style k := by
  refine traced_text h fun hin => ?_
  have hmem : '$' ∈ w.toList := hin.subset (by decide)
  simp [hmem] at hw

theorem traced_empty (h : style.Tells k) : empty.Traced style k := traced_word h "" (by decide)

theorem traced_name (h : style.Tells k) (hname : IsPlainName name) : (plain name).Traced style k :=
  traced_text h fun hin => hname.not_globals ((List.tail_suffix globals).isInfix.trans hin)

theorem traced_variable (h : style.Tells k) (hname : IsPlainName name) (scope : Option ScopeId) :
    (plain (style.phpVariable name scope)).Traced style k := by
  have hsuffix : (Style.bareName name).toList <:+ name.toList := by
    rw [Style.bareName, String.toList_ofList]
    exact List.dropWhile_suffix _
  have hbare : ¬ globals.tail <:+: (Style.bareName name).toList :=
    fun hin => hname.not_globals (hin.trans hsuffix.isInfix)
  cases scope with
  | none =>
    refine traced_text h fun hin => hbare ?_
    have htext : (style.phpVariable name none).toList = '$' :: (Style.bareName name).toList := by
      simp [Style.phpVariable]
    rw [htext] at hin
    rcases List.infix_cons_iff.1 hin with hfront | hin
    · exact (List.cons_prefix_cons.1 hfront).2.isInfix
    · exact (List.tail_suffix globals).isInfix.trans hin
  | some id =>
    have htext : (style.phpVariable name (some id)).toList =
        '$' :: style.varPrefix.toList ++
          ('_' :: (toString id).toList ++ '_' :: (Style.bareName name).toList) := by
      simp [Style.phpVariable]
    refine .of_lacks ?_
    rw [htext]
    refine lacks_reference_append (h.key k) h.varPrefix ?_ hbare
    intro c hc
    simp only [List.mem_append, List.mem_cons] at hc
    rcases hc with (rfl | hc) | rfl | hc
    · decide
    · exact isWord_toString id c hc
    · decide
    · exact hname.isWord c (hsuffix.subset hc)

theorem traced_helper (h : style.Tells k) (k' : Helper) : (style.helper k').Traced style k := by
  unfold Traced
  rw [style.helper_text]
  cases k <;> cases k'
  case dot.dot | typeof.typeof => exact List.infix_refl _
  case dot.typeof | typeof.dot =>
    exact lacks_reference_of_key (h.key _) (h.key _) (style.getLast?_key _)
      (style.getLast?_key _) (by decide)

theorem traced_of_isLead (h : style.Tells k) (hw : isLead w = true) : (plain w).Traced style k := by
  simp only [isLead, Bool.and_eq_true, Bool.not_eq_true'] at hw
  exact traced_word h w hw.1

theorem traced_of_isTail (h : style.Tells k) (hw : isTail w = true) : (plain w).Traced style k := by
  simp only [isTail, Bool.and_eq_true, Bool.not_eq_true'] at hw
  exact traced_word h w hw.1

namespace Traced

theorem followedBy (hf : f.Traced style k) (hg : g.Traced style k ∧ g.Opens) :
    (f ++ g).Traced style k :=
  hf.append hg.1 (apart_of_opens f hg.2)

theorem before (hf : f.Traced style k) (h : style.Tells k) (hw : isTail w = true) :
    (f ++ plain w).Traced style k :=
  hf.followedBy ⟨traced_of_isTail h hw, opens_of_isTail hw⟩

theorem behind (hf : f.Traced style k) (h : style.Tells k) (hw : isLead w = true) :
    (plain w ++ f).Traced style k :=
  (traced_of_isLead h hw).append hf (apart_of_ends (ends_of_isLead hw) f)

theorem enclosed (hf : f.Traced style k) (h : style.Tells k) (hw : isLead w = true)
    (hw' : isTail w' = true) :
    (plain w ++ f ++ plain w').Traced style k :=
  (hf.behind h hw).before h hw'

theorem parenthesized (hf : f.Traced style k) (h : style.Tells k) :
    f.parenthesized.Traced style k :=
  hf.enclosed h (by decide) (by decide)

theorem bracketed (hf : f.Traced style k) (h : style.Tells k) :
    ("[" ++ f ++ "]" : Fragment).Traced style k :=
  hf.enclosed h (by decide) (by decide)

theorem appended (hf : f.Traced style k) (h : style.Tells k) (hw : isLink w = true) :
    (plain w ++ f).Traced style k ∧ (plain w ++ f).Opens := by
  obtain ⟨hlead, htail⟩ := Bool.and_eq_true_iff.1 hw
  exact ⟨hf.behind h hlead, opens_tail f htail⟩

theorem linked (hf : f.Traced style k) (hg : g.Traced style k) (h : style.Tells k)
    (hw : isLink w = true) :
    (f ++ plain w ++ g).Traced style k := by
  obtain ⟨hlead, htail⟩ := Bool.and_eq_true_iff.1 hw
  exact (hf.before h htail).append hg (apart_of_ends (ends_lead f hlead) g)

end Traced

theorem traced_join (h : style.Tells k) (hw : isLink w = true) (hfs : ∀ f ∈ fs, f.Traced style k) :
    (join w fs).Traced style k := by
  induction fs with
  | nil => exact traced_empty h
  | cons f fs ih =>
    obtain ⟨hf, hfs⟩ := List.forall_mem_cons.1 hfs
    cases fs with
    | nil => exact hf
    | cons g fs => exact hf.linked (ih hfs) h hw

theorem traced_list (h : style.Tells k) (hfs : ∀ f ∈ fs, f.Traced style k) :
    (join ", " fs).Traced style k :=
  traced_join h (by decide) hfs

theorem traced_callUserFunc (h : style.Tells k) (hfs : ∀ f ∈ fs, f.Traced style k) :
    (callUserFunc fs).Traced style k :=
  (traced_list h hfs).enclosed h (by decide) (by decide)

theorem traced_concat (h : style.Tells k) (hfs : ∀ f ∈ fs, f.Traced style k ∧ f.Ends) :
    (concat fs).Traced style k ∧ (concat fs).Ends := by
  refine concat_of ⟨traced_empty h, ends_empty⟩ (fun f g hf hg => ?_) hfs
  exact ⟨hf.1.append hg.1 (apart_of_ends hf.2 g), hf.2.append hg.2⟩

end Fragment

end ScriptToPhp.Php
