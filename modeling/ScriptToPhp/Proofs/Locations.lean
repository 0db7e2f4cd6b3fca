import Mathlib.Data.List.DropRight
import ScriptToPhp.Proofs.Refusal
import ScriptToPhp.Proofs.SpanArithmetic
import ScriptToPhp.Proofs.Tiling
import ScriptToPhp.Proofs.Written

/-!
# Where a refusal is reported

The line of an offset is the number of line feeds in front of it, which bisection finds among the
starts of lines. So the location of a span is a count: of the line feeds in front of the span, and
of the characters behind the last of them. Every refusal is about a span of whole characters of the
text, and its location counts in this way, up to the one offset whose line or column takes more than
32 bits.
-/

namespace ScriptToPhp

open Text

-- ---------------------------------------------------------------------------
-- Starts of lines
-- ---------------------------------------------------------------------------

theorem Text.length_le_byteLength (cs : List Char) : cs.length ≤ byteLength cs := by
  induction cs with
  | nil => exact Nat.le_refl _
  | cons c cs ih =>
    have := c.utf8Size_pos
    rw [List.length_cons, byteLength]
    omega

theorem Text.byteLength_replicate (n : Nat) (c : Char) :
    byteLength (List.replicate n c) = n * c.utf8Size := by
  induction n with
  | zero => simp [byteLength]
  | succ n ih => rw [List.replicate_succ, byteLength, ih, Nat.succ_mul, Nat.add_comm]

namespace LineMap

theorem startsAfter_append (offset : Nat) (cs ds : List Char) :
    startsAfter offset (cs ++ ds) =
      startsAfter offset cs ++ startsAfter (offset + byteLength cs) ds := by
  induction cs generalizing offset with
  | nil => rfl
  | cons c cs ih =>
    simp only [List.cons_append, startsAfter, ih, byteLength, Nat.add_assoc]
    split <;> rfl

theorem bounds_of_mem_startsAfter (h : start ∈ startsAfter offset cs) :
    offset < start ∧ start ≤ offset + byteLength cs := by
  induction cs generalizing offset with
  | nil => cases h
  | cons c cs ih =>
    have hpos := c.utf8Size_pos
    have hlater : start ∈ startsAfter (offset + c.utf8Size) cs →
        offset < start ∧ start ≤ offset + byteLength (c :: cs) := by
      intro hmem
      have := ih hmem
      rw [byteLength]
      omega
    rw [startsAfter] at h
    split at h
    next =>
      rcases List.mem_cons.1 h with rfl | h
      · rw [byteLength]
        omega
      · exact hlater h
    next => exact hlater h

theorem pairwise_startsAfter (offset : Nat) (cs : List Char) :
    (startsAfter offset cs).Pairwise (· < ·) := by
  induction cs generalizing offset with
  | nil => exact .nil
  | cons c cs ih =>
    rw [startsAfter]
    split
    next => exact .cons (fun _ hmem => (bounds_of_mem_startsAfter hmem).1) (ih _)
    next => exact ih _

theorem length_startsAfter (offset : Nat) (cs : List Char) :
    (startsAfter offset cs).length = cs.count '\n' := by
  induction cs generalizing offset with
  | nil => rfl
  | cons c cs ih =>
    rw [startsAfter]
    split
    next h => simp [h, ih]
    next h => simp [h, ih]

theorem getLast?_starts (cs : List Char) :
    (0 :: startsAfter 0 cs).getLast? = some (byteLength (cs.rdropWhile (· != '\n'))) := by
  induction cs using List.reverseRecOn with
  | nil => rfl
  | append_singleton cs c ih =>
    rw [startsAfter_append]
    by_cases hc : c = '\n'
    · rw [List.rdropWhile_concat_neg _ _ _ (by simp [hc])]
      rw [startsAfter, if_pos hc, startsAfter, ← List.cons_append, List.getLast?_concat]
      simp [byteLength]
    · rw [List.rdropWhile_concat_pos _ _ _ (by simp [hc]), ← ih]
      simp [startsAfter, hc]

-- ---------------------------------------------------------------------------
-- Bisection
-- ---------------------------------------------------------------------------

/-- What stands in front of the answer of the bisection is within the position, and the rest is
beyond it, as long as that holds outside of the window that is searched. -/
theorem firstBeyond_splits {starts : Array Nat} (hsorted : starts.toList.Pairwise (· ≤ ·))
    (hwindow : lo ≤ hi) (hbound : hi ≤ starts.size)
    (hbelow : ∀ n ∈ starts.toList.take lo, n ≤ position)
    (habove : ∀ n ∈ starts.toList.drop hi, position < n) :
    firstBeyond starts position lo hi hbound ≤ hi ∧
      (∀ n ∈ starts.toList.take (firstBeyond starts position lo hi hbound), n ≤ position) ∧
      ∀ n ∈ starts.toList.drop (firstBeyond starts position lo hi hbound), position < n := by
  fun_induction firstBeyond starts position lo hi hbound with
  | case1 lo hi hbound hlt middle hmiddle hle ih =>
    refine ih (by omega) (fun n hn => ?_) habove
    -- The entries up to the middle are at most the middle one.
    obtain ⟨i, hi, rfl⟩ := List.mem_take_iff_getElem.1 hn
    rcases Nat.lt_or_eq_of_le (Nat.le_of_lt_succ
      (Nat.lt_of_lt_of_le hi (Nat.min_le_left _ _))) with h | h
    · exact Nat.le_trans (List.pairwise_iff_getElem.1 hsorted i middle _ _ h) hle
    · simpa [h] using hle
  | case2 lo hi hbound hlt middle hmiddle hgt ih =>
    have hmiddle_above : ∀ n ∈ starts.toList.drop middle, position < n := by
      intro n hn
      obtain ⟨i, hi, rfl⟩ := List.mem_drop_iff_getElem.1 hn
      rcases Nat.eq_zero_or_pos i with h | h
      · simpa [h] using hgt
      · have hle := List.pairwise_iff_getElem.1 hsorted middle (middle + i) hmiddle
          (by omega) (by omega)
        exact Nat.lt_of_lt_of_le (Nat.lt_of_not_le hgt) hle
    obtain ⟨hle, hsplits⟩ := ih (by omega) hbelow hmiddle_above
    exact ⟨by omega, hsplits⟩
  | case3 lo hi hbound hge =>
    obtain rfl : lo = hi := by omega
    exact ⟨Nat.le_refl _, hbelow, habove⟩

theorem lineOf_splits (cs : List Char) (position : Nat) :
    (ofText cs).lineOf position < (ofText cs).count ∧
      (∀ n ∈ (ofText cs).starts.toList.take ((ofText cs).lineOf position + 1), n ≤ position) ∧
      ∀ n ∈ (ofText cs).starts.toList.drop ((ofText cs).lineOf position + 1), position < n := by
  have hsorted : (ofText cs).starts.toList.Pairwise (· ≤ ·) :=
    .cons (fun _ _ => Nat.zero_le _) ((pairwise_startsAfter 0 cs).imp Nat.le_of_lt)
  obtain ⟨hbound, hbelow, habove⟩ := firstBeyond_splits hsorted (Nat.zero_le _) (Nat.le_refl _)
    (by simp : ∀ n ∈ (ofText cs).starts.toList.take 0, n ≤ position) fun n hn => by
      rw [List.drop_eq_nil_of_le (by simp)] at hn
      cases hn
  -- The first line starts at zero, so the answer of the bisection is not the first index.
  have hpos : 0 < firstBeyond (ofText cs).starts position 0 (ofText cs).starts.size
      (Nat.le_refl _) := by
    rw [Nat.pos_iff_ne_zero]
    intro hzero
    rw [hzero] at habove
    exact absurd (habove 0 (by simp [ofText])) (Nat.not_lt_zero _)
  rw [lineOf, count, Nat.sub_add_cancel hpos]
  exact ⟨by omega, hbelow, habove⟩

theorem lineOf_ofText (cs : List Char) (position : Nat) :
    (ofText cs).lineOf position = (startsAfter 0 cs).countP (· ≤ position) := by
  obtain ⟨hbound, hbelow, habove⟩ := lineOf_splits cs position
  have hcount : (ofText cs).starts.toList.countP (· ≤ position) =
      (startsAfter 0 cs).countP (· ≤ position) + 1 := by
    simp [ofText]
  rw [← List.take_append_drop ((ofText cs).lineOf position + 1) (ofText cs).starts.toList,
    List.countP_append, List.countP_eq_length.2 (by simpa using hbelow),
      List.countP_eq_zero.2 (by simpa using habove)] at hcount
  rw [count] at hbound
  simp at hcount
  omega

theorem lineOf_boundary (before after : List Char) :
    (ofText (before ++ after)).lineOf (byteLength before) = before.count '\n' := by
  rw [lineOf_ofText, startsAfter_append, List.countP_append, List.countP_eq_length.2,
    List.countP_eq_zero.2, length_startsAfter, Nat.add_zero]
  · intro start hstart
    simpa using (bounds_of_mem_startsAfter hstart).1
  · intro start hstart
    simpa using (bounds_of_mem_startsAfter hstart).2

theorem starts_boundary (before after : List Char) :
    (ofText (before ++ after)).starts[before.count '\n']? =
      some (byteLength (before.rdropWhile (· != '\n'))) := by
  rw [← getLast?_starts, List.getLast?_eq_getElem?]
  simp only [ofText, startsAfter_append, List.getElem?_toArray, List.length_cons,
    length_startsAfter]
  rw [← List.cons_append, List.getElem?_append_left (by simp [length_startsAfter]),
    Nat.add_sub_cancel]

/-- A span that starts between two characters is located by counting: the line feeds in front of it,
and the characters behind the last of them. -/
theorem locate_boundary (before after : List Char) (file : String) (span : Span)
    (hstart : span.start = byteLength before) :
    (ofText (before ++ after)).locate (before ++ after) file span =
      ⟨file, span, fromOne (before.count '\n'),
        fromOne (before.rtakeWhile (· != '\n')).length⟩ := by
  have hposition : min span.start (byteLength (before ++ after)) = byteLength before := by
    rw [hstart, byteLength_append]
    omega
  have hslice : slice? (before ++ after) (byteLength (before.rdropWhile (· != '\n')))
      (byteLength before) =
        some (before.rtakeWhile (· != '\n')) := by
    have h := slice?_append (before.rdropWhile (· != '\n')) (before.rtakeWhile (· != '\n')) after
    rwa [← List.append_assoc, List.rdropWhile_append_rtakeWhile] at h
  simp only [locate, hposition, lineOf_boundary, starts_boundary, Option.getD_some, hslice]

theorem toNat_fromOne {n : Nat} (h : n + 1 < UInt32.size) : (fromOne n).toNat = n + 1 := by
  rw [fromOne, UInt32.toNat_add, UInt32.toNat_ofNat']
  exact (Nat.mod_add_mod _ _ _).trans (Nat.mod_eq_of_lt h)

end LineMap

/-- Words of 32 bits are enough for the line and the column of an offset that is not the largest
one. -/
theorem Source.locate_counts {source : Source} {span : Span}
    (h : IsBoundary source.chars span.start) (hstart : span.start + 1 < UInt32.size) :
    ∃ before after, source.chars = before ++ after ∧ byteLength before = span.start ∧
      (source.locate span).line.toNat = before.count '\n' + 1 ∧
      (source.locate span).column.toNat = (before.rtakeWhile (· != '\n')).length + 1 := by
  obtain ⟨before, after, hchars, hbefore⟩ := h
  have hlocate := LineMap.locate_boundary before after source.file span hbefore.symm
  rw [← hchars] at hlocate
  have hlength := length_le_byteLength before
  have hfeeds : before.count '\n' ≤ before.length := List.count_le_length
  have hcolumns : (before.rtakeWhile (· != '\n')).length ≤ before.length :=
    (List.rtakeWhile_suffix _ _).length_le
  rw [locate, lines, hlocate]
  exact ⟨before, after, hchars, hbefore, LineMap.toNat_fromOne (by omega),
    LineMap.toNat_fromOne (by omega)⟩

-- ---------------------------------------------------------------------------
-- Refusals
-- ---------------------------------------------------------------------------

theorem Scanner.inText_of_scan {s : Scanner} (hs : s.At chars pre) (h : s.scan.fault = some fault) :
    fault.span.InText chars := by
  fun_induction scan s generalizing pre with
  | case1 s fault' s' hnext =>
    obtain rfl : fault' = fault := Option.some.inj h
    obtain ⟨blanks, refused, post, -, -, rfl, hspan⟩ := next_refused hs hnext
    rw [hspan, Span.ofLength, ← byteLength_append]
    refine ⟨by simp, by simp, ⟨_, _, rfl, rfl⟩, ⟨pre ++ blanks ++ refused, post, by simp, rfl⟩⟩
  | case2 s s' hnext => cases h
  | case3 s token s' hnext later =>
    rename_i ih
    obtain ⟨blank, -, -, hs', -, -⟩ := next_lexed hs hnext
    exact ih hs' h

/-- The text of the token that was read last, which messages quote, is the source at its span. Every
place that reading comes to is `TokenText.At`, and so has its last token among those of the
source. -/
theorem Source.slice?_lastSpan {source : Source} {reserved : ReservedPrefixes} {s : ParseState}
    (h : ∀ t ∈ s.last, t ∈ source.tokens reserved) :
    slice? source.chars s.lastSpan.start s.lastSpan.stop = some s.lastText.toList := by
  unfold ParseState.lastSpan ParseState.lastText
  cases hlast : s.last with
  | none => exact slice?_append [] [] source.chars
  | some t =>
    obtain ⟨-, pre, hlexed⟩ := Source.mem_tokens (h t hlast)
    exact hlexed.piece.2

namespace Script

/-- Whatever a source is refused for, it is so at a stretch of whole characters of its text. -/
theorem inText_of_refusal {options : Options} {source : Source} {diagnostic : Diagnostic}
    (h : parse options source = .error diagnostic) :
    ∃ fault : Fault, diagnostic = fault.locate source ∧ fault.span.InText source.chars := by
  obtain ⟨fault, hcause, rfl⟩ := cause_of_parse h
  refine ⟨fault, rfl, ?_⟩
  rcases hcause.places with hscan | hplaces
  · have hat : (Scanner.ofSource options.reserved source).At source.chars [] := ⟨rfl, rfl⟩
    exact Scanner.inText_of_scan hat hscan
  · have hspans : (source.tokens options.reserved).map (·.span) ⊆
        source.spans options.reserved := by
      intro s hs
      obtain ⟨t, ht, rfl⟩ := List.mem_map.1 hs
      exact Source.span_mem_spans ht
    exact Span.Computed.inText (hplaces.mono hspans)

/-- Every refusal is located in its source: its span is a stretch of whole characters of the text,
its line counts the line feeds in front of the span, and its column the characters behind the last
of them. The counts are exact where the span starts below 2 ^ 32 - 1, as all spans do in a text of
fewer bytes. -/
theorem refusal_located {options : Options} {source : Source} {diagnostic : Diagnostic}
    (h : parse options source = .error diagnostic) :
    diagnostic.location.file = source.file ∧ diagnostic.location.span.InText source.chars ∧
      (diagnostic.location.span.start + 1 < UInt32.size →
        ∃ before after, source.chars = before ++ after ∧
        byteLength before = diagnostic.location.span.start ∧
          diagnostic.location.line.toNat = 1 + before.count '\n' ∧
          diagnostic.location.column.toNat = 1 + (before.rtakeWhile (· != '\n')).length) := by
  obtain ⟨fault, rfl, hin⟩ := inText_of_refusal h
  refine ⟨rfl, hin, fun hstart => ?_⟩
  obtain ⟨before, after, hchars, hbefore, hline, hcolumn⟩ := Source.locate_counts hin.start hstart
  exact ⟨before, after, hchars, hbefore, hline.trans (Nat.add_comm _ _),
    hcolumn.trans (Nat.add_comm _ _)⟩

/-- A group on the second line, behind a character of two bytes, cannot be assigned to. -/
theorem refusal_located_group :
    ∃ diagnostic, parse {} (.ofText "a.js" "x\r\n'ü' + (y) = 2") = .error diagnostic ∧
    diagnostic.kind = .nonAssignableTarget ∧
    diagnostic.location = ⟨"a.js", ⟨9, 12⟩, 2, 7⟩ ∧
    (diagnostic.location.file = "a.js" ∧
      diagnostic.location.span.InText (normalizeLines "x\r\n'ü' + (y) = 2".toList) ∧
      ∃ before after, normalizeLines "x\r\n'ü' + (y) = 2".toList = before ++ after ∧
        byteLength before = diagnostic.location.span.start ∧
        diagnostic.location.line.toNat = 1 + before.count '\n' ∧
        diagnostic.location.column.toNat = 1 + (before.rtakeWhile (· != '\n')).length) := by
  have hfacts : (refusal? {} (.ofText "a.js" "x\r\n'ü' + (y) = 2")).any (fun diagnostic =>
      diagnostic.kind == .nonAssignableTarget && diagnostic.location ==
        ⟨"a.js", ⟨9, 12⟩, 2, 7⟩) = true := by
    decide +kernel
  obtain ⟨diagnostic, h, hfacts⟩ := exists_of_any_refusal hfacts
  obtain ⟨hkind, hlocation⟩ := Bool.and_eq_true_iff.1 hfacts
  rw [beq_iff_eq] at hkind hlocation
  obtain ⟨hfile, hin, hcounts⟩ := refusal_located h
  have hstart : diagnostic.location.span.start + 1 < UInt32.size := by
    rw [hlocation]
    decide
  exact ⟨diagnostic, h, hkind, hlocation, hfile, hin, hcounts hstart⟩

/-- An operator without its operand is refused at the end of the text, however many blanks stand
there. -/
theorem parse_lone_operator (n : Nat) :
    let source := Source.ofText "" (String.ofList ('!' :: List.replicate n ' '))
    source.size = n + 1 ∧ ∃ diagnostic, parse {} source = .error diagnostic ∧
      diagnostic.location = ⟨"", .empty (n + 1), 1, LineMap.fromOne (n + 1)⟩ := by
  intro source
  obtain ⟨hblanks, hlegible, hplaced⟩ := blanks_silent ({} : Options).reserved n
  have hwritten : written (.word (.operator "!" (by decide)) :: List.replicate n .blank :
      List (Piece ({} : Options).reserved)) = '!' :: List.replicate n ' ' := by
    rw [written_word, hblanks]
    rfl
  have hstopped :
      Stopped (written (List.replicate n (.blank : Piece ({} : Options).reserved))) := by
    rw [hblanks]
    cases n with
    | zero => trivial
    | succ n => exact stopped_cons (by decide)
  obtain ⟨htokens, hfault⟩ := Source.tokens_written ""
    (hlegible.word (w := .operator "!" (by decide)) hstopped)
  rw [hwritten, placed, hplaced] at htokens
  rw [hwritten] at hfault
  have hchars : source.chars = '!' :: List.replicate n ' ' := by
    show normalizeLines (String.ofList _).toList = _
    rw [String.toList_ofList, ← hwritten, normalizeLines_eq_self clean_written]
  have hsize : source.size = n + 1 := by
    have hone : '!'.utf8Size = 1 ∧ ' '.utf8Size = 1 := ⟨rfl, rfl⟩
    rw [Source.size, hchars, byteLength, byteLength_replicate, hone.1, hone.2]
    omega
  have hread : read {} source = ofTokens "" (n + 1)
      [⟨.operator, "!", "!", ⟨0, 1⟩, false⟩] none := by
    show ofTokens "" source.size (source.tokens ({} : Options).reserved)
      (source.scan ({} : Options).reserved).fault = _
    rw [hsize, htokens, hfault]
    rfl
  have hparse : parse {} source =
      .error ((⟨.valueExpected, ["'!'"], .empty (n + 1)⟩ : Fault).locate source) := by
    rw [parse, hread]
    rfl
  refine ⟨hsize, _, hparse, ?_⟩
  have hlines : source.chars.count '\n' = 0 := List.count_eq_zero.2 (by simp [hchars])
  have hcolumns : source.chars.rtakeWhile (· != '\n') = source.chars :=
    List.rtakeWhile_eq_self_iff.2 (by simp [hchars])
  have hlength : source.chars.length = n + 1 := by simp [hchars]
  have hlocate := LineMap.locate_boundary source.chars [] "" (.empty (n + 1)) hsize.symm
  rw [List.append_nil, hlines, hcolumns, hlength] at hlocate
  exact hlocate

/-- Behind 2 ^ 32 - 1 bytes of one line the column is zero. -/
theorem refusal_column_overflow :
    let source := Source.ofText "" (String.ofList ('!' :: List.replicate (UInt32.size - 2) ' '))
    source.size < UInt32.size ∧ ∃ diagnostic, parse {} source = .error diagnostic ∧
      diagnostic.location = ⟨"", .empty (UInt32.size - 1), 1, 0⟩ ∧
      ¬ ∃ before after, source.chars = before ++ after ∧
        byteLength before = diagnostic.location.span.start ∧
        diagnostic.location.line.toNat = 1 + before.count '\n' ∧
        diagnostic.location.column.toNat = 1 + (before.rtakeWhile (· != '\n')).length := by
  intro source
  obtain ⟨hsize, diagnostic, hparse, hlocation⟩ := parse_lone_operator (UInt32.size - 2)
  have hzero : LineMap.fromOne (UInt32.size - 2 + 1) = 0 := rfl
  rw [hzero] at hlocation
  refine ⟨Nat.lt_of_le_of_lt (Nat.le_of_eq hsize) (by decide), diagnostic, hparse, hlocation, ?_⟩
  rintro ⟨before, after, -, -, -, hcolumn⟩
  have hcolumn' : diagnostic.location.column.toNat = 0 := by rw [hlocation]; rfl
  omega

end Script

end ScriptToPhp
