import ScriptToPhp.Proofs.Locations

/-!
# Lines and columns in the order of the text

The line of an offset is the number of line feed bytes in front of it, whatever the offset, and
every search among the starts of lines leads to it. Further on in the text the line grows or, on the
same line, the column does, so that a line and a column belong to one place between characters.
-/

namespace ScriptToPhp

open Text

-- ---------------------------------------------------------------------------
-- Bytes
-- ---------------------------------------------------------------------------

namespace Text

def lineFeedsBefore (cs : List Char) (n : Nat) : Nat :=
  ((String.ofList cs).toUTF8.data.toList.take n).count 10

theorem lineFeedsBefore_eq (cs : List Char) (n : Nat) :
    lineFeedsBefore cs n = ((cs.flatMap String.utf8EncodeChar).take n).count 10 := by
  rw [lineFeedsBefore, String.toUTF8, String.toByteArray_ofList]
  simp [List.utf8Encode]

theorem le_of_mem_utf8EncodeChar {c : Char} {byte : UInt8} (hc : 127 < c.val.toNat)
    (h : byte ∈ String.utf8EncodeChar c) : 128 ≤ byte.toNat := by
  unfold String.utf8EncodeChar at h
  rw [if_neg (Nat.not_le.2 hc)] at h
  split at h
  next =>
    simp only [List.mem_cons, List.not_mem_nil, or_false] at h
    rcases h with rfl | rfl <;> rw [UInt8.toNat_ofNat'] <;> omega
  next =>
    split at h
    next =>
      simp only [List.mem_cons, List.not_mem_nil, or_false] at h
      rcases h with rfl | rfl | rfl <;> rw [UInt8.toNat_ofNat'] <;> omega
    next =>
      simp only [List.mem_cons, List.not_mem_nil, or_false] at h
      rcases h with rfl | rfl | rfl | rfl <;> rw [UInt8.toNat_ofNat'] <;> omega

/-- A line feed byte is a line feed, and no part of another character. -/
theorem eq_of_mem_utf8EncodeChar {c : Char} (h : 10 ∈ String.utf8EncodeChar c) : c = '\n' := by
  rcases Nat.lt_or_ge 127 c.val.toNat with hc | hc
  · exact absurd (le_of_mem_utf8EncodeChar hc h) (by decide)
  · have hsize : c.utf8Size = 1 := Char.utf8Size_eq_one_iff.2 (UInt32.le_iff_toNat_le.2 hc)
    rw [String.utf8EncodeChar_eq_singleton hsize, List.mem_singleton] at h
    have hcode : 10 = c.val.toNat % 256 := congrArg UInt8.toNat h
    refine Char.ext (UInt32.toNat_inj.1 ?_)
    show c.val.toNat = 10
    omega

end Text

namespace LineMap

theorem countP_startsAfter (cs : List Char) (offset position : Nat) :
    (startsAfter offset cs).countP (· ≤ position) =
      ((cs.flatMap String.utf8EncodeChar).take (position - offset)).count 10 := by
  induction cs generalizing offset with
  | nil => simp [startsAfter]
  | cons c cs ih =>
    rw [startsAfter, List.flatMap_cons, List.take_append, List.count_append,
      String.length_utf8EncodeChar, Nat.sub_sub, ← ih]
    split
    next hc =>
      have hsize : c.utf8Size = 1 := by rw [hc]; rfl
      have hbytes : String.utf8EncodeChar c = [10] := by rw [hc]; decide
      rw [List.countP_cons, hbytes, hsize, Nat.add_comm]
      congr 1
      by_cases hle : offset + 1 ≤ position
      · rw [List.take_of_length_le (by simp; omega)]
        simp [hle]
      · have hzero : position - offset = 0 := by omega
        simp [hle, hzero]
    next hc =>
      have hnone : ((String.utf8EncodeChar c).take (position - offset)).count 10 = 0 :=
        List.count_eq_zero.2 fun hmem => hc (eq_of_mem_utf8EncodeChar (List.mem_of_mem_take hmem))
      rw [hnone, Nat.zero_add]

theorem lineOf_eq_lineFeedsBefore (cs : List Char) (position : Nat) :
    (ofText cs).lineOf position = lineFeedsBefore cs position := by
  rw [lineOf_ofText, countP_startsAfter, lineFeedsBefore_eq, Nat.sub_zero]

end LineMap

-- ---------------------------------------------------------------------------
-- Searches
-- ---------------------------------------------------------------------------

/-- What a search among increasing entries answers: where the entry stands, or where it would be
inserted. -/
inductive SearchAnswer
  | found (index : Nat)
  | missing (index : Nat)

namespace SearchAnswer

def IsRight (entries : Array Nat) (entry : Nat) : SearchAnswer → Prop
  | .found index => entries[index]? = some entry
  | .missing index => index ≤ entries.size ∧
    ∀ (i n : Nat), entries[i]? = some n → (i < index → n < entry) ∧ (index ≤ i → entry < n)

/-- The line that a search for an offset among the starts of lines leads to: the one that starts
there, or else the one in front of the place of insertion. In front of the first line there is
none. -/
def line? : SearchAnswer → Option Nat
  | .found index => some index
  | .missing 0 => none
  | .missing (index + 1) => some index

end SearchAnswer

namespace LineMap

variable {cs : List Char} {position : Nat}

theorem start_lt_start {i j m n : Nat} (hm : (ofText cs).starts[i]? = some m)
    (hn : (ofText cs).starts[j]? = some n) (h : i < j) : m < n := by
  have hpairwise : (ofText cs).starts.toList.Pairwise (· < ·) :=
    .cons (fun _ h => (bounds_of_mem_startsAfter h).1) (pairwise_startsAfter 0 cs)
  rw [← Array.getElem?_toList] at hm hn
  obtain ⟨hi, rfl⟩ := List.getElem?_eq_some_iff.1 hm
  obtain ⟨hj, rfl⟩ := List.getElem?_eq_some_iff.1 hn
  exact List.pairwise_iff_getElem.1 hpairwise i j hi hj h

/-- The line of an offset is the last one that starts up to there. -/
theorem le_lineOf_iff {i n : Nat} (h : (ofText cs).starts[i]? = some n) :
    i ≤ (ofText cs).lineOf position ↔ n ≤ position := by
  obtain ⟨-, hbelow, habove⟩ := lineOf_splits cs position
  rw [← Array.getElem?_toList] at h
  constructor
  · intro hi
    refine hbelow n (List.mem_of_getElem? (i := i) ?_)
    rwa [List.getElem?_take_of_lt (Nat.lt_succ_of_le hi)]
  · intro hn
    rw [← Nat.not_lt]
    intro hi
    refine absurd (habove n (List.mem_of_getElem? (i := i - ((ofText cs).lineOf position + 1)) ?_))
      (Nat.not_lt.2 hn)
    rwa [List.getElem?_drop, Nat.add_sub_cancel' hi]

theorem exists_start (cs : List Char) (position : Nat) :
    ∃ start ≤ position, (ofText cs).starts[(ofText cs).lineOf position]? = some start := by
  have hline := Array.getElem?_eq_getElem (lineOf_splits cs position).1
  exact ⟨_, (le_lineOf_iff hline).1 (Nat.le_refl _), hline⟩

theorem line?_of_isRight {answer : SearchAnswer} (h : answer.IsRight (ofText cs).starts position) :
    answer.line? = some ((ofText cs).lineOf position) := by
  obtain ⟨start, hstart, hline⟩ := exists_start cs position
  cases answer with
  | found index =>
    have hle : index ≤ (ofText cs).lineOf position := (le_lineOf_iff h).2 (Nat.le_refl _)
    have hge : ¬ index < (ofText cs).lineOf position := fun hlt =>
      absurd hstart (Nat.not_le.2 (start_lt_start h hline hlt))
    rw [SearchAnswer.line?, Nat.le_antisymm hle (Nat.not_lt.1 hge)]
  | missing index =>
    obtain ⟨hbound, hsplits⟩ := h
    have hlt : (ofText cs).lineOf position < index :=
      Nat.not_le.1 fun hle => absurd hstart (Nat.not_le.2 ((hsplits _ _ hline).2 hle))
    -- A line further on that starts before the offset would be the line of the offset itself.
    have hge : ¬ (ofText cs).lineOf position + 1 < index := by
      intro hlt
      have hnext := Array.getElem?_eq_getElem (Nat.lt_of_lt_of_le hlt hbound)
      have hbefore := (hsplits _ _ hnext).1 hlt
      exact absurd ((le_lineOf_iff hnext).2 (Nat.le_of_lt hbefore)) (Nat.not_succ_le_self _)
    obtain rfl : index = (ofText cs).lineOf position + 1 := by omega
    rfl

theorem start_le_byteLength {start : Nat} (h : start ∈ (ofText cs).starts) :
    start ≤ byteLength cs := by
  rcases List.mem_cons.1 (Array.mem_toList_iff.2 h) with rfl | h
  · exact Nat.zero_le _
  · have := (bounds_of_mem_startsAfter h).2
    omega

theorem count_le_byteLength (cs : List Char) : (ofText cs).count ≤ byteLength cs + 1 := by
  have hcount : (ofText cs).count = cs.count '\n' + 1 := by simp [count, ofText, length_startsAfter]
  have hlength := length_le_byteLength cs
  have hfeeds : cs.count '\n' ≤ cs.length := List.count_le_length
  omega

theorem exists_isRight (cs : List Char) (position : Nat) :
    ∃ answer : SearchAnswer, answer.IsRight (ofText cs).starts position := by
  by_cases h : ∃ i : Nat, (ofText cs).starts[i]? = some position
  · obtain ⟨i, hi⟩ := h
    exact ⟨.found i, hi⟩
  · refine ⟨.missing ((ofText cs).lineOf position + 1), (lineOf_splits cs position).1,
      fun i n hn => ⟨?_, ?_⟩⟩
    · intro hi
      have hle := (le_lineOf_iff hn).1 (Nat.le_of_lt_succ hi)
      exact Nat.lt_of_le_of_ne hle fun heq => h ⟨i, heq ▸ hn⟩
    · intro hi
      exact Nat.not_le.1 (mt (le_lineOf_iff hn).2 (Nat.not_le.2 hi))

end LineMap

-- ---------------------------------------------------------------------------
-- Order
-- ---------------------------------------------------------------------------

def Location.Precedes (a b : Location) : Prop :=
  a.line < b.line ∨ a.line = b.line ∧ a.column < b.column

theorem Location.Precedes.not_precedes {a b : Location} (h : a.Precedes b) : ¬ b.Precedes a := by
  simp only [Precedes, UInt32.lt_iff_toNat_lt, ← UInt32.toNat_inj] at *
  omega

theorem Text.exists_between {before before' after after' : List Char}
    (h : before ++ after = before' ++ after') (hlt : byteLength before < byteLength before') :
    ∃ between ≠ [], before' = before ++ between := by
  rcases List.append_eq_append_iff.1 h with ⟨between, rfl, -⟩ | ⟨between, rfl, -⟩
  · refine ⟨between, ?_, rfl⟩
    rintro rfl
    simp at hlt
  · rw [byteLength_append] at hlt
    omega

theorem Text.rtakeWhile_append_of_pos {p : Char → Bool} {cs ds : List Char}
    (h : ∀ c ∈ ds, p c = true) :
    (cs ++ ds).rtakeWhile p = cs.rtakeWhile p ++ ds := by
  have hreverse : ∀ c ∈ ds.reverse, p c = true := by simpa using h
  simp [List.rtakeWhile, List.takeWhile_append_of_pos hreverse]

namespace Source

variable {source : Source} {a b : Span}

theorem precedes_of_lt (ha : IsBoundary source.chars a.start) (hb : IsBoundary source.chars b.start)
    (hbound : b.start + 1 < UInt32.size) (h : a.start < b.start) :
    (source.locate a).Precedes (source.locate b) := by
  obtain ⟨before, after, hchars, hbefore, hline, hcolumn⟩ := locate_counts ha (by omega)
  obtain ⟨before', after', hchars', hbefore', hline', hcolumn'⟩ := locate_counts hb hbound
  obtain ⟨between, hne, rfl⟩ := exists_between (hchars.symm.trans hchars') (by omega)
  rw [List.count_append] at hline'
  simp only [Location.Precedes, UInt32.lt_iff_toNat_lt, ← UInt32.toNat_inj]
  -- A line feed in between ends the line; without one, all that is in between adds to the column.
  by_cases hfeed : '\n' ∈ between
  · have := List.count_pos_iff.2 hfeed
    omega
  · have hcolumns : ∀ c ∈ between, (c != '\n') = true :=
      fun c hc => bne_iff_ne.2 fun heq => hfeed (heq ▸ hc)
    have hlength := List.length_pos_iff.2 hne
    rw [rtakeWhile_append_of_pos hcolumns, List.length_append] at hcolumn'
    rw [List.count_eq_zero.2 hfeed] at hline'
    omega

theorem start_lt_iff_precedes (ha : IsBoundary source.chars a.start)
    (hb : IsBoundary source.chars b.start) (haBound : a.start + 1 < UInt32.size)
    (hbBound : b.start + 1 < UInt32.size) :
    a.start < b.start ↔ (source.locate a).Precedes (source.locate b) := by
  refine ⟨precedes_of_lt ha hb hbBound, fun h => ?_⟩
  rcases Nat.lt_trichotomy a.start b.start with hlt | heq | hgt
  · exact hlt
  · -- Only the start of a span decides its line and column.
    have hsame : source.locate b = { source.locate a with span := b } := by
      simp only [locate, LineMap.locate, heq]
    rw [hsame] at h
    exact absurd h h.not_precedes
  · exact absurd h (precedes_of_lt hb ha haBound hgt).not_precedes

/-- A line feed is not counted as a column, so line and column together are no larger than the
offset allows. -/
theorem line_add_column_le (ha : IsBoundary source.chars a.start)
    (hbound : a.start + 1 < UInt32.size) :
    (source.locate a).line.toNat + (source.locate a).column.toNat ≤ a.start + 2 := by
  obtain ⟨before, after, -, hbefore, hline, hcolumn⟩ := locate_counts ha hbound
  have hsplit : before.rdropWhile (· != '\n') ++ before.rtakeWhile (· != '\n') = before :=
    List.rdropWhile_append_rtakeWhile
  have hfeeds : before.count '\n' ≤ (before.rdropWhile (· != '\n')).length := by
    have hnone : (before.rtakeWhile (· != '\n')).count '\n' = 0 :=
      List.count_eq_zero.2 fun hmem => absurd (List.mem_rtakeWhile_imp hmem) (by decide)
    calc before.count '\n'
        _ = (before.rdropWhile (· != '\n')).count '\n' + 0 := by
          rw [← hnone, ← List.count_append, hsplit]
        _ ≤ (before.rdropWhile (· != '\n')).length := List.count_le_length
  have hlength : _ = before.length := List.length_append.symm.trans (congrArg List.length hsplit)
  have hbytes := length_le_byteLength before
  omega

/-- The line map of a text of less than 2 ^ 32 bytes. The line of any offset is the number of line
feed bytes in front of it; it is a line of the text that starts up to there, and the one that every
search among the starts of lines leads to. Every start of a line takes 32 bits at most, and so does
the number of a line, from zero. Offsets between characters are in the order of their lines and
columns, which are bounded by them, except for the one offset, 2 ^ 32 - 1, whose line or column from
one takes more than 32 bits. -/
theorem lines_exact_in_order (source : Source) (hsize : source.size < UInt32.size) :
    (∀ position, source.lines.lineOf position = lineFeedsBefore source.chars position ∧
      (∃ start ≤ position, source.lines.starts[source.lines.lineOf position]? = some start) ∧
      (∃ answer : SearchAnswer, answer.IsRight source.lines.starts position) ∧
      ∀ answer : SearchAnswer, answer.IsRight source.lines.starts position →
        answer.line? = some (source.lines.lineOf position)) ∧
    (∀ start ∈ source.lines.starts, start < UInt32.size) ∧ source.lines.count ≤ UInt32.size ∧
    ∀ a b : Span, IsBoundary source.chars a.start → IsBoundary source.chars b.start →
      a.start + 1 < UInt32.size → b.start + 1 < UInt32.size →
      (a.start < b.start ↔ (source.locate a).Precedes (source.locate b)) ∧
      (source.locate a).line.toNat + (source.locate a).column.toNat ≤ a.start + 2 := by
  refine ⟨fun position => ⟨?_, ?_, ?_, ?_⟩, ?_, ?_, fun a b ha hb haBound hbBound => ⟨?_, ?_⟩⟩
  · exact LineMap.lineOf_eq_lineFeedsBefore _ _
  · exact LineMap.exists_start _ _
  · exact LineMap.exists_isRight _ _
  · exact fun answer => LineMap.line?_of_isRight
  · exact fun start hstart => Nat.lt_of_le_of_lt (LineMap.start_le_byteLength hstart) hsize
  · exact Nat.le_trans (LineMap.count_le_byteLength _) hsize
  · exact start_lt_iff_precedes ha hb haBound hbBound
  · exact line_add_column_le ha haBound

/-- The place behind a character of two bytes is in the second column of the first line, the next
one in the first of the second line. An offset inside a character has a line, too. -/
theorem lines_exact_in_order_accents :
    (Source.mk "" ['é', '\n', 'ü']).size < UInt32.size ∧
    (Source.mk "" ['é', '\n', 'ü']).lines.lineOf 4 = 1 ∧
    IsBoundary ['é', '\n', 'ü'] 2 ∧ IsBoundary ['é', '\n', 'ü'] 3 ∧
    (Source.mk "" ['é', '\n', 'ü']).locate ⟨2, 3⟩ = ⟨"", ⟨2, 3⟩, 1, 2⟩ ∧
    (Source.mk "" ['é', '\n', 'ü']).locate ⟨3, 5⟩ = ⟨"", ⟨3, 5⟩, 2, 1⟩ ∧
    ((Source.mk "" ['é', '\n', 'ü']).locate ⟨2, 3⟩).Precedes
      ((Source.mk "" ['é', '\n', 'ü']).locate ⟨3, 5⟩) := by
  have hsize : (Source.mk "" ['é', '\n', 'ü']).size < UInt32.size := by decide
  have hbehind : IsBoundary ['é', '\n', 'ü'] 2 := ⟨['é'], ['\n', 'ü'], rfl, rfl⟩
  have hnext : IsBoundary ['é', '\n', 'ü'] 3 := ⟨['é', '\n'], ['ü'], rfl, rfl⟩
  obtain ⟨hlines, -, -, horder⟩ := lines_exact_in_order _ hsize
  have hline : (Source.mk "" ['é', '\n', 'ü']).lines.lineOf 4 = 1 :=
    (hlines 4).1.trans (by decide +kernel)
  have hprecedes := (horder ⟨2, 3⟩ ⟨3, 5⟩ hbehind hnext (by decide) (by decide)).1.1 (by decide)
  exact ⟨hsize, hline, hbehind, hnext, by decide +kernel, by decide +kernel, hprecedes⟩

theorem locate_line_feeds (n k : Nat) :
    IsBoundary (List.replicate (n + k) '\n') n ∧
      (Source.mk "" (List.replicate (n + k) '\n')).locate
        (.empty n) = ⟨"", .empty n, LineMap.fromOne n, 1⟩ := by
  have hsplit : List.replicate (n + k) '\n' = List.replicate n '\n' ++ List.replicate k '\n' :=
    List.replicate_append_replicate.symm
  have hbytes : byteLength (List.replicate n '\n') = n :=
    (byteLength_replicate n '\n').trans (Nat.mul_one n)
  have hlocate := LineMap.locate_boundary (List.replicate n '\n') (List.replicate k '\n') ""
    (.empty n) hbytes.symm
  have hcolumn : (List.replicate n '\n').rtakeWhile (· != '\n') = [] := by
    refine List.eq_nil_iff_forall_not_mem.2 fun c hc => ?_
    have hfeed : c = '\n' := List.eq_of_mem_replicate ((List.rtakeWhile_suffix _ _).subset hc)
    have hother := List.mem_rtakeWhile_imp hc
    exact bne_iff_ne.1 hother hfeed
  refine ⟨⟨_, _, hsplit, hbytes⟩, ?_⟩
  rw [locate, lines, hsplit, hlocate, hcolumn, List.count_replicate_self]
  rfl

/-- In a text of 2 ^ 32 - 1 line feeds the location of the last offset comes in front of the one
before it. -/
theorem lines_overflow :
    let source := Source.mk "" (List.replicate (UInt32.size - 1) '\n')
    source.size < UInt32.size ∧ IsBoundary source.chars (UInt32.size - 2) ∧
      IsBoundary source.chars (UInt32.size - 1) ∧
      ¬ (source.locate (.empty (UInt32.size - 2))).Precedes
        (source.locate (.empty (UInt32.size - 1))) ∧
      (source.locate (.empty (UInt32.size - 1))).Precedes
        (source.locate (.empty (UInt32.size - 2))) := by
  intro source
  obtain ⟨hbefore, hlocate⟩ := locate_line_feeds (UInt32.size - 2) 1
  obtain ⟨hlast, hlocate'⟩ := locate_line_feeds (UInt32.size - 1) 0
  have hsize : source.size = UInt32.size - 1 := (byteLength_replicate _ _).trans (Nat.mul_one _)
  have hprecedes : (source.locate (.empty (UInt32.size - 1))).Precedes
      (source.locate (.empty (UInt32.size - 2))) := by
    show Location.Precedes (Source.locate ⟨"", List.replicate (UInt32.size - 1 + 0) '\n'⟩ _)
      (Source.locate ⟨"", List.replicate (UInt32.size - 2 + 1) '\n'⟩ _)
    rw [hlocate, hlocate']
    exact .inl (by decide)
  exact ⟨by rw [hsize]; decide, hbefore, hlast, hprecedes.not_precedes, hprecedes⟩

end Source

end ScriptToPhp
