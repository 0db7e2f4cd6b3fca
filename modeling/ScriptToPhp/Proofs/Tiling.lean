import ScriptToPhp.Proofs.Scanning

/-!
# A scan tiles its text

Reading token after token comes to an end, and what was read covers the text: a token is the piece
of text at its span, the pieces between two tokens are blank, and put together they give the text
back. A scan that is refused covers the text up to the place of the refusal.
-/

namespace ScriptToPhp

open Text

-- ---------------------------------------------------------------------------
-- Pieces of a text
-- ---------------------------------------------------------------------------

namespace Text

theorem dropBytes?_append (pre post : List Char) :
    dropBytes? (pre ++ post) (byteLength pre) = some post := by
  induction pre with
  | nil => cases post <;> rfl
  | cons c cs ih =>
    obtain ⟨n, hn⟩ := Nat.exists_eq_add_one.2 (byteLength_pos (List.cons_ne_nil c cs))
    have hsize : c.utf8Size + byteLength cs = n + 1 := hn
    rw [hn, List.cons_append, dropBytes?, if_pos (by omega), ← hsize, Nat.add_sub_cancel_left]
    exact ih

theorem takeBytes?_append (pre post : List Char) :
    takeBytes? (pre ++ post) (byteLength pre) = some pre := by
  induction pre with
  | nil => cases post <;> rfl
  | cons c cs ih =>
    obtain ⟨n, hn⟩ := Nat.exists_eq_add_one.2 (byteLength_pos (List.cons_ne_nil c cs))
    have hsize : c.utf8Size + byteLength cs = n + 1 := hn
    rw [hn, List.cons_append, takeBytes?, if_pos (by omega), ← hsize, Nat.add_sub_cancel_left, ih]
    rfl

theorem slice?_append (pre piece post : List Char) :
    slice? (pre ++ (piece ++ post)) (byteLength pre) (byteLength (pre ++ piece)) = some piece := by
  rw [slice?, dropBytes?_append, byteLength_append, Nat.add_sub_cancel_left]
  exact takeBytes?_append piece post

end Text

-- ---------------------------------------------------------------------------
-- Reading one item
-- ---------------------------------------------------------------------------

def Scan.items (scan : Scan) : List (Except Fault Token) :=
  scan.tokens.map .ok ++ scan.fault.toList.map .error

namespace Scanner

def item? (s : Scanner) : Option (Except Fault Token) :=
  match s.next.1 with
  | .error fault => some (.error fault)
  | .ok token => token.map .ok

def after (s : Scanner) : Nat → Scanner
  | 0 => s
  | k + 1 => s.next.2.after k

theorem next_of_end {s s' : Scanner} (h : s.next = (.ok none, s')) : s'.next = (.ok none, s') := by
  unfold next at h
  split at h
  next hfailed =>
    obtain rfl : s = s' := (Prod.mk.inj h).2
    rw [next, if_pos hfailed]
  next hfailed =>
    unfold readToken at h
    split at h
    next hrest =>
      obtain rfl : s.skipBlanks = s' := (Prod.mk.inj h).2
      have hagain : s.skipBlanks.skipBlanks = s.skipBlanks := by
        generalize s.skipBlanks = t at hrest
        obtain ⟨reserved, rest, position, failed⟩ := t
        obtain rfl : rest = [] := hrest
        rfl
      rw [next, if_neg (by exact hfailed), hagain, readToken, hrest]
    next =>
      split at h
      next => simp at h
      next =>
        dsimp only at h
        split at h <;> simp at h

theorem next_of_refused {s s' : Scanner} (h : s.next = (.error fault, s')) :
    s'.next = (.ok none, s') := by
  have hfailed : s'.failed = true := by
    unfold next readToken at h
    split at h
    next => simp at h
    next =>
      split at h
      next => simp at h
      next =>
        split at h
        next => exact (Prod.mk.inj h).2 ▸ rfl
        next =>
          dsimp only at h
          split at h
          next => exact (Prod.mk.inj h).2 ▸ rfl
          next => simp at h
  rw [next, if_pos hfailed]

/-- A refusal: behind some blanks stands what was refused. -/
theorem next_refused {s s' : Scanner} (hs : s.At chars pre) (h : s.next = (.error fault, s')) :
    ∃ blanks refused post, (∀ c ∈ blanks, isBlank c = true) ∧ refused ≠ [] ∧
      chars = pre ++ blanks ++ (refused ++ post) ∧
      fault.span = .ofLength (byteLength (pre ++ blanks)) (byteLength refused) := by
  unfold next at h
  split at h
  next => simp at h
  next =>
    have hat := hs.advance (Matcher.run isBlank s.rest)
    refine ⟨s.rest.take (Matcher.run isBlank s.rest), ?_⟩
    have hblank := Matcher.forall_take_run isBlank s.rest
    generalize s.rest.take (Matcher.run isBlank s.rest) = blanks at hat hblank ⊢
    change s.skipBlanks.At chars (pre ++ blanks) at hat
    unfold readToken at h
    split at h
    next => simp at h
    next c cs hrest =>
      split at h
      next =>
        simp only [Prod.mk.injEq, Except.error.injEq] at h
        obtain ⟨rfl, rfl⟩ := h
        refine ⟨[c], cs, hblank, by simp, by simpa [hrest] using hat.rest, ?_⟩
        simp [hat.position, byteLength]
      next kind n hfirst =>
        dsimp only at h
        split at h
        next refusal hmake =>
          simp only [Prod.mk.injEq, Except.error.injEq] at h
          obtain ⟨rfl, rfl⟩ := h
          have hpos := Rule.first?_pos hfirst
          have hspan : refusal.span = .ofLength s.skipBlanks.position
              (byteLength (s.skipBlanks.rest.take n)) := by
            rcases Token.make_error hmake with rfl | rfl <;> rfl
          refine ⟨s.skipBlanks.rest.take n, s.skipBlanks.rest.drop n, hblank, ?_, ?_, ?_⟩
          · simp [hrest]
            omega
          · rw [List.take_append_drop]
            exact hat.rest
          · rw [hspan, hat.position]
        next => simp at h

theorem next_end {s s' : Scanner} (hs : s.At chars pre) (hfailed : s.failed = false)
    (h : s.next = (.ok none, s')) :
    ∃ blanks, (∀ c ∈ blanks, isBlank c = true) ∧ chars = pre ++ blanks := by
  rw [next, if_neg (by simp [hfailed])] at h
  have hat := hs.advance (Matcher.run isBlank s.rest)
  refine ⟨s.rest.take (Matcher.run isBlank s.rest), Matcher.forall_take_run isBlank s.rest, ?_⟩
  unfold readToken at h
  split at h
  next hrest =>
    have hchars := hat.rest
    change chars = _ ++ s.skipBlanks.rest at hchars
    rw [hrest, List.append_nil] at hchars
    exact hchars
  next =>
    split at h
    next => simp at h
    next =>
      dsimp only at h
      split at h <;> simp at h

-- ---------------------------------------------------------------------------
-- Reading to the end
-- ---------------------------------------------------------------------------

theorem item?_after_of_end {s : Scanner} (h : s.next = (.ok none, s)) (k : Nat) :
    (s.after k).item? = none := by
  induction k with
  | zero => simp [after, item?, h]
  | succ k ih =>
    rw [after, h]
    exact ih

/-- The calls yield the items of the scan, one after another, and from then on nothing. -/
theorem item?_after (s : Scanner) (k : Nat) : (s.after k).item? = s.scan.items[k]? := by
  fun_induction scan s generalizing k with
  | case1 s fault s' hnext =>
    cases k with
    | zero => simp [after, item?, hnext, Scan.items]
    | succ k =>
      rw [after, hnext, item?_after_of_end (next_of_refused hnext)]
      simp [Scan.items]
  | case2 s s' hnext =>
    cases k with
    | zero => simp [after, item?, hnext, Scan.items]
    | succ k =>
      rw [after, hnext, item?_after_of_end (next_of_end hnext)]
      simp [Scan.items]
  | case3 s token s' hnext later =>
    rename_i ih
    cases k with
    | zero => simp [after, item?, hnext, Scan.items]
    | succ k =>
      rw [after, hnext, ih k]
      simp [Scan.items, later]

end Scanner

def Span.between : Nat → List Span → Nat → List Span
  | start, [], stop => [⟨start, stop⟩]
  | start, span :: spans, stop => ⟨start, span.start⟩ :: between span.stop spans stop

/-- Texts put together in turn, a gap first. -/
def Text.weave : List (List Char) → List (List Char) → List Char
  | gap :: gaps, text :: texts => gap ++ (text ++ weave gaps texts)
  | gaps, _ => gaps.flatten

namespace Scan

def stop (scan : Scan) (chars : List Char) : Nat :=
  match scan.fault with
  | none => byteLength chars
  | some fault => fault.span.start

def gaps (scan : Scan) (chars : List Char) : List Span :=
  Span.between 0 (scan.tokens.map (·.span)) (scan.stop chars)

/-- The tokens of a scan are pieces of the text, in its order. The gaps before, between and behind
them are blank. Gaps and tokens in turn, and behind them what a refusal leaves unread, are the
text. -/
structure Tiles (scan : Scan) (chars : List Char) : Prop where
  pieces : ∀ t ∈ scan.tokens, t.span.start < t.span.stop ∧ t.span.stop ≤ byteLength chars ∧
    slice? chars t.span.start t.span.stop = some t.text.toList
  ordered : scan.tokens.Pairwise (·.span.stop ≤ ·.span.start)
  covered : ∃ blanks unread,
    (scan.gaps chars).map (fun gap => slice? chars gap.start gap.stop) = blanks.map some ∧
      (∀ blank ∈ blanks, ∀ c ∈ blank, isBlank c = true) ∧
      weave blanks (scan.tokens.map (·.text.toList)) ++ unread = chars ∧
      dropBytes? chars (scan.stop chars) = some unread ∧ (scan.fault = none → unread = [])
  refused : ∀ fault ∈ scan.fault, fault.span.start < fault.span.stop ∧
    fault.span.stop ≤ byteLength chars ∧
    ∃ piece, slice? chars fault.span.start fault.span.stop = some piece

end Scan

/-- A scan from a place in a text on covers what stands behind that place. -/
theorem Scanner.scan_covers {s : Scanner} (hs : s.At chars pre) (hfailed : s.failed = false) :
    ∃ blanks unread,
      (Span.between (byteLength pre) (s.scan.tokens.map (·.span)) (s.scan.stop chars)).map
          (fun gap => slice? chars gap.start gap.stop) = blanks.map some ∧
        (∀ blank ∈ blanks, ∀ c ∈ blank, isBlank c = true) ∧
        pre ++ (weave blanks (s.scan.tokens.map (·.text.toList)) ++ unread) = chars ∧
        dropBytes? chars (s.scan.stop chars) = some unread ∧
        (s.scan.fault = none → unread = []) := by
  fun_induction scan s generalizing pre with
  | case1 s fault s' hnext =>
    obtain ⟨blanks, refused, post, hblank, -, rfl, hspan⟩ := next_refused hs hnext
    have hstart : fault.span.start = byteLength (pre ++ blanks) := by
      rw [hspan]
      rfl
    refine ⟨[blanks], refused ++ post, ?_, by simpa using hblank, by simp [weave], ?_, by simp⟩
    · simp only [List.map_nil, Span.between, Scan.stop, hstart, List.map_cons, List.append_assoc]
      rw [slice?_append]
    · simp only [Scan.stop, hstart]
      exact dropBytes?_append _ _
  | case2 s s' hnext =>
    obtain ⟨blanks, hblank, rfl⟩ := next_end hs hfailed hnext
    refine ⟨[blanks], [], ?_, by simpa using hblank, by simp [weave], ?_, by simp⟩
    · have hslice := slice?_append pre blanks []
      rw [List.append_nil] at hslice
      simp [Span.between, Scan.stop, hslice, -byteLength_append]
    · have hdrop := dropBytes?_append (pre ++ blanks) []
      rwa [List.append_nil] at hdrop
  | case3 s token s' hnext later =>
    rename_i ih
    obtain ⟨blank, hblank, hlexed, hs', -, hfailed'⟩ := next_lexed hs hnext
    obtain ⟨blanks, unread, hgaps, hblanks, hchars, hunread, hfault⟩ := ih hs' hfailed'
    refine ⟨blank :: blanks, unread, ?_, ?_, ?_, hunread, hfault⟩
    · simp only [List.map_cons, Span.between, hlexed.span_start, hlexed.span_stop, List.cons.injEq]
      refine ⟨?_, hgaps⟩
      rw [← hchars, List.append_assoc, List.append_assoc]
      exact slice?_append _ _ _
    · exact List.forall_mem_cons.2 ⟨hblank, hblanks⟩
    · simpa [weave] using hchars

theorem Scanner.scan_refused {s : Scanner} (hs : s.At chars pre) (h : s.scan.fault = some fault) :
    fault.span.start < fault.span.stop ∧ fault.span.stop ≤ byteLength chars ∧
      ∃ piece, slice? chars fault.span.start fault.span.stop = some piece := by
  fun_induction scan s generalizing pre with
  | case1 s fault' s' hnext =>
    obtain rfl : fault' = fault := Option.some.inj h
    obtain ⟨blanks, refused, post, -, hne, rfl, hspan⟩ := next_refused hs hnext
    have hpos := byteLength_pos hne
    rw [hspan]
    refine ⟨?_, ?_, refused, ?_⟩
    · simp only [Span.ofLength]
      omega
    · simp only [Span.ofLength, byteLength_append]
      omega
    · rw [Span.ofLength, ← byteLength_append]
      exact slice?_append _ _ _
  | case2 s s' hnext => simp at h
  | case3 s token s' hnext later =>
    rename_i ih
    obtain ⟨blank, -, -, hs', -, -⟩ := next_lexed hs hnext
    exact ih hs' h

theorem Token.Lexed.piece (h : Lexed reserved chars pre t) :
    t.span.stop ≤ byteLength chars ∧
    slice? chars t.span.start t.span.stop = some t.text.toList := by
  obtain ⟨post, rfl, -⟩ := h.first
  rw [h.span_start, h.span_stop]
  refine ⟨?_, slice?_append _ _ _⟩
  simp only [byteLength_append]
  omega

/-- Calling the scanner again and again yields finitely many items, and they tile the text. -/
theorem Source.scan_tiles (source : Source) (reserved : ReservedPrefixes) :
    (∀ k, ((Scanner.ofSource reserved source).after k).item? = (source.scan reserved).items[k]?) ∧
      (source.scan reserved).Tiles source.chars := by
  have hat : (Scanner.ofSource reserved source).At source.chars [] := ⟨rfl, rfl⟩
  obtain ⟨hlexed, hordered⟩ := source.scan_lexed reserved
  refine ⟨Scanner.item?_after _, ?_, hordered, Scanner.scan_covers hat rfl, ?_⟩
  · intro t ht
    obtain ⟨pre, hpre⟩ := hlexed t ht
    exact ⟨hpre.start_lt_stop, hpre.piece⟩
  · intro fault hfault
    exact Scanner.scan_refused hat hfault

end ScriptToPhp
