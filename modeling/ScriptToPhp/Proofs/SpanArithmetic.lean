import ScriptToPhp.Proofs.Scanning

/-!
# Computing with spans

Spans are kept as a start and a length in 32-bit words, and each new one is computed from others.
`SpanTerm` says how, `extent?` computes with words and gives up where a sum does not fit or a span
would stop before it starts. Over the spans of a scan neither happens as long as the length of the
text is a word: the words say what the numbers say.
-/

namespace ScriptToPhp

open Text

-- ---------------------------------------------------------------------------
-- Spans in words
-- ---------------------------------------------------------------------------

structure Extent where
  start : UInt32
  length : UInt32
deriving DecidableEq, Repr

namespace Extent

def ofSpan (s : Span) : Extent := ⟨.ofNat s.start, .ofNat s.length⟩

/-- The start and the length added, unless the sum is too large for a word. -/
def stop? (e : Extent) : Option UInt32 :=
  if e.start.toNat + e.length.toNat < UInt32.size then some (e.start + e.length) else none

/-- The span between two positions, unless it would stop before it starts. -/
def ofBounds? (start stop : UInt32) : Option Extent :=
  if start ≤ stop then some ⟨start, stop - start⟩ else none

def union? (a b : Extent) : Option Extent := do
  let stop ← a.stop?
  let other ← b.stop?
  ofBounds? (if a.start ≤ b.start then a.start else b.start) (if stop ≤ other then other else stop)

def behind? (e : Extent) : Option Extent := e.stop?.map (⟨·, 0⟩)

/-- The words are the start and the length of a span that ends within the range of words. -/
structure Represents (e : Extent) (s : Span) : Prop where
  start : e.start.toNat = s.start
  stop : e.start.toNat + e.length.toNat = s.stop
  fits : s.stop < UInt32.size

variable {e a b : Extent} {s t : Span}

theorem represents_ofSpan (hordered : s.start ≤ s.stop) (hfits : s.stop < UInt32.size) :
    (ofSpan s).Represents s := by
  have hstart : (ofSpan s).start.toNat = s.start :=
    UInt32.toNat_ofNat_of_lt' (Nat.lt_of_le_of_lt hordered hfits)
  have hlength : (ofSpan s).length.toNat = s.length :=
    UInt32.toNat_ofNat_of_lt' (Nat.lt_of_le_of_lt (Nat.sub_le _ _) hfits)
  refine ⟨hstart, ?_, hfits⟩
  rw [hstart, hlength, Span.length]
  omega

theorem Represents.stop?_eq (h : e.Represents s) :
    ∃ stop, e.stop? = some stop ∧ stop.toNat = s.stop := by
  have hfits : e.start.toNat + e.length.toNat < UInt32.size := h.stop ▸ h.fits
  refine ⟨e.start + e.length, if_pos hfits, ?_⟩
  exact (UInt32.toNat_add _ _).trans ((Nat.mod_eq_of_lt hfits).trans h.stop)

theorem represents_ofBounds {start stop : UInt32} (h : start.toNat ≤ stop.toNat) :
    ∃ e, ofBounds? start stop = some e ∧ e.Represents ⟨start.toNat, stop.toNat⟩ := by
  have hle : start ≤ stop := UInt32.le_iff_toNat_le.2 h
  have hlength : (stop - start).toNat = stop.toNat - start.toNat := UInt32.toNat_sub_of_le _ _ hle
  exact ⟨⟨start, stop - start⟩, if_pos hle,
    rfl, by simp only [hlength, Nat.add_sub_of_le h], stop.toNat_lt⟩

theorem Represents.union (ha : a.Represents s) (hb : b.Represents t) :
    ∃ e, a.union? b = some e ∧ e.Represents (s.union t) := by
  obtain ⟨stop, hstop, hs⟩ := ha.stop?_eq
  obtain ⟨other, hother, ht⟩ := hb.stop?_eq
  have hmin : (if a.start ≤ b.start then a.start else b.start).toNat = (s.union t).start := by
    rw [Span.union, ← ha.start, ← hb.start]
    split
    next h => exact (Nat.min_eq_left (UInt32.le_iff_toNat_le.1 h)).symm
    next h => exact (Nat.min_eq_right (Nat.le_of_not_le (mt UInt32.le_iff_toNat_le.2 h))).symm
  have hmax : (if stop ≤ other then other else stop).toNat = (s.union t).stop := by
    rw [Span.union, ← hs, ← ht]
    split
    next h => exact (Nat.max_eq_right (UInt32.le_iff_toNat_le.1 h)).symm
    next h => exact (Nat.max_eq_left (Nat.le_of_not_le (mt UInt32.le_iff_toNat_le.2 h))).symm
  have hle : (s.union t).start ≤ (s.union t).stop :=
    calc (s.union t).start ≤ s.start := Nat.min_le_left _ _
      _ = a.start.toNat := ha.start.symm
      _ ≤ s.stop := ha.stop ▸ Nat.le_add_right _ _
      _ ≤ (s.union t).stop := Nat.le_max_left _ _
  obtain ⟨e, he, hrepresents⟩ := represents_ofBounds (hmin ▸ hmax ▸ hle)
  rw [hmin, hmax] at hrepresents
  exact ⟨e, by simpa [union?, hstop, hother] using he, hrepresents⟩

theorem Represents.behind (h : e.Represents s) :
    ∃ e', e.behind? = some e' ∧ e'.Represents (.empty s.stop) := by
  obtain ⟨stop, hstop, heq⟩ := h.stop?_eq
  exact ⟨⟨stop, 0⟩, by simp [behind?, hstop], heq, by simpa [Span.empty] using heq, h.fits⟩

end Extent

-- ---------------------------------------------------------------------------
-- Terms
-- ---------------------------------------------------------------------------

inductive SpanTerm
  | token (s : Span)
  | text
  | union (a b : SpanTerm)
  | behind (a : SpanTerm)

namespace SpanTerm

def span (size : Nat) : SpanTerm → Span
  | token s => s
  | text => ⟨0, size⟩
  | union a b => (a.span size).union (b.span size)
  | behind a => .empty (a.span size).stop

/-- The term computed in words. There is no result if a step of it goes wrong. -/
def extent? (size : Nat) : SpanTerm → Option Extent
  | token s => some (.ofSpan s)
  | text => some ⟨0, .ofNat size⟩
  | union a b => do (← a.extent? size).union? (← b.extent? size)
  | behind a => do (← a.extent? size).behind?

def Over (spans : List Span) : SpanTerm → Prop
  | token s => s ∈ spans
  | text => True
  | union a b => a.Over spans ∧ b.Over spans
  | behind a => a.Over spans

end SpanTerm

def Span.Computed (spans : List Span) (size : Nat) (s : Span) : Prop :=
  ∃ term : SpanTerm, term.Over spans ∧ term.span size = s

namespace Span.Computed

variable {spans : List Span} {a b : Span}

theorem token (h : s ∈ spans) : Computed spans size s := ⟨.token s, h, rfl⟩

theorem text : Computed spans size ⟨0, size⟩ := ⟨.text, trivial, rfl⟩

theorem union (ha : a.Computed spans size) (hb : b.Computed spans size) :
    (a.union b).Computed spans size := by
  obtain ⟨ta, hta, rfl⟩ := ha
  obtain ⟨tb, htb, rfl⟩ := hb
  exact ⟨.union ta tb, ⟨hta, htb⟩, rfl⟩

theorem behind (ha : a.Computed spans size) : (Span.empty a.stop).Computed spans size := by
  obtain ⟨ta, hta, rfl⟩ := ha
  exact ⟨.behind ta, hta, rfl⟩

theorem mono {spans' : List Span} (h : a.Computed spans size) (hspans : spans ⊆ spans') :
    a.Computed spans' size := by
  obtain ⟨term, hterm, rfl⟩ := h
  refine ⟨term, ?_, rfl⟩
  induction term with
  | token s => exact hspans hterm
  | text => exact trivial
  | union a b iha ihb => exact ⟨iha hterm.1, ihb hterm.2⟩
  | behind a ih => exact ih hterm

end Span.Computed

-- ---------------------------------------------------------------------------
-- Spans in a text
-- ---------------------------------------------------------------------------

/-- The offset falls between two characters, or at an end of the text. -/
def Text.IsBoundary (chars : List Char) (offset : Nat) : Prop :=
  ∃ before after, chars = before ++ after ∧ byteLength before = offset

/-- The span is a stretch of whole characters of the text. -/
structure Span.InText (chars : List Char) (s : Span) : Prop where
  ordered : s.start ≤ s.stop
  bounded : s.stop ≤ byteLength chars
  start : IsBoundary chars s.start
  stop : IsBoundary chars s.stop

namespace Span.InText

variable {chars : List Char} {a b : Span}

theorem text : InText chars ⟨0, byteLength chars⟩ :=
  ⟨Nat.zero_le _, Nat.le_refl _, ⟨[], chars, rfl, rfl⟩, ⟨chars, [], by simp, rfl⟩⟩

theorem union (ha : a.InText chars) (hb : b.InText chars) : (a.union b).InText chars where
  ordered := Nat.le_trans (Nat.min_le_left _ _) (Nat.le_trans ha.ordered (Nat.le_max_left _ _))
  bounded := Nat.max_le.2 ⟨ha.bounded, hb.bounded⟩
  start := by
    rcases Nat.le_total a.start b.start with h | h
    · rw [Span.union, Nat.min_eq_left h]
      exact ha.start
    · rw [Span.union, Nat.min_eq_right h]
      exact hb.start
  stop := by
    rcases Nat.le_total a.stop b.stop with h | h
    · rw [Span.union, Nat.max_eq_right h]
      exact hb.stop
    · rw [Span.union, Nat.max_eq_left h]
      exact ha.stop

theorem behind (ha : a.InText chars) : (Span.empty a.stop).InText chars :=
  ⟨Nat.le_refl _, ha.bounded, ha.stop, ha.stop⟩

end Span.InText

theorem Token.Lexed.inText (h : Lexed reserved chars pre t) : t.span.InText chars := by
  obtain ⟨post, hchars, -⟩ := h.first
  refine ⟨Nat.le_of_lt h.start_lt_stop, ?_, ⟨pre, _, hchars, h.span_start.symm⟩,
    ⟨pre ++ t.text.toList, post, ?_, ?_⟩⟩
  · rw [h.span_stop, hchars, ← List.append_assoc, byteLength_append (pre ++ t.text.toList)]
    exact Nat.le_add_right _ _
  · rw [hchars, List.append_assoc]
  · exact h.span_stop.symm

def Source.spans (source : Source) (reserved : ReservedPrefixes) : List Span :=
  (source.scan reserved).tokens.map (·.span)

theorem Source.span_mem_spans {source : Source} (h : t ∈ source.tokens reserved) :
    t.span ∈ source.spans reserved := by
  obtain ⟨u, hu, _, -, rfl⟩ := Token.mem_meaningfulAfter h
  exact List.mem_map.2 ⟨u, hu, rfl⟩

theorem Source.inText_spans {source : Source} (h : s ∈ source.spans reserved) :
    s.InText source.chars := by
  obtain ⟨t, ht, rfl⟩ := List.mem_map.1 h
  obtain ⟨pre, hlexed⟩ := (source.scan_lexed reserved).1 t ht
  exact hlexed.inText

namespace SpanTerm

variable {source : Source} {term : SpanTerm}

theorem inText (h : term.Over (source.spans reserved)) :
    (term.span source.size).InText source.chars := by
  induction term with
  | token s => exact Source.inText_spans h
  | text => exact .text
  | union a b iha ihb => exact (iha h.1).union (ihb h.2)
  | behind a ih => exact (ih h).behind

/-- Whatever is computed from the spans of a source, no step of it goes wrong in words. -/
theorem represents (h : term.Over (source.spans reserved)) (hsize : source.size < UInt32.size) :
    ∃ e, term.extent? source.size = some e ∧ e.Represents (term.span source.size) := by
  induction term with
  | token s =>
    have hin := Source.inText_spans h
    exact ⟨_, rfl, Extent.represents_ofSpan hin.ordered (Nat.lt_of_le_of_lt hin.bounded hsize)⟩
  | text => exact ⟨_, rfl, rfl, by simp [SpanTerm.span, UInt32.toNat_ofNat_of_lt' hsize], hsize⟩
  | union a b iha ihb =>
    obtain ⟨ea, hea, hra⟩ := iha h.1
    obtain ⟨eb, heb, hrb⟩ := ihb h.2
    obtain ⟨e, he, hr⟩ := hra.union hrb
    exact ⟨e, by simp [extent?, hea, heb, he], hr⟩
  | behind a ih =>
    obtain ⟨ea, hea, hra⟩ := ih h
    obtain ⟨e, he, hr⟩ := hra.behind
    exact ⟨e, by simp [extent?, hea, he], hr⟩

end SpanTerm

theorem Span.Computed.inText {source : Source}
    (h : Computed (source.spans reserved) source.size s) :
    s.InText source.chars := by
  obtain ⟨term, hterm, rfl⟩ := h
  exact SpanTerm.inText hterm

end ScriptToPhp
