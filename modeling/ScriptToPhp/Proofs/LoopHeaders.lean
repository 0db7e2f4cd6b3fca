import Mathlib.Tactic.SplitIfs
import ScriptToPhp.Proofs.PrintedOutline

/-!
# Headers of loops

The header of a `for` loop is one list of items: the commas and the semicolons that stand directly
in its parentheses are not told apart. If there is a semicolon among them, it is printed between all
items.
-/

namespace ScriptToPhp

open Php

-- ---------------------------------------------------------------------------
-- The tokens of a header
-- ---------------------------------------------------------------------------

def Token.standsIn (t : Token) (span : Span) : Bool :=
  span.start ≤ t.span.start && t.span.stop ≤ span.stop

def Source.tokensIn (source : Source) (reserved : ReservedPrefixes) (span : Span) : List Token :=
  (source.tokens reserved).filter (·.standsIn span)

theorem Token.standsIn_iff {t : Token} {span : Span} :
    t.standsIn span = true ↔ span.start ≤ t.span.start ∧ t.span.stop ≤ span.stop := by
  simp [standsIn]

theorem Source.tokensIn_union {source : Source} {opening closing : Token}
    (h : source.tokens reserved = front ++ (opening :: (inside ++ closing :: back))) :
    source.tokensIn reserved (opening.span.union closing.span) =
      opening :: (inside ++ [closing]) := by
  have hapart := source.tokens_apart reserved
  have hpos : ∀ t ∈ source.tokens reserved, t.span.start < t.span.stop := by
    intro t ht
    obtain ⟨-, pre, hlexed⟩ := Source.mem_tokens ht
    exact hlexed.start_lt_stop
  rw [h] at hapart hpos
  simp only [List.pairwise_append, List.pairwise_cons, List.mem_append, List.mem_cons] at hapart
  obtain ⟨-, ⟨hopening, -, ⟨hclosing, -⟩, hinside⟩, hfront⟩ := hapart
  have hpair : opening.span.stop ≤ closing.span.start := hopening closing (by simp)
  have hopeningPos := hpos opening (by simp)
  have hclosingPos := hpos closing (by simp)
  have hbefore : front.filter (·.standsIn (opening.span.union closing.span)) = [] := by
    refine List.filter_eq_nil_iff.2 fun t ht => ?_
    have hle := hfront t ht opening (by simp)
    have hlt := hpos t (by simp [ht])
    simp only [Token.standsIn_iff, Span.union]
    omega
  have hbehind : back.filter (·.standsIn (opening.span.union closing.span)) = [] := by
    refine List.filter_eq_nil_iff.2 fun t ht => ?_
    have hle := hclosing t ht
    have hlt := hpos t (by simp [ht])
    simp only [Token.standsIn_iff, Span.union]
    omega
  have hkept : (opening :: (inside ++ [closing])).filter
      (·.standsIn (opening.span.union closing.span)) =
        opening :: (inside ++ [closing]) := by
    refine List.filter_eq_self.2 fun t ht => ?_
    simp only [List.mem_cons, List.mem_append, List.not_mem_nil, or_false] at ht
    simp only [Token.standsIn_iff, Span.union]
    rcases ht with rfl | ht | rfl
    · omega
    · have hle := hopening t (by simp [ht])
      have hle' := hinside t ht closing (by simp)
      have hlt := hpos t (by simp [ht])
      omega
    · omega
  have hsplit : source.tokens reserved =
    front ++ ((opening :: (inside ++ [closing])) ++ back) := by simp [h]
  rw [tokensIn, hsplit, List.filter_append, List.filter_append, hbefore, hkept, hbehind,
    List.nil_append, List.append_nil]

theorem outlineOf_cons_of_kind {t : Token} (hmark : t.kind ≠ .punctuation)
    (hoperator : t.kind ≠ .operator) :
    outlineOf (t :: ts) = outlineOf ts := by
  have hloud : Lexeme.isLoud t.lexeme = false := by
    simp [Lexeme.isLoud, Lexeme.isOpening, Lexeme.isClosing, Lexeme.question, Lexeme.semicolon,
      Token.lexeme, hmark, hoperator]
  rw [outlineOf, List.map_cons, List.filter_cons_of_neg (by simp [hloud])]
  rfl

theorem outlineOf_cons_comma {t : Token} (h : t.isMark ',' = true) :
    outlineOf (t :: ts) = outlineOf ts := by
  rw [outlineOf, List.map_cons, Token.lexeme_eq_mark.2 h, List.filter_cons_of_neg (by decide)]
  rfl

theorem outlineOf_cons_semicolon {t : Token} (h : t.isMark ';' = true) :
    outlineOf (t :: ts) = .semicolon :: outlineOf ts := by
  rw [outlineOf, List.map_cons, Token.lexeme_eq_mark.2 h, List.filter_cons_of_pos (by decide)]
  rfl

-- ---------------------------------------------------------------------------
-- The items of a header
-- ---------------------------------------------------------------------------

/-- `Itemized afterItem n separator closing ts ts'`: the tokens of `ts` before `ts'` are those of
`n` items and of what stands between them, up to the parenthesis at `closing`. -/
def Itemized (afterItem : Bool) (n : Nat) (separator : Separator) (closing : Span)
    (ts ts' : List Token) : Prop :=
  ∃ inside q p, ∃ t : Token, ts = inside ++ t :: ts' ∧ t.isMark ')' = true ∧ t.span = closing ∧
    Nested (outlineOf inside) q p ∧ (separator = .semicolon ↔ 0 < p) ∧ p ≤ n + afterItem.toNat

theorem Itemized.cons {t : Token} (h : Itemized false n separator closing ts ts')
    (ht : ∀ us, outlineOf (t :: us) = outlineOf us) :
    Itemized afterItem n separator closing (t :: ts) ts' := by
  obtain ⟨inside, q, p, u, rfl, hmark, hspan, hnested, hseparator, hle⟩ := h
  refine ⟨t :: inside, q, p, u, rfl, hmark, hspan, ?_, hseparator, Nat.le_trans hle (by simp)⟩
  rw [ht]
  exact hnested

def Phrase.IsItemized (ts ts' : List Token) : Phrase → Prop
  | .items afterItem nodes separator closing =>
    Itemized afterItem nodes.length separator closing ts ts'
  | _ => True

theorem Derives.isItemized {c c' : Cursor} (h : Derives enclosing phrase c c') :
    phrase.IsItemized c.rest c'.rest := by
  induction h with
  | itemsEnd hmark => exact ⟨[], 0, 0, _, rfl, hmark, rfl, .nil, by simp, by simp⟩
  | itemsComma hmark _ ih => exact Itemized.cons ih fun us => outlineOf_cons_comma hmark
  | @itemsSemicolon _ _ _ _ _ _ t hmark _ ih =>
    obtain ⟨inside, q, p, u, hrest, hclosing, hspan, hnested, -, hle⟩ := ih
    refine ⟨t :: inside, q, p + 1, u, congrArg (t :: ·) hrest, hclosing, hspan,
      ?_, by simp, Nat.succ_le_succ hle⟩
    rw [outlineOf_cons_semicolon hmark]
    exact .semicolon hnested
  | itemsLocal hkind _ _ _ ih =>
    exact Itemized.cons ih fun us => outlineOf_cons_of_kind (by simp [hkind]) (by simp [hkind])
  | itemsGlobal hvar _ ih =>
    obtain ⟨hkind, -⟩ := Token.isKeyword_iff.1 hvar
    exact Itemized.cons ih fun us => outlineOf_cons_of_kind (by simp [hkind]) (by simp [hkind])
  | itemsMore hvalue _ _ ih =>
    obtain ⟨inside, q, p, u, hrest, hclosing, hspan, hnested, hseparator, hle⟩ := ih
    obtain ⟨front, q', p', hfront, hitem, hnone⟩ := Balanced.outline hvalue.balances
    -- The item itself has no semicolon outside of brackets.
    cases hnone rfl
    refine ⟨front ++ inside, q' + q, p,
      u, by rw [hfront, hrest, List.append_assoc], hclosing, hspan, ?_, hseparator, hle⟩
    rw [outlineOf_append]
    simpa using hitem.append hnested
  | _ => trivial

def Group.Opens (g : Group) (ts : List Token) : Prop :=
  ∃ opening closing : Token, ∃ inside back q p, ts = opening :: (inside ++ closing :: back) ∧
    opening.isMark '(' = true ∧ closing.isMark ')' = true ∧
      g.span = opening.span.union closing.span ∧
    Nested (outlineOf inside) q p ∧ (g.separator = .semicolon ↔ 0 < p) ∧ p ≤ g.items.length

theorem Derives.opens_header {c c' : Cursor}
    (h : Derives enclosing (.header .required found) c c') :
    ∃ g, found = some (.group g) ∧ g.Opens c.rest := by
  cases h with
  | noHeader hrequired => exact absurd rfl hrequired
  | header _ hopening hitems =>
    obtain ⟨inside, q, p, closing, hrest, hclosing, rfl, hnested, hseparator, hle⟩ :=
      hitems.isItemized
    exact ⟨_, rfl, _, closing, inside, _, q, p, congrArg _ hrest, hopening, hclosing, rfl, hnested,
      hseparator, hle⟩

theorem BlockKind.ofKeyword_eq_forLoop (h : BlockKind.ofKeyword word = .forLoop) :
    word = "for" := by
  unfold BlockKind.ofKeyword at h
  split at h <;> simp_all

theorem Node.Made.opens_loopHeader {tokens : List Token} (h : Node.Made tokens (.block b))
    (hkind : b.kind = .forLoop) :
    ∃ g ts, b.header = some (.group g) ∧ ts <:+ tokens ∧ g.Opens ts := by
  cases h with
  | function hfunction => simp [hfunction] at hkind
  | returning hreturn => simp [hreturn] at hkind
  | keyword _ _ _ hblock hin =>
    have hword := BlockKind.ofKeyword_eq_forLoop (hblock.kind_block ▸ hkind)
    cases hblock with
    | headed hshape hheader =>
      rw [hword] at hshape
      cases hshape
      obtain ⟨g, rfl, hopens⟩ := hheader.opens_header
      exact ⟨g, _, by simp, hin, hopens⟩
    | jump hshape | jumpValue hshape | caseLabel hshape | defaultLabel hshape | doLoop hshape =>
      simp [hword, BlockShape.ofKeyword] at hshape

theorem outlineOf_parentheses {opening closing : Token} (ho : opening.isMark '(' = true)
    (hc : closing.isMark ')' = true) :
    outlineOf (opening :: (inside ++ [closing])) =
      (.punctuation, "(") :: (outlineOf inside ++ [(.punctuation, ")")]) := by
  have hopening : opening.lexeme = (.punctuation, "(") := Token.lexeme_eq_mark.2 ho
  have hclosing : closing.lexeme = (.punctuation, ")") := Token.lexeme_eq_mark.2 hc
  have hloud : Lexeme.isLoud (.punctuation, "(") = true ∧
    Lexeme.isLoud (.punctuation, ")") = true := by decide
  simp [outlineOf, hopening, hclosing, hloud]

theorem Group.count_source {g : Group} {source : Source} (hopens : g.Opens ts)
    (hts : ts <:+ source.tokens reserved) :
    ∃ p, (lexemesAt 1 0 ((source.tokensIn reserved g.span).map Token.lexeme)).count .semicolon = p ∧
      (g.separator = .semicolon ↔ 0 < p) ∧ p ≤ g.items.length := by
  obtain ⟨opening, closing, inside, back, q, p, rfl, hopening, hclosing, hspan, hnested, hseparator,
    hle⟩ := hopens
  obtain ⟨front, hfront⟩ := hts
  refine ⟨p, ?_, hseparator, hle⟩
  rw [hspan, Source.tokensIn_union hfront.symm, ← count_lexemesAt_filter (by decide), ← outlineOf,
    outlineOf_parentheses hopening hclosing]
  exact hnested.count_parentheses

theorem Group.count_printed {g : Group} {s : Setting} (hs : s.style.Legible)
    (hitems : ∀ item ∈ g.items, item.PrintsFramed)
    (hvalues : ∀ item ∈ g.items, item.isValue = true) :
    (lexemesAt 1 0 (lexemesIn (render s .value (.group g)).text.toList)).count .semicolon =
      if g.separator = .semicolon then g.items.length - 1 else 0 := by
  obtain ⟨q, hframed⟩ := framed_items hitems hvalues hs
  obtain ⟨items, separator, span⟩ := g
  have htext : (render s .value (.group ⟨items, separator, span⟩)).text.toList =
      '(' :: ((Fragment.join separator.text (renderNodes s .value items)).text.toList ++
        [')']) := by
    simp [render, Place.close]
  rw [htext]
  exact Framed.count_parentheses hframed

namespace Script

/-- A `for` loop with a semicolon in its header is printed with one less than it has items, any
other with none. So the clauses are kept only where each clause is one item. -/
theorem loop_header_semicolons {options : Options} {source : Source} {script : Script} {b : Block}
    (h : parse options source = .ok script) (hb : b ∈ script.root.blocks)
    (hkind : b.kind = .forLoop) (s : Setting) (hs : s.style.Legible) :
    ∃ g body, b.header = some (.group g) ∧
      (render s .statement (.block b)).text = "for " ++
        (render s .value (.group g)).text ++ " " ++ body ∧
      let written :=
  (lexemesAt 1 0 ((source.tokensIn options.reserved g.span).map Token.lexeme)).count .semicolon
      let printed :=
        (lexemesAt 1 0 (lexemesIn (render s .value (.group g)).text.toList)).count .semicolon
      written ≤ g.items.length ∧ printed = (if written = 0 then 0 else g.items.length - 1) ∧
        (printed = written ↔ written = 0 ∨ g.items.length = written + 1) := by
  obtain ⟨roles, hbelow⟩ := exists_below_of_mem_blocks hb
  have hne : Node.block b ≠ .block script.root := by
    rintro ⟨⟩
    simp [(made h).1] at hkind
  obtain ⟨hmade, -⟩ := printsFramed h hbelow hne
  obtain ⟨g, ts, hheader, hts, hopens⟩ := hmade.here.opens_loopHeader hkind
  have hgroup : (Node.group g).AllMade (source.tokens options.reserved) := by
    refine hmade.below (.inBlock (by simp [hkind]) (List.mem_append_left _ ?_) (.here _))
    simp [hheader]
  have hlexed : ∀ t ∈ source.tokens options.reserved, ∃ pre,
      t.Lexed options.reserved source.chars pre :=
    fun t ht => (Source.mem_tokens ht).2
  have hitems : ∀ item ∈ g.items, item.PrintsFramed := by
    intro item hitem
    have hpart : (.plain, item) ∈ (Node.group g).parts := List.mem_map.2 ⟨item, hitem, rfl⟩
    exact Node.AllMade.printsFramed hlexed (hgroup.part hpart)
  have hvalues : ∀ item ∈ g.items, item.isValue = true := by
    cases hgroup.here with
    | group hvalues => exact hvalues
  obtain ⟨p, hwritten, hseparator, hle⟩ := g.count_source hopens hts
  refine ⟨g, (braced s b.body s.deeper ⟨(renderHeader · b.header), (renderParameters · b.header),
    (renderNodes · .statement b.body)⟩).text, hheader, ?_, ?_⟩
  · rw [render_block]
    simp [renderBlock, hkind, hheader, renderHeader, parenthesizedHeader, Node.isGroup,
      BlockKind.keyword]
  · have hprinted := g.count_printed hs hitems hvalues
    simp only [hseparator] at hprinted
    simp only [hwritten, hprinted]
    refine ⟨hle, ?_, ?_⟩ <;> split_ifs <;> omega

/-- A comma in the first clause makes one clause more. -/
theorem loop_header_semicolons_comma : ∃ script b g,
    parse {} (.ofText "" "for (i = 0, j = 1; i < n; i++) \x7b\x7d") = .ok script ∧
    b ∈ script.root.blocks ∧
      b.kind = .forLoop ∧ b.header = some (.group g) ∧
      ((Printer.ofStyle (.ofOptions {})).printExpression (.group g)).1 =
        "($i = 0; $j = 1; $i < $n; $i++)" ∧
      (lexemesAt 1 0 (((Source.ofText "" "for (i = 0, j = 1; i < n; i++) \x7b\x7d").tokensIn
        (Options.reserved {})
        g.span).map Token.lexeme)).count .semicolon = 2 ∧
      (lexemesAt 1 0 (lexemesIn "($i = 0; $j = 1; $i < $n; $i++)".toList)).count .semicolon =
        3 := by
  have hfacts : (parse {} (.ofText "" "for (i = 0, j = 1; i < n; i++) \x7b\x7d")).toOption.any
      (fun script =>
        script.root.blocks.any fun b => b.kind == .forLoop && b.header.any fun header =>
          ((Printer.ofStyle (.ofOptions {})).printExpression header).1 ==
            "($i = 0; $j = 1; $i < $n; $i++)" &&
          (lexemesAt 1 0 (((Source.ofText "" "for (i = 0, j = 1; i < n; i++) \x7b\x7d").tokensIn
            (Options.reserved {})
            header.span).map Token.lexeme)).count .semicolon == 2 && header.parts.length ==
              4) = true := by
    decide +kernel
  obtain ⟨script, h, hshape⟩ := exists_of_any_parse hfacts
  simp only [List.any_eq_true, Bool.and_eq_true, beq_iff_eq, Option.any_eq_true] at hshape
  obtain ⟨b, hb, hkind, header, hheader, ⟨htext, hwritten⟩, hlength⟩ := hshape
  obtain ⟨g, body, hgroup, -, -, hprinted, -⟩ :=
    loop_header_semicolons h hb hkind ⟨.ofOptions {}, [], 0⟩
    Style.legible_ofOptions
  cases hheader.symm.trans hgroup
  refine ⟨script, b, g, h, hb, hkind, hgroup, htext, hwritten, ?_⟩
  have hitems : g.items.length = 4 := by simpa [Node.parts] using hlength
  simp only [Node.span] at hwritten
  rw [hwritten, hitems] at hprinted
  rw [← htext]
  exact hprinted

end Script

end ScriptToPhp
