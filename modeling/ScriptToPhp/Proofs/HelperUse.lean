import ScriptToPhp.Proofs.Pieces
import ScriptToPhp.Proofs.StringUnits

/-!
# The use of helpers

The printer counts a helper as used wherever it writes a reference to it. In a script without
strings that does not name the table of globals, the references in the printed text are just those.
-/

namespace ScriptToPhp

open Text Php

-- ---------------------------------------------------------------------------
-- Tokens
-- ---------------------------------------------------------------------------

/-- A token of a script without strings that does not name the table of globals. -/
structure Token.Harmless (reserved : ReservedPrefixes) (chars : List Char) (t : Token) : Prop where
  lexed : ∃ pre, t.Lexed reserved chars pre
  isNeutral : t.isNeutral = false
  not_string : t.kind ≠ .string
  not_globals : t.kind = .variable → ¬ "GLOBALS".toList <:+: t.text.toList

/-- The characters that a text between single quotes keeps, apart from dollar signs. -/
def Text.isBland (c : Char) : Bool := c != '\'' && c != '\\' && c != '$'

theorem isBland_of_isLiteralCharacter (h : Matcher.isLiteralCharacter c = true) :
    isBland c = true := by
  have hnot : ['\'', '\\', '$'].contains c = false := contains_eq_false_of_class (by decide) h
  simpa [isBland, not_or, and_assoc] using hnot

theorem IsLiteralText.isBland (h : IsLiteralText w found) (hne : found ≠ .string) :
    ∀ c ∈ w, isBland c = true := by
  have hwhole {m : Matcher} (hm : m.Takes Matcher.isLiteralCharacter) (hw : m w = some w.length) :
      ∀ c ∈ w, Text.isBland c = true := by
    refine fun c hc => isBland_of_isLiteralCharacter (hm w w.length hw c ?_)
    rwa [List.take_length]
  cases found with
  | constant => exact hwhole Matcher.constant_takes h
  | number => exact hwhole Matcher.number_takes h
  | string => exact absurd rfl hne
  | _ => exact h.elim

theorem escapeQuoted_eq_self (h : ∀ c ∈ w, c ≠ '\'' ∧ c ≠ '\\') : escapeQuoted w = w := by
  induction w with
  | nil => rfl
  | cons c w ih =>
    obtain ⟨hc, hw⟩ := List.forall_mem_cons.1 h
    simp [escapeQuoted, hc, ih hw]

theorem Php.literal_quoted {content : String} (h : ∀ c ∈ content.toList, c ≠ '\'' ∧ c ≠ '\\')
    (span : Span) :
    (literal (.quoted content span)).toList = '\'' :: (content.toList ++ ['\'']) := by
  have hvalue : (Literal.quoted content span).value.toList =
      '\'' :: (content.toList ++ ['\'']) := by
    simp [Literal.quoted, escapeQuoted_eq_self h]
  have hliteral : literal (.quoted content span) = Php.string (Literal.quoted content span).value :=
    rfl
  rw [hliteral, string_quoted, hvalue]

namespace Token

variable {t : Token} {style : Style} {k : Helper}

theorem Lexed.isBland (h : t.Lexed reserved chars pre) (hneutral : t.isNeutral = false)
    (hstring : t.kind ≠ .string) (hvariable : t.kind ≠ .variable) :
    ∀ c ∈ t.text.toList, isBland c = true := by
  refine h.forall_of_takes ?_
  cases hkind : t.kind with
  | comment | newline => simp [isNeutral, TokenKind.isNeutral, hkind] at hneutral
  | constant =>
    exact fun cs n hn c hc => isBland_of_isLiteralCharacter (Matcher.constant_takes cs n hn c hc)
  | number =>
    exact fun cs n hn c hc => isBland_of_isLiteralCharacter (Matcher.number_takes cs n hn c hc)
  | function | lambda => exact Matcher.word_takes (by decide)
  | keyword => exact Matcher.longest_takes (by decide)
  | operator => exact Matcher.longest_takes (by decide)
  | string => exact absurd hkind hstring
  | «variable» => exact absurd hkind hvariable
  | punctuation =>
    refine Matcher.one_takes fun c hc => ?_
    simp only [Matcher.isMark, Bool.or_eq_true, beq_iff_eq] at hc
    rcases hc with ((((((((rfl | rfl) | rfl) | rfl) | rfl) | rfl) | rfl) | rfl) | rfl) | rfl <;>
      decide

namespace Harmless

variable (h : t.Harmless reserved chars)
include h

theorem isPlainName (ht : t.kind = .variable) : IsPlainName t.text := by
  obtain ⟨pre, hlexed⟩ := h.lexed
  refine ⟨fun c hc => ?_, h.not_globals ht⟩
  exact contains_eq_false_of_class (by decide +kernel) (hlexed.continuesName ht c hc)

theorem text : (∀ c ∈ t.text.toList, c ≠ '\'' ∧ c ≠ '\\') ∧ ¬ globals <:+: t.text.toList := by
  obtain ⟨pre, hlexed⟩ := h.lexed
  by_cases ht : t.kind = .variable
  · have hname := h.isPlainName ht
    refine ⟨fun c hc => ?_, fun hin =>
      hname.not_globals ((List.tail_suffix globals).isInfix.trans hin)⟩
    have hnot : ['\'', '\\'].contains c = false :=
      contains_eq_false_of_class (by decide +kernel) (hlexed.continuesName ht c hc)
    simpa using hnot
  · have hbland := hlexed.isBland h.isNeutral h.not_string ht
    refine ⟨fun c hc => ?_, fun hin => ?_⟩
    · have hc := hbland c hc
      simp only [Text.isBland, Bool.and_eq_true, bne_iff_ne] at hc
      exact hc.1
    · have hdollar := hbland '$' (hin.subset (by decide))
      simp [Text.isBland] at hdollar

theorem traced_literal (hs : style.Tells k) (hl : t.literal? = some l) :
    (Fragment.plain (literal l)).Traced style k := by
  obtain ⟨pre, hlexed⟩ := h.lexed
  refine Fragment.traced_word hs _ ?_
  rw [← Bool.not_eq_true, List.contains_iff_mem]
  intro hmem
  have hdollar := (hlexed.isLiteralText hl).isBland h.not_string '$' hmem
  simp [Text.isBland] at hdollar

theorem traced_quoted (hs : style.Tells k) (span : Span) :
    (Fragment.plain (literal (.quoted t.text span))).Traced style k := by
  obtain ⟨hplain, hglobals⟩ := h.text
  refine Fragment.traced_text hs fun hin => ?_
  rw [literal_quoted hplain span] at hin
  rcases List.infix_cons_iff.1 hin with hfront | hin
  · simp [globals] at hfront
  rcases List.infix_concat_iff.1 hin with hsuffix | hin
  · simpa using getLast?_of_suffix hsuffix (by decide : globals.getLast? = some 'S')
  · exact hglobals hin

theorem traced_recordKey (hs : style.Tells k) (hkey : Grammar.recordKey? t = some key) :
    (Fragment.plain (literal key)).Traced style k := by
  unfold Grammar.recordKey? at hkey
  split at hkey
  iterate 4
    cases hkey
    exact h.traced_quoted hs _
  next hkind => exact h.traced_literal hs (by simpa [literal?, hkind] using hkey)
  next hkind => exact absurd hkind h.not_string
  next => cases hkey

end Harmless

end Token

-- ---------------------------------------------------------------------------
-- Blocks
-- ---------------------------------------------------------------------------

namespace Php

open Fragment

variable {style : Style} {k : Helper} {s : Setting} {b : Block} {inside : Inside}

theorem traced_varName (h : style.Tells k) (hs : s.style = style) (hname : IsPlainName name)
    (scope : Option ScopeId) :
    (s.varName name scope).Traced style k := by
  rw [Setting.varName, hs]
  exact traced_variable h hname scope

theorem newline_eq (h : style.Tells k) (hs : s.style = style) : s.newline = plain "\n" := by
  rw [Setting.newline, hs, h.newline]

theorem indentation_blank (h : style.Tells k) (hs : s.style = style) :
    ∀ c ∈ s.indentation.text.toList, c = ' ' := by
  change ∀ c ∈ (s.style.indentation s.level).toList, c = ' '
  induction s.level with
  | zero => simp [Style.indentation]
  | succ level ih => simpa [Style.indentation, hs, h.indent] using ih

theorem traced_indentation (h : style.Tells k) (hs : s.style = style) :
    s.indentation.Traced style k ∧ s.indentation.Ends ∧ s.indentation.Opens := by
  have hblank := indentation_blank h hs
  refine ⟨traced_word h _ ?_, fun a ha => ?_, fun a ha => ?_⟩
  · rw [← Bool.not_eq_true, List.contains_iff_mem]
    exact fun hmem => absurd (hblank _ hmem) (by decide)
  · rw [hblank a (List.mem_of_getLast? ha)]
    decide
  · rw [hblank a (List.mem_of_head? ha)]
    decide

theorem traced_lines (body : List Node) (h : style.Tells k) (hs : s.style = style)
    (htexts : ∀ f ∈ texts, f.Traced style k) :
    (concat (hoisted body (lines s texts))).Traced style k ∧
    (concat (hoisted body (lines s texts))).Ends := by
  refine traced_concat h fun line hline => ?_
  obtain ⟨statement, hstatement, rfl⟩ := List.mem_map.1 (mem_of_mem_hoisted hline)
  obtain ⟨hblank, hends, -⟩ := traced_indentation h hs
  rw [newline_eq h hs]
  have hfront := hblank.append (htexts statement hstatement) (apart_of_ends hends _)
  exact ⟨hfront.before h (by decide), ends_lead _ (by decide)⟩

theorem traced_braced {inner : Setting} (h : style.Tells k) (hs : s.style = style)
    (hinner : inner.style = style) (hstatements : ∀ f ∈ inside.statements inner, f.Traced style k) :
    (braced s body inner inside).Traced style k := by
  unfold braced
  split
  next => exact traced_word h _ (by decide)
  next =>
    obtain ⟨hlines, hends⟩ := traced_lines body h hinner hstatements
    obtain ⟨hblank, -, hopens⟩ := traced_indentation h hs
    rw [newline_eq h hs]
    have hopening : (plain "\x7b" ++ plain "\n").Traced style k :=
      (traced_word h "\n" (by decide)).behind h (by decide)
    have hbody := hopening.append hlines (apart_of_ends (ends_lead _ (by decide)) _)
    exact (hbody.followedBy ⟨hblank, hopens⟩).before h (by decide)

theorem traced_parenthesizedHeader (h : style.Tells k) (header : Option Node)
    {rendered : Option Fragment} (hrendered : ∀ f ∈ rendered, f.Traced style k) :
    (parenthesizedHeader header rendered).Traced style k := by
  cases rendered with
  | none => exact traced_word h "()" (by decide)
  | some rendered =>
    rw [parenthesizedHeader]
    split
    next => exact hrendered rendered rfl
    next => exact (hrendered rendered rfl).parenthesized h

theorem traced_useClause (h : style.Tells k) (hs : s.style = style)
    (hcaptured : ∀ capture ∈ captures s.callable b, IsPlainName capture.1) :
    (useClause s b).Traced style k ∧ (useClause s b).Opens := by
  unfold useClause
  extract_lets used
  split
  next => exact ⟨traced_empty h, opens_empty⟩
  next =>
    have hused : ∀ f ∈ used, f.Traced style k := by
      intro f hf
      obtain ⟨capture, hcapture, rfl⟩ := List.mem_map.1 hf
      exact (traced_varName h hs (hcaptured capture hcapture) capture.2).behind h (by decide)
    exact ((traced_list h hused).parenthesized h).appended h (by decide)

structure Inside.Traced (style : Style) (k : Helper) (s : Setting) (b : Block)
    (inside : Inside) : Prop where
  style_eq : s.style = style
  keyword : b.kind.keyword.toList.contains '$' = false
  name : b.kind = .function → ∀ name ∈ b.name, IsPlainName name
  captured : b.kind = .function → ∀ capture ∈ captures s.callable b, IsPlainName capture.1
  parameters : b.kind = .function → ∀ f ∈ inside.parameters s, f.Traced style k
  binding : b.kind ≠ .function → (catchBinding s b.header).Traced style k ∧
    (catchBinding s b.header).Opens
  header : b.kind ≠ .function → ∀ f ∈ inside.header s, f.Traced style k
  statements : ∀ inner : Setting, inner.style = style →
    ∀ f ∈ inside.statements inner, f.Traced style k

namespace Inside.Traced

variable (hin : inside.Traced style k s b) (h : style.Tells k)
include hin h

theorem body {inner : Setting} (hinner : inner.style = style) :
    (braced s b.body inner inside).Traced style k :=
  traced_braced h hin.style_eq hinner (hin.statements inner hinner)

theorem closure (hkind : b.kind = .function) :
    ("function " ++ parenthesized (join ", " (inside.parameters s)) ++ useClause s b ++ " " ++
      braced s b.body (s.within b).deeper inside).Traced style k := by
  have hparameters := ((traced_list h (hin.parameters hkind)).parenthesized h).behind h
    (w := "function ") (by decide)
  have hfront := hparameters.followedBy (traced_useClause h hin.style_eq (hin.captured hkind))
  exact hfront.linked (hin.body h hin.style_eq) h (by decide)

theorem renderBlock (place : Place) : (renderBlock s place b inside).Traced style k := by
  have hs := hin.style_eq
  have hword := traced_word h _ hin.keyword
  have hbody : (braced s b.body s.deeper inside).Traced style k := hin.body h hs
  have hvalue := hin.header
  have hheader := fun hkind => traced_parenthesizedHeader h b.header (hin.header hkind)
  unfold Php.renderBlock
  cases hkind : b.kind with
  | main => exact (traced_lines _ h hs (hin.statements s hs)).1
  | function =>
    have hclosure := hin.closure h hkind
    cases place with
    | statement =>
      cases hname : b.name with
      | none => exact hclosure.before h (by decide)
      | some name =>
        have hvariable := traced_varName h hs (hin.name hkind name hname) none
        exact (hvariable.linked hclosure h (by decide)).before h (by decide)
    | _ => exact hclosure
  | returnJump | breakJump | continueJump | throwJump =>
    rw [hkind] at hword hvalue
    refine .before (hword.followedBy ?_) h (by decide)
    cases hrendered : inside.header s with
    | none => exact ⟨traced_empty h, opens_empty⟩
    | some value => exact (hvalue (by simp) value hrendered).appended h (by decide)
  | caseLabel =>
    rw [hkind] at hvalue
    refine .enclosed ?_ h (by decide) (by decide)
    cases hrendered : inside.header s with
    | none => exact traced_empty h
    | some value => exact hvalue (by simp) value hrendered
  | defaultLabel => exact traced_word h _ (by decide)
  | ifBranch | whileLoop | forLoop | switch =>
    rw [hkind] at hword hheader
    exact (hword.linked (hheader (by simp)) h (by decide)).linked hbody h (by decide)
  | elseBranch | tryBlock | finallyBlock =>
    rw [hkind] at hword
    exact hword.linked hbody h (by decide)
  | catchBlock =>
    have hfront := (traced_word h "catch (\\Throwable" (by decide)).followedBy
      (hin.binding (by simp [hkind]))
    exact hfront.linked hbody h (by decide)
  | doLoop =>
    rw [hkind] at hheader
    refine .before (.linked (hbody.behind h (by decide)) ?_ h (by decide)) h (by decide)
    split
    next => exact hheader (by simp)
    next => exact traced_word h "(false)" (by decide)
  | other word =>
    rw [hkind] at hword hheader
    refine .followedBy (hword.followedBy ?_) ?_
    · split
      next => exact (hheader (by simp)).appended h (by decide)
      next => exact ⟨traced_empty h, opens_empty⟩
    · split
      next => exact hbody.appended h (by decide)
      next =>
        split
        next => exact ⟨traced_word h ";" (by decide), opens_of_isTail (by decide)⟩
        next statement rest hstatements =>
          exact (hin.statements s hs statement (by simp [hstatements])).appended h (by decide)

end Inside.Traced

end Php

-- ---------------------------------------------------------------------------
-- Nodes
-- ---------------------------------------------------------------------------

/-- Wherever the node is printed, the text refers to the helper if it says so. -/
def Node.PrintsTraced (style : Style) (k : Helper) (node : Node) : Prop :=
  ∀ (s : Setting) (place : Place), s.style = style → (render s place node).Traced style k

section

variable {style : Style} {k : Helper} {s : Setting}

namespace Php

open Fragment

theorem traced_close (h : style.Tells k) {f : Fragment} (hf : f.Traced style k) (place : Place) :
    (place.close f).Traced style k := by
  cases place with
  | statement => exact hf.before h (by decide)
  | _ => exact hf

theorem traced_renderNodes (hs : s.style = style)
    (hnodes : ∀ node ∈ nodes, node.PrintsTraced style k) (place : Place) :
    ∀ f ∈ renderNodes s place nodes, f.Traced style k := by
  intro f hf
  rw [renderNodes_eq_map] at hf
  obtain ⟨node, hnode, rfl⟩ := List.mem_map.1 hf
  exact hnodes node hnode s place hs

theorem traced_renderScript {root : Block} (h : style.Tells k)
    (hnodes : ∀ node ∈ root.body, node.PrintsTraced style k) :
    (renderScript style root).Traced style k := by
  have hs : (⟨style, functionNames root, 0⟩ : Setting).style = style := rfl
  exact (traced_lines _ h hs (traced_renderNodes hs hnodes .statement)).1

theorem traced_renderChain (hs : s.style = style)
    (hkeys : ∀ key, .property key ∈ chain → (plain (literal key)).Traced style k)
    (hvalues : ∀ value, .index value ∈ chain → value.PrintsTraced style k) :
    ∀ f ∈ renderChain s chain, f.Traced style k := by
  induction chain with
  | nil => simp [renderChain]
  | cons access chain ih =>
    have hlater := ih (fun key h => hkeys key (List.mem_cons_of_mem _ h))
      fun value h => hvalues value (List.mem_cons_of_mem _ h)
    cases access with
    | property key =>
      rw [renderChain]
      exact List.forall_mem_cons.2 ⟨hkeys key List.mem_cons_self, hlater⟩
    | index value =>
      rw [renderChain]
      exact List.forall_mem_cons.2 ⟨hvalues value List.mem_cons_self s .value hs, hlater⟩

theorem traced_renderItems (h : style.Tells k) (hs : s.style = style)
    (hnodes : ∀ node ∈ nodes, node.PrintsTraced style k) :
    ∀ f ∈ renderItems s i nodes, f.Traced style k := by
  induction nodes generalizing i with
  | nil => simp [renderItems]
  | cons node nodes ih =>
    obtain ⟨hnode, hnodes⟩ := List.forall_mem_cons.1 hnodes
    have harrow : isLead (toString i ++ " => ") = true := by
      have hdollar : '$' ∉ Nat.toDigits 10 i :=
        fun hmem => absurd (Nat.isDigit_of_mem_toDigits (by decide) (by decide) hmem) (by decide)
      simp [isLead, List.getLast?_append, hdollar, dividers]
    rw [renderItems]
    exact List.forall_mem_cons.2 ⟨(hnode s .value hs).behind h harrow, ih hnodes⟩

theorem traced_renderEntries {entries : List (Literal × Node)} (h : style.Tells k)
    (hs : s.style = style) (hkeys : ∀ entry ∈ entries, (plain (literal entry.1)).Traced style k)
    (hvalues : ∀ entry ∈ entries, entry.2.PrintsTraced style k) :
    ∀ f ∈ renderEntries s entries, f.Traced style k := by
  induction entries with
  | nil => simp [renderEntries]
  | cons entry entries ih =>
    obtain ⟨key, value⟩ := entry
    obtain ⟨hkey, hlaterKeys⟩ := List.forall_mem_cons.1 hkeys
    obtain ⟨hvalue, hlater⟩ := List.forall_mem_cons.1 hvalues
    rw [renderEntries]
    exact List.forall_mem_cons.2
      ⟨hkey.linked (hvalue s .value hs) h (by decide), ih hlaterKeys hlater⟩

end Php

namespace Node.PrintsTraced

open Fragment

variable (h : style.Tells k)
include h

theorem «variable» {span : Span} (hname : IsPlainName name)
    (hkeys : ∀ key, .property key ∈ chain → (plain (Php.literal key)).Traced style k)
    (hvalues : ∀ value, .index value ∈ chain → value.PrintsTraced style k) :
    (Node.variable ⟨name, chain, scope, span⟩).PrintsTraced style k := by
  intro s place hs
  have hbase := traced_varName h hs hname scope
  have hchain := traced_renderChain hs hkeys hvalues
  have hvalue : (if chain.isEmpty then s.varName name scope
      else callUserFunc (s.style.helper .dot :: s.varName name scope :: renderChain s chain)).Traced
        style k := by
    split
    next => exact hbase
    next =>
      refine traced_callUserFunc h ?_
      simp only [List.forall_mem_cons, hs]
      exact ⟨traced_helper h .dot, hbase, hchain⟩
  simp only [render]
  refine traced_close h ?_ place
  cases place with
  | parameter => exact hbase
  | target =>
    have hkey : ∀ f ∈ (renderChain s chain).map
        (fun key : Fragment => ("[" ++ key ++ "]" : Fragment)),
          (f.Traced style k ∧ f.Ends) ∧ f.Opens := by
      intro f hf
      obtain ⟨key, hmem, rfl⟩ := List.mem_map.1 hf
      exact ⟨⟨(hchain key hmem).bracketed h, ends_lead _ (by decide)⟩,
        opens_enclosed _ _ (by decide)⟩
    refine hbase.followedBy ⟨(traced_concat h fun f hf => (hkey f hf).1).1, ?_⟩
    exact concat_of opens_empty (fun _ _ hf hg => hf.append hg) fun f hf => (hkey f hf).2
  | value => exact hvalue
  | statement => exact hvalue

theorem binary {left right : Node} {span : Span} (hop : op ∈ operators)
    (hleft : left.PrintsTraced style k) (hright : right.PrintsTraced style k) :
    (Node.binary op left right span).PrintsTraced style k := by
  have hclosed : ∀ op ∈ operators, isLink (" " ++ op ++ " ") = true := by decide +kernel
  intro s place hs
  simp only [render]
  refine traced_close h ?_ place
  exact (hleft s .value hs).linked (hright s .value hs) h (hclosed op hop)

theorem branch {node : Node} (hs : s.style = style) (hnode : node.PrintsTraced style k) :
    (Php.branch node (render s .value node)).Traced style k := by
  unfold Php.branch
  split
  next => exact (hnode s .value hs).parenthesized h
  next => exact hnode s .value hs

theorem ternary {condition whenTrue whenFalse : Node} {span : Span}
    (hcondition : condition.PrintsTraced style k) (htrue : whenTrue.PrintsTraced style k)
    (hfalse : whenFalse.PrintsTraced style k) :
    (Node.ternary condition whenTrue whenFalse span).PrintsTraced style k := by
  intro s place hs
  simp only [render]
  refine traced_close h ?_ place
  have hfront := (hcondition s .value hs).linked (htrue.branch h hs) h (w := " ? ") (by decide)
  exact hfront.linked (hfalse.branch h hs) h (by decide)

theorem assign {target value : Node} {span : Span} (hop : isAssignmentOperator op = true)
    (htarget : target.PrintsTraced style k) (hvalue : value.PrintsTraced style k) :
    (Node.assign op target value span).PrintsTraced style k := by
  have hclosed : ∀ op ∈ assignmentOperators, isLink (" " ++ op ++ " ") = true := by decide +kernel
  intro s place hs
  have hwritten : (if place = .parameter then "=" else op) ∈ assignmentOperators := by
    split
    next => decide
    next => exact List.contains_iff_mem.1 hop
  simp only [render]
  refine traced_close h ?_ place
  exact (htarget s .target hs).linked (hvalue s .value hs) h (hclosed _ hwritten)

theorem call {callee : Node} {span : Span} (hcallee : callee.PrintsTraced style k)
    (harguments : ∀ argument ∈ arguments, argument.PrintsTraced style k)
    (hname : (plain (calleeName callee)).Traced style k) :
    (Node.call callee arguments span).PrintsTraced style k := by
  intro s place hs
  have hrendered := traced_renderNodes hs harguments .value
  simp only [render]
  refine traced_close h ?_ place
  split
  next =>
    exact hname.followedBy
      ⟨(traced_list h hrendered).parenthesized h, opens_enclosed _ _ (by decide)⟩
  next => exact traced_callUserFunc h (List.forall_mem_cons.2 ⟨hcallee s .value hs, hrendered⟩)

theorem group {g : Group} (hitems : ∀ item ∈ g.items, item.PrintsTraced style k) :
    (Node.group g).PrintsTraced style k := by
  intro s place hs
  have hseparator : isLink g.separator.text = true := by cases g.separator <;> decide
  have hrendered := traced_renderNodes hs hitems .value
  cases g
  simp only [render]
  exact traced_close h ((traced_join h hseparator hrendered).parenthesized h) place

theorem list {span : Span} (hitems : ∀ item ∈ items, item.PrintsTraced style k) :
    (Node.list items span).PrintsTraced style k := by
  intro s place hs
  simp only [render]
  exact traced_close h ((traced_list h (traced_renderItems h hs hitems)).bracketed h) place

theorem record {entries : List (Literal × Node)} {span : Span}
    (hkeys : ∀ entry ∈ entries, (plain (Php.literal entry.1)).Traced style k)
    (hvalues : ∀ entry ∈ entries, entry.2.PrintsTraced style k) :
    (Node.record entries span).PrintsTraced style k := by
  intro s place hs
  simp only [render]
  exact traced_close h ((traced_list h (traced_renderEntries h hs hkeys hvalues)).bracketed h) place

theorem leading {operand : Node} {span : Span} (hop : isLeadingOperator op = true)
    (hoperand : operand.PrintsTraced style k) :
    (Node.unary op operand .leading span).PrintsTraced style k := by
  have hclosed : ∀ op ∈ leadingOperators, op ≠ "typeof" → op ≠ "void" → op ≠ "delete" →
      isLead op = true := by decide
  intro s place hs
  have hvalue := hoperand s .value hs
  have htarget := hoperand s .target hs
  simp only [render]
  refine traced_close h ?_ place
  by_cases htypeof : op = "typeof"
  · rw [if_pos htypeof, hs]
    exact traced_callUserFunc h (by simpa using ⟨traced_helper h .typeof, hvalue⟩)
  by_cases hvoid : op = "void"
  · rw [if_neg htypeof, if_pos hvoid]
    exact hvalue.enclosed h (by decide) (by decide)
  by_cases hdelete : op = "delete"
  · rw [if_neg htypeof, if_neg hvoid, if_pos hdelete]
    exact htarget.enclosed h (by decide) (by decide)
  have hlead := hclosed op (List.contains_iff_mem.1 hop) htypeof hvoid hdelete
  rw [if_neg htypeof, if_neg hvoid, if_neg hdelete]
  split
  next => exact htarget.behind h hlead
  next =>
    have hword := traced_of_isLead h hlead
    have hfront : (plain op ++ plain
        (if gluesTo op (render s .value operand).text then " " else "")).Traced style k ∧
          (plain op ++ plain (if gluesTo op (render s .value operand).text then " "
            else "")).Ends := by
      split
      next => exact ⟨hword.before h (by decide), ends_lead _ (by decide)⟩
      next => exact ⟨hword.followedBy ⟨traced_empty h, opens_empty⟩,
        (ends_of_isLead hlead).append ends_empty⟩
    exact hfront.1.append hvalue (apart_of_ends hfront.2 _)

theorem trailing {operand : Node} {span : Span} (hop : isStepOperator op = true)
    (hoperand : operand.PrintsTraced style k) :
    (Node.unary op operand .trailing span).PrintsTraced style k := by
  have hword : isTail op = true ∧ op ≠ "typeof" ∧ op ≠ "void" ∧ op ≠ "delete" := by
    simp only [isStepOperator, Bool.or_eq_true, beq_iff_eq] at hop
    rcases hop with rfl | rfl <;> decide
  obtain ⟨htail, htypeof, hvoid, hdelete⟩ := hword
  intro s place hs
  simp only [render, htypeof, hvoid, hdelete, if_false]
  exact traced_close h ((hoperand s .target hs).before h htail) place

end Node.PrintsTraced

section

variable {tokens : List Token} {node : Node} {b : Block}

theorem Node.AllMade.isPlainName (hall : node.AllMade tokens)
    (htokens : ∀ t ∈ tokens, t.Harmless reserved chars) (hbelow : Below node roles (.variable v)) :
    IsPlainName v.name := by
  obtain ⟨t, hmem, hkind, heq⟩ := hall.exists_token hbelow
  exact heq ▸ (htokens t hmem).isPlainName hkind

theorem Php.traced_catchBinding (h : style.Tells k) (hs : s.style = style)
    (htokens : ∀ t ∈ tokens, t.Harmless reserved chars)
    (hheader : ∀ node ∈ header, Node.AllMade tokens node) :
    (catchBinding s header).Traced style k ∧ (catchBinding s header).Opens := by
  unfold catchBinding
  split
  next g =>
    split
    next name scope hname =>
      obtain ⟨item, hitem, hname⟩ := Option.bind_eq_some_iff.1 hname
      have hpart : (Role.plain, item) ∈ (Node.group g).parts :=
        List.mem_map.2 ⟨item, List.mem_of_mem_head? hitem, rfl⟩
      obtain ⟨roles, v, hbelow, rfl⟩ := exists_below_of_parameterName? hname
      have hplain := Node.AllMade.isPlainName ((hheader _ rfl).part hpart) htokens hbelow
      exact (traced_varName h hs hplain scope).appended h (by decide)
    next => exact ⟨Fragment.traced_empty h, Fragment.opens_empty⟩
  next => exact ⟨Fragment.traced_empty h, Fragment.opens_empty⟩

/-- A parameter with a default value is no part of its function, but its target and its value
are. -/
theorem Node.traced_parameter {f : Block} (h : style.Tells k) (hs : s.style = style)
    (hmade : Made tokens node) (hparts : ∀ entry ∈ f.parameterParts node,
      entry.2.PrintsTraced style k) :
    (render s .parameter node).Traced style k := by
  cases node with
  | assign op target value span =>
    simp only [Block.parameterParts, List.forall_mem_cons] at hparts
    obtain ⟨htarget, hvalue, -⟩ := hparts
    cases hmade with
    | assign hop => exact PrintsTraced.assign h hop htarget hvalue s .parameter hs
  | _ => exact hparts (.pattern f, _) List.mem_cons_self s .parameter hs

theorem Node.AllMade.traced_inside (h : style.Tells k) (hs : s.style = style)
    (hall : (Node.block b).AllMade tokens) (htokens : ∀ t ∈ tokens, t.Harmless reserved chars)
    (hparts : ∀ entry ∈ b.parts, entry.2.PrintsTraced style k) :
    Inside.Traced style k s b
      ⟨(renderHeader · b.header), (renderParameters · b.header),
        (renderNodes · .statement b.body)⟩ := by
  have hlexed : ∀ t ∈ tokens, ∃ pre, t.Lexed reserved chars pre := fun t ht => (htokens t ht).lexed
  have hbody : ∀ node ∈ b.body, node.PrintsTraced style k := by
    intro node hnode
    obtain ⟨role, hpart⟩ := Block.exists_part_of_mem_body hnode
    exact hparts _ hpart
  refine ⟨hs, ?keyword, ?name, ?captured, ?parameters, ?binding, ?header,
    fun inner hinner => traced_renderNodes hinner hbody .statement⟩
  case keyword =>
    have hclosed : ∀ word ∈ "function" :: keywords, word.toList.contains '$' = false := by decide
    exact hclosed _ (hall.here.mem_keywords hlexed)
  case name =>
    intro hkind name hname
    obtain ⟨t, hmem, hvariable, rfl⟩ := (hall.here.of_function hkind hlexed).1 name hname
    exact (htokens t hmem).isPlainName hvariable
  case captured =>
    intro _ capture hcapture
    obtain ⟨roles, v, hbelow, -, rfl⟩ := mem_captures.1 hcapture
    exact hall.isPlainName htokens hbelow
  case parameters =>
    intro hkind f hf
    obtain ⟨-, ⟨items, separator, span⟩, hgroup, hitems⟩ := hall.here.of_function hkind hlexed
    simp only [hgroup, renderParameters, renderNodes_eq_map] at hf
    obtain ⟨item, hitem, rfl⟩ := List.mem_map.1 hf
    have hparameter : item ∈ b.parameters := by simp [Block.parameters, hkind, hgroup, hitem]
    exact item.traced_parameter h hs (hitems item hitem).2 fun entry hentry =>
      hparts entry (Block.mem_parts_of_parameter hkind hparameter hentry)
  case binding =>
    intro hkind
    exact traced_catchBinding h hs htokens fun node hnode =>
      hall.part (Block.mem_parts_of_header hkind hnode)
  case header =>
    intro hkind f hf
    cases hnode : b.header with
    | none => simp [hnode, renderHeader] at hf
    | some node =>
      simp only [hnode, renderHeader, Option.mem_some_iff] at hf
      subst hf
      exact hparts _ (Block.mem_parts_of_header hkind hnode) s .value hs

/-- In a script without strings that does not name the table of globals, every node is printed with
the references that it says. -/
theorem Node.AllMade.printsTraced (h : style.Tells k)
    (htokens : ∀ t ∈ tokens, t.Harmless reserved chars) (hall : node.AllMade tokens) :
    node.PrintsTraced style k := by
  induction node using Node.induction_on_parts with
  | h node ih =>
    have hparts : ∀ entry ∈ node.parts, entry.2.PrintsTraced style k :=
      fun entry hentry => ih entry hentry (hall.part hentry)
    cases hall.here with
    | literal hmem hliteral =>
      intro s place hs
      simp only [render]
      exact traced_close h ((htokens _ hmem).traced_literal h hliteral) place
    | null =>
      intro s place hs
      simp only [render]
      exact traced_close h (Fragment.traced_word h "null" (by decide)) place
    | «variable» hmem hkind hkeys =>
      refine .variable h ((htokens _ hmem).isPlainName hkind) (fun key hkey => ?_)
        (fun value hvalue => ?_)
      · obtain ⟨t, ht, rfl⟩ := hkeys key hkey
        exact (htokens t ht).traced_quoted h _
      · exact hparts (.plain, value)
          (List.mem_map.2 ⟨value, List.mem_filterMap.2 ⟨_, hvalue, rfl⟩, rfl⟩)
    | binary hmem hop =>
      obtain ⟨pre, hlexed⟩ := (htokens _ hmem).lexed
      have hoperator := (hlexed.operator (Token.kind_of_isInfix hop)).1
      exact .binary h hoperator (hparts (.plain, _) (by simp [parts]))
        (hparts (.plain, _) (by simp [parts]))
    | ternary =>
      exact .ternary h (hparts (.plain, _) (by simp [parts])) (hparts (.plain, _) (by simp [parts]))
        (hparts (.plain, _) (by simp [parts]))
    | assign hop =>
      exact .assign h hop (hparts (.plain, _) (by simp [parts]))
        (hparts (.plain, _) (by simp [parts]))
    | @call _ callee =>
      refine .call h (hparts (.callee, _) (by simp [parts])) (fun argument hargument => ?_) ?_
      · exact hparts (.plain, argument)
          (List.mem_cons_of_mem _ (List.mem_map.2 ⟨argument, hargument, rfl⟩))
      · cases callee with
        | «variable» v =>
          exact Fragment.traced_name h (hall.isPlainName htokens
            (.inside List.mem_cons_self (.here (.variable v))))
        | _ => exact Fragment.traced_empty h
    | group =>
      exact .group h fun item hitem => hparts (.plain, item) (List.mem_map.2 ⟨item, hitem, rfl⟩)
    | list =>
      exact .list h fun item hitem => hparts (.plain, item) (List.mem_map.2 ⟨item, hitem, rfl⟩)
    | record hkeys =>
      refine .record h (fun entry hentry => ?_)
        (fun entry hentry => hparts (.plain, entry.2) (List.mem_map.2 ⟨entry, hentry, rfl⟩))
      obtain ⟨t, ht, hkey⟩ := hkeys entry hentry
      exact (htokens t ht).traced_recordKey h hkey
    | leading hop => exact .leading h hop (hparts (.plain, _) (by simp [parts]))
    | trailing hop => exact .trailing h hop (hparts (.plain, _) (by simp [parts]))
    | function | returning | keyword =>
      intro s place hs
      rw [render_block]
      exact (hall.traced_inside h hs htokens hparts).renderBlock h place

end

end

end ScriptToPhp
