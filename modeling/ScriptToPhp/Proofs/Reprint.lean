import ScriptToPhp.Php.Printer
import ScriptToPhp.Proofs.PlainTree
import ScriptToPhp.Proofs.ReadingSound

/-!
# Printed order

A plain script is printed in the order of its tokens: scanned again, its PHP has the tokens of the
source, names and literals as PHP writes them, grouping and separating marks apart. So PHP's
precedence applies to the same sequence of operands and operators.
-/

namespace ScriptToPhp

open Text

-- ---------------------------------------------------------------------------
-- Fragments
-- ---------------------------------------------------------------------------

namespace Php.Fragment

@[simp] theorem text_append (f g : Fragment) : (f ++ g).text = f.text ++ g.text := rfl
@[simp] theorem text_plain : (plain content).text = content := rfl
@[simp] theorem text_concat_nil : (concat []).text = "" := rfl
@[simp] theorem text_empty : empty.text = "" := rfl
@[simp] theorem text_parenthesized (f : Fragment) :
    f.parenthesized.text = "(" ++ f.text ++ ")" := rfl

end Php.Fragment

open Php

-- ---------------------------------------------------------------------------
-- Nodes
-- ---------------------------------------------------------------------------

theorem Plain.eq_variable (h : Plain [node] ts) (hnode : node.isAssignable = true) :
    ∃ t span, ts = [t] ∧ t.kind = .variable ∧ node = .variable ⟨t.text, [], none, span⟩ := by
  cases h with
  | name hkind => exact ⟨_, _, rfl, hkind, rfl⟩
  | _ => simp [Node.isAssignable] at hnode

theorem Token.Lexed.operator {t : Token} (h : t.Lexed reserved chars pre)
    (ht : t.kind = .operator) :
    t.value ∈ operators ∧ t.phpLexeme = (.operator, t.value) := by
  have hvalue : t.value = t.text := by simp [h.value, ht]
  refine ⟨?_, by simp [phpLexeme, literal?, ht, hvalue]⟩
  obtain ⟨post, hmatcher⟩ := h.matcher
  rw [ht] at hmatcher
  rw [hvalue]
  exact Matcher.mem_of_longest hmatcher

theorem Token.phpLexeme_colon {t : Token} (h : t.isMark ':' = true) :
    t.phpLexeme = (.punctuation, ":") := by
  obtain ⟨hkind, htext⟩ := isMark_iff.1 h
  simp [phpLexeme, literal?, hkind, htext]

/-- The nodes, rendered one behind the other, are read as their tokens, and none begins with an
equals sign. -/
structure Rendered (s : Setting) (nodes : List Node) (ts : List Token) : Prop where
  reads : ∀ separator : Separator,
    Reads (Fragment.join separator.text (renderNodes s .value nodes)).text ts
  opens : ∀ node ∈ nodes, ∃ c cs, (render s .value node).text.toList = c :: cs ∧ c ≠ '='

theorem opens_append {left right : List Char} (h : ∃ c cs, left = c :: cs ∧ c ≠ '=') :
    ∃ c cs, left ++ right = c :: cs ∧ c ≠ '=' := by
  obtain ⟨c, cs, rfl, hc⟩ := h
  exact ⟨c, cs ++ right, rfl, hc⟩

theorem Rendered.single (h : Rendered s [node] ts) : Reads (render s .value node).text ts := by
  simpa [renderNodes, Fragment.join] using h.reads .comma

theorem rendered_of_reads (h : Reads (render s .value node).text ts)
    (hopens : ∃ c cs, (render s .value node).text.toList = c :: cs ∧ c ≠ '=') :
    Rendered s [node] ts where
  reads separator := by simpa [renderNodes, Fragment.join] using h
  opens := by simpa using hopens

theorem Reads.joined (h : Reads left ts) (h' : Reads right ts') (separator : Separator) :
    Reads (left ++ separator.text ++ right) (ts ++ ts') := by
  cases separator with
  | comma => exact h.separated (.inl rfl) h'
  | semicolon => exact h.separated (.inr rfl) h'

theorem Reads.branch (h : Reads (render s .value node).text ts) :
    Reads (Php.branch node (render s .value node)).text ts := by
  unfold Php.branch
  split
  · exact h.parenthesized
  · exact h

theorem opens_leading (hop : op ∈ ["~", "!", "-", "+", "--", "++"]) :
    ∃ c cs, op.toList = c :: cs ∧ c ≠ '=' := by
  simp only [List.mem_cons, List.not_mem_nil, or_false] at hop
  rcases hop with rfl | rfl | rfl | rfl | rfl | rfl <;> exact ⟨_, _, rfl, by decide⟩

theorem text_leading (hop : op ∈ ["~", "!", "-", "+", "--", "++"])
    (hstep : isStepOperator op = true → ∃ name span, operand = .variable ⟨name, [], none, span⟩) :
    (render s .value (.unary op operand .leading span)).text =
      op ++ (if gluesTo op (render s .value operand).text then " " else "") ++
        (render s .value operand).text := by
  have hword : op ≠ "typeof" ∧ op ≠ "void" ∧ op ≠ "delete" := by
    clear hstep
    revert op
    decide
  cases hs : isStepOperator op with
  | false => simp [render, Place.close, hword, hs]
  | true =>
    obtain ⟨name, span, rfl⟩ := hstep hs
    simp [render, renderChain, Place.close, hword, hs, gluesTo, Setting.varName, Style.phpVariable]

theorem text_trailing (hop : isStepOperator op = true) :
    (render s .value (.unary op (.variable ⟨name, [], none, span⟩) .trailing span')).text =
      "$" ++ Style.bareName name ++ op := by
  have hword : op ≠ "typeof" ∧ op ≠ "void" ∧ op ≠ "delete" := by
    simp only [isStepOperator, Bool.or_eq_true, beq_iff_eq] at hop
    rcases hop with rfl | rfl <;> decide
  simp [render, renderChain, Place.close, hword, Setting.varName, Style.phpVariable]

theorem Plain.rendered (h : Plain nodes ts) (hts : ∀ t ∈ ts, ∃ pre, t.Lexed reserved chars pre)
    (hchars : '\r' ∉ chars) (s : Setting) : Rendered s nodes ts := by
  -- Along with its reading, every text keeps that it does not begin with an equals sign: `! =`
  -- would be read as `!=`.
  induction h with
  | nil => exact ⟨fun _ => by simpa [renderNodes, Fragment.join] using Reads.empty, by simp⟩
  | cons _ _ ih ih' =>
    simp only [List.mem_append, or_imp, forall_and] at hts
    have hnode := ih hts.1
    have hnodes := ih' hts.2
    refine ⟨fun separator => ?_, ?_⟩
    · simpa [renderNodes, Fragment.join] using hnode.single.joined
        (hnodes.reads separator) separator
    · intro node hmem
      rcases List.mem_cons.1 hmem with rfl | hmem
      · exact hnode.opens _ List.mem_cons_self
      · exact hnodes.opens _ hmem
  | literal hliteral =>
    obtain ⟨pre, hlexed⟩ := hts _ List.mem_cons_self
    refine rendered_of_reads ?_ ?_
    · simpa [render, Place.close] using Reads.literal hlexed hliteral hchars
    · simpa [render, Place.close] using (hlexed.isLiteralText hliteral).head_ne
  | name hkind =>
    obtain ⟨pre, hlexed⟩ := hts _ List.mem_cons_self
    refine rendered_of_reads ?_ ?_
    · simpa [render, Place.close, Setting.varName,
        Style.phpVariable] using Reads.name hlexed hkind hchars
    · simp [render, Place.close, Setting.varName, Style.phpVariable]
  | binary hkind _ _ ih ih' =>
    simp only [List.mem_append, List.mem_cons, or_imp, forall_and, forall_eq] at hts
    obtain ⟨hleft, ⟨pre, hlexed⟩, hright⟩ := hts
    obtain ⟨hop, hlexeme⟩ := hlexed.operator (Token.kind_of_isInfix hkind)
    refine rendered_of_reads ?_ ?_
    · simpa [render, Place.close] using (ih hleft).single.operator hop hlexeme (ih' hright).single
    · simpa [render, Place.close] using opens_append ((ih hleft).opens _ List.mem_cons_self)
  | ternary hmark hcolon _ _ _ ih ih' ih'' =>
    simp only [List.mem_append, List.mem_cons, or_imp, forall_and, forall_eq] at hts
    obtain ⟨⟨hcondition, ⟨pre, hlexed⟩, htrue⟩, -, hfalse⟩ := hts
    obtain ⟨hkind, hvalue⟩ := Token.isOperator_iff.1 hmark
    have hlexeme := (hlexed.operator hkind).2
    rw [hvalue] at hlexeme
    refine rendered_of_reads ?_ ?_
    · simpa [render, Place.close] using (ih hcondition).single.ternary hlexeme
        (Token.phpLexeme_colon hcolon)
        (ih' htrue).single.branch (ih'' hfalse).single.branch
    · simpa [render, Place.close] using opens_append ((ih hcondition).opens _ List.mem_cons_self)
  | assign hkind hassignable htarget _ _ ih' =>
    simp only [List.mem_append, List.mem_cons, or_imp, forall_and, forall_eq] at hts
    obtain ⟨hleft, ⟨pre, hlexed⟩, hright⟩ := hts
    obtain ⟨hop, hlexeme⟩ := hlexed.operator (Token.isAssignment_iff.1 hkind).1
    obtain ⟨t, span, rfl, hname, rfl⟩ := htarget.eq_variable hassignable
    obtain ⟨pre, hlexed⟩ := hleft t List.mem_cons_self
    refine rendered_of_reads ?_ ?_
    · simpa [render, Place.close, Setting.varName, Style.phpVariable, renderChain,
        Fragment.concat] using
        (Reads.name hlexed hname hchars).operator hop hlexeme (ih' hright).single
    · simp [render, Place.close, Setting.varName, Style.phpVariable]
  | group _ ih =>
    refine rendered_of_reads ?_ ?_
    · simpa [render, Place.close] using ((ih hts).reads _).parenthesized
    · simp [render, Place.close]
  | @leading operand _ _ t hkind hop hassignable hplain ih =>
    simp only [List.mem_cons, or_imp, forall_and, forall_eq] at hts
    obtain ⟨⟨pre, hlexed⟩, hoperand⟩ := hts
    obtain ⟨-, hlexeme⟩ := hlexed.operator hkind
    have hnode := ih hoperand
    -- A step prints the name it changes itself, so that its operand has to be a name.
    have hname : isStepOperator t.value = true →
        ∃ name span, operand = .variable ⟨name, [], none, span⟩ := by
      intro hstep
      obtain ⟨u, span, -, -, rfl⟩ := hplain.eq_variable (hassignable hstep)
      exact ⟨_, _, rfl⟩
    refine rendered_of_reads ?_ ?_
    · rw [text_leading hop hname]
      exact Reads.leading hop hlexeme (hnode.opens _ List.mem_cons_self) hnode.single
    · rw [text_leading hop hname]
      simpa using opens_append (opens_append (opens_leading hop))
  | trailing hkind hstep hassignable hplain =>
    simp only [List.mem_append, List.mem_cons, List.not_mem_nil, or_false, or_imp, forall_and,
      forall_eq] at hts
    obtain ⟨hoperand, ⟨pre, hlexed⟩⟩ := hts
    obtain ⟨-, hlexeme⟩ := hlexed.operator hkind
    obtain ⟨t, span, rfl, hname, rfl⟩ := hplain.eq_variable hassignable
    obtain ⟨pre, hlexed⟩ := hoperand t List.mem_cons_self
    refine rendered_of_reads ?_ ?_
    · rw [text_trailing hstep]
      exact Reads.trailing hlexed hname hchars hstep hlexeme
    · rw [text_trailing hstep]
      simp

-- ---------------------------------------------------------------------------
-- Statements
-- ---------------------------------------------------------------------------

theorem Plain.split (h : Plain (node :: nodes) ts) :
    ∃ us us', ts = us ++ us' ∧ Plain [node] us ∧ Plain nodes us' := by
  cases nodes with
  | nil => exact ⟨ts, [], by simp, h, .nil⟩
  | cons =>
    cases h with
    | cons hnode hnodes => exact ⟨_, _, rfl, hnode, hnodes⟩

theorem Plain.text_statement (h : Plain [node] ts) :
    (render s .statement node).text = (render s .value node).text ++ ";" := by
  cases h <;> simp [render, Place.close]

theorem Plain.stays (h : Plain nodes ts) :
    ∀ node ∈ nodes, isLabel node = false ∧ isNamedFunction node = false := by
  induction h <;> grind [isLabel, isNamedFunction]

theorem hoisted_eq_self (h : ∀ node ∈ body, isLabel node = false ∧ isNamedFunction node = false)
    (hlength : ls.length = body.length) : hoisted body ls = ls := by
  have hlabel : body.any isLabel = false := by
    rw [List.any_eq_false]
    exact fun node hnode => by simp [(h node hnode).1]
  have hfirst : (body.zip ls).filter (isNamedFunction ·.1) = [] := by
    rw [List.filter_eq_nil_iff]
    exact fun line hline => by simp [(h _ (List.of_mem_zip hline).1).2]
  have hrest : (body.zip ls).filter (!isNamedFunction ·.1) = body.zip ls := by
    rw [List.filter_eq_self]
    exact fun line hline => by simp [(h _ (List.of_mem_zip hline).1).2]
  simp only [hoisted, hlabel, hfirst, hrest, Bool.false_eq_true, ↓reduceIte, List.nil_append]
  exact List.map_snd_zip (Nat.le_of_eq hlength)

theorem length_renderNodes : (renderNodes s place nodes).length = nodes.length := by
  induction nodes with
  | nil => rfl
  | cons node nodes ih => simp [renderNodes, ih]

theorem Reads.line (h : Reads text ts) (h' : Reads rest ts') :
    Reads (text ++ ";" ++ "\n" ++ rest) (ts ++ ts') where
  spells cs ls hcs hspells := by
    have hrest := (h'.spells cs ls hcs hspells).newline
    simpa using h.spells _ _ (stopped_cons rfl) (hrest.grouping (c := ';') (by simp))
  clean := by simp [h.clean, h'.clean]

/-- The lines of plain statements are read as their tokens. -/
theorem Plain.reads_lines (h : Plain nodes ts) (hts : ∀ t ∈ ts, ∃ pre, t.Lexed reserved chars pre)
    (hchars : '\r' ∉ chars) (hlevel : s.level = 0) (hnewline : s.style.newline = "\n") :
    Reads (Fragment.concat (Php.lines s (renderNodes s .statement nodes))).text ts := by
  induction nodes generalizing ts with
  | nil =>
    cases h
    exact Reads.empty
  | cons node nodes ih =>
    obtain ⟨us, us', rfl, hnode, hnodes⟩ := h.split
    simp only [List.mem_append, or_imp, forall_and] at hts
    have hline := (hnode.rendered hts.1 hchars s).single.line (ih hnodes hts.2)
    simpa [Php.lines, renderNodes, Setting.indentation, Setting.newline, Style.indentation,
      hlevel, hnewline, hnode.text_statement, Fragment.concat] using hline

-- ---------------------------------------------------------------------------
-- Scripts
-- ---------------------------------------------------------------------------

theorem Text.not_mem_normalizeLines (cs : List Char) : '\r' ∉ normalizeLines cs := by
  fun_induction normalizeLines cs <;> grind

theorem Text.normalizeLines_eq_self (h : '\r' ∉ cs) : normalizeLines cs = cs := by
  fun_induction normalizeLines cs <;> simp_all

theorem Script.unkeyed_start {source : Source}
    (h : ∀ t ∈ source.tokens options.reserved, t.kind ≠ .keyword) :
    (start options source).Unkeyed :=
  Cursor.unkeyed_enter.2 ⟨h, fun _ _ => rfl⟩

/-- A script without keywords that is read as plain statements is made of the tokens of its text. -/
theorem Script.plain_of_parse {source : Source} {script : Script}
    (h : parse options source = .ok script)
    (hkeywords : ∀ t ∈ source.tokens options.reserved, t.kind ≠ .keyword)
    (hplain : arePlain script.root.body = true) :
    Plain script.root.body (ungrouped (source.tokens options.reserved)) := by
  obtain ⟨statements, c, hderives, -, hroot⟩ := derives_of_parse h
  have hbody : script.root.body = statements := by simp [hroot, Block.ofKind]
  rw [hbody] at hplain ⊢
  obtain ⟨us, hus, heq⟩ := hderives.madeOf (unkeyed_start hkeywords) hplain
  rw [hderives.rest_eq_nil] at heq
  have htokens : ungrouped (source.tokens options.reserved) = us := heq.trans (List.append_nil us)
  rwa [htokens]

theorem Plain.reads_script (h : Plain root.body ts)
    (hts : ∀ t ∈ ts, ∃ pre, t.Lexed reserved chars pre) (hchars : '\r' ∉ chars)
    (options : Options) :
    Reads ((Printer.ofStyle (.ofOptions options)).printScript root).1 ts := by
  let setting : Setting := ⟨.ofOptions options, functionNames root, 0⟩
  have hlines := h.reads_lines hts hchars (s := setting) rfl rfl
  have hhoisted : hoisted root.body
      (Php.lines setting (renderNodes setting .statement root.body)) = _ :=
    hoisted_eq_self h.stays (by simp [Php.lines, length_renderNodes])
  rwa [← hhoisted] at hlines

/-- The PHP of a plain script keeps the tokens of the script in their order: it is scanned without a
fault, and apart from marks that group and separate, its tokens are those of the script, each as PHP
writes it. -/
theorem Script.reprint_keeps_tokens {options : Options} {path content : String} {script : Script}
    (printing : Options) (label : String) (h : parse options (.ofText path content) = .ok script)
    (hkeywords : ∀ t ∈ (Source.ofText path content).tokens options.reserved, t.kind ≠ .keyword)
    (hplain : arePlain script.root.body = true) :
    let printed := ((Printer.ofStyle (.ofOptions printing)).printScript script.root).1
    let again := Source.ofText label printed
    (again.scan ⟨"", ""⟩).fault = none ∧
      (ungrouped (again.tokens ⟨"", ""⟩)).map Token.lexeme =
        (ungrouped ((Source.ofText path content).tokens options.reserved)).map Token.phpLexeme := by
  intro printed again
  have hreads : Reads printed (ungrouped ((Source.ofText path content).tokens options.reserved)) :=
    (plain_of_parse h hkeywords hplain).reads_script
      (fun t ht => (Source.mem_tokens (List.mem_of_mem_filter ht)).2)
        (not_mem_normalizeLines _) printing
  have hchars : again.chars = printed.toList := normalizeLines_eq_self hreads.clean
  have hspells := hreads.spells [] [] trivial .nil
  rw [List.append_nil, List.append_nil, ← hchars] at hspells
  obtain ⟨hfault, hlexemes⟩ := hspells 0
  exact ⟨hfault, lexemes_meaningfulAfter.trans hlexemes⟩

/-- Signs that must stay apart, an octal number and a string that changes its quotes. -/
theorem Script.reprint_keeps_tokens_signs :
    ∃ script, parse {} (.ofText "" "x = - -$a ? 0o7 : ('\\t', b--)") = .ok script ∧
      arePlain script.root.body = true ∧
      (ungrouped
        ((Source.ofText "" ((Printer.ofStyle (.ofOptions {})).printScript script.root).1).tokens
        ⟨"", ""⟩)).map (·.lexeme.2) =
        ["$x", "=", "-", "-", "$a", "?", "07", ":", "\"\\t\"", "$b", "--"] := by
  have hfacts : (parse {} (.ofText "" "x = - -$a ? 0o7 : ('\\t', b--)")).toOption.any
        (fun script => arePlain script.root.body) = true ∧
      (∀ t ∈ (Source.ofText "" "x = - -$a ? 0o7 : ('\\t', b--)").tokens (Options.reserved {}),
        t.kind ≠ .keyword) ∧
      ((ungrouped ((Source.ofText "" "x = - -$a ? 0o7 : ('\\t', b--)").tokens
        (Options.reserved {}))).map
        Token.phpLexeme).map (·.2) =
        ["$x", "=", "-", "-", "$a", "?", "07", ":", "\"\\t\"", "$b", "--"] := by decide +kernel
  obtain ⟨hparse, hkeywords, hlexemes⟩ := hfacts
  obtain ⟨script, h, hplain⟩ := exists_of_any_parse hparse
  obtain ⟨-, hagain⟩ := reprint_keeps_tokens {} "" h hkeywords hplain
  refine ⟨script, h, hplain, ?_⟩
  rw [← hlexemes, ← hagain]
  simp

end ScriptToPhp
