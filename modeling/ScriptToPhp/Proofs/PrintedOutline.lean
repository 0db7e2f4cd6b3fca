import ScriptToPhp.Proofs.Captured
import ScriptToPhp.Proofs.Made
import ScriptToPhp.Proofs.Outline
import ScriptToPhp.Proofs.PrintedVariables

/-!
# The outline of printed code

Whatever is printed has its brackets in pairs. The marks outside of them follow from the node alone:
a value has no semicolon there, and one question mark for each ternary that stands open in it.
-/

namespace ScriptToPhp

open Text

-- ---------------------------------------------------------------------------
-- Fragments
-- ---------------------------------------------------------------------------

theorem Framed.enclosed (hpair : (o, c) ∈ [('(', ')'), ('[', ']'), ('\x7b', '\x7d')])
    (h : Framed cs q p) (hbefore : ∀ d ∈ w, isQuiet d = true)
    (hafter : ∀ d ∈ w', isQuiet d = true) :
    Framed (w ++ o :: (cs ++ c :: w')) 0 0 := by
  have hwhole := ((quiet hbefore).append (brackets hpair h)).append (quiet hafter)
  simpa using hwhole

namespace Php.Fragment

def Framed (f : Fragment) (q p : Nat) : Prop := ScriptToPhp.Framed f.text.toList q p

def Closed (f : Fragment) : Prop := ∃ q p, f.Framed q p

variable {f g : Fragment} {fs : List Fragment}

theorem Framed.closed (h : f.Framed q p) : f.Closed := ⟨q, p, h⟩

theorem Framed.append (h : f.Framed q p) (h' : g.Framed q' p') :
    (f ++ g).Framed (q + q') (p + p') := by
  rw [Framed, text_append, String.toList_append]
  exact ScriptToPhp.Framed.append h h'

theorem Framed.after (h : f.Framed q p) (h' : g.Framed 0 0) : (g ++ f).Framed q p := by
  simpa using h'.append h

theorem Framed.before (h : f.Framed q p) (h' : g.Framed 0 0) : (f ++ g).Framed q p := h.append h'

theorem Closed.append (h : f.Closed) (h' : g.Closed) : (f ++ g).Closed := by
  obtain ⟨q, p, h⟩ := h
  obtain ⟨q', p', h'⟩ := h'
  exact (h.append h').closed

theorem framed_quiet {content : String} (h : ∀ c ∈ content.toList, isQuiet c = true) :
    (plain content).Framed 0 0 :=
  .quiet h

theorem framed_word (content : String) (h : content.toList.all isQuiet = true) :
    (plain content).Framed 0 0 :=
  framed_quiet (List.all_eq_true.1 h)

theorem framed_empty : empty.Framed 0 0 := framed_word _ (by decide)

theorem framed_semicolon : (plain ";").Framed 0 1 := .semicolon

theorem framed_operator (hop : op ∈ operators) (hne : op ≠ "?") :
    (plain (" " ++ op ++ " ")).Framed 0 0 := by
  have h := ScriptToPhp.Framed.operator hop hne
  rw [Framed, text_plain, String.toList_append, String.toList_append]
  exact h

theorem Closed.enclosed {opening closing : String} (h : f.Closed)
    (hpair : (o, c) ∈ [('(', ')'), ('[', ']'), ('\x7b', '\x7d')])
    (hopening : opening.toList = w ++ [o]) (hclosing : closing.toList = c :: w')
    (hw : w.all isQuiet = true) (hw' : w'.all isQuiet = true) :
    (opening ++ f ++ closing : Fragment).Framed 0 0 := by
  obtain ⟨q, p, h⟩ := h
  have hframed := ScriptToPhp.Framed.enclosed hpair h (List.all_eq_true.1 hw)
    (List.all_eq_true.1 hw')
  rw [Framed, text_append, text_append, text_plain, text_plain, String.toList_append,
    String.toList_append, hopening, hclosing]
  simpa using hframed

theorem Closed.parenthesized (h : f.Closed) : f.parenthesized.Framed 0 0 :=
  h.enclosed (o := '(') (c := ')') (w := []) (by simp) rfl rfl rfl rfl

theorem Closed.bracketed (h : f.Closed) : ("[" ++ f ++ "]" : Fragment).Framed 0 0 :=
  h.enclosed (o := '[') (c := ']') (w := []) (by simp) rfl rfl rfl rfl

theorem Closed.braced (h : f.Closed) : ("\x7b" ++ f ++ "\x7d" : Fragment).Framed 0 0 :=
  h.enclosed (o := '\x7b') (c := '\x7d') (w := []) (by simp) rfl rfl rfl rfl

theorem concat_of {P : Fragment → Prop} (hempty : P empty) (happend : ∀ f g, P f → P g → P (f ++ g))
    (h : ∀ f ∈ fs, P f) : P (concat fs) := by
  induction fs with
  | nil => exact hempty
  | cons f fs ih =>
    obtain ⟨hf, hfs⟩ := List.forall_mem_cons.1 h
    exact happend _ _ hf (ih hfs)

theorem closed_concat (h : ∀ f ∈ fs, f.Closed) : (concat fs).Closed :=
  concat_of framed_empty.closed (fun _ _ hf hg => hf.append hg) h

theorem framed_concat (h : ∀ f ∈ fs, f.Framed 0 0) : (concat fs).Framed 0 0 :=
  concat_of framed_empty (fun _ _ hf hg => hf.before hg) h

theorem framed_join (hseparator : (plain separator).Framed 0 k) (h : ∀ f ∈ fs, ∃ q, f.Framed q 0) :
    ∃ q, (join separator fs).Framed q (k * (fs.length - 1)) := by
  induction fs with
  | nil => exact ⟨0, framed_empty⟩
  | cons f fs ih =>
    obtain ⟨⟨q, hf⟩, hfs⟩ := List.forall_mem_cons.1 h
    cases fs with
    | nil => exact ⟨q, hf⟩
    | cons g fs =>
      obtain ⟨q', hjoin⟩ := ih hfs
      have hframed := (hf.append hseparator).append hjoin
      refine ⟨q + 0 + q', ?_⟩
      rw [show 0 + k + k * ((g :: fs).length - 1) = k * ((f :: g :: fs).length - 1) by
        simp [Nat.mul_add, Nat.add_comm]] at hframed
      exact hframed

theorem closed_join (hseparator : (plain separator).Closed) (h : ∀ f ∈ fs, f.Closed) :
    (join separator fs).Closed := by
  induction fs with
  | nil => exact framed_empty.closed
  | cons f fs ih =>
    obtain ⟨hf, hfs⟩ := List.forall_mem_cons.1 h
    cases fs with
    | nil => exact hf
    | cons g fs => exact (hf.append hseparator).append (ih hfs)

theorem closed_list (h : ∀ f ∈ fs, f.Closed) : (join ", " fs).Closed :=
  closed_join (framed_word _ (by decide)).closed h

theorem framed_callUserFunc (h : ∀ f ∈ fs, f.Closed) : (callUserFunc fs).Framed 0 0 :=
  (closed_list h).enclosed (o := '(') (c := ')') (w := "call_user_func".toList)
    (by simp) rfl rfl (by decide) rfl

end Php.Fragment

open Php

-- ---------------------------------------------------------------------------
-- Names and literals
-- ---------------------------------------------------------------------------

/-- The parts of a style that are written into the text begin no mark, and the names of helpers can
be quoted. -/
structure Php.Style.Legible (style : Style) : Prop where
  varPrefix : ∀ c ∈ style.varPrefix.toList, isQuiet c = true
  indent : ∀ c ∈ style.indent.toList, isQuiet c = true
  newline : ∀ c ∈ style.newline.toList, isQuiet c = true
  helperPrefix : ∀ c ∈ style.helperPrefix.toList, c ≠ '\'' ∧ c ≠ '\\'

theorem Php.Style.legible_ofOptions : (ofOptions {}).Legible where
  varPrefix := List.all_eq_true.1 (by decide)
  indent := List.all_eq_true.1 (by decide)
  newline := List.all_eq_true.1 (by decide)
  helperPrefix := by
    have hplain : (ofOptions {}).helperPrefix.toList.all (fun c => c != '\'' && c != '\\') =
      true := by decide
    simpa using hplain

theorem isQuiet_of_continuesName (h : continuesName c = true) : isQuiet c = true :=
  isQuiet_of_class (by decide +kernel) h

theorem isQuiet_of_isDigit (h : c.isDigit = true) : isQuiet c = true :=
  isQuiet_of_class (by decide) h

def IsQuietName (name : String) : Prop := ∀ c ∈ name.toList, isQuiet c = true

theorem isQuietName_of_all {name : String} (h : name.toList.all isQuiet = true) :
    IsQuietName name := List.all_eq_true.1 h

theorem Token.Lexed.isQuietName {t : Token} (h : t.Lexed reserved chars pre)
    (ht : t.kind = .variable) :
    IsQuietName t.text :=
  fun c hc => isQuiet_of_continuesName (h.continuesName ht c hc)

theorem quiet_toString (n : Nat) : ∀ c ∈ (toString n).toList, isQuiet c = true := by
  intro c hc
  rw [Nat.toString_eq_repr, Nat.toList_repr] at hc
  exact isQuiet_of_isDigit (Nat.isDigit_of_mem_toDigits (by decide) (by decide) hc)

namespace Php

open Fragment

theorem framed_varName {s : Setting} (hs : s.style.Legible) (hname : IsQuietName name)
    (scope : Option ScopeId) :
    (plain (s.style.phpVariable name scope)).Framed 0 0 := by
  have hbare : ∀ c ∈ (Style.bareName name).toList, isQuiet c = true :=
    fun c hc => hname c (Style.mem_of_mem_bareName hc)
  refine framed_quiet ?_
  cases scope with
  | none =>
    simp only [Style.phpVariable, String.toList_append, List.forall_mem_append]
    exact ⟨List.all_eq_true.1 (by decide), hbare⟩
  | some id =>
    simp only [Style.phpVariable, String.toList_append, List.forall_mem_append]
    have hmark : ∀ c ∈ "_".toList, isQuiet c = true := List.all_eq_true.1 (by decide)
    exact ⟨⟨⟨⟨⟨List.all_eq_true.1 (by decide), hs.varPrefix⟩, hmark⟩, quiet_toString id⟩, hmark⟩,
      hbare⟩

theorem framed_indentation {s : Setting} (hs : s.style.Legible) : s.indentation.Framed 0 0 := by
  refine framed_quiet ?_
  induction s.level with
  | zero => simp [Style.indentation]
  | succ level ih =>
    simp only [Style.indentation, String.toList_append, List.forall_mem_append]
    exact ⟨hs.indent, ih⟩

theorem framed_newline {s : Setting} (hs : s.style.Legible) : s.newline.Framed 0 0 :=
  framed_quiet hs.newline

end Php

theorem Matcher.string_single (h : ∀ c ∈ w, c ≠ '\'' ∧ c ≠ '\\') :
    Matcher.string ('\'' :: (w ++ ['\''])) = some ('\'' :: (w ++ ['\''])).length := by
  simp only [Matcher.string, stringTail_plain h stringTail_quote]
  simp
  omega

theorem Php.framed_helper {style : Style} (hs : style.Legible) (helper : Helper) :
    (style.helper helper).Framed 0 0 := by
  have hname : helper.name.toList.all (fun c => c != '\'' && c != '\\') = true := by
    cases helper <;> decide
  have hplain : ∀ c ∈ (style.helperPrefix ++ helper.name).toList, c ≠ '\'' ∧ c ≠ '\\' := by
    simp only [String.toList_append, List.forall_mem_append]
    exact ⟨hs.helperPrefix, by simpa using hname⟩
  have hkey := Framed.string (Matcher.string_single hplain)
  have hframed := Framed.enclosed (o := '[') (c := ']') (w := "$GLOBALS".toList) (by simp) hkey
    (List.all_eq_true.1 (by decide)) (List.forall_mem_nil _)
  simpa [Fragment.Framed, Style.helper] using hframed

theorem IsLiteralText.framed (h : IsLiteralText w found) : Framed w 0 0 := by
  have hwhole {m : Matcher} (hm : m.Takes Matcher.isLiteralCharacter) (hw : m w = some w.length) :
      Framed w 0 0 := by
    refine .quiet fun c hc => isQuiet_of_isLiteralCharacter (hm w w.length hw c ?_)
    rwa [List.take_length]
  cases found with
  | constant => exact hwhole Matcher.constant_takes h
  | number => exact hwhole Matcher.number_takes h
  | string => exact .string h
  | _ => exact h.elim

theorem Matcher.stringTail_escapeQuoted (h : stringTail '\'' cs = some n) :
    stringTail '\'' (escapeQuoted w ++ cs) = some ((escapeQuoted w).length + n) := by
  induction w with
  | nil => simpa [escapeQuoted] using h
  | cons c w ih =>
    rw [escapeQuoted]
    split
    next =>
      rw [List.cons_append, List.cons_append, stringTail_escape_some (by decide) ih]
      simp only [List.length_cons]
      congr 1
      omega
    next hc =>
      simp only [Bool.or_eq_true, beq_iff_eq, not_or] at hc
      rw [List.cons_append, stringTail_other_some hc.2 hc.1 ih, List.length_cons]
      congr 1
      omega

theorem Php.framed_quoted (content : String) (span : Span) :
    (Fragment.plain (literal (.quoted content span))).Framed 0 0 := by
  have hliteral : literal (.quoted content span) = Php.string (Literal.quoted content span).value :=
    rfl
  have hstring : Matcher.string (Literal.quoted content span).value.toList =
      some (Literal.quoted content span).value.toList.length := by
    simp [Literal.quoted, Matcher.string, Matcher.stringTail_escapeQuoted Matcher.stringTail_quote]
    omega
  rw [hliteral, Fragment.Framed, Fragment.text_plain]
  exact .string (Matcher.string_string hstring)

section

variable {t : Token}

theorem Token.Lexed.framed_literal (h : t.Lexed reserved chars pre) (hl : t.literal? = some l) :
    (Fragment.plain (literal l)).Framed 0 0 :=
  (h.isLiteralText hl).framed

theorem Token.Lexed.framed_recordKey (h : t.Lexed reserved chars pre)
    (hkey : Grammar.recordKey? t = some key) :
    (Fragment.plain (literal key)).Framed 0 0 := by
  unfold Grammar.recordKey? at hkey
  split at hkey
  iterate 4
    cases hkey
    exact framed_quoted _ _
  next hkind => exact h.framed_literal (by simpa [literal?, hkind] using hkey)
  next hkind => exact h.framed_literal (by simpa [literal?, hkind] using hkey)
  next => cases hkey

end

-- ---------------------------------------------------------------------------
-- Blocks
-- ---------------------------------------------------------------------------

namespace Php

open Fragment

variable {s : Setting} {b : Block} {inside : Inside}

theorem renderNodes_eq_map : renderNodes s place nodes = nodes.map (render s place) := by
  induction nodes with
  | nil => rw [renderNodes, List.map_nil]
  | cons node nodes ih => rw [renderNodes, List.map_cons, ih]

theorem closed_lines (body : List Node) (hs : s.style.Legible) (h : ∀ f ∈ texts, f.Closed) :
    (concat (hoisted body (lines s texts))).Closed := by
  refine closed_concat fun line hline => ?_
  obtain ⟨statement, hstatement, rfl⟩ := List.mem_map.1 (mem_of_mem_hoisted hline)
  exact ((framed_indentation hs).closed.append (h statement hstatement)).append
    (framed_newline hs).closed

theorem framed_braced {inner : Setting} (hs : s.style.Legible) (hinner : inner.style.Legible)
    (h : ∀ f ∈ inside.statements inner, f.Closed) : (braced s body inner inside).Framed 0 0 := by
  unfold braced
  split
  next => exact Closed.braced framed_empty.closed
  next =>
    have hinside := ((framed_newline hs).closed.append (closed_lines body hinner h)).append
      (framed_indentation hs).closed
    simpa [Fragment.Framed, String.append_assoc] using hinside.braced

theorem closed_parenthesizedHeader (header : Option Node) {rendered : Option Fragment}
    (h : ∀ f ∈ rendered, f.Closed) :
    (parenthesizedHeader header rendered).Closed := by
  cases rendered with
  | none => exact (Closed.parenthesized framed_empty.closed).closed
  | some rendered =>
    have hrendered := h rendered rfl
    rw [parenthesizedHeader]
    split
    next => exact hrendered
    next => exact hrendered.parenthesized.closed

theorem framed_useClause (hs : s.style.Legible)
    (h : ∀ capture ∈ captures s.callable b, IsQuietName capture.1) :
    (useClause s b).Framed 0 0 := by
  unfold useClause
  extract_lets used
  split
  next => exact framed_empty
  next =>
    have hused : ∀ f ∈ used, f.Closed := by
      intro f hf
      obtain ⟨capture, hcapture, rfl⟩ := List.mem_map.1 hf
      exact ((framed_varName hs (h capture hcapture) capture.2).after
        (framed_word _ (by decide))).closed
    exact (closed_list hused).parenthesized.after (framed_word _ (by decide))

/-- What is written into a block has its brackets in pairs, as far as a block of its kind is printed
with it. -/
structure Inside.Legible (s : Setting) (b : Block) (inside : Inside) : Prop where
  style : s.style.Legible
  keyword : IsQuietName b.kind.keyword
  name : b.kind = .function → ∀ name ∈ b.name, IsQuietName name
  captured : b.kind = .function → ∀ capture ∈ captures s.callable b, IsQuietName capture.1
  parameters : b.kind = .function → ∀ f ∈ inside.parameters s, f.Closed
  binding : b.kind ≠ .function → (catchBinding s b.header).Closed
  header : b.kind ≠ .function → ∀ f ∈ inside.header s, f.Closed
  statements : ∀ inner : Setting, inner.style = s.style → ∀ f ∈ inside.statements inner, f.Closed

theorem Inside.Legible.framed_body (h : inside.Legible s b) {inner : Setting}
    (hinner : inner.style = s.style) :
    (braced s b.body inner inside).Framed 0 0 :=
  framed_braced h.style (hinner ▸ h.style) (h.statements inner hinner)

theorem Inside.Legible.framed_closure (h : inside.Legible s b) (hkind : b.kind = .function) :
    ("function " ++ parenthesized (join ", " (inside.parameters s)) ++ useClause s b ++ " " ++
      braced s b.body (s.within b).deeper inside).Framed 0 0 := by
  have hparameters := (closed_list (h.parameters hkind)).parenthesized.after
    (framed_word "function " (by decide))
  have hclause := hparameters.before (framed_useClause h.style (h.captured hkind))
  exact (hclause.before (framed_word " " (by decide))).before (h.framed_body rfl)

theorem Inside.Legible.closed (h : inside.Legible s b) :
    (renderBlock s .statement b inside).Closed := by
  have hword := framed_quiet h.keyword
  have hblank : (plain " ").Framed 0 0 := framed_word _ (by decide)
  have hmark : (plain ";").Closed := framed_semicolon.closed
  have hbody : (braced s b.body s.deeper inside).Framed 0 0 := h.framed_body rfl
  have hvalue := h.header
  have hheader := fun hkind => closed_parenthesizedHeader b.header (h.header hkind)
  unfold renderBlock
  cases hkind : b.kind with
  | main => exact closed_lines _ h.style (h.statements s rfl)
  | function =>
    have hclosure := h.framed_closure hkind
    cases hname : b.name with
    | none => exact hclosure.closed.append hmark
    | some name =>
      have hassign := (framed_varName h.style (h.name hkind name hname) none).before
        (framed_word " = " (by decide))
      exact (hclosure.after hassign).closed.append hmark
  | returnJump | breakJump | continueJump | throwJump =>
    rw [hkind] at hword hvalue
    refine .append (.append hword.closed ?_) hmark
    cases hrendered : inside.header s with
    | none => exact framed_empty.closed
    | some value => exact hblank.closed.append (hvalue (by simp) value hrendered)
  | caseLabel =>
    rw [hkind] at hvalue
    refine .append (.append (framed_word "case " (by decide)).closed ?_)
      (framed_word ":" (by decide)).closed
    cases hrendered : inside.header s with
    | none => exact framed_empty.closed
    | some value => exact hvalue (by simp) value hrendered
  | defaultLabel => exact (framed_word _ (by decide)).closed
  | ifBranch | whileLoop | forLoop | switch =>
    rw [hkind] at hword hheader
    exact (((hword.before hblank).closed.append (hheader (by simp))).append hblank.closed).append
      hbody.closed
  | elseBranch | tryBlock | finallyBlock =>
    rw [hkind] at hword
    exact ((hword.before hblank).before hbody).closed
  | catchBlock =>
    have hinside := (framed_word "\\Throwable" (by decide)).closed.append
      (h.binding (by simp [hkind]))
    have hcatch : ("catch (" ++ ("\\Throwable" ++ catchBinding s b.header) ++ ") ").Framed 0 0 :=
      hinside.enclosed (o := '(') (c := ')') (w := "catch ".toList)
        (by simp) rfl rfl (by decide) (by decide)
    refine Framed.closed (q := 0) (p := 0) (.before ?_ hbody)
    simpa [Fragment.Framed, ← String.append_assoc] using hcatch
  | doLoop =>
    rw [hkind] at hheader
    have hdo := (hbody.after (framed_word "do " (by decide))).before
      (framed_word " while " (by decide))
    refine .append (hdo.closed.append ?_) hmark
    split
    next => exact hheader (by simp)
    next => exact (Closed.parenthesized (framed_word "false" (by decide)).closed).closed
  | other word =>
    rw [hkind] at hword hheader
    refine .append (.append hword.closed ?_) ?_
    · split
      next => exact hblank.closed.append (hheader (by simp))
      next => exact framed_empty.closed
    · split
      next => exact hblank.closed.append hbody.closed
      next =>
        split
        next => exact hmark
        next statement rest hstatements =>
          exact hblank.closed.append (h.statements s rfl statement (by simp [hstatements]))

end Php

-- ---------------------------------------------------------------------------
-- Nodes
-- ---------------------------------------------------------------------------

/-- The ternaries in a node that are printed outside of all brackets. -/
def Node.openTernaries : Node → List Node
  | .ternary condition whenTrue whenFalse span =>
    .ternary condition whenTrue whenFalse span :: (condition.openTernaries ++
      (if endsInTernary whenTrue then [] else whenTrue.openTernaries) ++
      (if endsInTernary whenFalse then [] else whenFalse.openTernaries))
  | .binary _ left right _ => left.openTernaries ++ right.openTernaries
  | .assign _ _ value _ => value.openTernaries
  | .unary op operand .leading _ =>
    if op = "typeof" ∨ op = "void" then [] else operand.openTernaries
  | _ => []

theorem Node.openTernaries_of_isAssignable {node : Node} (h : node.isAssignable = true) :
    node.openTernaries = [] := by
  cases node with
  | «variable» v => rfl
  | _ => cases h

structure Node.PrintsFramed (node : Node) : Prop where
  value : node.isValue = true → ∀ s : Setting, s.style.Legible →
    (render s .value node).Framed node.openTernaries.length 0
  target : node.isAssignable = true → ∀ s : Setting, s.style.Legible →
    (render s .target node).Framed 0 0
  statement : ∀ s : Setting, s.style.Legible → (render s .statement node).Closed

namespace Php

open Fragment

variable {s : Setting}

theorem render_statement {node : Node} (h : node.block? = none) :
    render s .statement node = render s .value node ++ ";" := by
  cases node with
  | «variable» v =>
    cases v
    simp [render, Place.close]
  | group g =>
    cases g
    simp [render, Place.close]
  | block b => cases h
  | _ => simp [render, Place.close]

theorem framed_values (h : ∀ node ∈ nodes, node.PrintsFramed)
    (hvalues : ∀ node ∈ nodes, node.isValue = true) (hs : s.style.Legible) :
    ∀ f ∈ renderNodes s .value nodes, ∃ q, f.Framed q 0 := by
  intro f hf
  rw [renderNodes_eq_map] at hf
  obtain ⟨node, hnode, rfl⟩ := List.mem_map.1 hf
  exact ⟨_, (h node hnode).value (hvalues node hnode) s hs⟩

theorem framed_items {g : Group} (h : ∀ item ∈ g.items, item.PrintsFramed)
    (hvalues : ∀ item ∈ g.items, item.isValue = true) (hs : s.style.Legible) :
    ∃ q, (join g.separator.text (renderNodes s .value g.items)).Framed q
      (if g.separator = .semicolon then g.items.length - 1 else 0) := by
  have hrendered := framed_values h hvalues hs
  have hlength : (renderNodes s .value g.items).length = g.items.length := length_renderNodes
  cases g.separator with
  | comma =>
    have hcomma : (plain ", ").Framed 0 0 := framed_word _ (by decide)
    simpa [Separator.text] using framed_join hcomma hrendered
  | semicolon =>
    have hsemicolon : (plain ";" ++ plain " ").Framed 0 1 :=
      framed_semicolon.before (framed_word _ (by decide))
    simpa [Separator.text, hlength] using framed_join hsemicolon hrendered

theorem closed_statements (h : ∀ node ∈ nodes, node.PrintsFramed) (hs : s.style.Legible) :
    ∀ f ∈ renderNodes s .statement nodes, f.Closed := by
  intro f hf
  rw [renderNodes_eq_map] at hf
  obtain ⟨node, hnode, rfl⟩ := List.mem_map.1 hf
  exact (h node hnode).statement s hs

theorem closed_renderChain (hkeys : ∀ key, .property key ∈ chain → (plain (literal key)).Framed 0 0)
    (hvalues : ∀ value, .index value ∈ chain → value.PrintsFramed ∧ value.isValue = true)
    (hs : s.style.Legible) :
    ∀ f ∈ renderChain s chain, f.Closed := by
  induction chain with
  | nil => simp [renderChain]
  | cons access chain ih =>
    have hlater := ih (fun key h => hkeys key (List.mem_cons_of_mem _ h))
      fun value h => hvalues value (List.mem_cons_of_mem _ h)
    cases access with
    | property key =>
      rw [renderChain]
      exact List.forall_mem_cons.2 ⟨(hkeys key List.mem_cons_self).closed, hlater⟩
    | index value =>
      obtain ⟨hvalue, hisValue⟩ := hvalues value List.mem_cons_self
      rw [renderChain]
      exact List.forall_mem_cons.2 ⟨(hvalue.value hisValue s hs).closed, hlater⟩

theorem closed_renderItems (h : ∀ node ∈ nodes, node.PrintsFramed)
    (hvalues : ∀ node ∈ nodes, node.isValue = true) (hs : s.style.Legible) :
    ∀ f ∈ renderItems s i nodes, f.Closed := by
  induction nodes generalizing i with
  | nil => simp [renderItems]
  | cons node nodes ih =>
    obtain ⟨hnode, hnodes⟩ := List.forall_mem_cons.1 h
    obtain ⟨hvalue, hothers⟩ := List.forall_mem_cons.1 hvalues
    rw [renderItems]
    refine List.forall_mem_cons.2 ⟨((hnode.value hvalue s hs).after (framed_quiet ?_)).closed,
      ih hnodes hothers⟩
    rw [String.toList_append]
    exact List.forall_mem_append.2 ⟨quiet_toString i, List.all_eq_true.1 (by decide)⟩

theorem closed_renderEntries {entries : List (Literal × Node)}
    (hkeys : ∀ entry ∈ entries, (plain (literal entry.1)).Framed 0 0)
    (h : ∀ entry ∈ entries, entry.2.PrintsFramed)
    (hvalues : ∀ entry ∈ entries, entry.2.isValue = true) (hs : s.style.Legible) :
    ∀ f ∈ renderEntries s entries, f.Closed := by
  induction entries with
  | nil => simp [renderEntries]
  | cons entry entries ih =>
    obtain ⟨key, value⟩ := entry
    obtain ⟨hkey, hlaterKeys⟩ := List.forall_mem_cons.1 hkeys
    obtain ⟨hentry, hentries⟩ := List.forall_mem_cons.1 h
    obtain ⟨hvalue, hothers⟩ := List.forall_mem_cons.1 hvalues
    have harrow := hkey.before (framed_word " => " (by decide))
    rw [renderEntries]
    exact List.forall_mem_cons.2 ⟨((hentry.value hvalue s hs).after harrow).closed,
      ih hlaterKeys hentries hothers⟩

end Php

namespace Node.PrintsFramed

variable {node : Node}

theorem of_value (hblock : node.block? = none)
    (hvalue : ∀ s : Setting, s.style.Legible →
      (render s .value node).Framed node.openTernaries.length 0)
    (htarget : node.isAssignable = true → ∀ s : Setting,
      s.style.Legible → (render s .target node).Framed 0 0) :
    node.PrintsFramed where
  value _ := hvalue
  target := htarget
  statement s hs := by
    rw [render_statement hblock]
    exact ((hvalue s hs).append Fragment.framed_semicolon).closed

theorem «variable» {span : Span} (hname : IsQuietName name)
    (hkeys : ∀ key, .property key ∈ chain → (Fragment.plain (Php.literal key)).Framed 0 0)
    (hvalues : ∀ value, .index value ∈ chain → value.PrintsFramed ∧ value.isValue = true) :
    (Node.variable ⟨name, chain, scope, span⟩).PrintsFramed := by
  have hbase {s : Setting} (hs : s.style.Legible) := framed_varName hs hname scope
  refine .of_value rfl (fun s hs => ?_) (fun _ s hs => ?_)
  · simp only [render, Place.close]
    split
    next => exact hbase hs
    next =>
      refine Fragment.framed_callUserFunc ?_
      simp only [List.forall_mem_cons]
      exact ⟨(framed_helper hs _).closed, (hbase hs).closed, closed_renderChain hkeys hvalues hs⟩
  · simp only [render, Place.close]
    refine (hbase hs).before (Fragment.framed_concat fun f hf => ?_)
    obtain ⟨key, hkey, rfl⟩ := List.mem_map.1 hf
    exact (closed_renderChain hkeys hvalues hs key hkey).bracketed

theorem binary {left right : Node} {span : Span} (hop : op ∈ operators) (hne : op ≠ "?")
    (hleft : left.PrintsFramed) (hright : right.PrintsFramed) (hleftValue : left.isValue = true)
    (hrightValue : right.isValue = true) :
    (Node.binary op left right span).PrintsFramed := by
  refine .of_value rfl (fun s hs => ?_) (by simp [isAssignable])
  simp only [render, Place.close, openTernaries, List.length_append]
  exact ((hleft.value hleftValue s hs).before (Fragment.framed_operator hop hne)).append
    (hright.value hrightValue s hs)

theorem branch {s : Setting} (hs : s.style.Legible) (hnode : node.PrintsFramed)
    (hvalue : node.isValue = true) :
    (Php.branch node (render s .value node)).Framed
      (if endsInTernary node then [] else node.openTernaries).length 0 := by
  have hframed := hnode.value hvalue s hs
  unfold Php.branch
  split
  next => exact hframed.closed.parenthesized
  next => exact hframed

theorem ternary {condition whenTrue whenFalse : Node} {span : Span}
    (hcondition : condition.PrintsFramed) (htrue : whenTrue.PrintsFramed)
    (hfalse : whenFalse.PrintsFramed) (hconditionValue : condition.isValue = true)
    (htrueValue : whenTrue.isValue = true) (hfalseValue : whenFalse.isValue = true) :
    (Node.ternary condition whenTrue whenFalse span).PrintsFramed := by
  refine .of_value rfl (fun s hs => ?_) (by simp [isAssignable])
  have hmark : (Fragment.plain " ? ").Framed 1 0 := .question
  have hcolon : (Fragment.plain " : ").Framed 0 0 := Fragment.framed_word _ (by decide)
  have hframed :=
    ((((hcondition.value hconditionValue s hs).append hmark).append
      (htrue.branch hs htrueValue)).before
    hcolon).append (hfalse.branch hs hfalseValue)
  simp only [render, Place.close, openTernaries, List.length_append, List.length_cons]
  convert hframed using 1
  omega

theorem assign {target value : Node} {span : Span} (hop : isAssignmentOperator op = true)
    (htarget : target.PrintsFramed) (hvalue : value.PrintsFramed)
    (hassignable : target.isAssignable = true) (hisValue : value.isValue = true) :
    (Node.assign op target value span).PrintsFramed := by
  have hclosed : ∀ op ∈ assignmentOperators, op ∈ operators ∧ op ≠ "?" := by decide
  obtain ⟨hmem, hne⟩ := hclosed op (List.contains_iff_mem.1 hop)
  refine .of_value rfl (fun s hs => ?_) (by simp [isAssignable])
  simp only [render, Place.close, openTernaries, reduceCtorEq, if_false]
  exact (hvalue.value hisValue s hs).after
    ((htarget.target hassignable s hs).before (Fragment.framed_operator hmem hne))

theorem call {callee : Node} {span : Span} (hcallee : callee.PrintsFramed)
    (harguments : ∀ argument ∈ arguments, argument.PrintsFramed)
    (hcalleeValue : callee.isValue = true)
    (hvalues : ∀ argument ∈ arguments, argument.isValue = true)
    (hname : IsQuietName (calleeName callee)) :
    (Node.call callee arguments span).PrintsFramed := by
  refine .of_value rfl (fun s hs => ?_) (by simp [isAssignable])
  have hrendered : ∀ f ∈ renderNodes s .value arguments, f.Closed := by
    intro f hf
    obtain ⟨q, hframed⟩ := framed_values harguments hvalues hs f hf
    exact hframed.closed
  simp only [render, Place.close]
  split
  next => exact (Fragment.closed_list hrendered).parenthesized.after (Fragment.framed_quiet hname)
  next =>
    refine Fragment.framed_callUserFunc (List.forall_mem_cons.2 ⟨?_, hrendered⟩)
    exact (hcallee.value hcalleeValue s hs).closed

theorem group {g : Group} (hitems : ∀ item ∈ g.items, item.PrintsFramed)
    (hvalues : ∀ item ∈ g.items, item.isValue = true) : (Node.group g).PrintsFramed := by
  refine .of_value rfl (fun s hs => ?_) (by simp [isAssignable])
  obtain ⟨q, hframed⟩ := framed_items hitems hvalues hs
  cases g
  simp only [render, Place.close]
  exact hframed.closed.parenthesized

theorem list {span : Span} (hitems : ∀ item ∈ items, item.PrintsFramed)
    (hvalues : ∀ item ∈ items, item.isValue = true) :
    (Node.list items span).PrintsFramed := by
  refine .of_value rfl (fun s hs => ?_) (by simp [isAssignable])
  simp only [render, Place.close]
  exact (Fragment.closed_list (closed_renderItems hitems hvalues hs)).bracketed

theorem record {entries : List (Literal × Node)} {span : Span}
    (hkeys : ∀ entry ∈ entries, (Fragment.plain (Php.literal entry.1)).Framed 0 0)
    (hentries : ∀ entry ∈ entries, entry.2.PrintsFramed)
    (hvalues : ∀ entry ∈ entries, entry.2.isValue = true) :
    (Node.record entries span).PrintsFramed := by
  refine .of_value rfl (fun s hs => ?_) (by simp [isAssignable])
  simp only [render, Place.close]
  exact (Fragment.closed_list (closed_renderEntries hkeys hentries hvalues hs)).bracketed

theorem leading {operand : Node} {span : Span} (hop : isLeadingOperator op = true)
    (hoperand : operand.PrintsFramed) (hvalue : operand.isValue = true)
    (hvariable : (isStepOperator op || op == "delete") = true → operand.isAssignable = true) :
    (Node.unary op operand .leading span).PrintsFramed := by
  have hclosed : ∀ op ∈ leadingOperators, op.toList.all isQuiet = true := by decide
  have hword := Fragment.framed_word op (hclosed op (List.contains_iff_mem.1 hop))
  refine .of_value rfl (fun s hs => ?_) (by simp [isAssignable])
  have hframed := hoperand.value hvalue s hs
  simp only [render, Place.close, openTernaries]
  by_cases htypeof : op = "typeof"
  · simp only [htypeof, if_true, true_or]
    exact Fragment.framed_callUserFunc
      (by simpa using ⟨(framed_helper hs _).closed, hframed.closed⟩)
  by_cases hvoid : op = "void"
  · have hnulls : (Fragment.plain " ? " ++ Fragment.plain "null : null").Framed 1 0 :=
      .before .question (Fragment.framed_word _ (by decide))
    have hwhole := (hframed.append hnulls).closed.parenthesized
    simp only [hvoid, if_true, or_true, String.reduceEq, if_false]
    simpa [Fragment.Framed, String.append_assoc] using hwhole
  by_cases hdelete : op = "delete"
  · have hassignable := hvariable (by simp [hdelete])
    have htarget := (hoperand.target hassignable s hs).closed
    simp only [hdelete, String.reduceEq, if_false, if_true, or_self,
      openTernaries_of_isAssignable hassignable]
    exact htarget.enclosed (o := '(') (c := ')') (w := "unset".toList)
      (by simp) rfl rfl (by decide) rfl
  simp only [htypeof, hvoid, hdelete, if_false, or_self]
  split
  next hstep =>
    have hassignable := hvariable (by simp [hstep])
    rw [openTernaries_of_isAssignable hassignable]
    exact (hoperand.target hassignable s hs).after hword
  next =>
    refine hframed.after (hword.before ?_)
    split <;> exact Fragment.framed_word _ (by decide)

theorem trailing {operand : Node} {span : Span} (hop : isStepOperator op = true)
    (hoperand : operand.PrintsFramed) (hvariable : operand.isAssignable = true) :
    (Node.unary op operand .trailing span).PrintsFramed := by
  have hword : (Fragment.plain op).Framed 0 0 ∧ op ≠ "typeof" ∧ op ≠ "void" ∧ op ≠ "delete" := by
    simp only [isStepOperator, Bool.or_eq_true, beq_iff_eq] at hop
    rcases hop with rfl | rfl <;>
      exact ⟨Fragment.framed_word _ (by decide), by decide, by decide, by decide⟩
  obtain ⟨hword, htypeof, hvoid, hdelete⟩ := hword
  refine .of_value rfl (fun s hs => ?_) (by simp [isAssignable])
  simp only [render, Place.close, openTernaries, htypeof, hvoid, hdelete, if_false]
  exact (hoperand.target hvariable s hs).before hword

theorem block {b : Block} (h : ∀ s : Setting, s.style.Legible → Inside.Legible s b
    ⟨(renderHeader · b.header), (renderParameters · b.header), (renderNodes · .statement b.body)⟩) :
    (Node.block b).PrintsFramed where
  value hvalue s hs := by
    have hkind : b.kind = .function := by simpa [isValue] using hvalue
    have hclosure := (h s hs).framed_closure hkind
    rw [render_block]
    change Fragment.Framed _ 0 0
    simpa only [renderBlock, hkind] using hclosure
  target h := by cases h
  statement s hs := by
    rw [render_block]
    exact (h s hs).closed

end Node.PrintsFramed

section

variable {tokens : List Token} {node : Node}

theorem Node.AllMade.exists_token (h : node.AllMade tokens)
    (hbelow : Below node roles (.variable v)) :
    ∃ t ∈ tokens, t.kind = .variable ∧ t.text = v.name := by
  cases h _ _ hbelow with
  | «variable» hmem hkind => exact ⟨_, hmem, hkind, rfl⟩

theorem Node.AllMade.isQuietName (h : node.AllMade tokens)
    (hlexed : ∀ t ∈ tokens, ∃ pre, t.Lexed reserved chars pre)
    (hbelow : Below node roles (.variable v)) : IsQuietName v.name := by
  obtain ⟨t, hmem, hkind, heq⟩ := h.exists_token hbelow
  obtain ⟨pre, ht⟩ := hlexed t hmem
  exact heq ▸ ht.isQuietName hkind

theorem Php.exists_below_of_parameterName? (h : parameterName? node = some (name, scope)) :
    ∃ roles v, Below node roles (.variable v) ∧ v.name = name := by
  unfold parameterName? at h
  split at h
  next v =>
    simp only [Option.ite_none_right_eq_some, Option.some.injEq, Prod.mk.injEq] at h
    exact ⟨[], v, .here _, h.2.1⟩
  next v _ _ =>
    simp only [Option.ite_none_right_eq_some, Option.some.injEq, Prod.mk.injEq] at h
    exact ⟨[.plain], v, .inside List.mem_cons_self (.here _), h.2.1⟩
  next => cases h

theorem framed_catchBinding {s : Setting} (hs : s.style.Legible)
    (hlexed : ∀ t ∈ tokens, ∃ pre, t.Lexed reserved chars pre)
    (h : ∀ node ∈ header, Node.AllMade tokens node) :
    (catchBinding s header).Framed 0 0 := by
  unfold catchBinding
  split
  next g =>
    split
    next name scope hname =>
      obtain ⟨item, hitem, hname⟩ := Option.bind_eq_some_iff.1 hname
      have hpart : (Role.plain, item) ∈ (Node.group g).parts :=
        List.mem_map.2 ⟨item, List.mem_of_mem_head? hitem, rfl⟩
      obtain ⟨roles, v, hbelow, rfl⟩ := exists_below_of_parameterName? hname
      have hquiet := Node.AllMade.isQuietName ((h _ rfl).part hpart) hlexed hbelow
      exact (framed_varName hs hquiet scope).after (Fragment.framed_word " " (by decide))
    next => exact Fragment.framed_empty
  next => exact Fragment.framed_empty

/-- A parameter is printed like a value, but for its accesses and the operator of its default
value. -/
theorem Node.closed_parameter {s : Setting} {f : Block} (hs : s.style.Legible)
    (hlexed : ∀ t ∈ tokens, ∃ pre, t.Lexed reserved chars pre) (hmade : Made tokens node)
    (hvalue : node.isValue = true)
    (hparts : ∀ entry ∈ f.parameterParts node, entry.2.PrintsFramed) :
    (render s .parameter node).Closed := by
  cases node with
  | «variable» v =>
    cases hmade with
    | «variable» hmem hkind =>
      obtain ⟨pre, ht⟩ := hlexed _ hmem
      simp only [render, Place.close]
      exact (framed_varName hs (ht.isQuietName hkind) _).closed
  | assign op target value span =>
    simp only [Block.parameterParts, List.forall_mem_cons] at hparts
    obtain ⟨htarget, hdefault, -⟩ := hparts
    cases hmade with
    | assign _ hassignable hisValue =>
      simp only [render, Place.close, if_true]
      have hfront := (htarget.target hassignable s hs).before
        (Fragment.framed_word " = " (by decide))
      exact ((hdefault.value hisValue s hs).after hfront).closed
  | group g =>
    obtain ⟨items, separator, span⟩ := g
    have hframed := (hparts (.pattern f, _) List.mem_cons_self).value hvalue s hs
    simp only [render, Place.close] at hframed ⊢
    exact hframed.closed
  | block b =>
    have hframed := (hparts (.pattern f, _) List.mem_cons_self).value hvalue s hs
    have hkind : b.kind = .function := by simpa [isValue] using hvalue
    simp only [render_block, renderBlock, hkind] at hframed ⊢
    exact hframed.closed
  | _ =>
    have hframed := (hparts (.pattern f, _) List.mem_cons_self).value hvalue s hs
    simp only [render, Place.close] at hframed ⊢
    exact hframed.closed

theorem BlockKind.keyword_ofKeyword :
    ∀ word ∈ keywords, (ofKeyword word).keyword = word := by decide +kernel

theorem Node.Made.of_function (h : Made tokens (.block b)) (hkind : b.kind = .function)
    (hlexed : ∀ t ∈ tokens, ∃ pre, t.Lexed reserved chars pre) :
    (∀ name ∈ b.name, ∃ t ∈ tokens, t.kind = .variable ∧ t.text = name) ∧ ∃ g, b.header =
      some (.group g) ∧
      ∀ item ∈ g.items, item.isValue = true ∧ Made tokens item := by
  cases h with
  | function _ hheader hname hvalues hitems =>
    exact ⟨hname, _, hheader, fun item hitem => ⟨hvalues item hitem, hitems item hitem⟩⟩
  | returning hreturn => simp [hreturn] at hkind
  | keyword hmem hword _ hblock =>
    obtain ⟨pre, ht⟩ := hlexed _ hmem
    rw [hblock.kind_block] at hkind
    exact absurd hkind (BlockKind.ofKeyword_ne_function (ht.mem_keywords hword))

theorem Node.Made.mem_keywords (h : Made tokens (.block b))
    (hlexed : ∀ t ∈ tokens, ∃ pre, t.Lexed reserved chars pre) :
    b.kind.keyword ∈ "function" :: keywords := by
  cases h with
  | function hkind => rw [hkind]; decide
  | returning hkind => rw [hkind]; decide
  | keyword hmem hword _ hblock =>
    obtain ⟨pre, ht⟩ := hlexed _ hmem
    have hmem := ht.mem_keywords hword
    rw [hblock.kind_block, BlockKind.keyword_ofKeyword _ hmem]
    exact List.mem_cons_of_mem _ hmem

theorem Node.Made.isValue_header (h : Made tokens (.block b)) (hkind : b.kind ≠ .function) :
    ∀ header ∈ b.header, header.isValue = true := by
  cases h with
  | function hfunction => exact absurd hfunction hkind
  | returning _ hheader => exact hheader
  | keyword _ _ hheader => exact hheader

theorem Node.AllMade.legible {s : Setting} (hall : (Node.block b).AllMade tokens)
    (hlexed : ∀ t ∈ tokens, ∃ pre, t.Lexed reserved chars pre) (hs : s.style.Legible)
    (hparts : ∀ entry ∈ b.parts, entry.2.PrintsFramed) :
    Inside.Legible s b ⟨(renderHeader · b.header), (renderParameters · b.header),
      (renderNodes · .statement b.body)⟩ := by
  have hbody : ∀ node ∈ b.body, node.PrintsFramed := by
    intro node hnode
    obtain ⟨role, hpart⟩ := Block.exists_part_of_mem_body hnode
    exact hparts _ hpart
  have hheader (hkind : b.kind ≠ .function) : ∀ node ∈ b.header, node.AllMade tokens ∧
      node.PrintsFramed := by
    intro node hnode
    have hpart := Block.mem_parts_of_header hkind hnode
    exact ⟨hall.part hpart, hparts _ hpart⟩
  refine ⟨hs, ?keyword, ?name, ?captured, ?parameters, ?binding, ?header,
    fun inner hinner => closed_statements hbody (hinner ▸ hs)⟩
  case keyword =>
    have hclosed : ∀ word ∈ "function" :: keywords, word.toList.all isQuiet = true := by decide
    exact isQuietName_of_all (hclosed _ (hall.here.mem_keywords hlexed))
  case name =>
    intro hkind name hname
    obtain ⟨t, hmem, hvariable, rfl⟩ := (hall.here.of_function hkind hlexed).1 name hname
    obtain ⟨pre, ht⟩ := hlexed t hmem
    exact ht.isQuietName hvariable
  case captured =>
    intro _ capture hcapture
    obtain ⟨roles, v, hbelow, -, rfl⟩ := mem_captures.1 hcapture
    exact hall.isQuietName hlexed hbelow
  case parameters =>
    intro hkind f hf
    obtain ⟨-, ⟨items, separator, span⟩, hgroup, hitems⟩ := hall.here.of_function hkind hlexed
    simp only [hgroup, renderParameters, renderNodes_eq_map] at hf
    obtain ⟨item, hitem, rfl⟩ := List.mem_map.1 hf
    obtain ⟨hvalue, hmade⟩ := hitems item hitem
    have hparameter : item ∈ b.parameters := by simp [Block.parameters, hkind, hgroup, hitem]
    exact item.closed_parameter hs hlexed hmade hvalue fun entry hentry =>
      hparts entry (Block.mem_parts_of_parameter hkind hparameter hentry)
  case binding => exact fun hkind =>
    (framed_catchBinding hs hlexed fun node hnode => (hheader hkind node hnode).1).closed
  case header =>
    intro hkind f hf
    cases hnode : b.header with
    | none => simp [hnode, renderHeader] at hf
    | some node =>
      simp only [hnode, renderHeader, Option.mem_some_iff] at hf
      subst hf
      exact ((hheader hkind node hnode).2.value
        (hall.here.isValue_header hkind node hnode) s hs).closed

/-- A node of a script prints text with its brackets in pairs. -/
theorem Node.AllMade.printsFramed (hlexed : ∀ t ∈ tokens, ∃ pre, t.Lexed reserved chars pre)
    (h : node.AllMade tokens) :
    node.PrintsFramed := by
  induction node using Node.induction_on_parts with
  | h node ih =>
    have hparts : ∀ entry ∈ node.parts, entry.2.PrintsFramed :=
      fun entry hentry => ih entry hentry (h.part hentry)
    cases h.here with
    | literal hmem hliteral =>
      obtain ⟨pre, ht⟩ := hlexed _ hmem
      refine .of_value rfl (fun s _ => ?_) (by simp [isAssignable])
      simp only [render, Place.close]
      exact ht.framed_literal hliteral
    | null =>
      refine .of_value rfl (fun s _ => ?_) (by simp [isAssignable])
      simp only [render, Place.close]
      exact Fragment.framed_word "null" (by decide)
    | «variable» hmem hkind hkeys hindices =>
      obtain ⟨pre, ht⟩ := hlexed _ hmem
      refine .variable (ht.isQuietName hkind) (fun key hkey => ?_)
        (fun value hvalue => ⟨?_, hindices value hvalue⟩)
      · obtain ⟨t, -, rfl⟩ := hkeys key hkey
        exact framed_quoted _ _
      · refine hparts (.plain, value) (List.mem_map.2 ⟨value, ?_, rfl⟩)
        exact List.mem_filterMap.2 ⟨_, hvalue, rfl⟩
    | binary hmem hop hfront hleft hright =>
      obtain ⟨pre, ht⟩ := hlexed _ hmem
      obtain ⟨hoperator, -⟩ := ht.operator (Token.kind_of_isInfix hop)
      refine .binary hoperator ?_ (hparts (.plain, _) (by simp [parts]))
        (hparts (.plain, _) (by simp [parts])) hleft hright
      simp only [Token.isInfix, Bool.and_eq_true, bne_iff_ne] at hop
      exact hop.1.1.2
    | ternary hfront hcondition htrue hfalse =>
      exact .ternary (hparts (.plain, _) (by simp [parts])) (hparts (.plain, _) (by simp [parts]))
        (hparts (.plain, _) (by simp [parts])) hcondition htrue hfalse
    | assign hop htarget hvalue =>
      exact .assign hop (hparts (.plain, _) (by simp [parts]))
        (hparts (.plain, _) (by simp [parts])) htarget hvalue
    | @call _ callee _ hcallee harguments =>
      refine .call (hparts (.callee, _) (by simp [parts]))
        (fun argument hargument => ?_) hcallee harguments ?_
      · exact hparts (.plain, argument)
          (List.mem_cons_of_mem _ (List.mem_map.2 ⟨argument, hargument, rfl⟩))
      · cases callee with
        | «variable» v =>
          exact h.isQuietName hlexed (.inside List.mem_cons_self (.here (.variable v)))
        | _ => exact isQuietName_of_all rfl
    | group hitems =>
      exact .group (fun item hitem =>
        hparts (.plain, item) (List.mem_map.2 ⟨item, hitem, rfl⟩)) hitems
    | list hitems =>
      exact .list (fun item hitem =>
        hparts (.plain, item) (List.mem_map.2 ⟨item, hitem, rfl⟩)) hitems
    | record hkeys hvalues =>
      refine .record (fun entry hentry => ?_)
        (fun entry hentry => hparts (.plain, entry.2) (List.mem_map.2 ⟨entry, hentry, rfl⟩)) hvalues
      obtain ⟨t, ht, hkey⟩ := hkeys entry hentry
      obtain ⟨pre, ht⟩ := hlexed t ht
      exact ht.framed_recordKey hkey
    | leading hop hfront hoperand hvariable =>
      exact .leading hop (hparts (.plain, _) (by simp [parts])) hoperand hvariable
    | trailing hop hvariable => exact .trailing hop (hparts (.plain, _) (by simp [parts])) hvariable
    | function | returning | keyword => exact .block fun s hs => h.legible hlexed hs hparts

end

theorem Script.printsFramed {options : Options} {source : Source} {script : Script} {node : Node}
    (h : parse options source = .ok script) (hbelow : Below (.block script.root) roles node)
    (hne : node ≠ .block script.root) :
    node.AllMade (source.tokens options.reserved) ∧ node.PrintsFramed := by
  obtain ⟨hmain, hnone, hmade⟩ := made h
  obtain ⟨statement, path, hstatement, hbelow⟩ := (hbelow.of_root hmain hnone).resolve_left hne
  have hall : node.AllMade (source.tokens options.reserved) :=
    (hmade statement hstatement).below hbelow
  exact ⟨hall, hall.printsFramed fun t ht => (Source.mem_tokens ht).2⟩

end ScriptToPhp
