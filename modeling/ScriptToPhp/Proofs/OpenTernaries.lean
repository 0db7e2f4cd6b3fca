import ScriptToPhp.Proofs.PrintedOutline

/-!
# Ternaries inside ternaries

PHP refuses a ternary that stands in another one without parentheses. Printing puts a branch in
parentheses if it ends with a ternary, and a value goes on as long as it can, so that no other part
of a ternary has one in it. The exception are values that end with a step of a variable: the value
goes on behind them as if they were operands.
-/

namespace ScriptToPhp

open Php

namespace Node

def isTernary : Node → Bool
  | .ternary .. => true
  | _ => false

variable {tokens : List Token} {node inner : Node}

theorem below_of_mem_openTernaries (h : inner ∈ node.openTernaries) :
    inner.isTernary = true ∧ ∃ roles, Below node roles inner := by
  induction node using Node.induction_on_parts with
  | h node ih =>
    have hpart {part : Node} (hmem : (.plain, part) ∈ node.parts) (h : inner ∈ part.openTernaries) :
        inner.isTernary = true ∧ ∃ roles, Below node roles inner := by
      obtain ⟨hternary, roles, hbelow⟩ := ih _ hmem h
      exact ⟨hternary, _, .inside hmem hbelow⟩
    cases node with
    | ternary condition whenTrue whenFalse span =>
      simp only [openTernaries, List.mem_cons, List.mem_append, List.mem_ite_nil_left] at h
      rcases h with rfl | (h | ⟨-, h⟩) | ⟨-, h⟩
      · exact ⟨rfl, [], .here _⟩
      · exact hpart (by simp [parts]) h
      · exact hpart (by simp [parts]) h
      · exact hpart (by simp [parts]) h
    | binary op left right span =>
      rcases List.mem_append.1 h with h | h
      · exact hpart (by simp [parts]) h
      · exact hpart (by simp [parts]) h
    | assign op target value span =>
      have hmem : (.plain, value) ∈ (Node.assign op target value span).parts := by simp [parts]
      exact hpart hmem h
    | unary op operand fixity span =>
      cases fixity with
      | leading =>
        simp only [openTernaries, List.mem_ite_nil_left] at h
        exact hpart (by simp [parts]) h.2
      | trailing => cases h
    | _ => cases h

theorem AllMade.openTernaries_operand (h : node.AllMade tokens) (hoperand : node.isOperand = true) :
    node.openTernaries = [] := by
  induction node using Node.induction_on_parts with
  | h node ih =>
    cases h.here with
    | @leading op operand span _ hfront =>
      have hmem : (.plain, operand) ∈ (Node.unary op operand .leading span).parts :=
        List.mem_cons_self
      simp [openTernaries, ih _ hmem (h.part hmem) hfront]
    | binary | ternary | assign | trailing => cases hoperand
    | _ => rfl

/-- A ternary that stands open in a node ends in a step, unless it is the end of the node and the
node does not. -/
theorem AllMade.endsInStep_of_mem (h : node.AllMade tokens)
    (hend : node.endsInStep = true ∨ endsInTernary node = false)
    (hinner : inner ∈ node.openTernaries) :
    inner.endsInStep = true := by
  induction node using Node.induction_on_parts with
  | h node ih =>
    have hpart {part : Node} (hmem : (.plain, part) ∈ node.parts)
        (hend : part.endsInStep = true ∨ endsInTernary part = false)
          (hinner : inner ∈ part.openTernaries) :
        inner.endsInStep = true := ih _ hmem (h.part hmem) hend hinner
    -- What stands in front of more of a value is an operand, or ends in a step.
    have hfrontPart {part : Node} (hmem : (.plain, part) ∈ node.parts)
        (hfront : part.isFront = true)
          (hinner : inner ∈ part.openTernaries) : inner.endsInStep = true := by
      rcases Bool.or_eq_true_iff.1 hfront with hoperand | hstep
      · rw [AllMade.openTernaries_operand (h.part hmem) hoperand] at hinner
        cases hinner
      · exact hpart hmem (.inl hstep) hinner
    cases h.here with
    | ternary hfront =>
      simp only [openTernaries, List.mem_cons, List.mem_append, List.mem_ite_nil_left,
        Bool.not_eq_true] at hinner
      rcases hinner with rfl | (hinner | ⟨hopen, hinner⟩) | ⟨hopen, hinner⟩
      · exact hend.resolve_right (by simp [endsInTernary])
      · exact hfrontPart (by simp [parts]) hfront hinner
      · exact hpart (by simp [parts]) (.inr hopen) hinner
      · exact hpart (by simp [parts]) (.inr hopen) hinner
    | @binary t left right span _ _ hfront =>
      have hright : (.plain, right) ∈ (Node.binary t.value left right span).parts := by simp [parts]
      rcases List.mem_append.1 hinner with hinner | hinner
      · exact hfrontPart (by simp [parts]) hfront hinner
      · exact hpart hright hend hinner
    | @assign op target value span =>
      have hmem : (.plain, value) ∈ (Node.assign op target value span).parts := by simp [parts]
      exact hpart hmem hend hinner
    | leading =>
      rw [h.openTernaries_operand rfl] at hinner
      cases hinner
    | _ => cases hinner

theorem AllMade.openTernaries_ternary (h : node.AllMade tokens) (hternary : node.isTernary = true) :
    ∃ inner, node.openTernaries = node :: inner ∧ ∀ other ∈ inner, other.isTernary = true ∧
    other.endsInStep = true ∧
      ∃ role roles, Below node (role :: roles) other := by
  cases h.here with
  | @ternary condition whenTrue whenFalse span hfront =>
    refine ⟨_, rfl, fun other hother => ?_⟩
    -- The part of the ternary in which the other one stands.
    obtain ⟨part, hpart, hmem, hend⟩ : ∃ part,
      (.plain, part) ∈ (Node.ternary condition whenTrue whenFalse span).parts ∧
        other ∈ part.openTernaries ∧ (part.endsInStep = true ∨ endsInTernary part = false) := by
      simp only [List.mem_append, List.mem_ite_nil_left, Bool.not_eq_true] at hother
      rcases hother with (hother | ⟨hopen, hother⟩) | ⟨hopen, hother⟩
      · have hpart : (.plain, condition) ∈
          (Node.ternary condition whenTrue whenFalse span).parts := by simp [parts]
        refine ⟨condition, hpart, hother, ?_⟩
        rcases Bool.or_eq_true_iff.1 hfront with hoperand | hstep
        · rw [AllMade.openTernaries_operand (h.part hpart) hoperand] at hother
          cases hother
        · exact .inl hstep
      · exact ⟨whenTrue, by simp [parts], hother, .inr hopen⟩
      · exact ⟨whenFalse, by simp [parts], hother, .inr hopen⟩
    obtain ⟨hisTernary, roles, hbelow⟩ := below_of_mem_openTernaries hmem
    exact ⟨hisTernary, AllMade.endsInStep_of_mem (h.part hpart) hend hmem, _, _,
      .inside hpart hbelow⟩
  | _ => cases hternary

end Node

namespace Script

/-- The question marks of a printed ternary, outside of all brackets, are its own and those of the
ternaries that stand open in it. Each of these ends in a step of a variable. They are the marks that
scanning the text finds. -/
theorem nested_ternaries_end_in_steps {options : Options} {source : Source} {script : Script}
    {node : Node} (h : parse options source = .ok script)
    (hbelow : Below (.block script.root) roles node) (hternary : node.isTernary = true)
    (p : Printer) (hstyle : p.style.Legible) :
    (lexemesAt 0 0 (lexemesIn (p.printExpression node).1.toList)).count .question =
      node.openTernaries.length ∧
      (∃ inner, node.openTernaries = node :: inner ∧ ∀ other ∈ inner, other.isTernary = true ∧
        other.endsInStep = true ∧ ∃ role path, Below node (role :: path) other) ∧
      ∀ (printed : Source) (reserved : ReservedPrefixes),
        printed.chars = (p.printExpression node).1.toList →
        (printed.scan reserved).fault = none →
        (lexemesAt 0 0 ((printed.scan reserved).tokens.map Token.lexeme)).count .question =
          node.openTernaries.length := by
  have hne : node ≠ .block script.root := by
    rintro rfl
    cases hternary
  have hvalue : node.isValue = true := by
    cases node with
    | ternary => rfl
    | _ => cases hternary
  obtain ⟨hmade, hframed⟩ := printsFramed h hbelow hne
  have hcount := (hframed.value hvalue ⟨p.style, p.named, 0⟩ hstyle).count_question
  refine ⟨hcount, hmade.openTernaries_ternary hternary, ?_⟩
  intro printed reserved hchars hscan
  rw [Source.map_lexeme_scan hscan, hchars]
  exact hcount

/-- Behind a step the condition of a ternary is a ternary, and is not put in parentheses. -/
theorem nested_ternaries_end_in_steps_increment : ∃ script node,
    parse {} (.ofText "" "a ? b : c++ ? d : e") = .ok script ∧ node ∈ script.root.body ∧
    node.isTernary = true ∧
      ((Printer.ofStyle (.ofOptions {})).printExpression node).1 = "$a ? $b : $c++ ? $d : $e" ∧
      (lexemesAt 0 0
        (((Source.ofText "" "$a ? $b : $c++ ? $d : $e").scan (Options.reserved {})).tokens.map
        Token.lexeme)).count .question = 2 := by
  have hfacts : (parse {} (.ofText "" "a ? b : c++ ? d : e")).toOption.any (fun script =>
      script.root.body.any fun node => node.isTernary &&
        ((Printer.ofStyle (.ofOptions {})).printExpression node).1 == "$a ? $b : $c++ ? $d : $e" &&
        node.openTernaries.length == 2) = true := by
    decide +kernel
  obtain ⟨script, h, hshape⟩ := exists_of_any_parse hfacts
  simp only [List.any_eq_true, Bool.and_eq_true, beq_iff_eq] at hshape
  obtain ⟨node, hnode, ⟨hternary, htext⟩, hlength⟩ := hshape
  obtain ⟨hmain, -⟩ := made h
  have hbelow : Below (.block script.root) [.plain] node :=
    (Below.here node).inBlock (by simp [hmain]) (List.mem_append_right _ hnode)
  obtain ⟨-, -, hscan⟩ := nested_ternaries_end_in_steps h hbelow hternary
    (.ofStyle (.ofOptions {})) Style.legible_ofOptions
  refine ⟨script, node, h, hnode, hternary, htext, ?_⟩
  rw [← hlength]
  refine hscan _ _ ?_ (by decide +kernel)
  rw [htext]
  decide +kernel

end Script

end ScriptToPhp
