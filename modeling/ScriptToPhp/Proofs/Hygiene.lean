import ScriptToPhp.Php.Style
import ScriptToPhp.Proofs.TextOrder
import ScriptToPhp.Tree.Walk

/-!
# Hygiene of renaming

Block-local variables are printed under names made of the reserved prefix, the number of their scope
and their own name. Such a name tells scope and name apart again. A name of the script is refused if
it starts with the prefix, but leading dollar signs hide it from that check and are dropped in
print.
-/

namespace ScriptToPhp

-- ---------------------------------------------------------------------------
-- The names of a tree
-- ---------------------------------------------------------------------------

attribute [local grind =] Node.variables variablesOfNodes variablesOfChain variablesOfEntries
attribute [local grind =] Node.marks Variable.marks Group.marks Block.marks_eq marksOfHeader
  marksOfNodes
  marksOfChain marksOfEntries

theorem Node.variables_of_isFiller (h : isFiller node = true) : node.variables = [] := by
  cases node <;> simp [isFiller] at h
  simp [Node.variables]

mutual

theorem Node.mem_marks {v : Variable} : ∀ node : Node, v ∈ node.variables → .variable v ∈ node.marks
  | .literal _ => by grind
  | .variable ⟨_, chain, _, _⟩ => by grind [mem_marksOfChain chain]
  | .binary _ left right _ => by grind [left.mem_marks, right.mem_marks]
  | .ternary condition whenTrue whenFalse _ => by
    grind [condition.mem_marks, whenTrue.mem_marks, whenFalse.mem_marks]
  | .assign _ target value _ => by
    grind [target.mem_marks, value.mem_marks, value.variables_of_isFiller]
  | .call callee arguments _ => by grind [callee.mem_marks, mem_marksOfNodes arguments]
  | .group ⟨items, _, _⟩ => by grind [mem_marksOfNodes items]
  | .list items _ => by grind [mem_marksOfNodes items]
  | .record entries _ => by grind [mem_marksOfEntries entries]
  | .unary _ operand fixity _ => by cases fixity <;> grind [operand.mem_marks]
  | .block ⟨kind, none, body, _, _, _, _⟩ => by grind [mem_marksOfNodes body]
  | .block ⟨kind, some header, body, _, _, _, _⟩ => by
    grind [header.mem_marks, mem_marksOfNodes body]

theorem mem_marksOfNodes {v : Variable} :
    ∀ nodes : List Node, v ∈ variablesOfNodes nodes → .variable v ∈ marksOfNodes nodes
  | [] => by grind
  | node :: nodes => by grind [node.mem_marks, mem_marksOfNodes nodes]

theorem mem_marksOfChain {v : Variable} :
    ∀ chain : List Access, v ∈ variablesOfChain chain → .variable v ∈ marksOfChain chain
  | [] => by grind
  | .property _ :: chain => by grind [mem_marksOfChain chain]
  | .index value :: chain => by grind [value.mem_marks, mem_marksOfChain chain]

theorem mem_marksOfEntries {v : Variable} :
    ∀ entries : List (Literal × Node), v ∈ variablesOfEntries entries →
    .variable v ∈ marksOfEntries entries
  | [] => by grind
  | (_, value) :: entries => by grind [value.mem_marks, mem_marksOfEntries entries]

end

theorem Traces.exists_token (h : Traces drops ts ms ts') (hm : m ∈ ms) : ∃ t ∈ ts, m.IsAt t := by
  induction h with
  | done => cases hm
  | quiet _ _ ih => grind
  | functionName _ _ _ ih => grind
  | dropped _ _ _ ih => grind
  | mark hat _ ih => grind

theorem Script.isReserved_of_mem {script : Script} (h : parse options source = .ok script)
    (hv : v ∈ (Node.block script.root).variables) :
    Token.isReserved v.name options.varPrefix = false := by
  have htraces : Traces True _ _ _ := traces_of_parse h fun _ _ _ => trivial
  have hmark : .variable v ∈ script.root.marks := by simpa [Node.marks] using Node.mem_marks _ hv
  obtain ⟨t, ht, -, hname, hkind⟩ := htraces.exists_token hmark
  obtain ⟨-, pre, hlexed⟩ := Source.mem_tokens ht
  rw [hname]
  exact hlexed.notVariablePrefix hkind

-- ---------------------------------------------------------------------------
-- Printed names
-- ---------------------------------------------------------------------------

namespace Php.Style

/-- A decimal number ends at the first underscore behind it. -/
theorem numbered_inj {i j : Nat}
    (h : (toString i).toList ++ '_' :: cs = (toString j).toList ++ '_' :: cs') :
    i = j ∧ cs = cs' := by
  have hdigits (n : Nat) (cs : List Char) :
      ((toString n).toList ++ '_' :: cs).takeWhile (· != '_') = (toString n).toList := by
    rw [List.takeWhile_append_of_pos, List.takeWhile_cons_of_neg (by simp), List.append_nil]
    intro c hc
    have hne : c ≠ '_' := by
      rintro rfl
      simp at hc
    simpa using hne
  have heq : (toString i).toList = (toString j).toList := by rw [← hdigits i cs, h, hdigits]
  have hnumber : i = j := by simpa using congrArg (Nat.ofDigitChars 10 · 0) heq
  subst hnumber
  exact ⟨rfl, by simpa using h⟩

theorem phpVariable_some_inj {style : Style} {i j : ScopeId} :
    style.phpVariable name (some i) = style.phpVariable name' (some j) ↔
      i = j ∧ bareName name = bareName name' := by
  constructor
  · intro h
    have hchars := congrArg String.toList h
    simp only [phpVariable, String.toList_append, List.append_assoc,
      List.append_cancel_left_eq] at hchars
    obtain ⟨hid, hname⟩ := numbered_inj hchars
    exact ⟨hid, String.toList_inj.1 hname⟩
  · rintro ⟨rfl, hname⟩
    simp [phpVariable, hname]

theorem phpVariable_none_inj {style : Style} :
    style.phpVariable name none = style.phpVariable name' none ↔
    bareName name = bareName name' := by
  simp [phpVariable]

/-- When a variable that no scope declares is printed under a block-local name. -/
theorem phpVariable_none_eq_some {style : Style} {i : ScopeId} :
    style.phpVariable name none = style.phpVariable name' (some i) ↔
      bareName name = style.varPrefix ++ "_" ++ toString i ++ "_" ++ bareName name' := by
  simp [phpVariable, String.append_assoc]

theorem bareName_eq_self (h : name.toList.head? ≠ some '$') : bareName name = name := by
  rw [bareName, ← String.toList_inj, String.toList_ofList]
  cases hname : name.toList with
  | nil => rfl
  | cons c cs =>
    rw [List.dropWhile_cons_of_neg]
    simpa [hname] using h

theorem head?_of_phpVariable_eq {style : Style} {i : ScopeId} (hreserves : style.varPrefix ≠ "")
    (hname : Token.isReserved name style.varPrefix = false)
    (h : style.phpVariable name none = style.phpVariable name' (some i)) :
    name.toList.head? = some '$' := by
  refine Decidable.byContradiction fun hhead => ?_
  rw [phpVariable_none_eq_some, bareName_eq_self hhead] at h
  have hfront : style.varPrefix.toList.isPrefixOf name.toList = true := by
    rw [List.isPrefixOf_iff_prefix, h]
    simp [List.append_assoc]
  simp [Token.isReserved, hfront, hreserves] at hname

/-- The first variable, which no scope declares, is printed under the name of the second, a
block-local one, although its name was not refused: dollar signs hide the reserved prefix. -/
def Captures (style : Style) (v w : Variable) : Prop :=
  v.scope = none ∧ v.name.toList.head? = some '$' ∧
    ∃ i, w.scope = some i ∧ bareName v.name =
      style.varPrefix ++ "_" ++ toString i ++ "_" ++ bareName w.name

theorem captures_iff {style : Style} {i : ScopeId} (hreserves : style.varPrefix ≠ "")
    (hname : Token.isReserved v.name style.varPrefix = false) (hv : v.scope = none)
    (hw : w.scope = some i) :
    style.Captures v w ↔ style.phpVariable v.name none = style.phpVariable w.name (some i) := by
  constructor
  · rintro ⟨-, -, j, hj, hbare⟩
    cases hw.symm.trans hj
    exact phpVariable_none_eq_some.2 hbare
  · intro h
    exact ⟨hv, head?_of_phpVariable_eq hreserves hname h, i, hw, phpVariable_none_eq_some.1 h⟩

end Php.Style

-- ---------------------------------------------------------------------------
-- Scripts
-- ---------------------------------------------------------------------------

open Php

/-- Two variables of a script are printed under one name only if they are the same name of one
scope, or one of them captures the other. A variable that no scope declares is printed as a
block-local one only if its name starts with a dollar sign. -/
theorem Script.printed_names_eq_iff {options : Options} {source : Source} {script : Script}
    {v w : Variable} (h : parse options source = .ok script) (hreserves : options.varPrefix ≠ "")
    (hv : v ∈ (Node.block script.root).variables) (hw : w ∈ (Node.block script.root).variables) :
    let style := Style.ofOptions options
    (style.phpVariable v.name v.scope = style.phpVariable w.name w.scope ↔
      (v.scope = w.scope ∧ Style.bareName v.name = Style.bareName w.name) ∨
        style.Captures v w ∨ style.Captures w v) ∧
      (v.scope = none → ∀ name i, style.phpVariable v.name none = style.phpVariable name (some i) →
        v.name.toList.head? = some '$') := by
  intro style
  have hvname : Token.isReserved v.name style.varPrefix = false := isReserved_of_mem h hv
  have hwname : Token.isReserved w.name style.varPrefix = false := isReserved_of_mem h hw
  refine ⟨?_, fun _ name i heq => Style.head?_of_phpVariable_eq hreserves hvname heq⟩
  cases hvs : v.scope with
  | none =>
    cases hws : w.scope with
    | none => simp [Style.phpVariable_none_inj, Style.Captures, hvs, hws]
    | some j =>
      rw [← Style.captures_iff hreserves hvname hvs hws]
      simp [Style.Captures, hvs, hws]
  | some i =>
    cases hws : w.scope with
    | none =>
      rw [eq_comm, ← Style.captures_iff hreserves hwname hws hvs]
      simp [Style.Captures, hvs, hws]
    | some j => simp [Style.phpVariable_some_inj, Style.Captures, hvs, hws]

/-- A name that is not refused takes the place of a block-local variable. -/
theorem Script.printed_names_eq_iff_captured :
    ∃ script v w, parse {} (.ofText "" "let x; $__jpv_0_x") = .ok script ∧
      (Node.block script.root).variables = [w, v] ∧ w.scope = some 0 ∧ v.scope = none ∧
      (Style.ofOptions {}).Captures v w ∧
      (Style.ofOptions {}).phpVariable v.name v.scope =
        (Style.ofOptions {}).phpVariable w.name w.scope := by
  have hfacts : (parse {} (.ofText "" "let x; $__jpv_0_x")).toOption.any (fun script =>
      (Node.block script.root).variables.map (fun v => (v.name, v.scope)) ==
        [("x", some 0), ("$__jpv_0_x", none)]) = true := by decide +kernel
  obtain ⟨script, h, hnames⟩ := exists_of_any_parse hfacts
  have hhidden : "$__jpv_0_x".toList.head? = some '$' ∧
      Style.bareName "$__jpv_0_x" = "__jpv" ++ "_" ++ toString 0 ++ "_" ++ Style.bareName "x" := by
    decide +kernel
  obtain ⟨w, vs, hvariables, hw, hvs⟩ := List.map_eq_cons_iff.1 (eq_of_beq hnames)
  obtain ⟨v, vs, rfl, hv, hvs⟩ := List.map_eq_cons_iff.1 hvs
  obtain rfl := List.map_eq_nil_iff.1 hvs
  rw [Prod.mk.injEq] at hv hw
  have hcaptures : (Style.ofOptions {}).Captures v w :=
    ⟨hv.2, by rw [hv.1]; exact hhidden.1, 0, hw.2, by rw [hv.1, hw.1]; exact hhidden.2⟩
  obtain ⟨hiff, -⟩ := printed_names_eq_iff h (by decide) (v := v) (w := w) (by simp [hvariables])
    (by simp [hvariables])
  exact ⟨script, v, w, h, hvariables, hw.2, hv.2, hcaptures, hiff.2 (.inr (.inl hcaptures))⟩

end ScriptToPhp
