import ScriptToPhp.Php.Emit
import ScriptToPhp.Proofs.HelperUse

/-!
# Helper definitions

In front of a printed script stand the definitions of the helpers that it uses. They can be told
apart in the text, so that a definition is there just if the script refers to the helper.
-/

namespace ScriptToPhp

open Text Php

namespace Php

-- Text that is written out is a list of characters, and is looked at as such.

theorem mem_ofList {cs : List Char} (h : c ∈ cs) : c ∈ (String.ofList cs).toList := by
  rwa [String.toList_ofList]

theorem not_mem_ofList {cs : List Char} (h : c ∉ cs) : c ∉ (String.ofList cs).toList := by
  rwa [String.toList_ofList]

theorem not_mem_append {w w' : String} (h : c ∉ w.toList) (h' : c ∉ w'.toList) :
    c ∉ (w ++ w').toList := by
  rw [String.toList_append, List.mem_append, not_or]
  exact ⟨h, h'⟩

theorem mem_joined {texts : List String} :
    c ∈ (String.join (texts.map (· ++ "\n"))).toList ↔ ∃ line ∈ texts, c ∈ line.toList ∨
    c = '\n' := by
  simp [String.toList_join]

/-- A character that stands in the definition of this helper only. -/
def Helper.mark : Helper → Char
  | .dot => ','
  | .typeof => '|'

namespace Helper

theorem mark_not_mem_bodyLines {k k' : Helper} (hne : k' ≠ k) :
    ∀ line ∈ k'.bodyLines, k.mark ∉ line.toList := by
  cases k <;> cases k'
  case dot.dot | typeof.typeof => exact absurd rfl hne
  all_goals
    simp only [bodyLines, mark, List.forall_mem_cons, List.not_mem_nil, false_imp_iff,
      implies_true, and_true]
    and_intros <;> exact not_mem_ofList (by decide)

theorem mark_not_mem_definition {k k' : Helper} (hne : k' ≠ k) (hkey : k.mark ∉ key.toList) :
    k.mark ∉ (k'.definition key).toList := by
  have hclosed : ∀ w ∈ ["if (!isset(", "$GLOBALS['", k'.name, "']", ")) \x7b", "    ",
      " = function (", k'.parameters,
        ") \x7b", "    \x7d;", "\x7d"], k.mark ∉ w.toList := by
    cases k <;> cases k'
    case dot.dot | typeof.typeof => exact absurd rfl hne
    all_goals
      simp only [mark, name, parameters, List.forall_mem_cons, List.not_mem_nil, false_imp_iff,
        implies_true, and_true]
      and_intros <;> exact not_mem_ofList (by decide)
  simp only [List.forall_mem_cons, List.not_mem_nil, false_imp_iff, implies_true,
    and_true] at hclosed
  obtain ⟨hif, htable, hname, hclosing, hbrace, hindent, hfunction, hparameters, hopening, hend,
    hend'⟩ := hclosed
  have hentry := not_mem_append (not_mem_append (not_mem_append htable hkey) hname) hclosing
  have hhead :=
    not_mem_append (not_mem_append (not_mem_append hindent hentry) hfunction) hparameters
  rw [definition, mem_joined]
  rintro ⟨line, hline, hmem | hmem⟩
  · simp only [List.mem_append, List.mem_cons, List.not_mem_nil, or_false] at hline
    rcases hline with ((rfl | rfl) | hline) | rfl | rfl
    · exact not_mem_append (not_mem_append hif hentry) hbrace hmem
    · exact not_mem_append hhead hopening hmem
    · exact mark_not_mem_bodyLines hne line hline hmem
    · exact hend hmem
    · exact hend' hmem
  · cases k <;> exact absurd hmem (by decide)

theorem mark_mem_definition (k : Helper) (key : String) : k.mark ∈ (k.definition key).toList := by
  rw [definition, mem_joined]
  cases k with
  | dot =>
    refine ⟨_, List.mem_append_left
      _ (List.mem_append_left _ (List.mem_cons_of_mem _ List.mem_cons_self)), .inl ?_⟩
    rw [String.toList_append, String.toList_append]
    exact List.mem_append_left _ (List.mem_append_right _ (mem_ofList (by decide)))
  | typeof =>
    refine ⟨"        if (is_int($value) || is_float($value)) \x7b", ?_,
      .inl (mem_ofList (by decide))⟩
    exact List.mem_append_left _ (List.mem_append_right _ (by simp [bodyLines]))

end Helper

def definitions (used : List Helper) (namePrefix : String) : String :=
  String.join (used.map (·.definition namePrefix ++ "\n"))

theorem infix_definitions {used : List Helper} (hk : k ∈ used) :
    (k.definition key).toList <:+: (definitions used key).toList := by
  rw [definitions, String.toList_join, List.flatMap_def]
  refine List.IsInfix.trans ?_ (List.infix_of_mem_flatten
    (List.mem_map_of_mem (List.mem_map_of_mem hk)))
  rw [String.toList_append]
  exact (List.prefix_append _ _).isInfix

theorem mark_not_mem_definitions {used : List Helper} (hk : k ∉ used) (hkey : k.mark ∉ key.toList) :
    k.mark ∉ (definitions used key).toList := by
  have hlines : definitions used key =
      String.join ((used.map (·.definition key)).map (· ++ "\n")) := by
    simp [definitions, Function.comp_def]
  rw [hlines, mem_joined]
  rintro ⟨content, hcontent, hmem | hmem⟩
  · obtain ⟨k', hk', rfl⟩ := List.mem_map.1 hcontent
    have hne : k' ≠ k := fun heq => hk (heq ▸ hk')
    exact Helper.mark_not_mem_definition hne hkey hmem
  · cases k <;> exact absurd hmem (by decide)

theorem printScript_ofOptions (options : Options) (root : Block) :
    ((Printer.ofStyle (.ofOptions options)).printScript root).1 =
      (renderScript (.ofOptions options) root).text := rfl

theorem emit_php (options : Options) (file : String) (root : Block)
    (h : options.emitHelpers = true) :
    (emit options file root).php = (if options.phpOpenTag then "<?php\n\n" else "") ++
      definitions (renderScript (.ofOptions options) root).helpers.toList options.helperNames ++
      (renderScript (.ofOptions options) root).text := by
  have hdefinitions : ∀ used ∈ [[], [Helper.dot], [.typeof], [.dot, .typeof]],
      (if used.isEmpty then "" else helperDefinitions used options.helperNames ++ "\n") =
        definitions used options.helperNames := by
    simp [definitions, helperDefinitions, String.append_assoc]
  have hused : (renderScript (.ofOptions options) root).helpers.toList ∈
      [[], [Helper.dot], [.typeof], [.dot, .typeof]] := by
    obtain ⟨dot, typeof⟩ := (renderScript (.ofOptions options) root).helpers
    cases dot <;> cases typeof <;> decide
  rw [← hdefinitions _ hused]
  have hunion (used : Helpers) : Helpers.none.union used = used := rfl
  simp [emit, Printer.printScript, Printer.ofStyle, Style.ofOptions, h, hunion]

section

variable {options : Options} (hkeys : ∀ c ∈ options.helperNames.toList, continuesName c = true)
include hkeys

theorem Style.tells_ofOptions
    (h : ¬ reference ((ofOptions options).key k) <:+: '$' :: options.varPrefix.toList) :
    (ofOptions options).Tells k where
  key k' c hc := by
    have hname : k'.name.toList.all (fun c => !dividers.contains c) = true := by cases k' <;> decide
    rw [Style.key, String.toList_append, List.mem_append] at hc
    rcases hc with hc | hc
    · exact contains_eq_false_of_class (by decide +kernel) (hkeys c hc)
    · simpa [-List.contains_eq_mem] using List.all_eq_true.1 hname c hc
  varPrefix := h
  newline := rfl
  indent := rfl

/-- The definitions in front are told apart by their marks. -/
theorem definition_in_front (used : Helpers) :
    (k.definition options.helperNames).toList <:+:
        ((if options.phpOpenTag then "<?php\n\n" else "") ++
          definitions used.toList options.helperNames).toList ↔
      used.contains k = true := by
  have hmem : k ∈ used.toList ↔ used.contains k = true := by cases k <;> simp [Helpers.toList]
  rw [← hmem]
  refine ⟨fun hin => ?_, fun hk => ?_⟩
  · by_contra hk
    have hmark : continuesName k.mark = false := by cases k <;> decide +kernel
    have hkey : k.mark ∉ options.helperNames.toList := fun hmem => by simp [hkeys _ hmem] at hmark
    have htag : k.mark ∉ (if options.phpOpenTag then "<?php\n\n" else "").toList := by
      split <;> cases k <;> exact not_mem_ofList (by decide)
    exact not_mem_append htag (mark_not_mem_definitions hk hkey)
      (hin.subset (k.mark_mem_definition _))
  · rw [String.toList_append]
    exact (infix_definitions hk).trans (List.suffix_append _ _).isInfix

end

end Php

namespace Script

/-- The output of a script without strings that does not name the table of globals is an open tag,
if asked for, the definitions of some helpers and the printed body. The definition of a helper is
there just if the body refers to the helper, unless the prefix of variables itself contains such a
reference. -/
theorem definitions_emitted_iff {options : Options} {source : Source} {script : Script}
    (h : parse options source = .ok script) (hemit : options.emitHelpers = true)
    (hkeys : ∀ c ∈ options.helperNames.toList, continuesName c = true)
    (hstring : ∀ t ∈ source.tokens options.reserved, t.kind ≠ .string)
    (hglobals : ∀ t ∈ source.tokens options.reserved,
      t.kind = .variable → ¬ "GLOBALS".toList <:+: t.text.toList)
    (file : String) :
    ∃ front used, front = (if options.phpOpenTag then "<?php\n\n" else "") ++
      definitions used options.helperNames ∧
      used.Sublist [.dot, .typeof] ∧
      (emit options file script.root).php =
        front ++ ((Printer.ofStyle (.ofOptions options)).printScript script.root).1 ∧
      ∀ k : Helper, ¬ ((Style.ofOptions options).helper k).text.toList <:+:
        ("$" ++ options.varPrefix).toList →
        ((k.definition options.helperNames).toList <:+: front.toList ↔
          ((Style.ofOptions options).helper k).text.toList <:+:
            ((Printer.ofStyle (.ofOptions options)).printScript script.root).1.toList) := by
  refine ⟨_, (renderScript (.ofOptions options) script.root).helpers.toList, rfl,
    List.filter_sublist, ?_, fun k hvariables => ?_⟩
  · rw [printScript_ofOptions]
    exact emit_php options file script.root hemit
  have htells := Style.tells_ofOptions hkeys (by simpa [Style.helper_text] using hvariables)
  have htokens : ∀ t ∈ source.tokens options.reserved,
      t.Harmless options.reserved source.chars := by
    intro t ht
    obtain ⟨hneutral, hlexed⟩ := Source.mem_tokens ht
    exact ⟨hlexed, hneutral, hstring t ht, hglobals t ht⟩
  have hbody : (renderScript (.ofOptions options) script.root).Traced (.ofOptions options) k := by
    obtain ⟨-, -, hmade⟩ := made h
    have hnodes : ∀ node ∈ script.root.body, node.PrintsTraced (.ofOptions options) k :=
      fun node hnode => (hmade node hnode).printsTraced htells htokens
    exact traced_renderScript htells hnodes
  rw [Style.helper_text, printScript_ofOptions]
  exact (definition_in_front hkeys _).trans hbody.contains_iff

/-- An access brings the definition of its helper, behind the tag, and no other. -/
theorem definitions_emitted_iff_access : ∃ script front,
    parse { phpOpenTag := true } (.ofText "" "x = b.c") = .ok script ∧
      ((Printer.ofStyle (.ofOptions { phpOpenTag := true })).printScript script.root).1 =
        "$x = call_user_func($GLOBALS['__jpv_dot'], $b, 'c');\n" ∧
      (emit { phpOpenTag := true } "" script.root).php =
        front ++ "$x = call_user_func($GLOBALS['__jpv_dot'], $b, 'c');\n" ∧
      (Helper.dot.definition "__jpv_").toList <:+: front.toList ∧
      ¬ (Helper.typeof.definition "__jpv_").toList <:+: front.toList := by
  have hfacts : (parse { phpOpenTag := true } (.ofText "" "x = b.c")).toOption.any (fun script =>
      ((Printer.ofStyle (.ofOptions { phpOpenTag := true })).printScript script.root).1 ==
        "$x = call_user_func($GLOBALS['__jpv_dot'], $b, 'c');\n") = true := by decide +kernel
  have htokens : ∀ t ∈ (Source.ofText "" "x = b.c").tokens
      ({ phpOpenTag := true } : Options).reserved,
        t.kind ≠ .string ∧ (t.kind = .variable → ¬ "GLOBALS".toList <:+: t.text.toList) := by
        decide +kernel
  have hkeys : ∀ c ∈ ({ phpOpenTag := true } : Options).helperNames.toList,
    continuesName c = true :=
    List.all_eq_true.1 (by decide +kernel)
  obtain ⟨script, h, htext⟩ := exists_of_any_parse hfacts
  obtain ⟨front, used, -, -, hphp, hiff⟩ :=
    definitions_emitted_iff h rfl hkeys (fun t ht => (htokens t ht).1)
      (fun t ht => (htokens t ht).2) ""
  rw [eq_of_beq htext] at hphp hiff
  refine ⟨script, front, h, eq_of_beq htext, hphp, ?_, ?_⟩
  · exact (hiff .dot (by decide +kernel)).2 (by decide +kernel)
  · exact fun hin => absurd ((hiff .typeof (by decide +kernel)).1 hin) (by decide +kernel)

/-- A prefix of variables can look like a reference to a helper, which is then neither used nor
defined. -/
theorem reference_undefined : ∃ script,
    parse { varPrefix := "GLOBALS['hdot']", helperPrefix := some "h" } (.ofText "" "let x") =
      .ok script ∧
      (∀ c ∈ "h".toList, continuesName c = true) ∧
      (∀ t ∈ (Source.ofText "" "let x").tokens ⟨"__JPC", "GLOBALS['hdot']"⟩,
        t.kind ≠ .string ∧ (t.kind = .variable → ¬ "GLOBALS".toList <:+: t.text.toList)) ∧
      "$GLOBALS['hdot']".toList <:+:
        ((Printer.ofStyle
          (.ofOptions { varPrefix := "GLOBALS['hdot']", helperPrefix := some "h" })).printScript
          script.root).1.toList ∧
      ¬ (Helper.dot.definition "h").toList <:+:
        (emit { varPrefix := "GLOBALS['hdot']", helperPrefix := some "h" } ""
          script.root).php.toList := by
  have hfacts : (parse { varPrefix := "GLOBALS['hdot']", helperPrefix := some "h" }
    (.ofText "" "let x")).toOption.any
      (fun script =>
        ((Printer.ofStyle
          (.ofOptions { varPrefix := "GLOBALS['hdot']", helperPrefix := some "h" })).printScript
          script.root).1 == "$GLOBALS['hdot']_0_x = null;\n" &&
        (emit { varPrefix := "GLOBALS['hdot']", helperPrefix := some "h" } "" script.root).php ==
          "$GLOBALS['hdot']_0_x = null;\n") = true := by decide +kernel
  obtain ⟨script, h, hshape⟩ := exists_of_any_parse hfacts
  simp only [Bool.and_eq_true, beq_iff_eq] at hshape
  obtain ⟨hbody, hphp⟩ := hshape
  refine ⟨script, h, List.all_eq_true.1
    (by decide +kernel), by decide +kernel, by rw [hbody]; decide +kernel, fun hin => ?_⟩
  rw [hphp] at hin
  exact absurd (hin.subset (Helper.mark_mem_definition .dot "h")) (by decide +kernel)

end Script

end ScriptToPhp
