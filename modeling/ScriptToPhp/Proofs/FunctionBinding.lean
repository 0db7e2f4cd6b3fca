import ScriptToPhp.Proofs.Captured
import ScriptToPhp.Proofs.PrintedOutline

/-!
# Named functions

A named function that stands as a statement is printed as an assignment of its closure to its name.
As a value it is printed without the name. Few parts of a script are not printed at all: the header
of a catch block, the keys behind a parameter, and what stands behind the only statement that a body
prints.
-/

namespace ScriptToPhp

/-- The part is in a block, but is not printed with it. -/
def Block.Omits (b : Block) (part : Node) : Prop :=
  (b.kind = .catchBlock ∧ part ∈ b.header) ∨
    (b.kind = .function ∧ ∃ v, .variable v ∈ b.parameters ∧ .index part ∈ v.chain) ∨
    (b.printsFirstOnly = true ∧ part ∈ b.body.tail)

theorem Below.exists_of_mem_body {b : Block} {node : Node} (h : node ∈ b.body) :
    ∃ roles, Below (.block b) roles node := by
  obtain ⟨role, hpart⟩ := Block.exists_part_of_mem_body h
  exact ⟨[role], .inside hpart (.here node)⟩

theorem Below.of_variable {v : Variable} (h : Below (.variable v) roles (.block f)) :
    ∃ value path, .index value ∈ v.chain ∧ Below value path (.block f) := by
  cases h with
  | inside hpart h =>
    obtain ⟨value, hvalue, heq⟩ := List.mem_map.1 hpart
    cases heq
    obtain ⟨access, haccess, hindex⟩ := List.mem_filterMap.1 hvalue
    cases access with
    | property key => cases hindex
    | index value =>
      cases hindex
      exact ⟨_, _, haccess, h⟩

namespace Php

section

variable {tokens : List Token} {b f : Block} {node part : Node}

theorem Setting.exists_parameter_part (s : Setting) (hkind : b.kind = .function)
    (hparameter : node ∈ b.parameters) (h : (role, part) ∈ b.parameterParts node)
    (hbelow : Below part roles (.block f)) :
    (∃ place, (place = .parameter → part.isAssignable = false) ∧
      (role, ⟨s, place, part⟩) ∈ s.parameterParts b node) ∨
      ∃ omitted path, b.Omits omitted ∧ Below omitted path (.block f) := by
  cases node with
  | assign op target value span =>
    simp only [Block.parameterParts, List.mem_cons, Prod.mk.injEq, List.not_mem_nil, or_false] at h
    obtain ⟨rfl, rfl⟩ | ⟨rfl, rfl⟩ := h
    · exact .inl ⟨.target, by simp, List.mem_cons_self⟩
    · exact .inl ⟨.value, by simp, List.mem_cons_of_mem _ List.mem_cons_self⟩
  | «variable» v =>
    cases List.mem_singleton.1 h
    obtain ⟨value, path, hvalue, hbelow⟩ := hbelow.of_variable
    exact .inr ⟨value, path, .inr (.inl ⟨hkind, v, hparameter, hvalue⟩), hbelow⟩
  | _ =>
    cases List.mem_singleton.1 h
    exact .inl ⟨.parameter, fun _ => rfl, List.mem_singleton.2 rfl⟩

theorem Setting.exists_block_part (s : Setting) (hmade : Node.Made tokens (.block b))
    (hlexed : ∀ t ∈ tokens, ∃ pre, t.Lexed reserved chars pre) (h : (role, part) ∈ b.parts)
    (hbelow : Below part roles (.block f)) :
    (∃ inner place, (place = .parameter → part.isAssignable = false) ∧
      (role, ⟨inner, place, part⟩) ∈ s.blockParts b) ∨
      ∃ omitted path, b.Omits omitted ∧ Below omitted path (.block f) := by
  unfold Block.parts at h
  unfold blockParts
  split at h
  next hkind =>
    rw [if_pos hkind]
    rcases List.mem_append.1 h with h | h
    · obtain ⟨-, g, hgroup, -⟩ := hmade.of_function hkind hlexed
      have hparameters : b.headerParts = b.parameters.flatMap b.parameterParts := by
        simp [Block.headerParts, Block.parameters, hkind, hgroup]
      rw [hparameters] at h
      obtain ⟨parameter, hparameter, hpart⟩ := List.mem_flatMap.1 h
      refine (s.exists_parameter_part hkind hparameter hpart hbelow).imp_left ?_
      rintro ⟨place, hplace, hshown⟩
      exact ⟨s, place, hplace,
        List.mem_append_left _ (List.mem_flatMap.2 ⟨parameter, hparameter, hshown⟩)⟩
    · obtain ⟨statement, hstatement, heq⟩ := List.mem_map.1 h
      cases heq
      exact .inl ⟨_, .statement, by simp,
        List.mem_append_right _ (List.mem_map.2 ⟨part, hstatement, rfl⟩)⟩
  next hkind =>
    rw [if_neg hkind]
    obtain ⟨found, hfound, heq⟩ := List.mem_map.1 h
    cases heq
    rcases List.mem_append.1 hfound with hheader | hbody
    · have hheader := Option.mem_toList.1 hheader
      by_cases hcatch : b.kind = .catchBlock
      · exact .inr ⟨part, roles, .inl ⟨hcatch, hheader⟩, hbelow⟩
      · have hshown := mem_shownHeader hmade.fits hheader hcatch hkind
        exact .inl ⟨s, .value, by simp, List.mem_append_left _ (List.mem_map.2 ⟨part, hshown, rfl⟩)⟩
    · rcases exists_bodyParts hmade.fits hkind hbody with ⟨inner, hinner⟩ | hlost
      · exact .inl ⟨inner, .statement, by simp,
          List.mem_append_right _ (List.mem_map.2 ⟨_, hinner, rfl⟩)⟩
      · exact .inr ⟨part, roles, .inr (.inr hlost), hbelow⟩

theorem Printing.exists_value_part (s : Setting) {place : Place} (hmade : Node.Made tokens node)
    (hblock : node.block? = none) (hplace : place = .parameter → node.isAssignable = false)
    (h : (role, part) ∈ node.parts) (hbelow : Below part roles (.block f)) :
    ∃ inner place', place' ≠ .parameter ∧
    (role, ⟨inner, place', part⟩) ∈ Printing.parts ⟨s, place, node⟩ := by
  -- What is printed depends on the place for variables only.
  obtain ⟨same, hsame, hparts⟩ : ∃ same, same ≠ .parameter ∧
      Printing.parts ⟨s, place, node⟩ = Printing.parts ⟨s, same, node⟩ := by
    by_cases heq : place = .parameter
    · refine ⟨.value, by simp, ?_⟩
      cases node with
      | «variable» v => cases hplace heq
      | _ => rfl
    · exact ⟨place, heq, rfl⟩
  rw [hparts]
  rcases exists_part s hmade hsame h with
    hshown | ⟨arguments, span, rfl, hhost⟩ | ⟨b, rfl, -⟩
  · exact hshown
  · -- The name of a host function is bare.
    cases part with
    | «variable» v =>
      obtain ⟨value, path, hvalue, -⟩ := hbelow.of_variable
      simp only [Setting.isHostCall, Bool.and_eq_true, Variable.isBare, List.isEmpty_iff] at hhost
      simp [hhost.1.1.1] at hvalue
    | _ => cases hhost
  · cases hblock

/-- A block below a node that is printed is printed, or stands in what is left out on the way. -/
theorem Shown.exists_block (s : Setting) {place : Place} (hbelow : Below node roles (.block f))
    (hmade : node.AllMade tokens) (hlexed : ∀ t ∈ tokens, ∃ pre, t.Lexed reserved chars pre)
    (hplace : place = .parameter → node.isAssignable = false) :
    (∃ s' place', Shown ⟨s, place, node⟩ roles ⟨s', place', .block f⟩) ∨
      ∃ path b omitted path', Below node path (.block b) ∧ b.Omits omitted ∧
      Below omitted path' (.block f) := by
  generalize htarget : Node.block f = target at hbelow
  induction hbelow generalizing s place with
  | here node =>
    subst htarget
    exact .inl ⟨s, place, .here _⟩
  | @inside node part target role roles hpart hbelow ih =>
    subst htarget
    have hstep : (∃ inner place', (place' = .parameter → part.isAssignable = false) ∧
        (role, ⟨inner, place', part⟩) ∈ Printing.parts ⟨s, place, node⟩) ∨
        ∃ b, node = .block b ∧ ∃ omitted path, b.Omits omitted ∧ Below omitted path (.block f) := by
      cases hnode : node.block? with
      | none =>
        obtain ⟨inner, place', hne, hshown⟩ :=
          Printing.exists_value_part s hmade.here hnode hplace hpart hbelow
        exact .inl ⟨inner, place', fun heq => absurd heq hne, hshown⟩
      | some b =>
        cases Node.eq_block hnode
        exact (s.exists_block_part hmade.here hlexed hpart hbelow).imp_right fun homitted =>
          ⟨b, rfl, homitted⟩
    rcases hstep with ⟨inner, place', hplace', hshown⟩ | ⟨b, rfl, omitted, path, homits, homitted⟩
    · rcases @ih inner place' (hmade.part hpart) hplace' rfl with
        ⟨s', place'', h⟩ | ⟨path, b, omitted, path', h, homits⟩
      · exact .inl ⟨s', place'', .inside hshown h⟩
      · exact .inr ⟨role :: path, b, omitted, path', .inside hpart h, homits⟩
    · exact .inr ⟨[], b, omitted, path, .here _, homits, homitted⟩

end

-- ---------------------------------------------------------------------------
-- The text of a function
-- ---------------------------------------------------------------------------

theorem standsIn_binding (s : Setting) {f : Block} (hkind : f.kind = .function)
    (hname : f.name = some name) :
    ("$" ++ Style.bareName name ++ " = function (").toList <:+:
      (render s .statement (.block f)).text.toList := by
  rw [render_block]
  simp only [renderBlock, hkind, hname, Setting.varName, Style.phpVariable, Fragment.parenthesized]
  refine List.IsPrefix.isInfix ?_
  simp [List.prefix_append_right_inj]

/-- A statement of a block that is printed is printed with it, as a statement, or stands behind the
only one that is. -/
theorem Setting.exists_statement (s : Setting) (place : Place) {b : Block} {node : Node}
    (hfits : b.Fits) (h : node ∈ b.body) :
    (∃ inner, (render inner .statement node).StandsIn (render s place (.block b))) ∨
      (b.printsFirstOnly = true ∧ node ∈ b.body.tail) := by
  by_cases hkind : b.kind = .function
  · have hpart : (Role.body b, ⟨(s.within b).deeper, .statement, node⟩) ∈ s.blockParts b := by
      simp [blockParts, hkind, h]
    exact .inl ⟨_, (isPart_block hpart).standsIn⟩
  · rcases exists_bodyParts hfits hkind h with ⟨inner, hinner⟩ | hlost
    · exact .inl ⟨inner, standsIn_body hinner⟩
    · exact .inr hlost

/-- The name of a function is not among what it captures, nor does it change that. -/
theorem captures_unnamed (callable : List String) (f : Block) (hkind : f.kind = .function) :
    captures callable { f with name := none } = captures callable f := by
  have hmentions (context : CaptureContext) :
      mentions context (.block { f with name := none }) = mentions context (.block f) := by
    rw [mentions_function hkind, mentions_function (f := { f with name := none }) hkind]
    rfl
  have hscopes : ({ f with name := none } : Block).blocks.map (·.scope) =
    f.blocks.map (·.scope) := by
    simp [Block.blocks, Block.walk_eq, Visit.asBlock?]
  simp only [captures, hmentions, hscopes]

theorem render_closure (s : Setting) {place : Place} {f : Block} (hkind : f.kind = .function)
    (hplace : place ≠ .statement) :
    render s place (.block f) = "function " ++
      Fragment.parenthesized (.join ", " (renderParameters s f.header)) ++
      useClause s f ++ " " ++ braced s f.body (s.within f).deeper
        ⟨(renderHeader · f.header), (renderParameters · f.header),
          (renderNodes · .statement f.body)⟩ := by
  rw [render_block]
  cases place with
  | statement => exact absurd rfl hplace
  | _ => simp only [renderBlock, hkind]

theorem render_unnamed (s : Setting) {place : Place} (f : Block) (hkind : f.kind = .function)
    (hplace : place ≠ .statement) :
    render s place (.block f) = render s place (.block { f with name := none }) := by
  have huse : useClause s { f with name := none } = useClause s f := by
    simp only [useClause, captures_unnamed _ f hkind]
  rw [render_closure s hkind hplace,
    render_closure (f := { f with name := none }) s hkind hplace, huse]
  rfl

end Php

namespace Script

open Php

/-- A named function that stands as a statement is printed as an assignment to its name, unless what
it stands in is not printed. As a value it is printed as if it had no name. -/
theorem named_statement_bound {options : Options} {source : Source} {script : Script}
    (h : parse options source = .ok script) (p : Printer) {f : Block} (hkind : f.kind = .function)
    (hname : f.name = some name) :
    ((∃ b ∈ script.root.blocks, .block f ∈ b.body) →
      ("$" ++ Style.bareName name ++ " = function (").toList <:+:
        (p.printScript script.root).1.toList ∨
        ∃ c ∈ script.root.blocks, ∃ omitted roles, c.Omits omitted ∧
        Below omitted roles (.block f)) ∧
    ∀ (s : Setting) (place : Place), place ≠ .statement →
      render s place (.block f) = render s place (.block { f with name := none }) := by
  refine ⟨fun ⟨b, hb, hf⟩ => ?_, fun s place => render_unnamed s f hkind⟩
  obtain ⟨hmain, hnone, hmade⟩ := made h
  obtain ⟨roles, hbelow⟩ := exists_below_of_mem_blocks hb
  rcases hbelow.of_root hmain hnone with heq | ⟨node, path, hnode, hbelow⟩
  · cases heq
    exact .inl ((standsIn_binding _ hkind hname).trans (standsIn_printScript p hf))
  have hroot {path : List Role} {target : Node} (h : Below node path target) :
      Below (.block script.root) (.plain :: path) target :=
    h.inBlock (by simp [hmain]) (List.mem_append_right _ hnode)
  have hlexed : ∀ t ∈ source.tokens options.reserved, ∃ pre,
      t.Lexed options.reserved source.chars pre :=
    fun t ht => (Source.mem_tokens ht).2
  have hplace : Place.statement = .parameter → node.isAssignable = false := by simp
  rcases Shown.exists_block (.ofScript p.style script.root) hbelow
    (hmade node hnode) hlexed hplace with
    ⟨s, place, hshown⟩ | ⟨path, c, omitted, path', hc, homits, hpath'⟩
  · have hfits : b.Fits := (hmade node hnode).below hbelow |>.here.fits
    rcases s.exists_statement place hfits hf with ⟨inner, hstands⟩ | hlost
    · have hprinted := List.IsInfix.trans (hstands.trans hshown.standsIn)
        (standsIn_printScript p hnode)
      exact .inl ((standsIn_binding inner hkind hname).trans hprinted)
    · exact .inr ⟨b, hb, .block f, [], .inr (.inr hlost), .here _⟩
  · obtain ⟨rest, hrest⟩ := Below.exists_of_mem_body hf
    exact .inr ⟨c, (hroot hc).mem_blocks, omitted, path' ++ rest, homits, hpath'.trans hrest⟩

/-- A function that is assigned elsewhere loses its name, though it is called by it; one in its body
keeps its own. -/
theorem named_statement_bound_inner : ∃ script f g,
    parse {} (.ofText "" "x = function f() { function $g() {} }\nf()") = .ok script ∧
      f ∈ script.root.blocks ∧ f.kind = .function ∧ f.name = some "f" ∧
      .block g ∈ f.body ∧ g.kind = .function ∧ g.name = some "$g" ∧
      ((Printer.ofStyle (.ofOptions {})).printScript script.root).1 =
        "$x = function () \x7b\n    $g = function () \x7b\x7d;\n\x7d;\ncall_user_func($f);\n" ∧
      ("$" ++ Style.bareName "$g" ++ " = function (").toList <:+:
        ((Printer.ofStyle (.ofOptions {})).printScript script.root).1.toList ∧
      ¬ ("$" ++ Style.bareName "f" ++ " = function (").toList <:+:
        ((Printer.ofStyle (.ofOptions {})).printScript script.root).1.toList := by
  have hfacts : (parse {} (.ofText "" "x = function f() { function $g() {} }\nf()")).toOption.any
      (fun script =>
        ((Printer.ofStyle (.ofOptions {})).printScript script.root).1 ==
          "$x = function () \x7b\n    $g = function () \x7b\x7d;\n\x7d;\ncall_user_func($f);\n" &&
        script.root.blocks.all (fun b =>
          b.kind != .catchBlock && !b.printsFirstOnly && b.parameters.isEmpty) &&
        script.root.blocks.any fun f => f.kind == .function && f.name == some "f" &&
          f.body.any fun node => node.block?.any fun g =>
            g.kind == .function && g.name == some "$g") = true := by
    decide +kernel
  obtain ⟨script, h, hshape⟩ := exists_of_any_parse hfacts
  simp only [Bool.and_eq_true, beq_iff_eq, List.any_eq_true, List.all_eq_true,
    Option.any_eq_true, bne_iff_ne, Bool.not_eq_true', List.isEmpty_iff] at hshape
  obtain ⟨⟨htext, hblocks⟩, f, hf, ⟨hfunction, hname⟩, node, hnode, g, hblock, hkind, hname'⟩ :=
    hshape
  obtain rfl := Node.eq_block hblock
  refine ⟨script, f, g, h, hf, hfunction, hname, hnode, hkind, hname', htext,
    ?_, by rw [htext]; decide +kernel⟩
  rcases (named_statement_bound h (.ofStyle (.ofOptions {})) hkind hname').1 ⟨f, hf, hnode⟩ with
    hbound | ⟨c, hc, omitted, roles, homits, -⟩
  · exact hbound
  · obtain ⟨⟨hcatch, hfirst⟩, hnone⟩ := hblocks c hc
    simp [Block.Omits, hcatch, hfirst, hnone] at homits

end Script

end ScriptToPhp
