import ScriptToPhp.Proofs.Captured
import ScriptToPhp.Proofs.Made
import ScriptToPhp.Proofs.Visiting

/-!
# Which variables are printed

Whatever stands in a script is printed, with few exceptions: of a catch header only the bound name
is, of the parameters of a function only their names and default values, and of a body without
braces behind a keyword that has no form of its own only the first statement.
-/

namespace ScriptToPhp

-- ---------------------------------------------------------------------------
-- What is collected from a tree
-- ---------------------------------------------------------------------------

theorem walk_subset_walkNodes {node : Node} (h : node ∈ nodes) : node.walk ⊆ walkNodes nodes := by
  induction nodes with
  | nil => cases h
  | cons first nodes ih =>
    rw [walkNodes]
    rcases List.mem_cons.1 h with rfl | h
    · exact List.subset_append_left _ _
    · exact List.subset_append_of_subset_right _ (ih h)

theorem walk_subset_walkChain {value : Node} (h : value ∈ chain.filterMap Access.index?) :
    value.walk ⊆ walkChain chain := by
  induction chain with
  | nil => cases h
  | cons access chain ih =>
    cases access with
    | property key =>
      rw [walkChain]
      exact List.subset_cons_of_subset _ (ih h)
    | index first =>
      rw [walkChain]
      rcases List.mem_cons.1 h with rfl | h
      · exact List.subset_append_left _ _
      · exact List.subset_append_of_subset_right _ (ih h)

theorem walk_subset_walkEntries {entry : Literal × Node} (h : entry ∈ entries) :
    entry.2.walk ⊆ walkEntries entries := by
  induction entries with
  | nil => cases h
  | cons first entries ih =>
    obtain ⟨key, value⟩ := first
    rw [walkEntries]
    rcases List.mem_cons.1 h with rfl | h
    · exact List.subset_append_of_subset_left _ (List.subset_cons_self _ _)
    · exact List.subset_append_of_subset_right _ (ih h)

theorem Block.walk_subset_header {f : Block} {header : Node} (hheader : header ∈ f.header) :
    header.walk ⊆ f.walk := by
  rw [Block.walk_eq, hheader]
  exact List.subset_append_of_subset_left _ (List.subset_cons_self _ _)

theorem Block.walk_subset_body {f : Block} (h : node ∈ f.body) : node.walk ⊆ f.walk := by
  rw [Block.walk_eq]
  exact List.subset_append_of_subset_right _ (walk_subset_walkNodes h)

theorem Block.exists_header {f : Block} (h : (role, part) ∈ f.headerParts) :
    ∃ header ∈ f.header, part.walk ⊆ header.walk := by
  unfold headerParts at h
  split at h
  next => cases h
  next g hheader =>
    obtain ⟨parameter, hparameter, hpart⟩ := List.mem_flatMap.1 h
    have hitem : parameter.walk ⊆ (Node.group g).walk := by
      rw [Node.walk, Group.walk_eq]
      exact List.subset_cons_of_subset _ (walk_subset_walkNodes hparameter)
    refine ⟨.group g, hheader, List.Subset.trans ?_ hitem⟩
    cases parameter with
    | assign op target value span =>
      rw [Node.walk]
      simp only [parameterParts, List.mem_cons, Prod.mk.injEq, List.not_mem_nil, or_false] at hpart
      obtain ⟨-, rfl⟩ | ⟨-, rfl⟩ := hpart
      · exact List.subset_append_of_subset_left _ (List.subset_cons_self _ _)
      · exact List.subset_append_right _ _
    | _ =>
      cases List.mem_singleton.1 hpart
      exact List.Subset.refl _
  next header _ hheader =>
    cases List.mem_singleton.1 h
    exact ⟨part, hheader, List.Subset.refl _⟩

theorem Block.walk_part {b : Block} (h : (role, part) ∈ b.parts) : part.walk ⊆ b.walk := by
  unfold parts at h
  split at h
  next =>
    rcases List.mem_append.1 h with h | h
    · obtain ⟨header, hheader, hwalk⟩ := exists_header h
      exact List.Subset.trans hwalk (walk_subset_header hheader)
    · obtain ⟨node, hnode, heq⟩ := List.mem_map.1 h
      cases heq
      exact walk_subset_body hnode
  next =>
    obtain ⟨node, hnode, heq⟩ := List.mem_map.1 h
    cases heq
    rcases List.mem_append.1 hnode with hnode | hnode
    · exact walk_subset_header (Option.mem_toList.1 hnode)
    · exact walk_subset_body hnode

theorem Node.walk_part {node : Node} (h : (role, part) ∈ node.parts) : part.walk ⊆ node.walk := by
  cases node with
  | literal l => cases h
  | «variable» v =>
    obtain ⟨name, chain, scope, span⟩ := v
    obtain ⟨value, hvalue, heq⟩ := List.mem_map.1 h
    cases heq
    rw [Node.walk, Variable.walk]
    exact List.subset_cons_of_subset _ (List.subset_cons_of_subset _ (walk_subset_walkChain hvalue))
  | call callee arguments span =>
    rw [Node.walk]
    rcases List.mem_cons.1 h with heq | h
    · cases heq
      exact List.subset_append_of_subset_left _ (List.subset_cons_self _ _)
    · obtain ⟨argument, hargument, heq⟩ := List.mem_map.1 h
      cases heq
      exact List.subset_append_of_subset_right _ (walk_subset_walkNodes hargument)
  | group g =>
    obtain ⟨item, hitem, heq⟩ := List.mem_map.1 h
    cases heq
    rw [Node.walk, Group.walk_eq]
    exact List.subset_cons_of_subset _ (walk_subset_walkNodes hitem)
  | list items span =>
    obtain ⟨item, hitem, heq⟩ := List.mem_map.1 h
    cases heq
    rw [Node.walk]
    exact List.subset_cons_of_subset _ (walk_subset_walkNodes hitem)
  | record entries span =>
    obtain ⟨entry, hentry, heq⟩ := List.mem_map.1 h
    cases heq
    rw [Node.walk]
    exact List.subset_cons_of_subset _ (walk_subset_walkEntries hentry)
  | block b =>
    rw [Node.walk]
    exact List.subset_cons_of_subset _ (Block.walk_part h)
  | binary op left right span | assign op left right span | unary op left fixity span =>
    simp only [Node.parts, List.mem_cons, Prod.mk.injEq, List.not_mem_nil, or_false] at h
    rw [Node.walk]
    grind
  | ternary condition whenTrue whenFalse span =>
    simp only [Node.parts, List.mem_cons, Prod.mk.injEq, List.not_mem_nil, or_false] at h
    rw [Node.walk]
    grind

theorem Below.walk_subset {target : Node} (h : Below node roles target) :
    target.walk ⊆ node.walk := by
  induction h with
  | here => exact List.Subset.refl _
  | inside hpart _ ih => exact List.Subset.trans ih (Node.walk_part hpart)

theorem Below.mem_variables (h : Below node roles (.variable v)) : v ∈ node.variables := by
  refine node.mem_variables.2 (h.walk_subset ?_)
  rw [Node.walk]
  cases v
  rw [Variable.walk]
  exact List.mem_cons_of_mem _ List.mem_cons_self

theorem Below.mem_blocks (h : Below (.block root) roles (.block b)) : b ∈ root.blocks := by
  have hvisit : .block b ∈ (Node.block root).walk := by
    refine h.walk_subset ?_
    rw [Node.walk, Block.walk_eq]
    exact List.mem_cons_of_mem _ List.mem_cons_self
  rw [Node.walk] at hvisit
  exact Block.mem_blocks.2 (by simpa using hvisit)

theorem Below.of_root {target : Node} (h : Below (.block root) roles target)
    (hmain : root.kind = .main) (hnone : root.header = none) :
    target = .block root ∨ ∃ node path, node ∈ root.body ∧ Below node path target := by
  cases h with
  | here => exact .inl rfl
  | inside hpart h =>
    simp only [Node.parts, Block.parts, hmain, hnone, reduceCtorEq, if_false, Option.toList_none,
      List.nil_append, List.mem_map, Prod.mk.injEq] at hpart
    obtain ⟨_, hnode, -, rfl⟩ := hpart
    exact .inr ⟨_, _, hnode, h⟩

-- ---------------------------------------------------------------------------
-- What fits a block
-- ---------------------------------------------------------------------------

def BlockKind.takesHeader : BlockKind → Bool
  | .main | .elseBranch | .tryBlock | .finallyBlock | .defaultLabel => false
  | _ => true

def BlockKind.takesBody : BlockKind → Bool
  | .returnJump | .breakJump | .continueJump | .throwJump | .caseLabel | .defaultLabel => false
  | _ => true

theorem BlockShape.takesHeader (hdefault : BlockShape.ofKeyword word ≠ .defaultLabel)
    (hforbidden : BlockShape.ofKeyword word ≠ .headed .forbidden) :
    (BlockKind.ofKeyword word).takesHeader = true := by
  unfold BlockKind.ofKeyword
  split <;> first | rfl | simp [BlockShape.ofKeyword] at hdefault hforbidden

theorem BlockShape.takesBody (hjump : BlockShape.ofKeyword word ≠ .jump)
    (hcase : BlockShape.ofKeyword word ≠ .caseLabel)
    (hdefault : BlockShape.ofKeyword word ≠ .defaultLabel) :
    (BlockKind.ofKeyword word).takesBody = true := by
  unfold BlockKind.ofKeyword
  split <;> first | rfl | simp [BlockShape.ofKeyword] at hjump hcase hdefault

/-- A block has no header and no body but those its kind may have. -/
structure Block.Fits (b : Block) : Prop where
  header : b.kind.takesHeader = false → b.header = none
  body : b.kind.takesBody = false → b.body = []

theorem Derives.eq_none_of_header {c c' : Cursor}
    (h : Derives enclosing (.header .forbidden found) c c') :
    found = none := by
  cases h with
  | noHeader => rfl
  | header hallowed => exact absurd rfl hallowed

theorem Derives.fits {c c' : Cursor} (h : Derives enclosing (.block t b) c c') : b.Fits := by
  have hkind := h.kind_block
  cases h with
  | jump => exact ⟨fun _ => rfl, fun _ => rfl⟩
  | jumpValue hshape =>
    refine ⟨fun hnone => ?_, fun _ => rfl⟩
    rw [hkind, BlockShape.takesHeader (by simp [hshape]) (by simp [hshape])] at hnone
    cases hnone
  | caseLabel hshape =>
    refine ⟨fun hnone => ?_, fun _ => rfl⟩
    rw [hkind, BlockShape.takesHeader (by simp [hshape]) (by simp [hshape])] at hnone
    cases hnone
  | defaultLabel => exact ⟨fun _ => rfl, fun _ => rfl⟩
  | headed hshape hheader =>
    constructor
    · intro hnone
      by_cases hforbidden : BlockShape.ofKeyword t.value = .headed .forbidden
      · cases hshape.symm.trans hforbidden
        simp [hheader.eq_none_of_header]
      · rw [hkind, BlockShape.takesHeader (by simp [hshape]) hforbidden] at hnone
        cases hnone
    · intro hnone
      rw [hkind, BlockShape.takesBody (by simp [hshape]) (by simp [hshape])
        (by simp [hshape])] at hnone
      cases hnone
  | doLoop hshape =>
    constructor
    · intro hnone
      rw [hkind, BlockShape.takesHeader (by simp [hshape]) (by simp [hshape])] at hnone
      cases hnone
    · intro hnone
      rw [hkind, BlockShape.takesBody (by simp [hshape]) (by simp [hshape])
        (by simp [hshape])] at hnone
      cases hnone

theorem Node.Made.fits (h : Node.Made tokens (.block b)) : b.Fits := by
  cases h with
  | function hkind =>
    exact ⟨by simp [hkind, BlockKind.takesHeader], by simp [hkind, BlockKind.takesBody]⟩
  | returning hkind _ hbody => exact ⟨by simp [hkind, BlockKind.takesHeader], fun _ => hbody⟩
  | keyword _ _ _ hblock => exact hblock.fits

-- ---------------------------------------------------------------------------
-- What a block leaves out
-- ---------------------------------------------------------------------------

/-- Whether only the first statement of the body is printed: the keyword has no form of its own, and
no braces stand around the body. -/
def Block.printsFirstOnly (b : Block) : Bool :=
  match b.kind with
  | .other _ => !b.delimited
  | _ => false

/-- The part stands where the block does not print whatever there is: in the header of a catch block
or of a function, or behind the only statement that is printed. -/
def Block.Loses (b : Block) (part : Node) : Prop :=
  ((b.kind = .catchBlock ∨ b.kind = .function) ∧ ∃ header ∈ b.header, part.walk ⊆ header.walk) ∨
    (b.printsFirstOnly = true ∧ part ∈ b.body.tail)

namespace Php

section

variable {s : Setting} {b : Block} {node part : Node}

theorem mem_shownHeader (hfits : b.Fits) (hheader : b.header = some node)
    (hcatch : b.kind ≠ .catchBlock) (hfunction : b.kind ≠ .function) : node ∈ shownHeader b := by
  have htakes : b.kind.takesHeader = true := by
    rw [← Bool.not_eq_false]
    intro hnone
    simp [hfits.header hnone] at hheader
  unfold shownHeader
  split <;> simp_all [BlockKind.takesHeader]

theorem exists_bodyParts (hfits : b.Fits) (hfunction : b.kind ≠ .function) (h : node ∈ b.body) :
    (∃ inner, (inner, node) ∈ s.bodyParts b) ∨ (b.printsFirstOnly = true ∧ node ∈ b.body.tail) := by
  have htakes : b.kind.takesBody = true := by
    rw [← Bool.not_eq_false]
    intro hnone
    rw [hfits.body hnone] at h
    cases h
  unfold Setting.bodyParts
  cases hkind : b.kind with
  | function => exact absurd hkind hfunction
  | returnJump | breakJump | continueJump | throwJump | caseLabel | defaultLabel =>
    simp [hkind, BlockKind.takesBody] at htakes
  | main => exact .inl ⟨s, List.mem_map_of_mem h⟩
  | other word =>
    cases hdelimited : b.delimited with
    | true => exact .inl ⟨s.deeper, List.mem_map_of_mem h⟩
    | false =>
      obtain ⟨first, rest, hbody⟩ := List.exists_cons_of_ne_nil (List.ne_nil_of_mem h)
      rw [hbody] at h
      rcases List.mem_cons.1 h with rfl | h
      · exact .inl ⟨s, by simp [hbody]⟩
      · exact .inr ⟨by simp [Block.printsFirstOnly, hkind, hdelimited], by simpa [hbody] using h⟩
  | _ => exact .inl ⟨s.deeper, List.mem_map_of_mem h⟩

theorem Setting.exists_part (hfits : b.Fits) (h : (role, part) ∈ b.parts) :
    (∃ inner, (role, ⟨inner, .statement, part⟩) ∈ s.blockParts b) ∨
    (role, ⟨s, .value, part⟩) ∈ s.blockParts b ∨
      b.Loses part := by
  unfold Block.parts at h
  unfold blockParts
  split at h
  next hfunction =>
    rw [if_pos hfunction]
    rcases List.mem_append.1 h with h | h
    · exact .inr (.inr (.inl ⟨.inr hfunction, Block.exists_header h⟩))
    · obtain ⟨statement, hstatement, heq⟩ := List.mem_map.1 h
      cases heq
      exact .inl ⟨_, List.mem_append_right _ (List.mem_map.2 ⟨part, hstatement, rfl⟩)⟩
  next hfunction =>
    rw [if_neg hfunction]
    obtain ⟨found, hfound, heq⟩ := List.mem_map.1 h
    cases heq
    rcases List.mem_append.1 hfound with hheader | hbody
    · have hheader := Option.mem_toList.1 hheader
      by_cases hcatch : b.kind = .catchBlock
      · exact .inr (.inr (.inl ⟨.inl hcatch, part, hheader, List.Subset.refl _⟩))
      · have hshown := mem_shownHeader hfits hheader hcatch hfunction
        exact .inr (.inl (List.mem_append_left _ (List.mem_map.2 ⟨part, hshown, rfl⟩)))
    · rcases exists_bodyParts hfits hfunction hbody with ⟨inner, hinner⟩ | hlost
      · exact .inl ⟨inner, List.mem_append_right _ (List.mem_map.2 ⟨_, hinner, rfl⟩)⟩
      · exact .inr (.inr (.inr hlost))

end

-- ---------------------------------------------------------------------------
-- Along a path
-- ---------------------------------------------------------------------------

theorem Printing.exists_part {node : Node} {place : Place} (s : Setting) (hmade : node.Made tokens)
    (hplace : place ≠ .parameter) (h : (role, part) ∈ node.parts) :
    (∃ inner place', place' ≠ .parameter ∧
      (role, ⟨inner, place', part⟩) ∈ Printing.parts ⟨s, place, node⟩) ∨
      (∃ arguments span, node = .call part arguments span ∧ s.isHostCall part = true) ∨
      ∃ b, node = .block b ∧ b.Loses part := by
  cases node with
  | literal l => cases h
  | «variable» v =>
    obtain ⟨value, hvalue, heq⟩ := List.mem_map.1 h
    cases heq
    refine .inl ⟨s, .value, by simp, ?_⟩
    rw [parts, if_neg hplace]
    exact List.mem_map.2 ⟨part, hvalue, rfl⟩
  | call callee arguments span =>
    rcases List.mem_cons.1 h with heq | h
    · cases heq
      by_cases hhost : s.isHostCall part = true
      · exact .inr (.inl ⟨arguments, span, rfl, hhost⟩)
      · exact .inl ⟨s, .value, by simp, by simp [parts, hhost]⟩
    · obtain ⟨argument, hargument, heq⟩ := List.mem_map.1 h
      cases heq
      exact .inl ⟨s, .value, by simp,
        List.mem_append_right _ (List.mem_map.2 ⟨part, hargument, rfl⟩)⟩
  | unary op operand fixity span =>
    cases List.mem_singleton.1 h
    refine .inl ⟨s, operandPlace op fixity, ?_, List.mem_singleton.2 rfl⟩
    unfold operandPlace
    split_ifs <;> simp
  | block b =>
    rcases Setting.exists_part hmade.fits h with ⟨inner, hshown⟩ | hshown | hlost
    · exact .inl ⟨inner, .statement, by simp, hshown⟩
    · exact .inl ⟨s, .value, by simp, hshown⟩
    · exact .inr (.inr ⟨b, rfl, hlost⟩)
  | assign op target value span =>
    simp only [Node.parts, List.mem_cons, Prod.mk.injEq, List.not_mem_nil, or_false] at h
    obtain ⟨rfl, rfl⟩ | ⟨rfl, rfl⟩ := h
    · exact .inl ⟨s, .target, by simp, by simp [parts]⟩
    · exact .inl ⟨s, .value, by simp, by simp [parts]⟩
  | _ =>
    refine .inl ⟨s, .value, by simp, ?_⟩
    simpa [parts, Node.parts] using h

/-- A variable below a node that is printed is printed, or called as a host function, or lost on the
way. -/
theorem Shown.exists_of_below (s : Setting) {place : Place}
    (hbelow : Below node roles (.variable v)) (hmade : node.AllMade tokens)
    (hplace : place ≠ .parameter) :
    (∃ s' place', Shown ⟨s, place, node⟩ roles ⟨s', place', .variable v⟩) ∨
      (∃ path s' place' arguments span,
        Shown ⟨s, place, node⟩ path ⟨s', place', .call (.variable v) arguments span⟩ ∧
        s'.isHostCall (.variable v) = true) ∨
      ∃ path b part, Below node path (.block b) ∧ b.Loses part ∧ v ∈ part.variables := by
  generalize htarget : Node.variable v = target at hbelow
  induction hbelow generalizing s place with
  | here node =>
    subst htarget
    exact .inl ⟨s, place, .here _⟩
  | @inside node part target role roles hpart hbelow ih =>
    subst htarget
    rcases Printing.exists_part s hmade.here hplace hpart with
      ⟨inner, place', hplace', hshown⟩ | ⟨arguments, span, rfl, hhost⟩ | ⟨b, rfl, hlost⟩
    · rcases @ih inner place' (hmade.part hpart) hplace' rfl with
        ⟨s', place'', h⟩ | ⟨path, s', place'', arguments, span, h, hhost⟩ |
        ⟨path, b, lost, h, hlost, hv⟩
      · exact .inl ⟨s', place'', .inside hshown h⟩
      · exact .inr (.inl ⟨role :: path, s', place'', arguments, span, .inside hshown h, hhost⟩)
      · exact .inr (.inr ⟨role :: path, b, lost, .inside hpart h, hlost, hv⟩)
    · -- The name of a host function is bare, so that the variable is the name itself.
      cases part with
      | «variable» w =>
        have hbare : w.chain = [] := by
          simp only [Setting.isHostCall, Bool.and_eq_true, Variable.isBare,
            List.isEmpty_iff] at hhost
          exact hhost.1.1.1
        cases hbelow with
        | here => exact .inr (.inl ⟨[], s, place, arguments, span, .here _, hhost⟩)
        | inside hpart => simp [Node.parts, hbare] at hpart
      | _ => cases hhost
    · exact .inr (.inr ⟨[], b, part, .here _, hlost, hbelow.mem_variables⟩)

-- ---------------------------------------------------------------------------
-- The text of a script
-- ---------------------------------------------------------------------------

theorem standsIn_varName (s : Setting) (v : Variable) :
    Fragment.StandsIn (s.varName v.name v.scope) (render s place (.variable v)) := by
  obtain ⟨name, chain, scope, span⟩ := v
  cases place with
  | parameter =>
    rw [render]
    exact .close (.refl _) _
  | target =>
    rw [render]
    exact .close (.left (.refl _) _) _
  | value | statement =>
    simp only [render]
    refine .close ?_ _
    split
    next => exact .refl _
    next => exact .callUserFunc (.refl _) (by simp)

theorem standsIn_calleeName {s : Setting} {v : Variable} (h : s.isHostCall (.variable v) = true) :
    Fragment.StandsIn v.name (render s place (.call (.variable v) arguments span)) := by
  rw [render, if_pos h]
  exact .close (.left (.refl _) _) _

theorem mem_of_mem_hoisted (h : text ∈ hoisted body texts) : text ∈ texts := by
  unfold hoisted at h
  split at h
  next => exact h
  next =>
    obtain ⟨line, hline, rfl⟩ := List.mem_map.1 h
    have hzip : line ∈ body.zip texts := by
      rcases List.mem_append.1 hline with hline | hline <;> exact (List.mem_filter.1 hline).1
    exact (List.of_mem_zip hzip).2

theorem withoutSuffix_append (text suffix : String) :
    withoutSuffix (text ++ suffix) suffix = text := by
  have hsuffix : suffix.toList.isSuffixOf (text ++ suffix).toList = true := by
    rw [List.isSuffixOf_iff_suffix, String.toList_append]
    exact List.suffix_append _ _
  rw [withoutSuffix, if_pos hsuffix]
  simp

theorem exists_concat_lines {s : Setting}
    (hlines : ∀ line ∈ texts, ∃ f, line = s.indentation ++ f ++ s.newline) (hne : texts ≠ []) :
    ∃ text : String, (Fragment.concat texts).text = text ++ s.style.newline ∧
      ∀ f, (s.indentation ++ f ++ s.newline) ∈ texts → f.text.toList <:+: text.toList := by
  have hbody (f : Fragment) : (s.indentation ++ f ++ s.newline).text =
      (s.indentation ++ f).text ++ s.style.newline := by
    rw [Fragment.text_append]
    rfl
  have hin (f : Fragment) : f.text.toList <:+: (s.indentation ++ f).text.toList :=
    (Fragment.StandsIn.refl f).right _
  induction texts with
  | nil => exact absurd rfl hne
  | cons line texts ih =>
    obtain ⟨⟨first, rfl⟩, hlater⟩ := List.forall_mem_cons.1 hlines
    by_cases hnil : texts = []
    · subst hnil
      refine ⟨(s.indentation ++ first).text, ?_, fun f hf => ?_⟩
      · rw [Fragment.concat, Fragment.concat, Fragment.text_append, hbody, Fragment.text_empty,
          String.append_empty]
      · have htext := congrArg Fragment.text (List.mem_singleton.1 hf)
        rw [hbody, hbody, String.append_left_inj] at htext
        exact htext ▸ hin f
    · obtain ⟨text, htext, hmem⟩ := ih hlater hnil
      refine ⟨(s.indentation ++ first ++ s.newline).text ++ text, ?_, fun f hf => ?_⟩
      · rw [Fragment.concat, Fragment.text_append, htext, String.append_assoc]
      · rw [String.toList_append]
        rcases List.mem_cons.1 hf with heq | hf
        · have hline : f.text.toList <:+: (s.indentation ++ first ++ s.newline).text.toList := by
            rw [← heq]
            exact ((Fragment.StandsIn.refl f).right _).left _
          exact hline.trans (List.prefix_append _ _).isInfix
        · exact (hmem f hf).trans (List.suffix_append _ _).isInfix

/-- Each statement of a script stands in its text, with or without the last line break. -/
theorem standsIn_printScript (p : Printer) (h : node ∈ root.body) :
    (render (.ofScript p.style root) .statement node).text.toList <:+:
      (p.printScript root).1.toList := by
  let s := Setting.ofScript p.style root
  have hlength : (lines s (renderNodes s .statement root.body)).length = root.body.length := by
    simp [lines, length_renderNodes]
  have hline : (s.indentation ++ render s .statement node ++ s.newline) ∈
      hoisted root.body (lines s (renderNodes s .statement root.body)) :=
    mem_hoisted hlength (List.mem_map.2 ⟨_, mem_renderNodes h, rfl⟩)
  have hlines : ∀ line ∈ hoisted root.body (lines s (renderNodes s .statement root.body)),
      ∃ f, line = s.indentation ++ f ++ s.newline := by
    intro line hmem
    obtain ⟨f, -, rfl⟩ := List.mem_map.1 (mem_of_mem_hoisted hmem)
    exact ⟨f, rfl⟩
  obtain ⟨text, htext, hin⟩ := exists_concat_lines hlines (List.ne_nil_of_mem hline)
  have hscript : (renderScript p.style root).text = text ++ p.style.newline := htext
  simp only [Printer.printScript, hscript]
  split
  next =>
    rw [String.toList_append]
    exact (hin _ hline).trans (List.prefix_append _ _).isInfix
  next =>
    rw [withoutSuffix_append]
    exact hin _ hline

end Php

namespace Script

open Php

/-- Every variable of a script is printed, or called by its name as a host function, apart from
those in the header of a catch block, in that of a function, and behind the first statement of a
body that prints no other. -/
theorem variables_printed {options : Options} {source : Source} {script : Script}
    (h : parse options source = .ok script) (p : Printer) {v : Variable}
    (hv : v ∈ (Node.block script.root).variables) :
    (p.style.phpVariable v.name v.scope).toList <:+: (p.printScript script.root).1.toList ∨
      (∃ roles arguments span, Below (.block script.root) roles
        (.call (.variable v) arguments span) ∧
        ((Setting.ofScript p.style script.root).along roles).isHostCall (.variable v) = true ∧
        v.name.toList <:+: (p.printScript script.root).1.toList) ∨
      (∃ b ∈ script.root.blocks, (b.kind = .catchBlock ∨ b.kind = .function) ∧
        ∃ header ∈ b.header, v ∈ header.variables) ∨
      ∃ b ∈ script.root.blocks, b.printsFirstOnly = true ∧
      ∃ statement ∈ b.body.tail, v ∈ statement.variables := by
  obtain ⟨hmain, hnone, hmade⟩ := made h
  obtain ⟨roles, hbelow⟩ :=
    (Node.block script.root).covers_walk _ ((Node.block script.root).mem_variables.1 hv) _ rfl
  -- The root prints its statements; from there on the path decides.
  obtain ⟨node, path, hnode, hbelow⟩ := (hbelow.of_root hmain hnone).resolve_left (by simp)
  have hroot {path : List Role} {target : Node} (h : Below node path target) :
      Below (.block script.root) (.plain :: path) target :=
    h.inBlock (by simp [hmain]) (List.mem_append_right _ hnode)
  have hprinted := standsIn_printScript p hnode
  rcases Shown.exists_of_below (.ofScript p.style script.root) hbelow (hmade node hnode)
    (show Place.statement ≠ .parameter by simp) with
    ⟨s, place, hshown⟩ | ⟨path, s, place, arguments, span, hshown, hhost⟩ |
    ⟨path, b, part, hb, hlost, hpart⟩
  · have hstyle : s.style = p.style := hshown.style
    have htext := (standsIn_varName s v).trans hshown.standsIn
    rw [Setting.varName, hstyle] at htext
    exact .inl (List.IsInfix.trans htext hprinted)
  · refine .inr (.inl ⟨_, arguments, span, hroot hshown.toBelow, ?_, ?_⟩)
    · rw [← hhost]
      exact Setting.isHostCall_congr hshown.callable.symm
    · exact List.IsInfix.trans ((standsIn_calleeName hhost).trans hshown.standsIn) hprinted
  · refine .inr (.inr ?_)
    rcases hlost with ⟨hkind, header, hheader, hwalk⟩ | ⟨hfirst, htail⟩
    · refine .inl ⟨b, (hroot hb).mem_blocks, hkind, header, hheader, ?_⟩
      exact header.mem_variables.2 (hwalk (part.mem_variables.1 hpart))
    · exact .inr ⟨b, (hroot hb).mem_blocks, hfirst, part, htail, hpart⟩

/-- The second declaration behind a keyword without a form of its own is lost. -/
theorem variables_printed_export : ∃ script v,
    parse {} (.ofText "" "export let x = 1, y = 2") = .ok script ∧
    v ∈ (Node.block script.root).variables ∧
      v.name = "y" ∧ v.scope = some 1 ∧
      ((Printer.ofStyle (.ofOptions {})).printScript script.root).1 = "export $__jpv_1_x = 1;\n" ∧
      (∀ b ∈ script.root.blocks, b.kind ≠ .catchBlock ∧ b.kind ≠ .function) ∧
      ∃ b ∈ script.root.blocks, b.printsFirstOnly = true ∧
      ∃ statement ∈ b.body.tail, v ∈ statement.variables := by
  have hfacts : (parse {} (.ofText "" "export let x = 1, y = 2")).toOption.any (fun script =>
      ((Printer.ofStyle (.ofOptions {})).printScript script.root).1 == "export $__jpv_1_x = 1;\n" &&
      script.root.blocks.all (fun b => b.kind != .catchBlock && b.kind != .function) &&
      (Node.block script.root).variables.any fun v =>
        v.name == "y" && v.scope == some 1) = true := by
    decide +kernel
  obtain ⟨script, h, hshape⟩ := exists_of_any_parse hfacts
  simp only [Bool.and_eq_true, beq_iff_eq, List.any_eq_true, List.all_eq_true, bne_iff_ne] at hshape
  obtain ⟨⟨htext, hkinds⟩, v, hv, hname, hscope⟩ := hshape
  refine ⟨script, v, h, hv, hname, hscope, htext, hkinds, ?_⟩
  rcases variables_printed h (.ofStyle (.ofOptions {})) hv with
    hin | ⟨_, _, _, _, _, hin⟩ | ⟨b, hb, hkind, _⟩ | hlost
  · rw [htext, hname, hscope] at hin
    exact absurd hin (by decide +kernel)
  · rw [htext, hname] at hin
    exact absurd hin (by decide +kernel)
  · exact absurd hkind (not_or.2 (hkinds b hb))
  · exact hlost

end Script

end ScriptToPhp
