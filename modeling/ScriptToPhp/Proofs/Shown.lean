import ScriptToPhp.Proofs.Below
import ScriptToPhp.Proofs.Reprint

/-!
# Printed parts

Printing a node prints parts of it, each in a setting and at a place of its own. What they print
stands in what the node prints. The names in the setting of a part are those along the path to it.
-/

namespace ScriptToPhp.Php

-- ---------------------------------------------------------------------------
-- Text in text
-- ---------------------------------------------------------------------------

def Fragment.StandsIn (f g : Fragment) : Prop := f.text.toList <:+: g.text.toList

namespace Fragment.StandsIn

theorem refl (f : Fragment) : f.StandsIn f := List.infix_refl _

theorem trans {f g k : Fragment} (h : f.StandsIn g) (h' : g.StandsIn k) : f.StandsIn k :=
  List.IsInfix.trans h h'

theorem left {f g : Fragment} (h : f.StandsIn g) (k : Fragment) : f.StandsIn (g ++ k) := by
  refine h.trans ?_
  simp only [StandsIn, text_append, String.toList_append]
  exact (List.prefix_append _ _).isInfix

theorem right {f g : Fragment} (h : f.StandsIn g) (k : Fragment) : f.StandsIn (k ++ g) := by
  refine h.trans ?_
  simp only [StandsIn, text_append, String.toList_append]
  exact (List.suffix_append _ _).isInfix

theorem parenthesized {f g : Fragment} (h : f.StandsIn g) : f.StandsIn g.parenthesized :=
  (h.right _).left _

theorem close {f g : Fragment} (h : f.StandsIn g) (place : Place) : f.StandsIn (place.close g) := by
  cases place with
  | statement => exact h.left _
  | _ => exact h

theorem concat {f g : Fragment} (h : f.StandsIn g) (hmem : g ∈ gs) : f.StandsIn (.concat gs) := by
  induction gs with
  | nil => cases hmem
  | cons k gs ih =>
    rcases List.mem_cons.1 hmem with rfl | hmem
    · exact h.left _
    · exact (ih hmem).right _

theorem join {f g : Fragment} (h : f.StandsIn g) (hmem : g ∈ gs) :
    f.StandsIn (.join separator gs) := by
  induction gs with
  | nil => cases hmem
  | cons k gs ih =>
    cases gs with
    | nil => rwa [← List.mem_singleton.1 hmem]
    | cons k' gs =>
      rcases List.mem_cons.1 hmem with rfl | hmem
      · exact (h.left _).left _
      · exact (ih hmem).right _

theorem callUserFunc {f g : Fragment} (h : f.StandsIn g) (hmem : g ∈ gs) :
    f.StandsIn (.callUserFunc gs) :=
  ((h.join hmem).right _).left _

end Fragment.StandsIn

-- ---------------------------------------------------------------------------
-- The parts that are printed
-- ---------------------------------------------------------------------------

structure Printing where
  setting : Setting
  place : Place
  node : Node

def Printing.fragment (p : Printing) : Fragment := render p.setting p.place p.node

def operandPlace (op : String) (fixity : Fixity) : Place :=
  if op = "typeof" then .value
  else if op = "void" then .value
  else if op = "delete" then .target
  else if fixity = .trailing then .target
  else if isStepOperator op then .target
  else .value

def Setting.parameterParts (s : Setting) (f : Block) : Node → List (Role × Printing)
  | .assign _ target value _ =>
    [(.pattern f, ⟨s, .target, target⟩), (.default f, ⟨s, .value, value⟩)]
  | parameter => [(.pattern f, ⟨s, .parameter, parameter⟩)]

def shownHeader (b : Block) : List Node :=
  match b.kind with
  | .main | .function | .elseBranch | .tryBlock | .catchBlock | .finallyBlock | .defaultLabel => []
  | _ => b.header.toList

/-- The statements of a block that is no function, each in its setting, as far as they are
printed. -/
def Setting.bodyParts (s : Setting) (b : Block) : List (Setting × Node) :=
  match b.kind with
  | .function | .returnJump | .breakJump | .continueJump | .throwJump | .caseLabel
  | .defaultLabel => []
  | .main => b.body.map (s, ·)
  | .other _ => if b.delimited then b.body.map (s.deeper, ·) else (b.body.take 1).map (s, ·)
  | _ => b.body.map (s.deeper, ·)

def Setting.blockParts (s : Setting) (b : Block) : List (Role × Printing) :=
  if b.kind = .function then
    b.parameters.flatMap (s.parameterParts b) ++ b.body.map fun node =>
      (.body b, ⟨(s.within b).deeper, .statement, node⟩)
  else
    (shownHeader b).map (fun node => (.plain, ⟨s, .value, node⟩)) ++
      (s.bodyParts b).map fun entry => (.plain, ⟨entry.1, .statement, entry.2⟩)

/-- The parts that are printed when a node is. The name of a host function is no such part, nor are
the keys behind a parameter. -/
def Printing.parts : Printing → List (Role × Printing)
  | ⟨_, _, .literal _⟩ => []
  | ⟨s, place, .variable v⟩ =>
    if place = .parameter then [] else (v.chain.filterMap Access.index?).map fun value =>
      (.plain, ⟨s, .value, value⟩)
  | ⟨s, _, .binary _ left right _⟩ => [(.plain, ⟨s, .value, left⟩), (.plain, ⟨s, .value, right⟩)]
  | ⟨s, _, .ternary condition whenTrue whenFalse _⟩ =>
    [(.plain, ⟨s, .value, condition⟩), (.plain, ⟨s, .value, whenTrue⟩),
      (.plain, ⟨s, .value, whenFalse⟩)]
  | ⟨s, _, .assign _ target value _⟩ =>
    [(.plain, ⟨s, .target, target⟩), (.plain, ⟨s, .value, value⟩)]
  | ⟨s, _, .call callee arguments _⟩ =>
    (if s.isHostCall callee then [] else [(.callee, ⟨s, .value, callee⟩)]) ++
      arguments.map fun node => (.plain, ⟨s, .value, node⟩)
  | ⟨s, _, .group g⟩ => g.items.map fun node => (.plain, ⟨s, .value, node⟩)
  | ⟨s, _, .list items _⟩ => items.map fun node => (.plain, ⟨s, .value, node⟩)
  | ⟨s, _, .record entries _⟩ => entries.map fun entry => (.plain, ⟨s, .value, entry.2⟩)
  | ⟨s, _, .unary op operand fixity _⟩ => [(.plain, ⟨s, operandPlace op fixity, operand⟩)]
  | ⟨s, _, .block b⟩ => s.blockParts b

/-- The setting of a part in its role, as to the names in it. -/
def Setting.step (s : Setting) : Role → Setting
  | .body f => s.within f
  | .plain | .callee | .pattern _ | .default _ => s

def Setting.along (s : Setting) (roles : List Role) : Setting := roles.foldl step s

theorem Setting.callable_step_congr {s s' : Setting} (h : s.callable = s'.callable) :
    (s.step role).callable = (s'.step role).callable := by
  cases role <;> simp [step, within, h]

theorem Setting.callable_along_congr {s s' : Setting} (h : s.callable = s'.callable) :
    (s.along roles).callable = (s'.along roles).callable := by
  induction roles generalizing s s' with
  | nil => exact h
  | cons role roles ih => exact ih (callable_step_congr h)

theorem Setting.isHostCall_congr {s s' : Setting} (h : s.callable = s'.callable) :
    s.isHostCall node = s'.isHostCall node := by
  cases node <;> simp [isHostCall, h]

/-- `Shown p roles q`: printing `p` prints `q`, at the end of a path of these roles. -/
inductive Shown : Printing → List Role → Printing → Prop
  | here (p : Printing) : Shown p [] p
  | inside {p q r : Printing} {role : Role} {roles : List Role} (hpart : (role, q) ∈ p.parts)
    (h : Shown q roles r) :
      Shown p (role :: roles) r

-- ---------------------------------------------------------------------------
-- Their text
-- ---------------------------------------------------------------------------

section

variable {s inner : Setting} {node : Node}

theorem mem_renderNodes (h : node ∈ nodes) : render s place node ∈ renderNodes s place nodes := by
  induction nodes with
  | nil => cases h
  | cons first nodes ih =>
    rw [renderNodes]
    rcases List.mem_cons.1 h with rfl | h
    · exact List.mem_cons_self
    · exact List.mem_cons_of_mem _ (ih h)

theorem mem_renderChain (h : node ∈ chain.filterMap Access.index?) :
    render s .value node ∈ renderChain s chain := by
  induction chain with
  | nil => cases h
  | cons access chain ih =>
    cases access with
    | property key =>
      rw [renderChain]
      exact List.mem_cons_of_mem _ (ih h)
    | index value =>
      rw [renderChain]
      rcases List.mem_cons.1 h with rfl | h
      · exact List.mem_cons_self
      · exact List.mem_cons_of_mem _ (ih h)

theorem standsIn_renderItems (h : node ∈ nodes) :
    ∃ item ∈ renderItems s i nodes, (render s .value node).StandsIn item := by
  induction nodes generalizing i with
  | nil => cases h
  | cons first nodes ih =>
    rw [renderItems, List.exists_mem_cons_iff]
    rcases List.mem_cons.1 h with rfl | h
    · exact .inl (.right (.refl _) _)
    · exact .inr (ih h)

theorem standsIn_renderEntries (h : entry ∈ entries) :
    ∃ item ∈ renderEntries s entries, (render s .value entry.2).StandsIn item := by
  induction entries with
  | nil => cases h
  | cons first entries ih =>
    obtain ⟨key, value⟩ := first
    rw [renderEntries, List.exists_mem_cons_iff]
    rcases List.mem_cons.1 h with rfl | h
    · exact .inl (.right (.refl _) _)
    · exact .inr (ih h)

theorem standsIn_branch (f : Fragment) : f.StandsIn (branch node f) := by
  unfold branch
  split
  next => exact .parenthesized (.refl _)
  next => exact .refl _

theorem mem_hoisted (hlength : texts.length = body.length) (h : text ∈ texts) :
    text ∈ hoisted body texts := by
  unfold hoisted
  split
  next => exact h
  next =>
    have hmap : (body.zip texts).map (·.2) = texts := List.map_snd_zip (Nat.le_of_eq hlength)
    rw [← hmap] at h
    obtain ⟨line, hline, rfl⟩ := List.mem_map.1 h
    refine List.mem_map.2 ⟨line, ?_, rfl⟩
    cases hnamed : isNamedFunction line.1 with
    | true => exact List.mem_append_left _ (List.mem_filter.2 ⟨hline, hnamed⟩)
    | false => exact List.mem_append_right _ (List.mem_filter.2 ⟨hline, by simp [hnamed]⟩)

theorem standsIn_lines (h : node ∈ body) : (render s .statement node).StandsIn
    (.concat (hoisted body (lines s (renderNodes s .statement body)))) := by
  have hline : (s.indentation ++ render s .statement node ++ s.newline) ∈
      lines s (renderNodes s .statement body) := List.mem_map.2 ⟨_, mem_renderNodes h, rfl⟩
  have hlength : (lines s (renderNodes s .statement body)).length = body.length := by
    simp [lines, length_renderNodes]
  exact .concat (.left (.right (.refl _) _) _) (mem_hoisted hlength hline)

theorem standsIn_braced (outside : Setting) {inside : Inside}
    (hinside : inside.statements s = renderNodes s .statement body) (h : node ∈ body) :
    (render s .statement node).StandsIn (braced outside body s inside) := by
  unfold braced
  rw [if_neg (by cases h <;> simp), hinside]
  exact .left (.left (.right (standsIn_lines h) _) _) _

theorem standsIn_parenthesizedHeader {f : Fragment} (h : f ∈ rendered) :
    f.StandsIn (parenthesizedHeader header rendered) := by
  cases h
  simp only [parenthesizedHeader]
  split
  next => exact .refl _
  next => exact .parenthesized (.refl _)

theorem render_block (b : Block) : render s place (.block b) = renderBlock s place b
    { header := fun s => renderHeader s b.header
      parameters := fun s => renderParameters s b.header
      statements := fun s => renderNodes s .statement b.body } := by
  cases b
  rw [render]

theorem header_of_shown (h : node ∈ shownHeader b) : b.header = some node := by
  unfold shownHeader at h
  split at h
  all_goals first | cases h | exact Option.mem_toList.1 h

theorem standsIn_header (h : node ∈ shownHeader b) :
    (render s .value node).StandsIn (render s place (.block b)) := by
  have hheader : b.header = some node := header_of_shown h
  rw [render_block]
  unfold renderBlock
  cases hkind : b.kind with
  | main | function | elseBranch | tryBlock | catchBlock | finallyBlock | defaultLabel =>
    simp [shownHeader, hkind] at h
  | returnJump | breakJump | continueJump | throwJump =>
    simp only [hheader, renderHeader]
    exact .left (.right (.right (.refl _) _) _) _
  | caseLabel =>
    simp only [hheader, renderHeader]
    exact .left (.right (.refl _) _) _
  | ifBranch | whileLoop | forLoop | switch =>
    simp only [hheader, renderHeader]
    exact .left (.left (.right (standsIn_parenthesizedHeader rfl) _) _) _
  | doLoop =>
    simp only [hheader, renderHeader, Option.isSome_some, if_true]
    exact .left (.right (standsIn_parenthesizedHeader rfl) _) _
  | other word =>
    simp only [hheader, renderHeader, Option.isSome_some, if_true]
    exact .left (.right (.right (standsIn_parenthesizedHeader rfl) _) _) _

theorem mem_bodyParts (h : (inner, node) ∈ s.bodyParts b) :
    node ∈ b.body ∧ inner.style = s.style ∧ inner.callable = s.callable := by
  unfold Setting.bodyParts at h
  split at h <;> grind [Setting.deeper, List.mem_of_mem_take]

theorem standsIn_body (h : (inner, node) ∈ s.bodyParts b) :
    (render inner .statement node).StandsIn (render s place (.block b)) := by
  rw [render_block]
  unfold Setting.bodyParts at h
  unfold renderBlock
  cases hkind : b.kind with
  | function | returnJump | breakJump | continueJump | throwJump | caseLabel | defaultLabel =>
    simp [hkind] at h
  | main =>
    simp only [hkind, List.mem_map, Prod.mk.injEq] at h
    obtain ⟨_, hnode, rfl, rfl⟩ := h
    exact standsIn_lines hnode
  | ifBranch | whileLoop | forLoop | switch | elseBranch | tryBlock | finallyBlock | catchBlock =>
    simp only [hkind, List.mem_map, Prod.mk.injEq] at h
    obtain ⟨_, hnode, rfl, rfl⟩ := h
    exact .right (standsIn_braced _ rfl hnode) _
  | doLoop =>
    simp only [hkind, List.mem_map, Prod.mk.injEq] at h
    obtain ⟨_, hnode, rfl, rfl⟩ := h
    exact .left (.left (.left (.right (standsIn_braced _ rfl hnode) _) _) _) _
  | other word =>
    simp only [hkind] at h
    split at h
    next hdelimited =>
      obtain ⟨_, hnode, heq⟩ := List.mem_map.1 h
      cases heq
      simp only [hdelimited, if_true]
      exact .right (.right (standsIn_braced _ rfl hnode) _) _
    next hdelimited =>
      obtain ⟨_, hnode, heq⟩ := List.mem_map.1 h
      cases heq
      cases hbody : b.body with
      | nil => simp [hbody] at hnode
      | cons first rest =>
        simp only [hbody, List.take_succ_cons, List.take_zero, List.mem_singleton] at hnode
        subst hnode
        simp only [hdelimited, Bool.false_eq_true, if_false, renderNodes]
        exact .right (.right (.refl _) _) _

theorem standsIn_chain {v : Variable} (h : node ∈ v.chain.filterMap Access.index?)
    (hplace : place ≠ .parameter) :
    (render s .value node).StandsIn (render s place (.variable v)) := by
  obtain ⟨name, chain, scope, span⟩ := v
  have hkey : render s .value node ∈ renderChain s chain := mem_renderChain h
  have hchain : chain.isEmpty = false := by
    cases chain with
    | nil => cases h
    | cons access chain => rfl
  generalize render s .value node = f at hkey
  cases place with
  | parameter => exact absurd rfl hplace
  | target =>
    have hkeys := List.mem_map_of_mem (f := fun key : Fragment => "[" ++ key ++ "]") hkey
    have hin : f.StandsIn ("[" ++ f ++ "]") := .left (.right (.refl _) _) _
    rw [render]
    exact .close (.right (hin.concat hkeys) _) _
  | value | statement =>
    simp only [render, hchain, Bool.false_eq_true, if_false]
    exact .close (.callUserFunc (.refl _) (by simp [hkey])) _

theorem standsIn_operand :
    (render s (operandPlace op fixity) node).StandsIn
      (render s place (.unary op node fixity span)) := by
  -- The definition splits on the side last; with that as one more test, both sides split alike.
  have hrender : render s place (.unary op node fixity span) = place.close (
      if op = "typeof" then .callUserFunc [s.style.helper .typeof, render s .value node]
      else if op = "void" then "(" ++ render s .value node ++ " ? null : null)"
      else if op = "delete" then "unset(" ++ render s .target node ++ ")"
      else if fixity = .trailing then render s .target node ++ op
      else if isStepOperator op then op ++ render s .target node
      else (op ++ if gluesTo op (render s .value node).text then " " else "") ++
        render s .value node) := by
    cases fixity <;> simp [render]
  rw [hrender, operandPlace]
  refine .close ?_ _
  split_ifs
  · exact .callUserFunc (.refl _) (by simp)
  · exact .left (.right (.refl _) _) _
  · exact .left (.right (.refl _) _) _
  · exact .left (.refl _) _
  · exact .right (.refl _) _
  · exact .right (.refl _) _
  · exact .right (.refl _) _

theorem standsIn_closure {f : Fragment} (hkind : b.kind = .function)
    (h : f.StandsIn ("function " ++
      Fragment.parenthesized (.join ", " (renderParameters s b.header)) ++ useClause s b ++
      " " ++ braced s b.body (s.within b).deeper
        ⟨(renderHeader · b.header), (renderParameters · b.header),
          (renderNodes · .statement b.body)⟩)) :
    f.StandsIn (render s place (.block b)) := by
  rw [render_block]
  simp only [renderBlock, hkind]
  split
  next => exact .left (.right h _) _
  next => exact .left h _
  next => exact h

theorem standsIn_parameter {f : Fragment} (hkind : b.kind = .function)
    (hparameter : node ∈ b.parameters) (h : f.StandsIn (render s .parameter node)) :
    f.StandsIn (render s place (.block b)) := by
  have hparameters : render s .parameter node ∈ renderParameters s b.header := by
    unfold Block.parameters at hparameter
    split at hparameter
    next g _ hheader =>
      cases g
      rw [hheader, renderParameters]
      exact mem_renderNodes hparameter
    next => cases hparameter
  exact standsIn_closure hkind (.left
    (.left (.left (.right (.parenthesized (h.join hparameters)) _) _) _) _)

end

-- ---------------------------------------------------------------------------
-- What a part is
-- ---------------------------------------------------------------------------

structure Printing.IsPart (p : Printing) (role : Role) (q : Printing) : Prop where
  node : (role, q.node) ∈ p.node.parts
  style : q.setting.style = p.setting.style
  /-- Its role brings the names that its setting has more. -/
  callable : q.setting.callable = (p.setting.step role).callable
  standsIn : q.fragment.StandsIn p.fragment

section

variable {s : Setting} {place inner : Place} {node part : Node}

theorem Printing.IsPart.here (hpart : (role, part) ∈ node.parts)
    (h : (render s inner part).StandsIn (render s place node)) (hrole : s.step role = s) :
    IsPart ⟨s, place, node⟩ role ⟨s, inner, part⟩ := ⟨hpart, rfl, congrArg _ hrole.symm, h⟩

theorem Setting.isPart_parameter (hkind : b.kind = .function) (hparameter : node ∈ b.parameters)
    (h : (role, p) ∈ s.parameterParts b node) : Printing.IsPart ⟨s, place, .block b⟩ role p := by
  have hparts : ∀ entry ∈ b.parameterParts node, entry ∈ (Node.block b).parts :=
    fun entry hentry => Block.mem_parts_of_parameter hkind hparameter hentry
  cases node with
  | assign op target value span =>
    simp only [parameterParts, List.mem_cons, Prod.mk.injEq, List.not_mem_nil, or_false] at h
    obtain ⟨rfl, rfl⟩ | ⟨rfl, rfl⟩ := h
    · refine .here (hparts _ List.mem_cons_self) (standsIn_parameter hkind hparameter ?_) rfl
      rw [render]
      exact .left (.left (.refl _) _) _
    · refine .here (hparts _ (List.mem_cons_of_mem _ List.mem_cons_self))
        (standsIn_parameter hkind hparameter ?_) rfl
      rw [render]
      exact .right (.refl _) _
  | _ =>
    cases List.mem_singleton.1 h
    exact .here (hparts _ List.mem_cons_self) (standsIn_parameter hkind hparameter (.refl _)) rfl

theorem Setting.isPart_block (h : (role, p) ∈ s.blockParts b) :
    Printing.IsPart ⟨s, place, .block b⟩ role p := by
  unfold blockParts at h
  split at h
  next hkind =>
    rcases List.mem_append.1 h with h | h
    · obtain ⟨parameter, hparameter, hpart⟩ := List.mem_flatMap.1 h
      exact isPart_parameter hkind hparameter hpart
    · obtain ⟨node, hnode, heq⟩ := List.mem_map.1 h
      cases heq
      have hpart : (Role.body b, node) ∈ (Node.block b).parts := by
        simp [Node.parts, Block.parts, hkind, hnode]
      exact ⟨hpart, rfl, rfl, standsIn_closure hkind (.right (standsIn_braced s rfl hnode) _)⟩
  next hkind =>
    rcases List.mem_append.1 h with h | h
    · obtain ⟨node, hnode, heq⟩ := List.mem_map.1 h
      cases heq
      have hpart : (Role.plain, node) ∈ (Node.block b).parts := by
        simp [Node.parts, Block.parts, hkind, header_of_shown hnode]
      exact .here hpart (standsIn_header hnode) rfl
    · obtain ⟨⟨inner, node⟩, hentry, heq⟩ := List.mem_map.1 h
      cases heq
      obtain ⟨hnode, hstyle, hcallable⟩ := mem_bodyParts hentry
      have hpart : (Role.plain, node) ∈ (Node.block b).parts := by
        simp [Node.parts, Block.parts, hkind, hnode]
      exact ⟨hpart, hstyle, hcallable, standsIn_body hentry⟩

end

theorem Printing.isPart {p q : Printing} (h : (role, q) ∈ p.parts) : p.IsPart role q := by
  obtain ⟨s, place, node⟩ := p
  cases node with
  | literal l => cases h
  | «variable» v =>
    simp only [parts] at h
    split at h
    next => cases h
    next hplace =>
      obtain ⟨value, hvalue, heq⟩ := List.mem_map.1 h
      cases heq
      exact .here (List.mem_map_of_mem hvalue) (standsIn_chain hvalue hplace) rfl
  | binary op left right span =>
    simp only [parts, List.mem_cons, Prod.mk.injEq, List.not_mem_nil, or_false] at h
    obtain ⟨rfl, rfl⟩ | ⟨rfl, rfl⟩ := h
    · refine .here (by simp [Node.parts]) ?_ rfl
      rw [render]
      exact .close (.left (.left (.refl _) _) _) _
    · refine .here (by simp [Node.parts]) ?_ rfl
      rw [render]
      exact .close (.right (.refl _) _) _
  | ternary condition whenTrue whenFalse span =>
    simp only [parts, List.mem_cons, Prod.mk.injEq, List.not_mem_nil, or_false] at h
    obtain ⟨rfl, rfl⟩ | ⟨rfl, rfl⟩ | ⟨rfl, rfl⟩ := h
    · refine .here (by simp [Node.parts]) ?_ rfl
      rw [render]
      exact .close (.left (.left (.left (.left (.refl _) _) _) _) _) _
    · refine .here (by simp [Node.parts]) ?_ rfl
      rw [render]
      exact .close (.left (.left (.right (standsIn_branch _) _) _) _) _
    · refine .here (by simp [Node.parts]) ?_ rfl
      rw [render]
      exact .close (.right (standsIn_branch _) _) _
  | assign op target value span =>
    simp only [parts, List.mem_cons, Prod.mk.injEq, List.not_mem_nil, or_false] at h
    obtain ⟨rfl, rfl⟩ | ⟨rfl, rfl⟩ := h
    · refine .here (by simp [Node.parts]) ?_ rfl
      rw [render]
      exact .close (.left (.left (.refl _) _) _) _
    · refine .here (by simp [Node.parts]) ?_ rfl
      rw [render]
      exact .close (.right (.refl _) _) _
  | call callee arguments span =>
    rcases List.mem_append.1 h with h | h
    · split at h
      next => cases h
      next hhost =>
        cases List.mem_singleton.1 h
        refine .here List.mem_cons_self ?_ rfl
        rw [render, if_neg hhost]
        exact .close (.callUserFunc (.refl _) List.mem_cons_self) _
    · obtain ⟨node, hnode, heq⟩ := List.mem_map.1 h
      cases heq
      have hargument : render s .value node ∈ renderNodes s .value arguments :=
        mem_renderNodes hnode
      refine .here (List.mem_cons_of_mem _ (List.mem_map_of_mem hnode)) ?_ rfl
      rw [render]
      refine .close ?_ _
      split
      next => exact .right (.parenthesized (.join (.refl _) hargument)) _
      next => exact .callUserFunc (.refl _) (List.mem_cons_of_mem _ hargument)
  | group g =>
    obtain ⟨items, separator, span⟩ := g
    obtain ⟨node, hnode, heq⟩ := List.mem_map.1 h
    cases heq
    refine .here (List.mem_map_of_mem hnode) ?_ rfl
    rw [render]
    exact .close (.parenthesized (.join (.refl _) (mem_renderNodes hnode))) _
  | list items span =>
    obtain ⟨node, hnode, heq⟩ := List.mem_map.1 h
    cases heq
    obtain ⟨item, hitem, hin⟩ := standsIn_renderItems hnode
    refine .here (List.mem_map_of_mem hnode) ?_ rfl
    rw [render]
    exact .close (.left (.right (.join hin hitem) _) _) _
  | record entries span =>
    obtain ⟨entry, hentry, heq⟩ := List.mem_map.1 h
    cases heq
    obtain ⟨item, hitem, hin⟩ := standsIn_renderEntries hentry
    refine .here (List.mem_map_of_mem hentry) ?_ rfl
    rw [render]
    exact .close (.left (.right (.join hin hitem) _) _) _
  | unary op operand fixity span =>
    cases List.mem_singleton.1 h
    exact .here List.mem_cons_self standsIn_operand rfl
  | block b => exact Setting.isPart_block h

theorem Printing.isHostCall_callee {p q : Printing} (h : (.callee, q) ∈ p.parts) :
    p.setting.isHostCall q.node = false := by
  obtain ⟨s, place, node⟩ := p
  obtain ⟨arguments, span, rfl⟩ := Node.eq_call_of_mem_parts (isPart h).node
  rcases List.mem_append.1 h with h | h
  · split at h
    next => cases h
    next hhost => exact Bool.eq_false_iff.2 hhost
  · simp at h

namespace Shown

theorem toBelow (h : Shown p roles q) : Below p.node roles q.node := by
  induction h with
  | here => exact .here _
  | inside hpart _ ih => exact .inside (Printing.isPart hpart).node ih

theorem standsIn (h : Shown p roles q) : q.fragment.StandsIn p.fragment := by
  induction h with
  | here => exact .refl _
  | inside hpart _ ih => exact ih.trans (Printing.isPart hpart).standsIn

theorem style (h : Shown p roles q) : q.setting.style = p.setting.style := by
  induction h with
  | here => rfl
  | inside hpart _ ih => exact ih.trans (Printing.isPart hpart).style

theorem callable (h : Shown p roles q) : q.setting.callable = (p.setting.along roles).callable := by
  induction h with
  | here => rfl
  | inside hpart _ ih =>
    rw [ih]
    exact Setting.callable_along_congr (Printing.isPart hpart).callable

theorem isHostCall (h : Shown p roles q) (hlast : roles.getLast? = some .callee) :
    (p.setting.along roles).isHostCall q.node = false := by
  induction h with
  | here => cases hlast
  | @inside p q r role roles hpart h ih =>
    -- The callee is the part itself, or the rest of the path ends with it.
    cases h with
    | here =>
      cases hlast
      exact Printing.isHostCall_callee hpart
    | inside hpart' h =>
      rw [← ih (by simpa using hlast)]
      exact Setting.isHostCall_congr
        (Setting.callable_along_congr (Printing.isPart hpart).callable).symm

end Shown

end ScriptToPhp.Php
