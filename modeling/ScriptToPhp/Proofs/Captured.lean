import ScriptToPhp.Proofs.Ownership
import ScriptToPhp.Proofs.Shown
import ScriptToPhp.Project

/-!
# Captured variables

What a function captures, read off the paths to its variables.
-/

namespace ScriptToPhp.Php

-- ---------------------------------------------------------------------------
-- Mentions in lists
-- ---------------------------------------------------------------------------

section

variable {context : CaptureContext}

theorem mem_mentionsOfNodes : c ∈ mentionsOfNodes context nodes ↔
    ∃ node ∈ nodes, c ∈ mentions context node := by
  induction nodes with
  | nil => simp [mentionsOfNodes]
  | cons node nodes ih => simp [mentionsOfNodes, ih]

theorem mem_mentionsOfChain : c ∈ mentionsOfChain context chain ↔
    ∃ value ∈ chain.filterMap Access.index?, c ∈ mentions context value := by
  induction chain with
  | nil => simp [mentionsOfChain]
  | cons access chain ih => cases access <;> simp [mentionsOfChain, Access.index?, ih]

theorem mem_mentionsOfEntries : c ∈ mentionsOfEntries context entries ↔
    ∃ entry ∈ entries, c ∈ mentions context entry.2 := by
  induction entries with
  | nil => simp [mentionsOfEntries]
  | cons entry entries ih =>
    obtain ⟨key, value⟩ := entry
    simp [mentionsOfEntries, ih]

theorem mem_mentionsOfDefaults (f : Block) : c ∈ mentionsOfDefaults context parameters ↔
    ∃ value, (.default f, value) ∈ parameters.flatMap f.parameterParts ∧
    c ∈ mentions context value := by
  induction parameters with
  | nil => simp [mentionsOfDefaults]
  | cons parameter parameters ih =>
    simp only [List.flatMap_cons, List.mem_append, or_and_right, exists_or, ← ih]
    cases parameter <;> simp [mentionsOfDefaults, Block.parameterParts]

end

theorem mentions_function {f : Block} (hkind : f.kind = .function) : mentions context (.block f) =
    mentionsOfDefaults (context.within f.parameters) f.parameters ++
      mentionsOfNodes (context.within f.parameters) f.body := by
  obtain ⟨kind, header, body, scope, name, delimited, span⟩ := f
  cases hkind
  cases header with
  | none => simp [mentions, Block.parameters, mentionsOfDefaults, CaptureContext.within]
  | some header =>
    cases header with
    | group g =>
      cases g
      simp [mentions, Block.parameters]
    | _ => simp [mentions, Block.parameters, mentionsOfDefaults, CaptureContext.within]

theorem mentions_block {b : Block} (hkind : b.kind ≠ .function) : mentions context (.block b) =
    mentionsOfNodes context (b.header.toList ++ b.body) := by
  obtain ⟨kind, header, body, scope, name, delimited, span⟩ := b
  cases kind with
  | function => exact absurd rfl hkind
  | _ => cases header <;> simp [mentions, mentionsOfNodes]

-- ---------------------------------------------------------------------------
-- Mentions by paths
-- ---------------------------------------------------------------------------

def CaptureContext.step (context : CaptureContext) : Role → CaptureContext
  | .default f | .body f => context.within f.parameters
  | .plain | .callee | .pattern _ => context

def CaptureContext.along (context : CaptureContext) (roles : List Role) : CaptureContext :=
  roles.foldl step context

/-- Whether captures are looked for in a part: not among parameters, their default values apart, nor
in the name of a host function. -/
def CaptureContext.LooksInto (context : CaptureContext) : Role × Node → Prop
  | (.pattern _, _) => False
  | (.callee, callee) => context.isHostCall callee = false
  | (.plain, _) | (.default _, _) | (.body _, _) => True

theorem mem_mentions_function {context : CaptureContext} {f : Block} (hkind : f.kind = .function) :
    c ∈ mentions context (.block f) ↔
      ∃ entry ∈ f.parts, context.LooksInto entry ∧ c ∈ mentions (context.step entry.1) entry.2 := by
  rw [mentions_function hkind, List.mem_append, mem_mentionsOfDefaults f, mem_mentionsOfNodes,
    Block.parts, if_pos hkind]
  constructor
  · rintro (⟨value, hvalue, hc⟩ | ⟨node, hnode, hc⟩)
    · have hmem := (Block.default_mem_headerParts hkind).2 hvalue
      exact ⟨(.default f, value), List.mem_append_left _ hmem, trivial, hc⟩
    · exact ⟨(.body f, node), List.mem_append_right _ (List.mem_map.2 ⟨node, hnode, rfl⟩),
        trivial, hc⟩
  · rintro ⟨⟨role, part⟩, hentry, hlooks, hc⟩
    rcases List.mem_append.1 hentry with hentry | hentry
    · obtain rfl | rfl := Block.role_of_mem_headerParts hentry
      · exact hlooks.elim
      · exact .inl ⟨part, (Block.default_mem_headerParts hkind).1 hentry, hc⟩
    · obtain ⟨node, hnode, heq⟩ := List.mem_map.1 hentry
      cases heq
      exact .inr ⟨_, hnode, hc⟩

section

attribute [local simp] mentions Node.parts CaptureContext.LooksInto CaptureContext.step
  mem_mentionsOfNodes
  mem_mentionsOfChain mem_mentionsOfEntries

theorem mem_mentions_step {context : CaptureContext} : c ∈ mentions context node ↔
    (∃ v, node = .variable v ∧ c = (v.name, v.scope) ∧ context.binds v.name v.scope = false) ∨
      ∃ entry ∈ node.parts, context.LooksInto entry ∧
      c ∈ mentions (context.step entry.1) entry.2 := by
  cases node with
  | literal l => simp
  | «variable» v =>
    obtain ⟨name, chain, scope, span⟩ := v
    cases hbinds : context.binds name scope <;> simp [hbinds, -Prod.exists]
  | binary op left right span => simp [-Prod.exists]
  | ternary condition whenTrue whenFalse span => simp [-Prod.exists]
  | assign op target value span => simp [-Prod.exists]
  | call callee arguments span => simp [-Prod.exists]
  | group g =>
    cases g
    simp [-Prod.exists]
  | list items span => simp [-Prod.exists]
  | record entries span => simp [-Prod.exists]
  | unary op operand fixity span => simp [-Prod.exists]
  | block b =>
    by_cases hkind : b.kind = .function
    · rw [mem_mentions_function hkind]
      simp
    · rw [mentions_block hkind, mem_mentionsOfNodes, Node.parts, Block.parts, if_neg hkind]
      simp only [List.mem_map, exists_exists_and_eq_and, CaptureContext.LooksInto,
        CaptureContext.step]
      simp

end

structure CaptureContext.Mentioned (context : CaptureContext) (roles : List Role)
    (v : Variable) : Prop where
  /-- It stands among no parameters, their default values apart. -/
  noPattern : ∀ f, .pattern f ∉ roles
  /-- It is not the name of a host function. -/
  notHost : roles.getLast? = some .callee → context.isHostCall (.variable v) = false
  free : (context.along roles).binds v.name v.scope = false

namespace CaptureContext

variable {context : CaptureContext}

@[simp] theorem inner_step : (context.step role).inner = context.inner := by cases role <;> rfl

@[simp] theorem isHostCall_step :
    (context.step role).isHostCall node = context.isHostCall node := by
  cases role <;> cases node <;> rfl

theorem isHostCall_iff : context.isHostCall (.variable v) = true ↔
    v.isBare = true ∧ v.scope = none ∧ v.name ∉ context.callable := by
  simp [isHostCall, and_assoc]

theorem below_host (hhost : context.isHostCall node = true) (h : Below node roles target) :
    roles = [] ∧ target = node := by
  cases h with
  | here => exact ⟨rfl, rfl⟩
  | inside hpart h =>
    cases node with
    | «variable» v =>
      simp only [isHostCall, Variable.isBare, Bool.and_eq_true, List.isEmpty_iff] at hhost
      simp [Node.parts, hhost.1.1] at hpart
    | _ => cases hhost

theorem Mentioned.nil (hfree : context.binds v.name v.scope = false) : context.Mentioned [] v where
  noPattern _ := List.not_mem_nil
  notHost hlast := by cases hlast
  free := hfree

theorem Mentioned.cons (h : (context.step role).Mentioned roles v)
    (hbelow : Below part roles (.variable v)) (hlooks : context.LooksInto (role, part)) :
    context.Mentioned (role :: roles) v := by
  refine ⟨fun f hmem => ?_, fun hlast => ?_, h.free⟩
  · rcases List.mem_cons.1 hmem with rfl | hmem
    · exact hlooks
    · exact h.noPattern f hmem
  · cases hbelow with
    | here =>
      cases hlast
      exact hlooks
    | inside hpart hbelow =>
      rw [← isHostCall_step]
      exact h.notHost (by simpa using hlast)

theorem Mentioned.tail (h : context.Mentioned (role :: roles) v) :
    (context.step role).Mentioned roles v := by
  refine ⟨fun f hmem => h.noPattern f (List.mem_cons_of_mem _ hmem), fun hlast => ?_, h.free⟩
  rw [isHostCall_step]
  exact h.notHost (by simp [List.getLast?_cons, hlast])

theorem Mentioned.looksInto (h : context.Mentioned (role :: roles) v)
    (hbelow : Below part roles (.variable v)) :
    context.LooksInto (role, part) := by
  cases role with
  | pattern f => exact h.noPattern f List.mem_cons_self
  | callee =>
    refine Bool.eq_false_iff.2 fun hhost => ?_
    obtain ⟨rfl, rfl⟩ := below_host hhost hbelow
    exact Bool.eq_false_iff.1 (h.notHost rfl) hhost
  | _ => trivial

end CaptureContext

/-- The mentions of a node are the variables below it that need a capture. -/
theorem mem_mentions {context : CaptureContext} : c ∈ mentions context node ↔
    ∃ roles v, Below node roles (.variable v) ∧ context.Mentioned roles v ∧
    c = (v.name, v.scope) := by
  constructor
  · -- Down the parts: where a mention is found, the part was looked into.
    intro hc
    induction node using Node.induction_on_parts generalizing context with
    | h node ih =>
      rcases mem_mentions_step.1 hc with ⟨v, rfl, hc, hbinds⟩ | ⟨⟨role, part⟩, hpart, hlooks, hc⟩
      · exact ⟨[], v, .here _, .nil hbinds, hc⟩
      · obtain ⟨roles, v, hbelow, hmentioned, hc⟩ := ih _ hpart hc
        exact ⟨role :: roles, v, .inside hpart hbelow, hmentioned.cons hbelow hlooks, hc⟩
  · -- Along the path: every part on it is looked into, since it leads to a mention.
    rintro ⟨roles, v, hbelow, hmentioned, rfl⟩
    generalize htarget : Node.variable v = target at hbelow
    induction hbelow generalizing context with
    | here => exact mem_mentions_step.2 (.inl ⟨v, htarget.symm, rfl, hmentioned.free⟩)
    | inside hpart hbelow ih =>
      subst htarget
      exact mem_mentions_step.2 (.inr
        ⟨_, hpart, hmentioned.looksInto hbelow, ih hmentioned.tail rfl⟩)

@[simp] theorem mem_firstUses : c ∈ firstUses cs ↔ c ∈ cs := by
  induction cs with
  | nil => simp [firstUses]
  | cons c' cs ih =>
    simp only [firstUses, List.mem_cons, List.mem_filter, ih]
    grind

theorem mem_captures : c ∈ captures callable f ↔ ∃ roles v, Below (.block f) roles (.variable v) ∧
    CaptureContext.Mentioned ⟨f.blocks.map (·.scope), callable, []⟩ roles v ∧
    c = (v.name, v.scope) := by
  rw [captures, mem_firstUses, mem_mentions]

-- ---------------------------------------------------------------------------
-- Names along a path
-- ---------------------------------------------------------------------------

theorem Setting.along_append {s : Setting} :
    s.along (roles ++ roles') = (s.along roles).along roles' :=
  List.foldl_append

theorem Setting.mem_callable_along {s : Setting} : name ∈ (s.along roles).callable ↔
    name ∈ s.callable ∨ ∃ f, .body f ∈ roles ∧ name ∈ parameterNames f := by
  induction roles generalizing s with
  | nil => simp [along]
  | cons role roles ih =>
    rw [along, List.foldl_cons, ← along, ih]
    cases role <;> grind [step, within]

theorem CaptureContext.inner_along {context : CaptureContext} :
    (context.along roles).inner = context.inner := by
  induction roles generalizing context with
  | nil => rfl
  | cons role roles ih => rw [along, List.foldl_cons, ← along, ih, inner_step]

theorem CaptureContext.mem_parameters_along {context : CaptureContext} :
    name ∈ (context.along roles).parameters ↔
    name ∈ context.parameters ∨ ∃ f, (.body f ∈ roles ∨ .default f ∈ roles) ∧
    name ∈ parameterNames f := by
  induction roles generalizing context with
  | nil => simp [along]
  | cons role roles ih =>
    rw [along, List.foldl_cons, ← along, ih]
    cases role <;> grind [step, within, parameterNames]

theorem CaptureContext.binds_along {context : CaptureContext} :
    (context.along roles).binds name scope = true ↔
    name = "this" ∨ (∃ owner ∈ context.inner, scope = some owner) ∨ name ∈ context.parameters ∨
      ∃ f, (.body f ∈ roles ∨ .default f ∈ roles) ∧ name ∈ parameterNames f := by
  have hscope : scope.any context.inner.contains = true ↔
      ∃ owner ∈ context.inner, scope = some owner := by
    cases scope <;> simp
  simp only [binds, Bool.or_eq_true, inner_along, hscope, List.contains_iff_mem,
    mem_parameters_along, beq_iff_eq, or_assoc]

-- ---------------------------------------------------------------------------
-- Closed functions
-- ---------------------------------------------------------------------------

/-- The variable at the end of a path is written as a variable, not as the name of a host
function. -/
def Setting.WritesVariable (s : Setting) (roles : List Role) (v : Variable) : Prop :=
  roles.getLast? = some .callee → (s.along roles).isHostCall (.variable v) = false

/-- A variable at the end of a path into a function is known there once it is printed. -/
inductive Closed (s : Setting) (f : Block) (roles : List Role) (v : Variable) : Prop
  | this (h : v.name = "this")
  /-- It is a parameter of the function or of one inside it around the variable. -/
  | parameter {g : Block} (hg : g ∈ functionsAlong roles) (h : v.name ∈ parameterNames g)
  /-- It is declared inside the function. -/
  | owned {b : Block} (hb : b ∈ f.blocks) (h : v.scope = some b.scope)
  | captured (h : (v.name, v.scope) ∈ captures s.callable f)

/-- A variable that is not looked for among those to capture. -/
inductive Overlooked (s : Setting) (roles : List Role) (v : Variable) : Prop
  /-- It stands among the parameters of a function, default values apart. -/
  | parameters {g : Block} (h : .pattern g ∈ roles) (hname : v.name ∉ parameterNames g)
  /-- It is called by a name that starts with a dollar sign and is none of a closure. -/
  | dollar (hcallee : roles.getLast? = some .callee) (hbare : v.isBare = true)
    (hscope : v.scope = none)
      (hname : v.name.toList.head? = some '$') (hcallable : v.name ∉ s.callable)

/-- A variable below a function is captured unless it is bound, stands among parameters or is taken
for the name of a host function. -/
theorem captured_or_bound (h : Below (.block f) roles (.variable v))
    (hpattern : ∀ g, .pattern g ∉ roles)
    (hhost : roles.getLast? = some .callee →
    ¬ (v.isBare = true ∧ v.scope = none ∧ v.name ∉ callable)) :
    (v.name, v.scope) ∈ captures callable f ∨ v.name = "this" ∨
    (∃ b ∈ f.blocks, v.scope = some b.scope) ∨
      ∃ g, (.body g ∈ roles ∨ .default g ∈ roles) ∧ v.name ∈ parameterNames g := by
  let context : CaptureContext := ⟨f.blocks.map (·.scope), callable, []⟩
  by_cases hbinds : (context.along roles).binds v.name v.scope = true
  · rcases CaptureContext.binds_along.1 hbinds with
      hthis | ⟨owner, howner, hscope⟩ | hnone | hparameter
    · exact .inr (.inl hthis)
    · obtain ⟨b, hb, rfl⟩ := List.mem_map.1 howner
      exact .inr (.inr (.inl ⟨b, hb, hscope⟩))
    · cases hnone
    · exact .inr (.inr (.inr hparameter))
  · refine .inl (mem_captures.2 ⟨roles, v, h,
      ⟨hpattern, fun hlast => ?_, Bool.eq_false_iff.2 hbinds⟩, rfl⟩)
    exact Bool.eq_false_iff.2 (mt CaptureContext.isHostCall_iff.1 (hhost hlast))

theorem closed_or_overlooked {s : Setting} (h : Below (.block f) roles (.variable v))
    (hwrites : s.WritesVariable roles v) :
    Closed s f roles v ∨ Overlooked s roles v := by
  by_cases hpattern : ∃ g, .pattern g ∈ roles
  · obtain ⟨g, hg⟩ := hpattern
    by_cases hname : v.name ∈ parameterNames g
    · exact .inl (.parameter (mem_functionsAlong hg rfl) hname)
    · exact .inr (.parameters hg hname)
  by_cases hhost : roles.getLast? = some .callee ∧ v.isBare = true ∧ v.scope = none ∧
    v.name ∉ s.callable
  · -- The name was taken for that of a host function. It is written as a variable for one of two
    -- reasons: it starts with a dollar sign, or a function on the way has a parameter of this
    -- name.
    obtain ⟨hlast, hbare, hscope, hname⟩ := hhost
    by_cases hdollar : v.name.toList.head? = some '$'
    · exact .inr (.dollar hlast hbare hscope hdollar hname)
    have hparameter : v.name ∈ (s.along roles).callable := by
      simpa [Setting.isHostCall, hbare, hscope, hdollar] using hwrites hlast
    rcases Setting.mem_callable_along.1 hparameter with hbefore | ⟨g, hg, hmem⟩
    · exact absurd hbefore hname
    · exact .inl (.parameter (mem_functionsAlong hg rfl) hmem)
  · rcases captured_or_bound h (not_exists.1 hpattern) (not_and.1 hhost) with
      hcaptured | hthis | ⟨b, hb, hscope⟩ | ⟨g, hg, hname⟩
    · exact .inl (.captured hcaptured)
    · exact .inl (.this hthis)
    · exact .inl (.owned hb hscope)
    · exact .inl (.parameter (hg.elim (mem_functionsAlong · rfl) (mem_functionsAlong · rfl)) hname)

/-- What a function inside another captures is captured by the other, or else a function on the way
binds it or it is declared in the other. -/
theorem captures_inside {s : Setting} (hinside : Below (.block f) roles (.block g))
    (hpattern : ∀ k, .pattern k ∉ roles) (hc : c ∈ captures (s.along roles).callable g) :
    c ∈ captures s.callable f ∨
      (∃ k ∈ functionsAlong roles, c.1 ∈ parameterNames k) ∨
      ∃ b ∈ f.blocks, c.2 = some b.scope := by
  obtain ⟨inner, v, hbelow, hmentioned, rfl⟩ := mem_captures.1 hc
  have hlast : (roles ++ inner).getLast? = inner.getLast? := by
    cases hbelow with
    | inside => exact List.getLast?_append_of_ne_nil _ (List.cons_ne_nil _ _)
  by_cases hhost : inner.getLast? = some .callee ∧ v.isBare = true ∧ v.scope = none ∧
    v.name ∉ s.callable
  · -- It is the name of a host function to `f`, but not to `g`.
    obtain ⟨hcallee, hbare, hscope, hname⟩ := hhost
    have hcallable : v.name ∈ (s.along roles).callable := by
      simpa [CaptureContext.isHostCall, hbare, hscope] using hmentioned.notHost hcallee
    rcases Setting.mem_callable_along.1 hcallable with hbefore | ⟨k, hk, hmem⟩
    · exact absurd hbefore hname
    · exact .inr (.inl ⟨k, mem_functionsAlong hk rfl, hmem⟩)
  have hnone : ∀ k, .pattern k ∉ roles ++ inner := fun k hk =>
    (List.mem_append.1 hk).elim (hpattern k) (hmentioned.noPattern k)
  -- It is not bound inside `g`, so what binds it stands before `g`.
  have hfree := mt CaptureContext.binds_along.2 (Bool.eq_false_iff.1 hmentioned.free)
  rcases captured_or_bound (hinside.trans hbelow) hnone (not_and.1 (hlast ▸ hhost)) with
    hcaptured | hthis | hscope | ⟨k, hk, hname⟩
  · exact .inl hcaptured
  · exact absurd (.inl hthis) hfree
  · exact .inr (.inr hscope)
  · have hbefore : .body k ∈ roles ∨ .default k ∈ roles := by grind
    exact .inr (.inl ⟨k, hbefore.elim (mem_functionsAlong · rfl) (mem_functionsAlong · rfl), hname⟩)

-- ---------------------------------------------------------------------------
-- The functions of a script
-- ---------------------------------------------------------------------------

def Setting.ofScript (style : Style) (root : Block) : Setting := ⟨style, functionNames root, 0⟩

theorem render_main (hroot : root.kind = .main) :
    render (.ofScript style root) place (.block root) = renderScript style root := by
  simp [render_block, renderBlock, hroot, renderScript, Setting.ofScript]

theorem Setting.style_along {s : Setting} : (s.along roles).style = s.style := by
  induction roles generalizing s with
  | nil => rfl
  | cons role roles ih =>
    rw [along, List.foldl_cons, ← along, ih]
    cases role <;> rfl

theorem useClause_congr (hstyle : s.style = s'.style) (hcallable : s.callable = s'.callable) :
    useClause s f = useClause s' f := by
  cases s
  cases s'
  cases hstyle
  cases hcallable
  rfl

theorem standsIn_opening {f : Fragment} {s inner : Setting} :
    (f ++ " \x7b").StandsIn (f ++ " " ++ braced s body inner inside) := by
  have hbraced : ['\x7b'] <+: (braced s body inner inside).text.toList := by
    unfold braced
    split <;> simp
  obtain ⟨rest, hrest⟩ := hbraced
  refine ⟨[], rest, ?_⟩
  simp [← hrest]

theorem exists_below_of_mem_blocks (h : b ∈ Block.blocks root) :
    ∃ path, Below (.block root) path (.block b) := by
  have hvisit : .block b ∈ (Node.block root).walk := by
    rw [Node.walk]
    exact List.mem_cons_of_mem _ (Block.mem_blocks.1 h)
  exact (Node.block root).covers_walk _ hvisit (.block b) rfl

structure FunctionSite (root : Block) where
  path : List Role
  function : Block
  isFunction : function.kind = .function
  below : Below (.block root) path (.block function)

namespace FunctionSite

def setting (site : FunctionSite root) (style : Style) : Setting :=
  (Setting.ofScript style root).along site.path

def inside (site : FunctionSite root) {roles : List Role} {f : Block}
    (h : Below (.block site.function) roles (.block f)) (hf : f.kind = .function) :
    FunctionSite root := ⟨site.path ++ roles, f, hf, site.below.trans h⟩

def ofStatement (hroot : root.kind = .main) (h : .block f ∈ root.body) (hf : f.kind = .function) :
    FunctionSite root :=
  ⟨[.plain], f, hf, .inBlock (by simp [hroot]) (List.mem_append_right _ h) (.here _)⟩

theorem exists_of_mem (h : f ∈ root.blocks) (hkind : f.kind = .function) :
    ∃ site : FunctionSite root, site.function = f := by
  obtain ⟨path, hbelow⟩ := exists_below_of_mem_blocks h
  exact ⟨⟨path, f, hkind, hbelow⟩, rfl⟩

/-- The function is printed, with its captures behind its parameters. -/
def IsPrinted (site : FunctionSite root) (style : Style) : Prop :=
  ∃ parameters : Fragment, Fragment.StandsIn
    ("function " ++ parameters.parenthesized ++
      useClause (site.setting style) site.function ++ " \x7b")
    (renderScript style root)

/-- A function that is printed is printed with its captures, and the variables printed in it are
written as variables. -/
theorem exists_of_shown {s : Setting} (hroot : root.kind = .main)
    (h : Shown ⟨.ofScript style root, place, .block root⟩ roles ⟨s, place', .block f⟩)
    (hkind : f.kind = .function) :
    ∃ site : FunctionSite root, site.path = roles ∧ site.function = f ∧ site.IsPrinted style ∧
      ∀ inner s' place'' v, Shown ⟨s, place', .block f⟩ inner ⟨s', place'', .variable v⟩ →
        (site.setting style).WritesVariable inner v := by
  let site : FunctionSite root := ⟨roles, f, hkind, h.toBelow⟩
  have hcallable : s.callable = (site.setting style).callable := h.callable
  refine ⟨site, rfl, rfl, ⟨.join ", " (renderParameters s f.header), ?_⟩,
    fun inner s' place'' v hv hlast => ?_⟩
  · have huse : useClause (site.setting style) f = useClause s f := by
      refine useClause_congr ?_ hcallable.symm
      rw [setting, Setting.style_along, h.style]
    have hclosure : Fragment.StandsIn _ (render s place' (.block f)) :=
      standsIn_closure hkind (.refl _)
    rw [← render_main hroot, huse]
    exact .trans standsIn_opening (hclosure.trans h.standsIn)
  · rw [← hv.isHostCall hlast]
    exact Setting.isHostCall_congr (Setting.callable_along_congr hcallable.symm)

def uses (site : FunctionSite root) (style : Style) : List Capture :=
  captures (site.setting style).callable site.function

/-- A capture reaches the function that defines it through every function around: what a function
inside another captures is captured by the other, or bound by a parameter on the way, or declared in
the other. The one inside must not stand among parameters, default values apart. -/
theorem captures_reach (site : FunctionSite root) (style : Style) :
    (∀ f, .block f ∈ walkNodes site.function.body →
      ∃ inner, Below (.block site.function) (.body site.function :: inner) (.block f)) ∧
    ∀ f (hf : f.kind = .function) inner
      (hbelow : Below (.block site.function) (.body site.function :: inner) (.block f)),
      (∀ g, .pattern g ∉ inner) → ∀ c ∈ (site.inside hbelow hf).uses style,
        c ∈ site.uses style ∨ (∃ g ∈ functionsAlong (.body site.function :: inner),
          c.1 ∈ parameterNames g) ∨
          ∃ b ∈ site.function.blocks, c.2 = some b.scope := by
  refine ⟨fun f hf => site.function.exists_below_body site.isFunction hf rfl, ?_⟩
  intro f hf inner hbelow hpattern c hc
  refine captures_inside hbelow (fun g hg => ?_) ?_
  · rcases List.mem_cons.1 hg with heq | hg
    · cases heq
    · exact hpattern g hg
  · rwa [uses, setting, inside, Setting.along_append] at hc

/-- Of two captures of an inner function, the outer function has one as a parameter and captures the
other. -/
theorem captures_reach_return : ∃ script,
    Script.parse {} (.ofText "" "function f(a) { return function() { return a + x } }") =
      .ok script ∧
    ∃ (site : FunctionSite script.root) (g : Block) (hg : g.kind = .function)
      (hbelow : Below (.block site.function) [.body site.function, .plain] (.block g)),
      (site.inside hbelow hg).uses (.ofOptions {}) = [("a", none), ("x", none)] ∧
        parameterNames site.function = ["a"] ∧ ("x", none) ∈ site.uses (.ofOptions {}) := by
  have hparse : (Script.parse {}
      (.ofText "" "function f(a) { return function() { return a + x } }")).toOption.any
        (fun script => script.root.kind == .main && script.root.body.any fun node =>
          node.block?.any fun f =>
          f.kind == .function && parameterNames f == ["a"] && f.body.any fun node =>
            node.block?.any fun r =>
            r.kind == .returnJump && r.header.any fun node => node.block?.any fun g =>
              g.kind == .function &&
                captures (parameterNames f ++ functionNames script.root) g ==
                  [("a", none), ("x", none)]) = true := by
    decide +kernel
  obtain ⟨script, h, hshape⟩ := Script.exists_of_any_parse hparse
  simp only [Bool.and_eq_true, beq_iff_eq, List.any_eq_true, Option.any_eq_true] at hshape
  obtain ⟨hmain, node, hnode, f, hblock, ⟨hf, hparameters⟩, hshape⟩ := hshape
  obtain rfl := Node.eq_block hblock
  obtain ⟨node, hreturn, r, hblock, hr, node, hheader, g, hblock', hg, hcaptures⟩ := hshape
  obtain rfl := Node.eq_block hblock
  obtain rfl := Node.eq_block hblock'
  let site : FunctionSite script.root := .ofStatement hmain hnode hf
  have hg' : Below (.block r) [.plain] (.block g) :=
    .inBlock (by simp [hr]) (by simp [hheader]) (.here _)
  have hbelow : Below (.block site.function) [.body site.function, .plain] (.block g) :=
    hg'.inBody hf hreturn
  have huses : (site.inside hbelow hg).uses (.ofOptions {}) = [("a", none), ("x", none)] :=
    hcaptures
  have hx := (captures_reach site (.ofOptions {})).2 g hg [.plain] hbelow (by simp) ("x", none)
    (by simp [huses])
  refine ⟨script, h, site, g, hg, hbelow, huses, hparameters, ?_⟩
  rcases hx with hx | ⟨k, hk, hname⟩ | ⟨b, -, hscope⟩
  · exact hx
  · cases List.mem_singleton.1 hk
    have hnames : parameterNames site.function = ["a"] := hparameters
    simp [hnames] at hname
  · cases hscope

/-- A function among the parameters of another is not looked into: what it captures does not reach
the function around both. -/
theorem captures_stop_at_parameters : ∃ script,
    Script.parse {} (.ofText "" "function f() { return function(function() { return x }) {} }") =
      .ok script ∧
    ∃ (site : FunctionSite script.root) (g : Block) (hg : g.kind = .function) (inner : List Role)
      (hbelow : Below (.block site.function) (.body site.function :: inner) (.block g)),
      ∃ c ∈ (site.inside hbelow hg).uses (.ofOptions {}),
        ¬ (c ∈ site.uses (.ofOptions {}) ∨
          (∃ k ∈ functionsAlong (.body site.function :: inner), c.1 ∈ parameterNames k) ∨
          ∃ b ∈ site.function.blocks, c.2 = some b.scope) := by
  have hparse : (Script.parse {}
      (.ofText "" "function f() { return function(function() { return x }) {} }")).toOption.any
        (fun script => script.root.kind == .main && script.root.body.any fun node =>
          node.block?.any fun f =>
          f.kind == .function && parameterNames f ==
            [] && captures (functionNames script.root) f == [] &&
            f.body.any fun node => node.block?.any fun r =>
              r.kind == .returnJump && r.header.any fun node => node.block?.any fun k =>
                k.kind == .function && parameterNames k == [] && k.parameters.any fun node =>
                  node.block?.any fun g =>
                  g.kind == .function &&
                    captures (parameterNames f ++ functionNames script.root) g ==
                      [("x", none)]) = true := by
    decide +kernel
  obtain ⟨script, h, hshape⟩ := Script.exists_of_any_parse hparse
  simp only [Bool.and_eq_true, beq_iff_eq, List.any_eq_true, Option.any_eq_true] at hshape
  obtain ⟨hmain, node, hnode, f, hblock, ⟨⟨hf, hnamesf⟩, hnone⟩, hshape⟩ := hshape
  obtain rfl := Node.eq_block hblock
  obtain ⟨node, hreturn, r, hblock, hr, node, hheader, k, hblock', ⟨hk, hnamesk⟩, hshape⟩ := hshape
  obtain rfl := Node.eq_block hblock
  obtain rfl := Node.eq_block hblock'
  obtain ⟨node, hparameter, g, hblock, hg, hcaptures⟩ := hshape
  obtain rfl := Node.eq_block hblock
  let site : FunctionSite script.root := .ofStatement hmain hnode hf
  have hpattern : Below (.block k) [.pattern k] (.block g) :=
    .inside (Block.mem_parts_of_parameter hk hparameter List.mem_cons_self) (.here _)
  have hg' : Below (.block r) [.plain, .pattern k] (.block g) :=
    .inBlock (by simp [hr]) (by simp [hheader]) hpattern
  have hbelow : Below (.block site.function) [.body site.function, .plain, .pattern k] (.block g) :=
    hg'.inBody hf hreturn
  have huses : (site.inside hbelow hg).uses (.ofOptions {}) = [("x", none)] := hcaptures
  have hsite : site.uses (.ofOptions {}) = [] := hnone
  have hfunctions : functionsAlong [.body f, .plain, .pattern k] = [f, k] := rfl
  refine ⟨script, h, site, g, hg, _, hbelow, ("x", none), by simp [huses], ?_⟩
  rintro (hx | ⟨b, hb, hx⟩ | ⟨b, -, hscope⟩)
  · simp [hsite] at hx
  · have hnames : ∀ b ∈ functionsAlong [.body f, .plain, .pattern k], parameterNames b = [] := by
      simp [hfunctions, hnamesf, hnamesk]
    simp [hnames b hb] at hx
  · cases hscope

end FunctionSite

end ScriptToPhp.Php

namespace ScriptToPhp

open Php

namespace Script

/-- The functions of a script are closed once they are printed: a variable in the body of a function
is known there, unless it was not looked for among those to capture. -/
theorem closures_closed {options : Options} {source : Source} {script : Script}
    (h : parse options source = .ok script) :
    (∀ f ∈ script.root.blocks, f.kind = .function → ∃ site : FunctionSite script.root,
      site.function = f) ∧
    (∀ path s place f,
      Shown ⟨.ofScript (.ofOptions options) script.root, .statement, .block script.root⟩ path
        ⟨s, place, .block f⟩ →
      f.kind = .function → ∃ site : FunctionSite script.root,
        site.path = path ∧ site.function = f ∧ site.IsPrinted (.ofOptions options) ∧
        ∀ inner s' place' v, Shown ⟨s, place, .block f⟩ inner ⟨s', place', .variable v⟩ →
          (site.setting (.ofOptions options)).WritesVariable inner v) ∧
    ∀ site : FunctionSite script.root,
      (∀ v, .variable v ∈ walkNodes site.function.body →
        ∃ inner, Below (.block site.function) (.body site.function :: inner) (.variable v)) ∧
      ∀ inner v, Below (.block site.function) (.body site.function :: inner) (.variable v) →
        (site.setting (.ofOptions options)).WritesVariable (.body site.function :: inner) v →
        Closed (site.setting (.ofOptions options)) site.function (.body site.function :: inner) v ∨
          Overlooked (site.setting (.ofOptions options)) (.body site.function :: inner) v := by
  have hroot : script.root.kind = .main := by
    obtain ⟨statements, c, -, -, hroot⟩ := derives_of_parse h
    simp [hroot, Block.ofKind]
  refine ⟨fun f hf hkind => FunctionSite.exists_of_mem hf hkind, ?_, fun site => ⟨?_, ?_⟩⟩
  · exact fun path s place f hshown hkind => FunctionSite.exists_of_shown hroot hshown hkind
  · exact fun v hv => site.function.exists_below_body site.isFunction hv rfl
  · exact fun inner v hbelow hwrites => closed_or_overlooked hbelow hwrites

/-- A name with a dollar sign that is called is written as a variable and not captured. -/
theorem closures_closed_dollar :
    ∃ script, parse {} (.ofText "" "function f() { $g() }") = .ok script ∧
    compile {} "" "function f() { $g() }" =
      .ok "$f = function () \x7b\n    call_user_func($g);\n\x7d;\n" ∧
    ∃ (site : FunctionSite script.root) (v : Variable), site.IsPrinted (.ofOptions {}) ∧
      Below (.block site.function) [.body site.function, .callee] (.variable v) ∧
      (site.setting (.ofOptions {})).WritesVariable [.body site.function, .callee] v ∧
      ¬ Closed (site.setting (.ofOptions {})) site.function [.body site.function, .callee] v ∧
      Overlooked (site.setting (.ofOptions {})) [.body site.function, .callee] v := by
  have hparse : (parse {} (.ofText "" "function f() { $g() }")).toOption.any (fun script =>
      script.root.kind == .main &&
      (emit {} "" script.root).php == "$f = function () \x7b\n    call_user_func($g);\n\x7d;\n" &&
      script.root.body.any fun node => node.block?.any fun f =>
        f.kind == .function && parameterNames f == [] &&
        captures (functionNames script.root) f == [] && f.body.any fun node =>
          node.called?.any fun v =>
          v.name == "$g" && v.scope == none) = true := by
    decide +kernel
  obtain ⟨script, h, hshape⟩ := exists_of_any_parse hparse
  simp only [Bool.and_eq_true, beq_iff_eq, List.any_eq_true, Option.any_eq_true] at hshape
  obtain ⟨⟨hmain, hphp⟩, node, hnode, f, hblock, ⟨⟨hf, hparameters⟩, hnone⟩, node', hnode', v,
    hcall, hname, hscope⟩ := hshape
  obtain rfl := Node.eq_block hblock
  obtain ⟨arguments, span, rfl⟩ := Node.eq_call hcall
  have hcompile : compile {} "" "function f() { $g() }" = .ok (emit {} "" script.root).php := by
    rw [compile, emitSource, h]
    rfl
  rw [hphp] at hcompile
  have hshown : Shown ⟨.ofScript (.ofOptions {}) script.root, .statement,
      .block script.root⟩ [.plain]
        ⟨.ofScript (.ofOptions {}) script.root, .statement, .block f⟩ := by
    refine .inside ?_ (.here _)
    simp [Printing.parts, Setting.blockParts, Setting.bodyParts, hmain, hnode]
  obtain ⟨site, hpath, rfl, hprinted, -⟩ := (closures_closed h).2.1 _ _ _ _ hshown hf
  have hcallee : Below (.call (.variable v) arguments span) [.callee] (.variable v) :=
    .inside List.mem_cons_self (.here _)
  have hbelow := hcallee.inBody hf hnode'
  have hwrites : (site.setting (.ofOptions {})).WritesVariable
      [.body site.function, .callee] v := by
    intro _
    simp [Setting.isHostCall, hname]
  have hopen : ¬ Closed (site.setting (.ofOptions {})) site.function
      [.body site.function, .callee] v := by
    rintro (hthis | ⟨hg, hmem⟩ | ⟨_, howned⟩ | hcaptured)
    · simp [hname] at hthis
    · cases List.mem_singleton.1 hg
      simp [hparameters] at hmem
    · simp [hscope] at howned
    · have hcallable : (site.setting (.ofOptions {})).callable = functionNames script.root := by
        rw [FunctionSite.setting, hpath]
        rfl
      simp [hcallable, hnone] at hcaptured
  have hclosed := ((closures_closed h).2.2 site).2 [.callee] v hbelow hwrites
  exact ⟨script, h, hcompile, site, v, hprinted, hbelow, hwrites, hopen, hclosed.resolve_left hopen⟩

end Script

end ScriptToPhp
