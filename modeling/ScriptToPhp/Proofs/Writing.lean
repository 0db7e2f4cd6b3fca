import ScriptToPhp.Php.Writer
import ScriptToPhp.Proofs.PrintedOutline

/-!
# Writing is rendering

What a writer does with a node depends on the style, on the names bound to closures and on the depth
of indentation, and on nothing else of its state: it gives or writes the fragment that the node
renders to. Afterwards only the buffer and the set of helpers have grown.
-/

namespace ScriptToPhp.Php

-- ---------------------------------------------------------------------------
-- Fragments
-- ---------------------------------------------------------------------------

namespace Helpers

@[simp] theorem union_none (a : Helpers) : a.union .none = a := by simp [union, none]

@[simp] theorem none_union (a : Helpers) : none.union a = a := by simp [union, none]

theorem union_assoc (a b c : Helpers) :
    (a.union b).union c = a.union (b.union c) := by simp [union, Bool.or_assoc]

theorem union_comm (a b : Helpers) : a.union b = b.union a := by simp [union, Bool.or_comm]

end Helpers

namespace Fragment

theorem ext {f g : Fragment} (htext : f.text = g.text)
    (hhelpers : f.helpers = g.helpers) : f = g := by
  obtain ⟨text, helpers⟩ := f
  cases htext
  cases hhelpers
  rfl

@[simp] theorem helpers_append (f g : Fragment) :
    (f ++ g).helpers = f.helpers.union g.helpers := rfl
@[simp] theorem helpers_plain (text : String) : (plain text).helpers = .none := rfl
@[simp] theorem helpers_empty : empty.helpers = .none := rfl
@[simp] theorem helpers_parenthesized (f : Fragment) : f.parenthesized.helpers = f.helpers := by
  simp [parenthesized]

theorem helpers_join (separator : String) (fs : List Fragment) :
    (join separator fs).helpers = (concat fs).helpers := by
  fun_induction join separator fs with
  | case1 => rfl
  | case2 f => simp [concat]
  | case3 f fs hfs ih => simp [concat, ih]

theorem text_join (separator : String) (fs : List Fragment) :
    (join separator fs).text = separator.intercalate (fs.map (·.text)) := by
  fun_induction join separator fs with
  | case1 => rfl
  | case2 f => simp
  | case3 f fs hfs ih =>
    obtain ⟨g, fs, rfl⟩ := List.exists_cons_of_ne_nil hfs
    simp [ih, String.intercalate_cons_cons]

end Fragment

-- ---------------------------------------------------------------------------
-- What an action does to a writer
-- ---------------------------------------------------------------------------

namespace Writer

def setting (w : Writer) : Setting := ⟨w.style, w.callables.flatten, w.level⟩

def record (w : Writer) (used : Helpers) : Writer := { w with helpers := w.helpers.union used }

def put (w : Writer) (f : Fragment) : Writer :=
  { w.record f.helpers with output := w.output ++ f.text }

variable (w : Writer)

@[simp] theorem setting_record (used : Helpers) : (w.record used).setting = w.setting := rfl
@[simp] theorem setting_put (f : Fragment) : (w.put f).setting = w.setting := rfl

@[simp] theorem put_empty : w.put .empty = w := by simp [put, record]

theorem put_congr {f g : Fragment} (htext : f.text = g.text) (hhelpers : f.helpers = g.helpers) :
    ((), w.put f) = ((), w.put g) :=
  congrArg (fun f => ((), w.put f)) (Fragment.ext htext hhelpers)

@[simp] theorem record_none : w.record .none = w := by simp [record]

@[simp] theorem record_record (a b : Helpers) : (w.record a).record b = w.record (a.union b) := by
  simp [record, Helpers.union_assoc]

@[simp] theorem put_put (f g : Fragment) : (w.put f).put g = w.put (f ++ g) := by
  simp [put, record, Helpers.union_assoc, String.append_assoc]

@[simp] theorem record_put (used : Helpers) (f : Fragment) :
    (w.record used).put f = w.put ⟨f.text, used.union f.helpers⟩ := by
  simp [put, record, Helpers.union_assoc]

@[simp] theorem put_record (f : Fragment) (used : Helpers) :
    (w.put f).record used = w.put ⟨f.text, f.helpers.union used⟩ := by
  simp [put, record, Helpers.union_assoc]

end Writer

namespace Writing

variable {w : Writer}

@[simp] theorem bind_apply (x : Writing α) (f : α → Writing β) :
    (x >>= f) w = f (x w).1 (x w).2 := rfl
@[simp] theorem pure_apply (a : α) : (pure a : Writing α) w = (a, w) := rfl
@[simp] theorem map_apply (f : α → β) (x : Writing α) : (f <$> x) w = (f (x w).1, (x w).2) := rfl
@[simp] theorem get_apply : (get : Writing Writer) w = (w, w) := rfl
@[simp] theorem set_apply (w' : Writer) : (set w' : Writing PUnit) w = ((), w') := rfl
@[simp] theorem modify_apply (f : Writer → Writer) : (modify f : Writing PUnit) w = ((), f w) := rfl

def Prints (x : Writing String) (f : Setting → Fragment) : Prop :=
  ∀ w, x w = ((f w.setting).text, w.record (f w.setting).helpers)

def PrintsAll (x : Writing (List String)) (fs : Setting → List Fragment) : Prop :=
  ∀ w, x w = ((fs w.setting).map (·.text), w.record (Fragment.concat (fs w.setting)).helpers)

def Writes (x : Writing Unit) (f : Setting → Fragment) : Prop :=
  ∀ w, x w = ((), w.put (f w.setting))

@[simp] theorem write_apply (text : String) : write text w = ((), w.put text) := by
  simp [write, Writer.put]

@[simp] theorem newline_apply : newline w = ((), w.put w.setting.newline) := by
  simp [newline, Setting.newline, Writer.setting]

@[simp] theorem indentation_apply : indentation w = ((), w.put w.setting.indentation) := by
  simp [indentation, Setting.indentation, Writer.setting]

@[simp] theorem helpers_varName (s : Setting) (name : String) (scope : Option ScopeId) :
    (s.varName name scope).helpers = .none := rfl

@[simp] theorem varName_apply (name : String) (scope : Option ScopeId) :
    varName name scope w = ((w.setting.varName name scope).text, w) := rfl

@[simp] theorem helper_apply (h : Helper) :
    helper h w = ((w.setting.style.helper h).text, w.record (.single h)) := rfl

@[simp] theorem isHostCall_apply (callee : Node) :
    isHostCall callee w = (w.setting.isHostCall callee, w) := by
  cases callee with
  | «variable» v =>
    have hcallable : w.callables.any (·.contains v.name) = w.callables.flatten.contains v.name := by
      rw [Bool.eq_iff_iff]
      simp
    simp only [isHostCall, bind_apply, get_apply, pure_apply, hcallable]
    rfl
  | _ => rfl

theorem writes_indented {x : Writing Unit} (h : Writes x f) :
    Writes (indented x) fun s => f s.deeper := by
  intro w
  simp [indented, h _, Writer.put, Writer.record, Writer.setting, Setting.deeper]

theorem prints_binding {x : Writing String} (h : Prints x f) (names : List String) :
    Prints (binding names x) fun s => f { s with callable := names ++ s.callable } := by
  intro w
  simp [binding, h _, Writer.record, Writer.setting]

theorem prints_capture {x : Writing Unit} (h : Writes x f) : Prints (capture x) f := by
  intro w
  have hx := h { w with output := "" }
  simp [capture, hx, Writer.put, Writer.record, Writer.setting]

attribute [local simp] actions headerValue parameters parameterTexts values chainKeys positioned
  keyed bodyActions
attribute [local simp] render renderHeader renderParameters renderNodes renderChain renderItems
  renderEntries

-- ---------------------------------------------------------------------------
-- Statements
-- ---------------------------------------------------------------------------

/-- The nodes of a body in the order of printing. -/
def printOrder (body : List Node) : List Node :=
  let first (node : Node) : Bool := !body.any isLabel && isNamedFunction node
  body.filter first ++ body.filter (!first ·)

theorem zip_map_self (f : Node → α) (body : List Node) :
    body.zip (body.map f) = body.map fun node => (node, f node) := by
  rw [← List.zip_map', List.map_id']

theorem statements_eq (f : Node → Writing Unit) (body : List Node) :
    statements body (body.map f) = lines ((printOrder body).map f) := by
  simp only [statements, zip_map_self, List.partition_eq_filter_filter, printOrder, List.filter_map,
    ← List.map_append, List.map_map]
  rfl

theorem hoisted_eq (f : Node → Fragment) (body : List Node) :
    hoisted body (body.map f) = (printOrder body).map f := by
  unfold hoisted printOrder
  cases hlabel : body.any isLabel with
  | true => simp
  | false =>
    simp only [zip_map_self, List.filter_map, ← List.map_append, List.map_map]
    rfl

theorem mem_of_mem_printOrder (h : node ∈ printOrder body) : node ∈ body := by
  rcases List.mem_append.1 h with h | h <;> exact List.mem_of_mem_filter h

theorem writes_lines {f : Node → Writing Unit} {g : Setting → Node → Fragment} {nodes : List Node}
    (h : ∀ node ∈ nodes, Writes (f node) (g · node)) :
    Writes (lines (nodes.map f)) fun s => .concat (Php.lines s (nodes.map (g s))) := by
  induction nodes with
  | nil => exact fun w => by simp [lines, Php.lines, Fragment.concat, Writer.put, Fragment.empty]
  | cons node nodes ih =>
    obtain ⟨hnode, hnodes⟩ := List.forall_mem_cons.1 h
    intro w
    simp only [List.map_cons, lines, bind_apply, indentation_apply, newline_apply, hnode _,
      ih hnodes _]
    simp [Php.lines, Fragment.concat]

theorem bodyActions_eq_map (nodes : List Node) :
    bodyActions nodes = nodes.map (actions · |>.statement) := by
  induction nodes with
  | nil => rw [bodyActions, List.map_nil]
  | cons node nodes ih => rw [bodyActions, List.map_cons, ih]

def WritesEach (nodes : List Node) : Prop :=
  ∀ node ∈ nodes, Writes (actions node).statement (render · .statement node)

theorem writes_statements (h : WritesEach body) :
    Writes (statements body (bodyActions body)) fun s =>
    .concat (hoisted body (Php.lines s (renderNodes s .statement body))) := by
  intro w
  have hordered : ∀ node ∈ printOrder body,
      Writes (actions node).statement (render · .statement node) :=
    fun node hnode => h node (mem_of_mem_printOrder hnode)
  simp only [bodyActions_eq_map, statements_eq, renderNodes_eq_map, Php.lines,
    List.map_map, hoisted_eq, writes_lines hordered w]

theorem writes_braced (h : WritesEach body) {inside : Inside}
    (hinside : inside.statements = fun s => renderNodes s .statement body) :
    Writes (braced body (bodyActions body)) fun s => Php.braced s body s.deeper inside := by
  intro w
  unfold braced Php.braced
  split
  next => exact write_apply _
  next => simp [writes_indented (writes_statements h) _, hinside]

-- ---------------------------------------------------------------------------
-- Blocks
-- ---------------------------------------------------------------------------

def partsOf (b : Block) : Parts := ⟨headerValue b.header, parameters b.header, bodyActions b.body⟩

def insideOf (b : Block) : Inside :=
  ⟨fun s => renderHeader s b.header, fun s => renderParameters s b.header,
    fun s => renderNodes s .statement b.body⟩

theorem useClause_apply (s : Setting) (b : Block) :
    Writing.useClause ((captures s.callable b).map fun c => "&" ++ s.style.phpVariable c.1 c.2) w =
      ((), w.put (Php.useClause s b)) := by
  have hnone (cs : List Capture) :
      (Fragment.concat (cs.map fun c => "&" ++ s.varName c.1 c.2)).helpers = .none := by
    induction cs with
    | nil => rfl
    | cons c cs ih => simp [Fragment.concat, ih]
  unfold Php.useClause
  cases captures s.callable b with
  | nil => simp [Writing.useClause]
  | cons c cs =>
    simp only [List.map_cons, Writing.useClause, write_apply, List.isEmpty_cons,
      Bool.false_eq_true, ↓reduceIte]
    refine w.put_congr ?_ ?_
    · simp [Writing.parenthesized, commaSeparated, Fragment.text_join, Setting.varName,
        Function.comp_def]
    · simpa [Fragment.helpers_join] using (hnone (c :: cs)).symm

theorem prints_catchBinding (header : Option Node) :
    Prints (Writing.catchBinding header) fun s => Php.catchBinding s header := by
  intro w
  unfold Writing.catchBinding Php.catchBinding
  cases header with
  | none => simp
  | some node =>
    cases node with
    | group g => cases hname : g.items.head?.bind parameterName? <;> simp [hname]
    | _ => simp

theorem naming_apply (name : Option String) : naming name w =
    ((), w.put (name.elim .empty fun name => w.setting.varName name none ++ " = ")) := by
  cases name with
  | none => simp [naming]
  | some name =>
    simp only [naming, bind_apply, varName_apply, write_apply, Writer.put_put]
    rfl

theorem spaced_apply (text : Option String) :
    spaced text w = ((), w.put (text.elim .empty fun text => " " ++ text)) := by
  cases text <;> simp [spaced]

def closureOf (s : Setting) (b : Block) : Fragment :=
  "function " ++ Fragment.parenthesized (.join ", " (renderParameters s b.header)) ++
    Php.useClause s b ++ " " ++
    Php.braced s b.body (s.within b).deeper (insideOf b)

def PrintsOption (x : Writing (Option String)) (f : Setting → Option Fragment) : Prop :=
  ∀ w, x w = ((f w.setting).map (·.text), w.record ((f w.setting).elim .none (·.helpers)))

structure PrintsParts (b : Block) : Prop where
  header : PrintsOption (headerValue b.header) fun s => renderHeader s b.header
  parameters : PrintsAll (parameters b.header) fun s => renderParameters s b.header
  body : WritesEach b.body

variable {b : Block}

namespace PrintsParts

theorem parenthesized (h : PrintsParts b) : Prints (Writing.header b (partsOf b)) fun s =>
    parenthesizedHeader b.header (renderHeader s b.header) := by
  intro w
  simp only [Writing.header, partsOf, bind_apply, h.header w]
  cases hheader : renderHeader w.setting b.header with
  | none => simp [parenthesizedHeader]
  | some f =>
    simp only [parenthesizedHeader, Option.map_some, Option.elim_some]
    split <;> simp [*, Writing.parenthesized]

theorem braced (h : PrintsParts b) : Writes (Writing.braced b.body (partsOf b).statements) fun s =>
    Php.braced s b.body s.deeper (insideOf b) :=
  writes_braced h.body rfl

theorem writes_closure (h : PrintsParts b) (s : Setting) (parameters : String) : Writes (do
      write ("function " ++ parameters)
      Writing.useClause ((captures s.callable b).map fun c => "&" ++ s.style.phpVariable c.1 c.2)
      write " "
      Writing.braced b.body (partsOf b).statements) fun inner =>
    Fragment.plain ("function " ++ parameters) ++ Php.useClause s b ++ " " ++
      Php.braced inner b.body inner.deeper (insideOf b) := by
  intro w
  simp [useClause_apply, h.braced _]

theorem closure (h : PrintsParts b) :
    Prints (Writing.closure b (partsOf b)) fun s => closureOf s b := by
  intro w
  have hparameters : (partsOf b).parameters w = _ := h.parameters w
  simp only [Writing.closure, bind_apply, get_apply, hparameters]
  refine (prints_binding (prints_capture (h.writes_closure w.setting _))
    (parameterNames b) _).trans ?_
  simp only [closureOf, Writer.record_record, Fragment.text_append, Fragment.text_plain,
    Fragment.text_parenthesized, Fragment.text_join, Fragment.helpers_append,
      Fragment.helpers_plain, Fragment.helpers_parenthesized,
    Fragment.helpers_join, Helpers.none_union, Helpers.union_none, Helpers.union_assoc]
  rfl

theorem writes_otherBody (h : PrintsParts b) : Writes (otherBody b (partsOf b)) fun s =>
    if b.delimited then " " ++ Php.braced s b.body s.deeper (insideOf b)
    else
      match renderNodes s .statement b.body with
      | [] => ";"
      | statement :: _ => " " ++ statement := by
  intro w
  unfold otherBody
  split
  next hdelimited => simp only [bind_apply, write_apply, h.braced _, Writer.put_put,
    Writer.setting_put]
  next hdelimited =>
    have hbody := h.body
    simp only [partsOf, bodyActions_eq_map, renderNodes_eq_map]
    cases hnodes : b.body with
    | nil => exact write_apply _
    | cons node nodes =>
      have hnode := hbody node (by rw [hnodes]; exact List.mem_cons_self)
      simp only [List.map_cons, bind_apply, write_apply, hnode _, Writer.put_put,
        Writer.setting_put]

theorem writes_block (h : PrintsParts b) : Writes (block b (partsOf b)) fun s =>
    renderBlock s .statement b (insideOf b) := by
  intro w
  have hheader : ∀ w, (partsOf b).header w = _ := h.header
  unfold block renderBlock
  cases hkind : b.kind with
  | main => exact writes_statements h.body w
  | function =>
    simp only [bind_apply, h.closure w, naming_apply, write_apply, Writer.record_put,
      Writer.put_put]
    cases b.name <;> exact w.put_congr rfl (by simp [closureOf, insideOf])
  | returnJump | breakJump | continueJump | throwJump =>
    simp only [bind_apply, write_apply, hheader, spaced_apply, Writer.put_put, Writer.put_record,
      Writer.setting_put, insideOf]
    cases renderHeader w.setting b.header <;> exact w.put_congr rfl (by simp)
  | caseLabel =>
    simp only [bind_apply, write_apply, hheader, Writer.put_put, Writer.record_put, insideOf]
    cases renderHeader w.setting b.header <;> exact w.put_congr rfl (by simp)
  | defaultLabel => exact write_apply _
  | ifBranch | whileLoop | forLoop | switch =>
    simp only [bind_apply, write_apply, h.parenthesized _, h.braced _, Writer.put_put,
      Writer.record_put, Writer.setting_put]
    exact w.put_congr rfl (by simp [insideOf])
  | elseBranch | tryBlock | finallyBlock => simp [h.braced _]
  | catchBlock =>
    simp only [bind_apply, write_apply, prints_catchBinding _ _, h.braced _, Writer.put_put,
      Writer.record_put, Writer.setting_put]
    exact w.put_congr rfl (by simp)
  | doLoop =>
    cases hsome : b.header.isSome with
    | true =>
      simp only [bind_apply, write_apply, h.parenthesized _, h.braced _, Writer.put_put,
        Writer.record_put, Writer.setting_put, ↓reduceIte, insideOf]
      exact w.put_congr rfl (by simp [Helpers.union_comm])
    | false =>
      simp only [bind_apply, pure_apply, write_apply, h.braced _, Writer.put_put,
        Writer.setting_put, Bool.false_eq_true, ↓reduceIte]
  | other word =>
    cases hsome : b.header.isSome with
    | true =>
      simp only [bind_apply, map_apply, write_apply, spaced_apply, h.parenthesized _,
        h.writes_otherBody _, Writer.put_put, Writer.put_record, Writer.setting_put, ↓reduceIte]
      refine w.put_congr rfl ?_
      simp only [Option.elim_some, Fragment.helpers_append, Fragment.helpers_plain,
        Helpers.none_union, Helpers.union_none]
      rfl
    | false =>
      simp only [bind_apply, pure_apply, write_apply, spaced_apply, h.writes_otherBody _,
        Writer.put_put, Writer.setting_put, Bool.false_eq_true, ↓reduceIte]
      rfl

theorem prints_block (h : PrintsParts b) (hplace : place ≠ .statement) :
    Prints (if b.kind = .function then Writing.closure b (partsOf b)
      else capture (block b (partsOf b))) fun s =>
      renderBlock s place b (insideOf b) := by
  intro w
  by_cases hkind : b.kind = .function
  · have hrender : ∀ s, renderBlock s place b (insideOf b) = closureOf s b := by
      intro s
      unfold renderBlock
      simp only [hkind]
      cases place with
      | statement => exact absurd rfl hplace
      | value | target | parameter => rfl
    simp only [if_pos hkind, hrender, h.closure w]
  · have hrender : ∀ s, renderBlock s place b (insideOf b) =
        renderBlock s .statement b (insideOf b) := by
      intro s
      unfold renderBlock
      split <;> simp_all
    simp only [if_neg hkind, hrender, prints_capture h.writes_block w]

end PrintsParts

-- ---------------------------------------------------------------------------
-- Nodes
-- ---------------------------------------------------------------------------

structure PrintsNode (node : Node) : Prop where
  value : Prints (actions node).value (render · .value node)
  target : Prints (actions node).target (render · .target node)
  parameter : Prints (actions node).parameter (render · .parameter node)
  statement : Writes (actions node).statement (render · .statement node)

theorem writes_closed {x : Writing String} (h : Prints x f) :
    Writes (Actions.closed x) fun s => f s ++ ";" := by
  intro w
  simp only [Actions.closed, bind_apply, write_apply, h w, Writer.record_put, Writer.put_put]
  exact w.put_congr rfl (by simp)

theorem PrintsNode.ofText {x : Writing String} (hactions : actions node = .ofText x)
    (h : Prints x f) (hrender : ∀ s place, render s place node = place.close (f s)) :
    PrintsNode node where
  value := by simp only [hactions, hrender]; exact h
  target := by simp only [hactions, hrender]; exact h
  parameter := by simp only [hactions, hrender]; exact h
  statement := by simp only [hactions, hrender]; exact writes_closed h

theorem printsAll_nil : PrintsAll (return []) fun _ => [] := fun w => by
  simp [Fragment.concat]

theorem printsAll_cons {x : Writing String} {xs : Writing (List String)} (hx : Prints x f)
    (hxs : PrintsAll xs fs) :
    PrintsAll (do return (← x) :: (← xs)) fun s => f s :: fs s := fun w => by
  simp [hx _, hxs _, Fragment.concat]

theorem printsAll_prefixed {x : Writing String} {xs : Writing (List String)} (front : String)
    (hx : Prints x f) (hxs : PrintsAll xs fs) :
    PrintsAll (do return (front ++ (← x)) :: (← xs)) fun s => (front ++ f s) :: fs s := fun w => by
  simp [hx _, hxs _, Fragment.concat]

theorem prints_branch {x : Writing String} (node : Node) (hx : Prints x f) :
    Prints (Writing.branch node x) fun s => Php.branch node (f s) := by
  intro w
  simp only [Writing.branch, Php.branch, bind_apply, pure_apply, hx w]
  split <;> simp [Writing.parenthesized]

theorem text_callUserFunc (fs : List Fragment) :
    (Fragment.callUserFunc fs).text = callUserFunc (fs.map (·.text)) := by
  show "call_user_func(" ++ (Fragment.join ", " fs).text ++ ")" =
    "call_user_func(" ++ ", ".intercalate _ ++ ")"
  rw [Fragment.text_join]

theorem helpers_callUserFunc (fs : List Fragment) :
    (Fragment.callUserFunc fs).helpers = (Fragment.concat fs).helpers := by
  simp [Fragment.callUserFunc, Fragment.helpers_join]

theorem text_indexed (fs : List Fragment) :
    (Fragment.concat (fs.map fun key => "[" ++ key ++ "]")).text =
    String.join ((fs.map (·.text)).map fun key => "[" ++ key ++ "]") := by
  induction fs with
  | nil => rfl
  | cons f fs ih => simp [Fragment.concat, ih]

theorem helpers_indexed (fs : List Fragment) :
    (Fragment.concat (fs.map fun key => "[" ++ key ++ "]")).helpers =
      (Fragment.concat fs).helpers := by
  induction fs with
  | nil => rfl
  | cons f fs ih => simp [Fragment.concat, ih]

namespace PrintsNode

variable {op : String} {left right condition whenTrue whenFalse callee operand : Node}
  {arguments items : List Node} {entries : List (Literal × Node)} {chain : List Access}
  {separator : Separator} {span : Span}

theorem literal (l : Literal) : PrintsNode (.literal l) :=
  .ofText (f := fun _ => Php.literal l) (by rw [actions]) (fun w => by simp) fun s place => by
    rw [render]

theorem binary (hleft : PrintsNode left) (hright : PrintsNode right) :
    PrintsNode (.binary op left right span) := by
  refine .ofText (f := fun s => render s .value left ++ (" " ++ op ++ " ") ++ render s .value right)
    (by rw [actions]) ?_ fun s place => by rw [render]
  intro w
  simp [hleft.value _, hright.value _]

theorem ternary (hcondition : PrintsNode condition) (htrue : PrintsNode whenTrue)
    (hfalse : PrintsNode whenFalse) :
    PrintsNode (.ternary condition whenTrue whenFalse span) := by
  refine .ofText (f := fun s => render s .value condition ++ " ? " ++
    Php.branch whenTrue (render s .value whenTrue) ++
    " : " ++ Php.branch whenFalse (render s .value whenFalse)) (by
      rw [actions]) ?_ fun s place => by rw [render]
  intro w
  simp [hcondition.value _, prints_branch whenTrue htrue.value _,
    prints_branch whenFalse hfalse.value _, Helpers.union_assoc]

theorem assign {target value : Node} (htarget : PrintsNode target) (hvalue : PrintsNode value) :
    PrintsNode (.assign op target value span) := by
  have hwritten (op : String) : Prints (do
      let target ← (actions target).target
      let value ← (actions value).value
      return target ++ (" " ++ op ++ " ") ++ value) fun s =>
        render s .target target ++ (" " ++ op ++ " ") ++ render s .value value := by
    intro w
    simp [htarget.target _, hvalue.value _]
  constructor <;> simp only [actions, render, reduceCtorEq, ↓reduceIte]
  · exact hwritten op
  · exact hwritten op
  · exact hwritten "="
  · exact writes_closed (hwritten op)

theorem group (hitems : PrintsAll (values items) fun s => renderNodes s .value items) :
    PrintsNode (.group ⟨items, separator, span⟩) := by
  refine .ofText (f := fun s => .parenthesized (.join separator.text (renderNodes s .value items)))
    (by rw [actions]) ?_
    fun s place => by rw [render]
  intro w
  simp [hitems _, Writing.parenthesized, Fragment.text_join, Fragment.helpers_join]

theorem list (hitems : PrintsAll (positioned 0 items) fun s => renderItems s 0 items) :
    PrintsNode (.list items span) := by
  refine .ofText (f := fun s => "[" ++ .join ", " (renderItems s 0 items) ++ "]")
    (by rw [actions]) ?_
    fun s place => by rw [render]
  intro w
  simp [hitems _, commaSeparated, Fragment.text_join, Fragment.helpers_join]

theorem record (hentries : PrintsAll (keyed entries) fun s => renderEntries s entries) :
    PrintsNode (.record entries span) := by
  refine .ofText (f := fun s => "[" ++ .join ", " (renderEntries s entries) ++ "]")
    (by rw [actions]) ?_
    fun s place => by rw [render]
  intro w
  simp [hentries _, commaSeparated, Fragment.text_join, Fragment.helpers_join]

theorem call (hcallee : PrintsNode callee)
    (harguments : PrintsAll (values arguments) fun s => renderNodes s .value arguments) :
    PrintsNode (.call callee arguments span) := by
  refine .ofText (f := fun s => if s.isHostCall callee then
      calleeName callee ++ Fragment.parenthesized (.join ", " (renderNodes s .value arguments))
    else .callUserFunc (render s .value callee :: renderNodes s .value arguments)) (by
      rw [actions]) ?_
    fun s place => by rw [render]
  intro w
  simp only [bind_apply, harguments w, isHostCall_apply, Writer.setting_record]
  split
  next => simp [Writing.parenthesized, commaSeparated, Fragment.text_join, Fragment.helpers_join]
  next =>
    simp [hcallee.value _, text_callUserFunc, helpers_callUserFunc, Fragment.concat,
      Helpers.union_comm]

theorem bareOrChained {name : String} {scope : Option ScopeId}
    (hkeys : PrintsAll (chainKeys chain) fun s => renderChain s chain) :
    PrintsNode (.variable ⟨name, chain, scope, span⟩) := by
  have hvalue : Prints (actions (.variable ⟨name, chain, scope, span⟩)).value
      (render · .value (.variable ⟨name, chain, scope, span⟩)) := by
    intro w
    simp only [actions, render, Place.close, bind_apply, varName_apply]
    split
    next => simp
    next =>
      simp [hkeys _, text_callUserFunc, helpers_callUserFunc, Fragment.concat, Style.helper]
  refine ⟨hvalue, ?_, ?_, ?_⟩
  · intro w
    simp only [actions, render, Place.close, bind_apply, varName_apply, pure_apply, hkeys _]
    simp [text_indexed, helpers_indexed]
  · intro w
    simp [actions, render, Place.close]
  · have hclosed := writes_closed hvalue
    simpa [actions, render, Place.close] using hclosed

theorem unary {fixity : Fixity} (h : PrintsNode operand) :
    PrintsNode (.unary op operand fixity span) := by
  by_cases htypeof : op = "typeof"
  · refine .ofText (f := fun s => .callUserFunc [s.style.helper .typeof, render s .value operand])
      (by cases fixity <;> rw [actions, if_pos htypeof]) ?_
      fun s place => by cases fixity <;> rw [render, if_pos htypeof]
    intro w
    simp [h.value _, text_callUserFunc, helpers_callUserFunc, Fragment.concat, Style.helper,
      Helpers.union_comm]
  by_cases hvoid : op = "void"
  · refine .ofText (f := fun s => "(" ++ render s .value operand ++ " ? null : null)")
      (by cases fixity <;> rw [actions, if_neg htypeof, if_pos hvoid]) ?_
      fun s place => by cases fixity <;> rw [render, if_neg htypeof, if_pos hvoid]
    intro w
    simp [h.value _]
  by_cases hdelete : op = "delete"
  · refine .ofText (f := fun s => "unset(" ++ render s .target operand ++ ")")
      (by cases fixity <;> rw [actions, if_neg htypeof, if_neg hvoid, if_pos hdelete]) ?_
      fun s place => by cases fixity <;> rw [render, if_neg htypeof, if_neg hvoid, if_pos hdelete]
    intro w
    simp [h.target _]
  cases fixity with
  | trailing =>
    refine .ofText (f := fun s => render s .target operand ++ op)
      (by rw [actions, if_neg htypeof, if_neg hvoid, if_neg hdelete]) ?_
      fun s place => by rw [render, if_neg htypeof, if_neg hvoid, if_neg hdelete]
    intro w
    simp [h.target _]
  | leading =>
    refine .ofText (f := fun s => if isStepOperator op then op ++ render s .target operand
        else (op ++ if gluesTo op (render s .value operand).text then " " else "") ++
          render s .value operand)
      (by rw [actions, if_neg htypeof, if_neg hvoid, if_neg hdelete]) ?_
      fun s place => by rw [render, if_neg htypeof, if_neg hvoid, if_neg hdelete]
    intro w
    split <;> simp [h.target _, h.value _]

theorem block {b : Block} (h : PrintsParts b) : PrintsNode (.block b) := by
  obtain ⟨kind, header, body, scope, name, delimited, span⟩ := b
  constructor <;> simp only [actions, render]
  · exact h.prints_block (by simp)
  · exact h.prints_block (by simp)
  · exact h.prints_block (by simp)
  · exact h.writes_block

end PrintsNode

mutual

theorem printsNode : ∀ node : Node, PrintsNode node
  | .literal l => .literal l
  | .variable ⟨_, chain, _, _⟩ => .bareOrChained (printsAll_chain chain)
  | .binary _ left right _ => .binary (printsNode left) (printsNode right)
  | .ternary condition whenTrue whenFalse _ =>
    .ternary (printsNode condition) (printsNode whenTrue) (printsNode whenFalse)
  | .assign _ target value _ => .assign (printsNode target) (printsNode value)
  | .call callee arguments _ => .call (printsNode callee) (printsAll_values arguments)
  | .group ⟨items, _, _⟩ => .group (printsAll_values items)
  | .list items _ => .list (printsAll_items 0 items)
  | .record entries _ => .record (printsAll_entries entries)
  | .unary _ operand _ _ => .unary (printsNode operand)
  | .block ⟨_, header, body, _, _, _, _⟩ =>
    .block ⟨printsOption_header header, printsAll_parameters header, writesEach_body body⟩

theorem printsOption_header : ∀ header, PrintsOption (headerValue header) fun s =>
    renderHeader s header
  | none => fun w => by simp
  | some header => fun w => by
    simp [(printsNode header).value _]

theorem printsAll_parameters :
    ∀ header, PrintsAll (parameters header) fun s => renderParameters s header
  | none => by simpa using printsAll_nil
  | some header => by
    cases header with
    | group g =>
      obtain ⟨items, separator, span⟩ := g
      simpa using printsAll_parameterTexts items
    | _ => simpa using printsAll_nil

theorem printsAll_parameterTexts :
    ∀ nodes, PrintsAll (parameterTexts nodes) fun s => renderNodes s .parameter nodes
  | [] => by simpa using printsAll_nil
  | node :: nodes => by
    simp only [parameterTexts, renderNodes]
    exact printsAll_cons (printsNode node).parameter (printsAll_parameterTexts nodes)

theorem printsAll_values : ∀ nodes, PrintsAll (values nodes) fun s => renderNodes s .value nodes
  | [] => by simpa using printsAll_nil
  | node :: nodes => by
    simp only [values, renderNodes]
    exact printsAll_cons (printsNode node).value (printsAll_values nodes)

theorem printsAll_chain : ∀ chain, PrintsAll (chainKeys chain) fun s => renderChain s chain
  | [] => by simpa using printsAll_nil
  | .property key :: chain => by
    intro w
    simp [printsAll_chain chain w, Fragment.concat]
  | .index value :: chain => by
    simp only [chainKeys, renderChain]
    exact printsAll_cons (printsNode value).value (printsAll_chain chain)

theorem printsAll_items (i : Nat) :
    ∀ nodes, PrintsAll (positioned i nodes) fun s => renderItems s i nodes
  | [] => by simpa using printsAll_nil
  | node :: nodes => by
    simp only [positioned, renderItems]
    exact printsAll_prefixed (toString i ++ " => ") (printsNode node).value
      (printsAll_items (i + 1) nodes)

theorem printsAll_entries : ∀ entries, PrintsAll (keyed entries) fun s => renderEntries s entries
  | [] => by simpa using printsAll_nil
  | (key, value) :: entries => by
    simp only [keyed, renderEntries]
    exact printsAll_prefixed (Php.literal key ++ " => ") (printsNode value).value
      (printsAll_entries entries)

theorem writesEach_body : ∀ nodes, WritesEach nodes
  | [] => fun _ h => absurd h List.not_mem_nil
  | node :: nodes => List.forall_mem_cons.2 ⟨(printsNode node).statement, writesEach_body nodes⟩

end

end Writing

end ScriptToPhp.Php
