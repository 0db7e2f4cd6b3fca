import Mathlib.Data.List.Nodup
import ScriptToPhp.Proofs.Reaches
import ScriptToPhp.Proofs.ReadingSound
import ScriptToPhp.Proofs.Scanning

/-!
# Text order

A tree keeps its tokens: read in source order, its leaves and operators are the values and operators
of the text, each once and in the same order. `Traces` pairs a stretch of tokens with the marks of
the tree that is made of them.
-/

namespace ScriptToPhp

-- ---------------------------------------------------------------------------
-- The marks of a tree
-- ---------------------------------------------------------------------------

inductive Mark
  | literal (l : Literal)
  | variable (v : Variable)
  | operator (op : String)

namespace Mark

def start? : Mark → Option Nat
  | .literal l => some l.span.start
  | .variable v => some v.span.start
  | .operator _ => none

def operator? : Mark → Option String
  | .operator op => some op
  | _ => none

end Mark

/-- Whether the node is the null that is put in for a missing initial value. -/
def Node.isFiller : Node → Bool
  | .literal l => l.kind == .named && l.value == "null" && l.span.isEmpty
  | _ => false

mutual

/-- The leaves and the operators of a tree in source order. The body of a `do` loop comes before its
condition. A missing initial value leaves no mark, nor does its `=`. -/
def Node.marks : Node → List Mark
  | .literal l => [.literal l]
  | .variable v => v.marks
  | .binary op left right _ => left.marks ++ .operator op :: right.marks
  | .ternary condition whenTrue whenFalse _ =>
    condition.marks ++ .operator "?" :: whenTrue.marks ++ whenFalse.marks
  | .assign op target value _ =>
    target.marks ++ if value.isFiller then [] else .operator op :: value.marks
  | .call callee arguments _ => callee.marks ++ marksOfNodes arguments
  | .group g => g.marks
  | .list items _ => marksOfNodes items
  | .record entries _ => marksOfEntries entries
  | .unary op operand .leading _ => .operator op :: operand.marks
  | .unary op operand .trailing _ => operand.marks ++ [.operator op]
  | .block b => b.marks

def Variable.marks : Variable → List Mark
  | ⟨name, chain, scope, span⟩ => .variable ⟨name, chain, scope, span⟩ :: marksOfChain chain

def Group.marks : Group → List Mark
  | ⟨items, _, _⟩ => marksOfNodes items

def Block.marks : Block → List Mark
  | ⟨.doLoop, header, body, _, _, _, _⟩ => marksOfNodes body ++ marksOfHeader header
  | ⟨_, header, body, _, _, _, _⟩ => marksOfHeader header ++ marksOfNodes body

def marksOfHeader : Option Node → List Mark
  | none => []
  | some header => header.marks

def marksOfNodes : List Node → List Mark
  | [] => []
  | node :: nodes => node.marks ++ marksOfNodes nodes

def marksOfChain : List Access → List Mark
  | [] => []
  | .property key :: chain => .literal key :: marksOfChain chain
  | .index value :: chain => value.marks ++ marksOfChain chain

def marksOfEntries : List (Literal × Node) → List Mark
  | [] => []
  | (key, value) :: entries => .literal key :: value.marks ++ marksOfEntries entries

end

theorem BlockShape.ofKeyword_eq_doLoop (h : ofKeyword word = .doLoop) : word = "do" := by
  unfold ofKeyword at h
  split at h <;> simp_all

theorem BlockKind.ofKeyword_eq_doLoop (h : ofKeyword word = .doLoop) : word = "do" := by
  unfold ofKeyword at h
  split at h <;> simp_all

@[simp] theorem marksOfNodes_append :
    marksOfNodes (nodes ++ nodes') = marksOfNodes nodes ++ marksOfNodes nodes' := by
  induction nodes with
  | nil => simp [marksOfNodes]
  | cons node nodes ih => simp [marksOfNodes, ih]

theorem Group.marks_eq (g : Group) : g.marks = marksOfNodes g.items := by
  cases g
  simp [marks]

theorem Block.marks_eq (b : Block) : b.marks =
    if b.kind = .doLoop then marksOfNodes b.body ++ marksOfHeader b.header
    else marksOfHeader b.header ++ marksOfNodes b.body := by
  obtain ⟨kind, header, body, _, _, _, _⟩ := b
  split
  next h => cases h; simp [marks]
  next h => exact marks.eq_2 _ _ _ _ _ _ _ h

@[simp] theorem Block.marks_begin : (Block.begin owned t).marks = [] := by
  simp [marks_eq, marksOfHeader, marksOfNodes]

@[simp] theorem Block.marks_begin_withHeader :
    ((Block.begin owned t).withHeader node).marks = node.marks := by
  simp [marks_eq, marksOfHeader, marksOfNodes]

theorem Block.marks_headed (h : BlockShape.ofKeyword t.value = .headed policy) :
    (((Block.begin owned t).withHeader? found).withBody nodes closing).marks =
      marksOfHeader found ++ marksOfNodes nodes := by
  have hkind : BlockKind.ofKeyword t.value ≠ .doLoop := by
    intro hloop
    rw [BlockKind.ofKeyword_eq_doLoop hloop] at h
    cases h
  simp [marks_eq, hkind]

theorem Block.marks_doLoop (h : BlockShape.ofKeyword t.value = .doLoop) :
    (((Block.begin owned t).withBody nodes closing).withHeader? found).marks =
      marksOfNodes nodes ++ marksOfHeader found := by
  have hkind : BlockKind.ofKeyword t.value = .doLoop := by
    rw [BlockShape.ofKeyword_eq_doLoop h]; rfl
  simp [marks_eq, hkind]

@[simp] theorem Block.marks_closure_withBody :
    ((closure owned front label params).withBody nodes closing).marks =
      marksOfNodes params.items ++ marksOfNodes nodes := by
  simp [marks_eq, marksOfHeader, Node.marks, Group.marks_eq]

@[simp] theorem Block.marks_closure_push : ((closure owned front label params).push node).marks =
    marksOfNodes params.items ++ node.marks := by
  simp [marks_eq, marksOfHeader, Node.marks, Group.marks_eq, marksOfNodes]

@[simp] theorem Block.marks_returning : (returning owned arrow node).marks = node.marks := by
  simp [marks_eq, marksOfHeader, marksOfNodes]

-- ---------------------------------------------------------------------------
-- Tokens and marks
-- ---------------------------------------------------------------------------

/-- Whether the token leaves no mark: what it says is in the shape of the tree. -/
def Token.isQuiet (t : Token) : Bool :=
  match t.kind with
  | .keyword | .function | .lambda | .punctuation => true
  | _ => false

theorem Token.kind_ne_operator {t : Token} (h : t.isQuiet = true) : t.kind ≠ .operator := by
  intro heq
  simp [isQuiet, heq] at h

def Mark.IsAt (t : Token) : Mark → Prop
  | .literal l => l.span = t.span ∧ t.kind ≠ .operator
  | .variable v => v.span.start = t.span.start ∧ v.name = t.text ∧ t.kind = .variable
  | .operator op => op = t.value ∧ t.kind = .operator

theorem Token.literal?_isAt {t : Token} (h : t.literal? = some l)
    (hspan : t.span.start < t.span.stop) :
    (Node.literal l).isFiller = false ∧ Mark.IsAt t (.literal l) := by
  unfold literal? at h
  have hempty : t.span.isEmpty = false := by
    simp only [Span.isEmpty, Span.length, beq_eq_false_iff_ne]
    omega
  split at h <;> cases h <;> simp_all [Node.isFiller, Mark.IsAt]

theorem Grammar.recordKey?_isAt (h : recordKey? t = some key) : Mark.IsAt t (.literal key) := by
  unfold recordKey? at h
  split at h <;> cases h <;> simp_all [Mark.IsAt, Literal.quoted]

theorem Grammar.isPropertyName_isAt (h : isPropertyName t = true) :
    Mark.IsAt t (.literal (.quoted t.text t.span)) := by
  unfold isPropertyName at h
  refine ⟨rfl, fun hkind => ?_⟩
  simp [hkind] at h

theorem Span.start_union {front back : Span} (h : front.start ≤ back.start) :
    (front.union back).start = front.start := Nat.min_eq_left h

theorem Derives.start_accesses (h : Derives enclosing (.accesses front chain whole) c c')
    (hle : ∀ t ∈ c.rest, front.start ≤ t.span.start) : whole.start = front.start := by
  generalize hphrase : Phrase.accesses front chain whole = phrase at h
  induction h generalizing front chain whole with
  | accessesEnd => cases hphrase; rfl
  | property _ _ _ ih =>
    cases hphrase
    simp only [Cursor.before_rest, List.mem_cons, forall_eq_or_imp] at hle
    have hunion := Span.start_union hle.2.1
    rw [ih (by rw [hunion]; exact hle.2.2) rfl, hunion]
  | index _ h₁ _ _ _ ih =>
    cases hphrase
    have hrest := fun t ht => hle t (List.mem_cons_of_mem _ (h₁.reaches.rest.subset ht))
    simp only [Cursor.before_rest, List.mem_cons, forall_eq_or_imp] at hrest
    have hunion := Span.start_union hrest.1
    rw [ih (by rw [hunion]; exact hrest.2) rfl, hunion]
  | _ => cases hphrase

/-- `Traces drops ts ms ts'`: the tokens of `ts` before `ts'` leave the marks `ms`. The name of a
function leaves none. Other variables may go without one only if `drops`. -/
inductive Traces (drops : Prop) : List Token → List Mark → List Token → Prop
  | done : Traces drops ts [] ts
  | quiet : t.isQuiet = true → Traces drops ts ms ts' → Traces drops (t :: ts) ms ts'
  | functionName :
      t.kind = .function → name.kind = .variable → Traces drops ts ms ts' →
      Traces drops (t :: name :: ts) ms ts'
  | dropped : drops → t.kind = .variable → Traces drops ts ms ts' → Traces drops (t :: ts) ms ts'
  | mark : m.IsAt t → Traces drops ts ms ts' → Traces drops (t :: ts) (m :: ms) ts'

namespace Traces

theorem append (h : Traces drops ts ms ts') (h' : Traces drops ts' ms' ts'') :
    Traces drops ts (ms ++ ms') ts'' := by
  induction h with
  | done => exact h'
  | quiet hquiet _ ih => exact .quiet hquiet (ih h')
  | functionName hfunction hname _ ih => exact .functionName hfunction hname (ih h')
  | dropped hdrops hkind _ ih => exact .dropped hdrops hkind (ih h')
  | mark hat _ ih => exact .mark hat (ih h')

theorem punctuation (ht : t.isMark c = true) (h : Traces drops ts ms ts') :
    Traces drops (t :: ts) ms ts' := by
  refine .quiet ?_ h
  simp [Token.isQuiet, (Token.isMark_iff.1 ht).1]

theorem keyword (ht : t.kind = .keyword) (h : Traces drops ts ms ts') :
    Traces drops (t :: ts) ms ts' :=
  .quiet (by simp [Token.isQuiet, ht]) h

theorem arrow (ht : t.kind = .lambda) (h : Traces drops ts ms ts') :
    Traces drops (t :: ts) ms ts' :=
  .quiet (by simp [Token.isQuiet, ht]) h

theorem operator (ht : t.kind = .operator) (h : Traces drops ts ms ts') :
    Traces drops (t :: ts) (.operator t.value :: ms) ts' :=
  .mark ⟨rfl, ht⟩ h

theorem drop (hdrops : drops) (h : Traces drops ts ms ts') (hms : ∀ m ∈ ms, ∃ v, m = .variable v) :
    Traces drops ts [] ts' := by
  induction h with
  | done => exact .done
  | quiet hquiet _ ih => exact .quiet hquiet (ih hms)
  | functionName hfunction hname _ ih => exact .functionName hfunction hname (ih hms)
  | dropped _ hkind _ ih => exact .dropped hdrops hkind (ih hms)
  | mark hat _ ih =>
    obtain ⟨v, rfl⟩ := hms _ List.mem_cons_self
    exact .dropped hdrops hat.2.2 (ih fun m hm => hms m (List.mem_cons_of_mem _ hm))

theorem skipSemicolon (c : Cursor) : Traces drops c.rest [] c.skipSemicolon.rest := by
  obtain h | ⟨t, ht, h⟩ := c.skipSemicolon_cases
  · rw [h]; exact .done
  · have hrest : c.rest = t :: c.skipSemicolon.rest := congrArg Cursor.rest h
    rw [hrest]
    exact .punctuation ht .done

theorem declared (hdrops : blockLocal = false → drops) (h : Traces drops ts (Node.marks node) ts') :
    Traces drops ts (marksOfNodes (node.declared blockLocal)) ts' := by
  unfold Node.declared
  split
  next v =>
    obtain ⟨name, chain, scope, span⟩ := v
    split
    next hbare =>
      simp only [Variable.isBare, List.isEmpty_iff] at hbare
      subst hbare
      simp only [Node.marks, Variable.marks, marksOfChain] at h
      split
      next => simpa [marksOfNodes, Node.mkAssign, Node.marks, Variable.marks, marksOfChain,
        Node.isFiller, Span.isEmpty, Span.length, Span.empty] using h
      next hglobal =>
        exact h.drop (hdrops (by simpa using hglobal)) (by simp)
    next => simpa [marksOfNodes] using h
  next => simpa [marksOfNodes] using h

theorem operators (h : Traces drops ts ms ts') :
    (ts.filter (·.kind == .operator)).map (·.value) =
      ms.filterMap Mark.operator? ++ (ts'.filter (·.kind == .operator)).map (·.value) := by
  induction h with
  | done => simp
  | quiet hquiet _ ih => simp [Token.kind_ne_operator hquiet, ih]
  | functionName hfunction hname _ ih => simp [hfunction, hname, ih]
  | dropped _ hkind _ ih => simp [hkind, ih]
  | @mark _ _ _ t m hat _ ih =>
    cases m with
    | literal l => simp [hat.2, List.filterMap_cons, Mark.operator?, ih]
    | «variable» v => simp [hat.2.2, List.filterMap_cons, Mark.operator?, ih]
    | operator op => simp [hat.1, hat.2, Mark.operator?, ih]

/-- The leaves start where tokens start, in their order. -/
theorem starts (h : Traces drops ts ms ts') :
    (ms.filterMap Mark.start? ++ ts'.map (·.span.start)).Sublist (ts.map (·.span.start)) := by
  induction h with
  | done => simp
  | quiet _ _ ih => exact ih.cons _
  | functionName _ _ _ ih => exact (ih.cons _).cons _
  | dropped _ _ _ ih => exact ih.cons _
  | @mark _ _ _ t m hat _ ih =>
    cases m with
    | literal l =>
      have hstart : l.span.start = t.span.start := by rw [hat.1]
      simpa [Mark.start?, hstart] using ih
    | «variable» v => simpa [Mark.start?, hat.1] using ih
    | operator op => simpa [List.filterMap_cons, Mark.start?] using ih.cons _

end Traces

-- ---------------------------------------------------------------------------
-- What is derived traces its tokens
-- ---------------------------------------------------------------------------

/-- The tokens stand one behind the other and none is empty. A `var` among them is a reason to drop
names. -/
structure Regular (drops : Prop) (ts : List Token) : Prop where
  ordered : ts.Pairwise (·.span.start < ·.span.start)
  nonempty : ∀ t ∈ ts, t.span.start < t.span.stop
  globals : ∀ t ∈ ts, t.isKeyword "var" = true → drops

theorem Regular.suffix (h : Regular drops ts) (hs : ts' <:+ ts) : Regular drops ts' where
  ordered := h.ordered.sublist hs.sublist
  nonempty := fun t ht => h.nonempty t (hs.subset ht)
  globals := fun t ht => h.globals t (hs.subset ht)

theorem Regular.tail (h : Regular drops (t :: ts)) : Regular drops ts :=
  h.suffix (List.suffix_cons t ts)

theorem Derives.regular (h : Derives enclosing phrase c c') (hr : Regular drops c.rest) :
    Regular drops c'.rest :=
  hr.suffix h.reaches.rest

theorem Regular.start_le (h : Regular drops (t :: ts)) : ∀ u ∈ ts, t.span.start ≤ u.span.start :=
  fun u hu => Nat.le_of_lt ((List.pairwise_cons.1 h.ordered).1 u hu)

/-- What the tokens of a phrase leave behind. A phrase that goes on from a front adds to its
marks. -/
def Phrase.Traced (drops : Prop) (ts ts' : List Token) : Phrase → Prop
  | .script statements | .statement statements | .body statements _ | .braces statements _ =>
    Traces drops ts (marksOfNodes statements) ts'
  | .declarations blockLocal statements =>
    (blockLocal = false → drops) → Traces drops ts (marksOfNodes statements) ts'
  | .block _ b => Traces drops ts b.marks ts'
  | .header _ found | .loopCondition found => Traces drops ts (marksOfHeader found) ts'
  | .elseBranches statements all =>
    ∃ branches, all = statements ++ branches ∧ Traces drops ts (marksOfNodes branches) ts'
  | .function keyword node =>
    node.isFiller = false ∧ (keyword.kind = .function → Traces drops (keyword :: ts) node.marks ts')
  | .lambda _ parameters node =>
    node.isFiller = false ∧ ∃ ms, node.marks = marksOfNodes parameters.items ++ ms ∧
      Traces drops ts ms ts'
  | .value node | .operand node => node.isFiller = false ∧ Traces drops ts node.marks ts'
  | .calls front node | .continuation front node =>
    (front.isFiller = false → node.isFiller = false) ∧
      ∃ ms, node.marks = front.marks ++ ms ∧ Traces drops ts ms ts'
  | .accesses _ chain _ => Traces drops ts (marksOfChain chain) ts'
  | .items _ nodes _ _ | .listItems _ nodes _ => Traces drops ts (marksOfNodes nodes) ts'
  | .recordEntries _ entries _ => Traces drops ts (marksOfEntries entries) ts'

theorem Derives.traced (h : Derives enclosing phrase c c') (hr : Regular drops c.rest) :
    phrase.Traced drops c.rest c'.rest := by
  -- A value is no filler, so that an assignment in the text never looks like one that was put in.
  -- This is why the induction carries `isFiller` along with the marks.
  induction h with
  | scriptEnd => exact .done
  | scriptMore _ h₁ _ ih₁ ih₂ =>
    simp only [Phrase.Traced, marksOfNodes_append]
    exact (ih₁ hr).append (ih₂ (h₁.regular hr))
  | empty hmark => exact .punctuation hmark .done
  | locals hkind _ _ ih => exact .keyword hkind (ih hr.tail nofun)
  | globals hvar _ ih =>
    exact .keyword (Token.isKeyword_iff.1 hvar).1
      (ih hr.tail fun _ => hr.globals _ List.mem_cons_self hvar)
  | keyword hkind _ _ ih =>
    simp only [Phrase.Traced, marksOfNodes, Node.marks, List.append_nil]
    exact .keyword hkind (ih hr.tail)
  | named hkind _ _ ih =>
    simp only [Phrase.Traced, marksOfNodes, List.append_nil]
    exact (ih hr.tail).2 hkind
  | expression _ _ _ _ ih =>
    simp only [Phrase.Traced, marksOfNodes, List.append_nil]
    exact (ih hr).2
  | declarationsEnd _ _ _ ih =>
    intro hdrops
    rw [Cursor.introduce_rest] at ih
    exact (ih hr).2.declared hdrops
  | declarationsMore _ h₁ hcomma _ ih₁ ih₂ =>
    intro hdrops
    rw [Cursor.introduce_rest] at ih₁
    have hr₁ := h₁.regular (by rwa [Cursor.introduce_rest])
    simp only [marksOfNodes_append]
    exact ((ih₁ hr).2.declared hdrops).append (.punctuation hcomma (ih₂ hr₁.tail hdrops))
  | jump => simpa [Phrase.Traced] using .done
  | jumpValue _ _ _ ih => simpa [Phrase.Traced] using (ih hr).2
  | caseLabel _ _ _ hcolon ih =>
    simpa [Phrase.Traced] using (ih hr).2.append (.punctuation hcolon .done)
  | defaultLabel _ hcolon => simpa [Phrase.Traced] using .punctuation hcolon .done
  | headed hshape h₁ _ ih₁ ih₂ =>
    rw [Phrase.Traced, Block.marks_headed hshape]
    exact (ih₁ hr).append (ih₂ (h₁.regular hr))
  -- The marks of a loop have its body first, as the text does.
  | doLoop hshape _ h₁ _ ih₁ ih₂ =>
    rw [Phrase.Traced, Block.marks_doLoop hshape]
    exact (ih₁ hr).append (ih₂ (h₁.regular hr))
  | noHeader => exact .done
  | header _ hopening _ ih => exact .punctuation hopening (ih hr.tail)
  | noCondition => exact .done
  | condition hword hopening _ ih =>
    exact .keyword (Token.isKeyword_iff.1 hword).1 (.punctuation hopening (ih hr.tail.tail))
  | bodyBraces hopening _ ih => exact .punctuation hopening (ih hr.tail)
  | bodyStatement _ h₁ _ ih₁ ih₂ =>
    have hr₁ := (h₁.regular hr).suffix (Cursor.reaches_skipSemicolon _).rest
    obtain ⟨branches, rfl, htraces⟩ := ih₂ hr₁
    simp only [Phrase.Traced, marksOfNodes_append]
    exact (ih₁ hr).append ((Traces.skipSemicolon _).append htraces)
  | noElse => exact ⟨[], by simp, .done⟩
  | elseBranch _ _ h₁ _ ih₁ ih₂ =>
    have hr₁ := (h₁.regular hr).suffix (Cursor.reaches_skipSemicolon _).rest
    obtain ⟨branches, rfl, htraces⟩ := ih₂ hr₁
    refine ⟨_ ++ branches, List.append_assoc .., ?_⟩
    rw [marksOfNodes_append]
    exact (ih₁ hr).append ((Traces.skipSemicolon _).append htraces)
  | bracesEnd hmark => exact .punctuation hmark .done
  | bracesMore _ h₁ _ ih₁ ih₂ =>
    simp only [Phrase.Traced, marksOfNodes_append]
    exact (ih₁ hr).append (ih₂ (h₁.regular hr))
  | @function _ _ _ _ _ _ _ c c₁ _ _ keyword name hname hopening h₁ hbrace _ ih₁ ih₂ =>
    have hr₀ := hr.suffix (Cursor.reaches_before? _ name).rest
    have hrest := (ih₁ hr₀.tail).append (.punctuation hbrace (ih₂ (h₁.regular hr₀.tail).tail))
    refine ⟨rfl, fun hkeyword => ?_⟩
    simp only [Node.marks, Block.marks_closure_withBody]
    -- The name is not in the tree as a leaf. The keyword before it tells it from other names.
    cases name with
    | none => exact .quiet (by simp [Token.isQuiet, hkeyword]) (.punctuation hopening hrest)
    | some t => exact .functionName hkeyword (hname t rfl) (.punctuation hopening hrest)
  | lambdaBraces hbrace _ ih =>
    exact ⟨rfl, _, by simp [Node.marks], .punctuation hbrace (ih hr.tail)⟩
  | lambdaValue _ _ ih => exact ⟨rfl, _, by simp [Node.marks], (ih hr).2⟩
  | value h₁ _ ih₁ ih₂ =>
    obtain ⟨hfiller, ms, hms, htraces⟩ := ih₂ (h₁.regular hr)
    refine ⟨hfiller (ih₁ hr).1, ?_⟩
    rw [hms]
    exact (ih₁ hr).2.append htraces
  | literal hliteral =>
    obtain ⟨hfiller, hat⟩ := Token.literal?_isAt hliteral (hr.nonempty _ List.mem_cons_self)
    exact ⟨hfiller, .mark hat .done⟩
  | name hkind h₁ _ ih =>
    refine ⟨rfl, ?_⟩
    simp only [Node.marks, Variable.marks]
    exact .mark ⟨h₁.start_accesses hr.start_le, rfl, hkind⟩ (ih hr.tail)
  | nameArrow hkind h₁ harrow _ ih₁ ih₂ =>
    obtain ⟨hfiller, ms, hms, htraces⟩ := ih₂ (h₁.regular hr.tail).tail
    refine ⟨hfiller, ?_⟩
    simp only [hms, marksOfNodes, Node.marks, Variable.marks, List.append_nil]
    exact .mark ⟨h₁.start_accesses hr.start_le, rfl, hkind⟩
      ((ih₁ hr.tail).append (.arrow harrow htraces))
  | group hopening _ _ ih => exact ⟨rfl, .punctuation hopening (ih hr.tail)⟩
  | groupArrow hopening h₁ harrow _ ih₁ ih₂ =>
    obtain ⟨hfiller, ms, hms, htraces⟩ := ih₂ (h₁.regular hr.tail).tail
    refine ⟨hfiller, ?_⟩
    rw [hms]
    exact .punctuation hopening ((ih₁ hr.tail).append (.arrow harrow htraces))
  | list hopening _ ih => exact ⟨rfl, .punctuation hopening (ih hr.tail)⟩
  | record hopening _ ih => exact ⟨rfl, .punctuation hopening (ih hr.tail)⟩
  | leading hkind _ h₁ _ _ ih₁ ih₂ =>
    obtain ⟨-, ms, hms, htraces⟩ := ih₂ (h₁.regular hr.tail)
    refine ⟨rfl, ?_⟩
    simp only [Node.mkUnary, Node.marks, hms]
    exact .operator hkind ((ih₁ hr.tail).2.append htraces)
  | functionLiteral hkind _ ih => exact ⟨(ih hr.tail).1, (ih hr.tail).2 hkind⟩
  | callsEnd => exact ⟨fun h => h, [], by simp, .done⟩
  | callsMore hopening h₁ _ ih₁ ih₂ | call hopening h₁ _ ih₁ ih₂ =>
    obtain ⟨hfiller, ms, hms, htraces⟩ := ih₂ (h₁.regular hr.tail)
    refine ⟨fun _ => hfiller rfl, _, ?_, .punctuation hopening ((ih₁ hr.tail).append htraces)⟩
    simp [hms, Node.mkCall, Node.marks]
  | continuationEnd => exact ⟨fun h => h, [], by simp, .done⟩
  | ternary hmark h₁ hcolon h₂ _ ih₁ ih₂ ih₃ =>
    have hr₁ := (h₁.regular hr.tail).tail
    obtain ⟨hfiller, ms, hms, htraces⟩ := ih₃ (h₂.regular hr₁)
    obtain ⟨hkind, hvalue⟩ := Token.isOperator_iff.1 hmark
    have hrest := (ih₁ hr.tail).2.append (.punctuation hcolon ((ih₂ hr₁).2.append htraces))
    refine ⟨fun _ => hfiller rfl, _, ?_, .operator hkind hrest⟩
    simp [hms, hvalue, Node.mkTernary, Node.marks]
  | trailing hkind =>
    exact ⟨fun _ => rfl, _, rfl, .operator hkind .done⟩
  | assign hkind h₁ _ _ ih₁ ih₂ =>
    obtain ⟨hfiller, ms, hms, htraces⟩ := ih₂ (h₁.regular hr.tail)
    have hoperator := (Token.isAssignment_iff.1 hkind).1
    refine ⟨fun _ => hfiller rfl, _, ?_, .operator hoperator ((ih₁ hr.tail).2.append htraces)⟩
    simp [hms, (ih₁ hr.tail).1, Node.mkAssign, Node.marks]
  | binary hkind h₁ _ ih₁ ih₂ =>
    obtain ⟨hfiller, ms, hms, htraces⟩ := ih₂ (h₁.regular hr.tail)
    have hoperator := Token.kind_of_isInfix hkind
    refine ⟨fun _ => hfiller rfl, _, ?_, .operator hoperator ((ih₁ hr.tail).2.append htraces)⟩
    simp [hms, Node.mkBinary, Node.marks]
  | accessesEnd => exact .done
  | property hpoint hname _ ih =>
    exact .punctuation hpoint (.mark (Grammar.isPropertyName_isAt hname) (ih hr.tail.tail))
  | index hopening h₁ hclosing _ ih₁ ih₂ =>
    have hr₁ := (h₁.regular hr.tail).tail
    exact .punctuation hopening ((ih₁ hr.tail).2.append (.punctuation hclosing (ih₂ hr₁)))
  | itemsEnd hmark => exact .punctuation hmark .done
  | itemsComma hmark _ ih => exact .punctuation hmark (ih hr.tail)
  | itemsSemicolon hmark _ ih => exact .punctuation hmark (ih hr.tail)
  | itemsLocal hkind _ _ _ ih => exact .keyword hkind (ih hr.tail)
  | itemsGlobal hvar _ ih => exact .keyword (Token.isKeyword_iff.1 hvar).1 (ih hr.tail)
  | itemsMore h₁ _ ih₁ ih₂ => exact (ih₁ hr).2.append (ih₂ (h₁.regular hr))
  | listEnd hmark => exact .punctuation hmark .done
  | listComma hmark _ ih => exact .punctuation hmark (ih hr.tail)
  | listMore h₁ _ ih₁ ih₂ => exact (ih₁ hr).2.append (ih₂ (h₁.regular hr))
  | recordEnd hmark => exact .punctuation hmark .done
  | recordComma hmark _ ih => exact .punctuation hmark (ih hr.tail)
  | recordMore hkey hcolon h₁ _ ih₁ ih₂ =>
    have hr₁ := hr.tail.tail
    exact .mark (Grammar.recordKey?_isAt hkey)
      (.punctuation hcolon ((ih₁ hr₁).2.append (ih₂ (h₁.regular hr₁))))

-- ---------------------------------------------------------------------------
-- Scripts
-- ---------------------------------------------------------------------------

theorem Source.tokens_regular (source : Source) (reserved : ReservedPrefixes)
    (h : ∀ t ∈ source.tokens reserved, t.isKeyword "var" = true → drops) :
    Regular drops (source.tokens reserved) where
  ordered := source.tokens_ordered reserved
  nonempty := fun _ ht =>
    have ⟨_, _, hlexed⟩ := Source.mem_tokens ht
    hlexed.start_lt_stop
  globals := h

namespace Script

/-- The tokens of a source leave the marks of the script that is read from it. -/
theorem traces_of_parse (h : parse options source = .ok script)
    (hdrops : ∀ t ∈ source.tokens options.reserved, t.isKeyword "var" = true → drops) :
    Traces drops (source.tokens options.reserved) script.root.marks [] := by
  obtain ⟨statements, c, hderives, -, hroot⟩ := derives_of_parse h
  have hmarks : script.root.marks = marksOfNodes statements := by
    simp [hroot, Block.marks_eq, Block.ofKind, marksOfHeader]
  rw [hmarks, ← hderives.rest_eq_nil]
  exact hderives.traced (source.tokens_regular options.reserved hdrops)

end Script

end ScriptToPhp
