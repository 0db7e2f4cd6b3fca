import ScriptToPhp.Proofs.Runs
import ScriptToPhp.Proofs.Written

/-!
# Chains of operators

Operands with operators between them, in one line. The grammar has no precedence: what stands behind
an operator is read as a whole, so a chain folds to the right. Whether an operand can be assigned to
is looked at on the way back, so of several that cannot be, the last one is refused.
-/

namespace ScriptToPhp

open Parse Text

structure Atom (reserved : ReservedPrefixes) extends Word reserved where
  isValue : kind.isValue = true

/-- An operator that can stand between two operands, other than the question mark of a ternary. -/
structure Joint where
  text : String
  mem : text ∈ operators
  joins : (!unaryOnlyOperators.contains text && text != "?" && !isStepOperator text) = true

def Joint.word (reserved : ReservedPrefixes) (op : Joint) : Word reserved :=
  .operator op.text op.mem

def Joint.token (op : Joint) (position : Nat) : Token := .standing .operator op.text position

theorem Joint.joins_token (op : Joint) (position : Nat) : (op.token position).joins = true := by
  have hjoins := op.joins
  simp only [Bool.and_eq_true] at hjoins
  simp only [Token.joins, Token.refusesLeft, token, Token.standing, Bool.and_eq_true]
  exact ⟨⟨⟨rfl, by simpa using hjoins.1.1⟩, hjoins.1.2⟩, hjoins.2⟩

theorem Atom.isValue_token {reserved : ReservedPrefixes} (atom : Atom reserved) (position : Nat) :
    (atom.token position).isValue = true := atom.isValue

theorem Atom.isAssignable {reserved : ReservedPrefixes} (atom : Atom reserved) (position : Nat)
    (owner : String → Option ScopeId) :
    ((atom.token position).atom owner).isAssignable = (atom.kind == .variable) :=
  Token.isAssignable_atom owner (atom.isValue_token position)

inductive Chain (reserved : ReservedPrefixes)
  | last (atom : Atom reserved)
  | link (atom : Atom reserved) (op : Joint) (rest : Chain reserved)

namespace Chain

variable {reserved : ReservedPrefixes}

def text : Chain reserved → String
  | last atom => atom.text
  | link atom op rest => atom.text ++ " " ++ op.text ++ " " ++ rest.text

def pieces : Chain reserved → List (Piece reserved)
  | last atom => [.word atom.toWord]
  | link atom op rest =>
    .word atom.toWord :: .blank :: .word (op.word reserved) :: .blank :: rest.pieces

def behind (position : Nat) (atom : Atom reserved) (op : Joint) : Nat :=
  position + atom.size + 1 + byteLength op.text.toList + 1

/-- The chain folded to the right, each operand with the scope that owns its name. -/
def node (owner : String → Option ScopeId) : Nat → Chain reserved → Node
  | position, last atom => (atom.token position).atom owner
  | position, link atom op rest =>
    .join op.text ((atom.token position).atom owner) (rest.node owner (behind position atom op))

/-- The operands directly before an assignment operator that cannot be assigned to. -/
def badTargets : Nat → Chain reserved → List Token
  | _, last _ => []
  | position, link atom op rest =>
    (if isAssignmentOperator op.text && atom.kind !=
      .variable then [atom.token position] else []) ++
      rest.badTargets (behind position atom op)

theorem badTargets_eq_nil {chain : Chain reserved} {position : Nat}
    (h : chain.badTargets position = []) (place : Nat) :
    chain.badTargets place = [] := by
  induction chain generalizing position place with
  | last atom => rfl
  | link atom op rest ih =>
    obtain ⟨htarget, hrest⟩ := List.append_eq_nil_iff.1 h
    refine List.append_eq_nil_iff.2 ⟨?_, ih hrest _⟩
    simpa using htarget

def first : Chain reserved → Atom reserved
  | last atom => atom
  | link atom _ _ => atom

def more (position : Nat) : Chain reserved → List Token
  | last _ => []
  | link atom op rest =>
    op.token (position + atom.size + 1) :: placed (behind position atom op) rest.pieces

def links : Chain reserved → Nat
  | last _ => 0
  | link _ _ rest => rest.links + 1

theorem placed_pieces (chain : Chain reserved) (position : Nat) :
    placed position chain.pieces = chain.first.token position :: chain.more position := by
  cases chain <;> rfl

theorem text_eq (chain : Chain reserved) : chain.text = String.ofList (written chain.pieces) := by
  induction chain with
  | last atom => simp [text, pieces]
  | link atom op rest ih =>
    rw [← String.toList_inj]
    simp [text, pieces, ih, Joint.word, Word.operator]

theorem legible (chain : Chain reserved) {ps : List (Piece reserved)} (hstop : Stopped (written ps))
    (h : Legible ps) :
    Legible (chain.pieces ++ ps) := by
  induction chain with
  | last atom => exact h.word hstop
  | link atom op rest ih =>
    have hop : Legible (.word (op.word reserved) :: .blank :: (rest.pieces ++ ps)) :=
      Legible.word stopped_blank ih
    exact Legible.word stopped_blank hop

theorem links_lt (chain : Chain reserved) (position : Nat) :
    chain.links < (placed position chain.pieces).length := by
  induction chain generalizing position with
  | last atom => simp [pieces, placed, links]
  | link atom op rest ih =>
    have hrest := ih (behind position atom op)
    rw [placed_pieces]
    simp only [more, links, List.length_cons]
    omega

-- ---------------------------------------------------------------------------
-- Reading a chain
-- ---------------------------------------------------------------------------

variable {enclosing : List ScopeId} {bound : Nat} {ts : List Token} {table : ScopeTable}

theorem runs_first {g : Grammar} (chain : Chain reserved) (position : Nat)
    (hclosed : ts.head?.all Token.closesValue = true) :
    Runs (g.operandOf enclosing (bound + 1) (chain.first.token position))
    ⟨chain.more position ++ ts, none, table⟩
      (some ((chain.first.token position).atom (table.resolve enclosing)))
      ⟨chain.more position ++ ts, none, table⟩ := by
  refine Grammar.runs_operandOf (chain.first.isValue_token position) ?_
  cases chain with
  | last atom =>
    cases ts with
    | nil => rfl
    | cons t ts =>
      have ht : t.closesValue = true := hclosed
      show t.closesOperand = true
      rw [Token.closesOperand, ht, Bool.or_true]
  | link atom op rest => rfl

theorem runs_value (chain : Chain reserved) (position : Nat) (hb : chain.links ≤ bound)
    (hgood : chain.badTargets position = []) (hclosed : ts.head?.all Token.closesValue = true) :
    Runs ((Grammar.upTo (bound + 1)).value enclosing (chain.first.token position))
      ⟨chain.more position ++ ts, none, table⟩
        (some (chain.node (table.resolve enclosing) position))
      ⟨ts, none, table⟩ := by
  induction chain generalizing position bound with
  | last atom =>
    exact Grammar.runs_valueOf (runs_first _ position hclosed)
      (Grammar.runs_continuations_closed hclosed)
  | link atom op rest ih =>
    obtain ⟨bound, rfl⟩ : ∃ b, bound = b + 1 :=
      Nat.exists_eq_succ_of_ne_zero (by rintro rfl; simp [links] at hb)
    obtain ⟨htarget, hrest⟩ := List.append_eq_nil_iff.1 hgood
    have hright := ih (behind position atom op) (Nat.le_of_succ_le_succ hb) hrest
    refine Grammar.runs_valueOf (runs_first _ position hclosed) ?_
    refine Grammar.runs_continuations_join (op.joins_token _) ?_ ?_ hclosed
    · rw [placed_pieces]
      exact Grammar.runs_nextValue hright
    · intro hassign
      have hassign : isAssignmentOperator op.text = true := hassign
      rw [first, atom.isAssignable]
      simpa [hassign] using htarget

theorem runs_nextValue (chain : Chain reserved) (position : Nat) (hb : chain.links ≤ bound)
    (hgood : chain.badTargets position = []) (hclosed : ts.head?.all Token.closesValue = true) :
    Runs ((Grammar.upTo (bound + 1)).nextValue enclosing)
    ⟨placed position chain.pieces ++ ts, none, table⟩
      (chain.node (table.resolve enclosing) position) ⟨ts, none, table⟩ := by
  rw [placed_pieces]
  exact Grammar.runs_nextValue (runs_value chain position hb hgood hclosed)

/-- Otherwise the last bad target is refused. -/
theorem fails_value (chain : Chain reserved) (position : Nat) (hb : chain.links ≤ bound) {t : Token}
    (hbad : (chain.badTargets position).getLast? = some t)
    (hclosed : ts.head?.all Token.closesValue = true) :
    Fails ((Grammar.upTo (bound + 1)).value enclosing (chain.first.token position))
      ⟨chain.more position ++ ts, none, table⟩
      ⟨.notAssignable, [(t.atom (table.resolve enclosing)).subject], t.span⟩ := by
  induction chain generalizing position bound with
  | last atom => cases hbad
  | link atom op rest ih =>
    obtain ⟨bound, rfl⟩ : ∃ b, bound = b + 1 :=
      Nat.exists_eq_succ_of_ne_zero (by rintro rfl; simp [links] at hb)
    have hb := Nat.le_of_succ_le_succ hb
    refine Grammar.fails_valueOf (runs_first _ position hclosed) ?_
    -- The rest is read before the target is looked at, so this target is refused only if the rest
    -- has no bad one.
    cases hrest : rest.badTargets (behind position atom op) with
    | nil =>
      rw [badTargets, hrest, List.append_nil] at hbad
      split at hbad
      next htarget =>
        cases hbad
        obtain ⟨hassign, hkind⟩ := Bool.and_eq_true_iff.1 htarget
        rw [← Token.span_atom _ (table.resolve enclosing)]
        refine Grammar.fails_continuations_target (op.joins_token _)
          (runs_nextValue rest _ hb hrest hclosed) hassign ?_
        rw [first, atom.isAssignable]
        simpa using hkind
      next => cases hbad
    | cons u us =>
      rw [badTargets, List.getLast?_append_of_ne_nil _ (by simp [hrest])] at hbad
      refine Grammar.fails_continuations_right (op.joins_token _) ?_
      rw [placed_pieces]
      exact Grammar.fails_nextValue (ih (behind position atom op) hb hbad)

theorem runs_statements (chain : Chain reserved) (enclosing : List ScopeId) (table : ScopeTable)
    (hb : chain.links ≤ bound + 1) (hgood : chain.badTargets 0 = []) :
    Runs ((Grammar.upTo (bound + 2)).statements enclosing (bound + 2))
    ⟨placed 0 chain.pieces, none, table⟩
      [chain.node (table.resolve enclosing) 0] ⟨[], none, table⟩ := by
  have hvalue : Runs ((Grammar.upTo (bound + 2)).value enclosing _)
      ⟨chain.more 0 ++ [], none, table⟩ _ _ :=
    chain.runs_value 0 hb hgood rfl
  rw [List.append_nil] at hvalue
  rw [placed_pieces]
  exact Grammar.runs_statements (Token.isMark_of_isValue (chain.first.isValue_token 0) _)
    (Grammar.runs_statement (chain.first.isValue_token 0) hvalue) Grammar.runs_statements_end

theorem fails_statements (chain : Chain reserved) (enclosing : List ScopeId) (table : ScopeTable)
    (hb : chain.links ≤ bound + 1) {t : Token} (hbad : (chain.badTargets 0).getLast? = some t) :
    Fails ((Grammar.upTo (bound + 2)).statements enclosing (bound + 2))
    ⟨placed 0 chain.pieces, none, table⟩
      ⟨.notAssignable, [(t.atom (table.resolve enclosing)).subject], t.span⟩ := by
  have hvalue : Fails ((Grammar.upTo (bound + 2)).value enclosing _)
      ⟨chain.more 0 ++ [], none, table⟩ _ :=
    chain.fails_value 0 hb hbad rfl
  rw [List.append_nil] at hvalue
  rw [placed_pieces]
  exact Grammar.fails_statements (Token.isMark_of_isValue (chain.first.isValue_token 0) _)
    (Grammar.fails_statement (chain.first.isValue_token 0) hvalue)

end Chain

namespace Script

/-- Operands and operators in one line are one statement, folded to the right: an assignment where
the operator assigns and an operation elsewhere. If operands that cannot be assigned to stand
directly before operators that assign, the last of them is refused. -/
theorem operator_chain (options : Options) (file : String) (chain : Chain options.reserved) :
    (chain.badTargets 0 = [] → ∃ script, parse options (.ofText file chain.text) = .ok script ∧
      script.root.body = [chain.node (fun _ => none) 0]) ∧
    ∀ t, (chain.badTargets 0).getLast? = some t →
      ∃ diagnostic, parse options (.ofText file chain.text) = .error diagnostic ∧
        diagnostic.kind = .nonAssignableTarget ∧ diagnostic.code = 9 ∧
        diagnostic.location.file = file ∧
        diagnostic.location.span = t.span := by
  have hlegible : Legible (chain.pieces ++ []) := chain.legible trivial trivial
  rw [List.append_nil] at hlegible
  obtain ⟨htokens, hfault⟩ := Source.tokens_written file hlegible
  rw [← chain.text_eq] at htokens hfault
  have hb : chain.links ≤ (placed 0 chain.pieces).length + 1 :=
    Nat.le_succ_of_le (Nat.le_of_lt (chain.links_lt 0))
  have hlength : (placed 0 chain.pieces).length < (placed 0 chain.pieces).length + 2 := by omega
  constructor
  · intro hgood
    have hruns := chain.runs_statements [0] rootScope hb hgood
    rw [← htokens] at hruns hlength
    obtain ⟨script, hparse, hbody, -⟩ := parse_of_runs hfault hlength hruns
    exact ⟨script, hparse, hbody⟩
  · intro t hbad
    have hfails := chain.fails_statements [0] rootScope hb hbad
    rw [← htokens] at hfails hlength
    exact ⟨_, parse_of_fails hfault hlength hfails, rfl, rfl, rfl, rfl⟩

/-- Assignments and other operators are mixed in one chain, and of two bad targets the second one is
refused. -/
theorem operator_chain_mixed :
    (∃ script, parse {} (.ofText "a.js" "a += 1 << b") = .ok script ∧
      script.root.body = [.assign "+=" (.variable ⟨"a", [], none, ⟨0, 1⟩⟩)
        (.binary "<<" (.literal ⟨.number, "1", ⟨5, 6⟩⟩) (.variable ⟨"b", [], none, ⟨10, 11⟩⟩)
          ⟨5, 11⟩) ⟨0, 11⟩]) ∧
    ∃ diagnostic, parse {} (.ofText "a.js" "1 = a - 2 *= b = 3") = .error diagnostic ∧
      diagnostic.kind = .nonAssignableTarget ∧ diagnostic.code = 9 ∧
      diagnostic.location.file = "a.js" ∧
      diagnostic.location.span = ⟨8, 9⟩ := by
  let a : Atom ({} : Options).reserved := ⟨⟨.variable, "a", rfl, by decide +kernel⟩, rfl⟩
  let b : Atom ({} : Options).reserved := ⟨⟨.variable, "b", rfl, by decide +kernel⟩, rfl⟩
  let one : Atom ({} : Options).reserved := ⟨⟨.number, "1", rfl, by decide +kernel⟩, rfl⟩
  let two : Atom ({} : Options).reserved := ⟨⟨.number, "2", rfl, by decide +kernel⟩, rfl⟩
  let three : Atom ({} : Options).reserved := ⟨⟨.number, "3", rfl, by decide +kernel⟩, rfl⟩
  constructor
  · have hchain : ∃ chain : Chain ({} : Options).reserved, chain.text = "a += 1 << b" ∧
        chain.badTargets 0 = [] ∧
          chain.node (fun _ => none) 0 = .assign "+=" (.variable ⟨"a", [], none, ⟨0, 1⟩⟩)
            (.binary "<<" (.literal ⟨.number, "1", ⟨5, 6⟩⟩) (.variable ⟨"b", [], none, ⟨10, 11⟩⟩)
              ⟨5, 11⟩) ⟨0, 11⟩ := by
      refine ⟨.link a ⟨"+=", by decide, by decide⟩
        (.link one ⟨"<<", by decide, by decide⟩ (.last b)), by decide +kernel, rfl, ?_⟩
      have ha : a.token 0 = ⟨.variable, "a", "a", ⟨0, 1⟩, false⟩ := by decide +kernel
      have hone : one.token 5 = ⟨.number, "1", "1", ⟨5, 6⟩, false⟩ := by decide +kernel
      have hb : b.token 10 = ⟨.variable, "b", "b", ⟨10, 11⟩, false⟩ := by decide +kernel
      have hbehind : Chain.behind 0 a ⟨"+=", by decide, by decide⟩ = 5 ∧
          Chain.behind 5 one ⟨"<<", by decide, by decide⟩ = 10 := by decide +kernel
      simp only [Chain.node, hbehind, ha, hone, hb, Node.join,
        if_pos (show isAssignmentOperator "+=" = true by decide),
          if_neg (show ¬isAssignmentOperator "<<" = true by decide)]
      rfl
    obtain ⟨chain, htext, hgood, hnode⟩ := hchain
    rw [← htext, ← hnode]
    exact (operator_chain {} "a.js" chain).1 hgood
  · have hchain : ∃ chain : Chain ({} : Options).reserved, chain.text = "1 = a - 2 *= b = 3" ∧
        (chain.badTargets 0).getLast? = some (.standing .number "2" 8) :=
      ⟨.link one ⟨"=", by decide, by decide⟩ (.link a ⟨"-", by decide, by decide⟩
        (.link two ⟨"*=", by decide, by decide⟩
          (.link b ⟨"=", by decide, by decide⟩ (.last three)))),
        by decide +kernel, by decide +kernel⟩
    obtain ⟨chain, htext, hbad⟩ := hchain
    rw [← htext]
    exact (operator_chain {} "a.js" chain).2 _ hbad

end Script

end ScriptToPhp
