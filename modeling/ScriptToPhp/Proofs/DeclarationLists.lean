import ScriptToPhp.Proofs.OperatorChains

/-!
# Lists of declarations

Behind `let`, names with or without values, separated by commas. As a statement the list declares
all of its names in the scope around it. In the header of a loop only the name directly behind `let`
is declared, in the scope of the loop; what follows the first comma is read as values.
-/

namespace ScriptToPhp

open Parse Text

namespace Word

variable (reserved : ReservedPrefixes)

abbrev comma : Word reserved := .mark ',' (by decide)

abbrev semicolon : Word reserved := .mark ';' (by decide)

abbrev parenthesis : Word reserved := .mark '(' (by decide)

abbrev closingParenthesis : Word reserved := .mark ')' (by decide)

abbrev brace : Word reserved := .mark '\x7b' (by decide)

abbrev closingBrace : Word reserved := .mark '\x7d' (by decide)

def letWord : Word reserved := .keyword "let" (by decide +kernel) (by decide)

def forWord : Word reserved := .keyword "for" (by decide +kernel) (by decide)

end Word

structure Declarator (reserved : ReservedPrefixes) where
  name : Atom reserved
  initial : Option (Atom reserved)
  isVariable : name.kind = .variable

inductive Declarators (reserved : ReservedPrefixes)
  | one (d : Declarator reserved)
  | more (d : Declarator reserved) (ds : Declarators reserved)

def Joint.equals : Joint := ⟨"=", by decide, by decide⟩

section

variable {reserved : ReservedPrefixes} {enclosing : List ScopeId} {scope : ScopeId}
  {bound depth : Nat} {ts : List Token} {table : ScopeTable} {opening closing : Span}
  {items : List Node} {separator : Separator} {c : Cursor}

-- ---------------------------------------------------------------------------
-- Declarators as values
-- ---------------------------------------------------------------------------

namespace Declarator

def text (d : Declarator reserved) : String :=
  match d.initial with
  | none => d.name.text
  | some value => d.name.text ++ " = " ++ value.text

def chain (d : Declarator reserved) : Chain reserved :=
  match d.initial with
  | none => .last d.name
  | some value => .link d.name .equals (.last value)

theorem chain_text (d : Declarator reserved) : d.chain.text = d.text := by
  unfold chain text
  split <;> simp [Chain.text, Joint.equals, String.append_assoc]

theorem chain_badTargets (d : Declarator reserved) (position : Nat) :
    d.chain.badTargets position = [] := by
  unfold chain
  split <;> simp [Chain.badTargets, d.isVariable]

theorem chain_links (d : Declarator reserved) (depth : Nat) : d.chain.links ≤ depth + 1 := by
  unfold chain
  split <;> simp [Chain.links]

theorem first_token (d : Declarator reserved) (position : Nat) :
    (d.chain.first.token position).kind = .variable ∧
    (d.chain.first.token position).text = d.name.text := by
  have hfirst : d.chain.first = d.name := by
    unfold chain
    split <;> rfl
  rw [hfirst]
  exact ⟨d.isVariable, rfl⟩

theorem runs_nextValue (d : Declarator reserved) (position : Nat)
    (hclosed : ts.head?.all Token.closesValue = true) :
    Runs ((Grammar.upTo (depth + 2)).nextValue enclosing)
      ⟨d.chain.first.token position :: (d.chain.more position ++ ts), none, table⟩
      (d.chain.node (table.resolve enclosing) position) ⟨ts, none, table⟩ :=
  Grammar.runs_nextValue (d.chain.runs_value position (d.chain_links depth)
    (d.chain_badTargets position) hclosed)

end Declarator

-- ---------------------------------------------------------------------------
-- Values of a header
-- ---------------------------------------------------------------------------

namespace Chain

def clause (chain : Chain reserved) : List (Piece reserved) :=
  .word (.semicolon reserved) :: .blank :: chain.pieces

theorem legible_clause (chain : Chain reserved) {ps : List (Piece reserved)}
    (hstop : Stopped (written ps)) (h : Legible ps) :
    Stopped (written (chain.clause ++ ps)) ∧ Legible (chain.clause ++ ps) := by
  refine ⟨?_, Legible.mark (chain.legible hstop h)⟩
  rw [clause, List.cons_append, written_mark]
  rfl

theorem runs_item (chain : Chain reserved) (position : Nat) (hlinks : chain.links ≤ depth + 1)
    (hgood : chain.badTargets position = []) (hclosed : ts.head?.all Token.closesValue = true)
    (h : Runs ((Grammar.upTo (depth + 2)).groupItems enclosing opening bound true) ⟨ts, none, table⟩
      (items, separator, closing) c) :
    Runs ((Grammar.upTo (depth + 2)).groupItems enclosing opening (bound + 1) false)
      ⟨placed position chain.pieces ++ ts, none, table⟩
      (chain.node (table.resolve enclosing) position :: items, separator, closing) c := by
  rw [chain.placed_pieces]
  exact Grammar.runs_groupItems_item (chain.first.isValue_token position)
    (chain.runs_value position hlinks hgood hclosed) h

theorem runs_clause (chain : Chain reserved) (position : Nat) (hlinks : chain.links ≤ depth + 1)
    (hgood : chain.badTargets 0 = []) (hclosed : ts.head?.all Token.closesValue = true)
    (h : Runs ((Grammar.upTo (depth + 2)).groupItems enclosing opening bound true) ⟨ts, none, table⟩
      (items, separator, closing) c) :
    ∃ item, Runs ((Grammar.upTo (depth + 2)).groupItems enclosing opening (bound + 2) true)
      ⟨placed position chain.clause ++ ts, none, table⟩ (item :: items, .semicolon, closing) c :=
  ⟨_, Grammar.runs_groupItems_semicolon (Word.isMark_mark _ _)
    (chain.runs_item _ hlinks (badTargets_eq_nil hgood _) hclosed h)⟩

end Chain

-- ---------------------------------------------------------------------------
-- Reading declarations
-- ---------------------------------------------------------------------------

namespace Declarators

def text : Declarators reserved → String
  | one d => d.text
  | more d ds => d.text ++ ", " ++ ds.text

def names : Declarators reserved → List String
  | one d => [d.name.text]
  | more d ds => d.name.text :: ds.names

def first : Declarators reserved → Declarator reserved
  | one d => d
  | more d _ => d

def pieces : Declarators reserved → List (Piece reserved)
  | one d => d.chain.pieces
  | more d ds => d.chain.pieces ++ .word (.comma reserved) :: .blank :: ds.pieces

theorem take_names (ds : Declarators reserved) : ds.names.take 1 = [ds.first.name.text] := by
  cases ds <;> rfl

theorem text_eq (ds : Declarators reserved) : ds.text.toList = written ds.pieces := by
  induction ds with
  | one d => simp [text, pieces, ← d.chain_text, Chain.text_eq]
  | more d ds ih => simp [text, pieces, ← d.chain_text, Chain.text_eq, ih]

theorem legible (ds : Declarators reserved) {ps : List (Piece reserved)}
    (hstop : Stopped (written ps)) (h : Legible ps) : Legible (ds.pieces ++ ps) := by
  induction ds with
  | one d => exact d.chain.legible hstop h
  | more d ds ih =>
    rw [pieces, List.append_assoc]
    refine d.chain.legible ?_ (Legible.mark ih)
    rw [List.cons_append, written_mark]
    rfl

theorem placed_first (ds : Declarators reserved) (position : Nat) :
    ∃ ts, placed position ds.pieces = ds.first.chain.first.token position :: ts := by
  cases ds with
  | one d => exact ⟨_, d.chain.placed_pieces position⟩
  | more d ds =>
    rw [pieces, placed_append, d.chain.placed_pieces]
    exact ⟨_, rfl⟩

def declareAll (table : ScopeTable) (scope : ScopeId) (names : List String) : ScopeTable :=
  names.foldl (·.declare scope ·) table

theorem runs_declarations (ds : Declarators reserved) (position : Nat)
    (hb : ds.names.length ≤ bound) (hclosed : ts.head?.all Token.closesValue = true)
    (hlast : ts.head?.any (·.isMark ',') = false) :
    ∃ statements, Runs ((Grammar.upTo (depth + 2)).declarations (scope :: enclosing) true bound)
      ⟨placed position ds.pieces ++ ts, none, table⟩ statements
        ⟨ts, none, declareAll table scope ds.names⟩ := by
  obtain ⟨bound, rfl⟩ := Nat.exists_eq_add_of_le' hb
  clear hb
  induction ds generalizing position table with
  | one d =>
    obtain ⟨hkind, htext⟩ := d.first_token position
    rw [pieces, d.chain.placed_pieces]
    exact ⟨_, Grammar.runs_declarations_last hkind htext (d.runs_nextValue position hclosed) hlast⟩
  | more d ds ih =>
    obtain ⟨hkind, htext⟩ := d.first_token position
    obtain ⟨statements, hrest⟩ := ih
      (position + byteLength (written d.chain.pieces) + (Word.comma reserved).size + 1)
    rw [pieces, placed_append, List.append_assoc, d.chain.placed_pieces]
    exact ⟨_, Grammar.runs_declarations_more hkind htext (d.runs_nextValue position rfl)
      (Word.isMark_mark _ _) hrest⟩

/-- How often reading a header goes on over the declarators. -/
def steps : Declarators reserved → Nat
  | one _ => 1
  | more _ ds => ds.steps + 2

theorem runs_items (ds : Declarators reserved) (position : Nat)
    (hclosed : ts.head?.all Token.closesValue = true)
    (h : Runs ((Grammar.upTo (depth + 2)).groupItems enclosing opening bound true) ⟨ts, none, table⟩
      (items, separator, closing) c) :
    ∃ items',
      Runs ((Grammar.upTo (depth + 2)).groupItems enclosing opening (bound + ds.steps) false)
      ⟨placed position ds.pieces ++ ts, none, table⟩ (items', separator, closing) c := by
  induction ds generalizing position with
  | one d =>
    exact ⟨_, d.chain.runs_item position (d.chain_links depth)
      (d.chain_badTargets position) hclosed h⟩
  | more d ds ih =>
    obtain ⟨items', hrest⟩ :=
      ih (position + byteLength (written d.chain.pieces) + (Word.comma reserved).size + 1)
    rw [pieces, placed_append, List.append_assoc]
    exact ⟨_, d.chain.runs_item position (d.chain_links depth) (d.chain_badTargets position) rfl
      (Grammar.runs_groupItems_comma (Word.isMark_mark _ _) hrest)⟩

def header (ds : Declarators reserved) (condition update : Chain reserved) :
    List (Piece reserved) :=
  .word (.letWord reserved) :: .blank ::
    (ds.pieces ++ (condition.clause ++ (update.clause ++ [.word (.closingParenthesis reserved)])))

/-- In a header, the first name is declared and no other. -/
theorem runs_header (ds : Declarators reserved) {condition update : Chain reserved}
    (enclosing : List ScopeId) (scope : ScopeId) (opening : Span) (table : ScopeTable)
    (ts : List Token) (position : Nat) (hcondition : condition.badTargets 0 = [])
    (hupdate : update.badTargets 0 = []) (hlinks : condition.links ≤ depth + 1)
    (hlinks' : update.links ≤ depth + 1) (hb : ds.steps + 6 ≤ bound) :
    ∃ items closing,
      Runs ((Grammar.upTo (depth + 2)).groupItems (scope :: enclosing) opening bound false)
      ⟨placed position (ds.header condition update) ++ ts, none, table⟩ (items, .semicolon, closing)
      ⟨ts, none, table.declare scope ds.first.name.text⟩ := by
  obtain ⟨bound, rfl⟩ : ∃ m, bound = m + 5 + ds.steps + 1 := ⟨bound - (ds.steps + 6), by omega⟩
  obtain ⟨hkind, htext⟩ := ds.first.first_token (position + (Word.letWord reserved).size + 1)
  simp only [header, placed, placed_append, List.cons_append, List.append_assoc, List.nil_append]
  -- Where the list, the two clauses and the closing parenthesis stand does not matter.
  generalize position + (Word.letWord reserved).size + 1 = p₁ at *
  generalize p₁ + byteLength (written ds.pieces) = p₂
  generalize p₂ + byteLength (written condition.clause) = p₃
  generalize p₃ + byteLength (written update.clause) = p₄
  have hclose : Runs ((Grammar.upTo (depth + 2)).groupItems (scope :: enclosing) opening
    (bound + 1) true)
      ⟨(Word.closingParenthesis reserved).token p₄ :: ts, none,
        table.declare scope ds.first.name.text⟩
      ([], .comma, _) _ := Grammar.runs_groupItems_close (Word.isMark_mark _ _)
  obtain ⟨_, hupdate⟩ := update.runs_clause p₃ hlinks' hupdate rfl hclose
  obtain ⟨_, hcondition⟩ := condition.runs_clause p₂ hlinks hcondition rfl hupdate
  obtain ⟨items, hitems⟩ := ds.runs_items p₁ rfl hcondition
  obtain ⟨us, hfirst⟩ := ds.placed_first p₁
  rw [hfirst] at hitems ⊢
  exact ⟨items, _, Grammar.runs_groupItems_let rfl hkind htext hitems⟩

-- ---------------------------------------------------------------------------
-- The two forms
-- ---------------------------------------------------------------------------

def statement (ds : Declarators reserved) : List (Piece reserved) :=
  .word (.letWord reserved) :: .blank :: (ds.pieces ++ [.word (.semicolon reserved)])

def loop (ds : Declarators reserved) (condition update : Chain reserved) : List (Piece reserved) :=
  .word (.forWord reserved) :: .blank :: .word (.parenthesis reserved) ::
    (ds.header condition update ++
      [.blank, .word (.brace reserved), .word (.closingBrace reserved)])

theorem written_statement (ds : Declarators reserved) :
    String.ofList (written ds.statement) = "let " ++ ds.text ++ ";" := by
  rw [← String.toList_inj]
  simp [statement, Word.letWord, Word.keyword, ds.text_eq]

theorem written_loop (ds : Declarators reserved) (condition update : Chain reserved) :
    String.ofList (written (ds.loop condition update)) =
      "for (let " ++ ds.text ++ "; " ++ condition.text ++ "; " ++ update.text ++ ") \x7b\x7d" := by
  rw [← String.toList_inj]
  simp [loop, header, Chain.clause, Word.letWord, Word.forWord, Word.keyword, ds.text_eq,
    Chain.text_eq]

theorem legible_statement (ds : Declarators reserved) : Legible ds.statement :=
  Legible.word stopped_blank (ds.legible (by rw [written_mark]; rfl) (Legible.mark trivial))

theorem legible_loop (ds : Declarators reserved) (condition update : Chain reserved) :
    Legible (ds.loop condition update) := by
  simp only [loop, header, List.cons_append, List.append_assoc, List.nil_append]
  refine Legible.word stopped_blank (Legible.mark (Legible.word stopped_blank ?_))
  have hend : Legible [.word (.closingParenthesis reserved), .blank, .word (.brace reserved),
      .word (.closingBrace reserved)] :=
    Legible.mark (Legible.mark (Legible.mark trivial))
  obtain ⟨hstop, hupdate⟩ := update.legible_clause (by rw [written_mark]; rfl) hend
  obtain ⟨hstop, hcondition⟩ := condition.legible_clause hstop hupdate
  exact ds.legible hstop hcondition

theorem runs_statement (ds : Declarators reserved) (scope : ScopeId) (enclosing : List ScopeId)
    (table : ScopeTable) (hb : ds.names.length ≤ depth) :
    ∃ statements, Runs ((Grammar.upTo (depth + 4)).statements (scope :: enclosing) (depth + 4))
      ⟨placed 0 ds.statement, none, table⟩ statements
        ⟨[], none, declareAll table scope ds.names⟩ := by
  simp only [statement, placed, placed_append]
  generalize 0 + (Word.letWord reserved).size + 1 = p₁
  obtain ⟨semicolon, hsemicolon, hmark⟩ : ∃ t,
      (Word.semicolon reserved).token (p₁ + byteLength (written ds.pieces)) = t ∧
        t.isMark ';' = true :=
    ⟨_, rfl, Word.isMark_mark (by decide) _⟩
  have hclosed : [semicolon].head?.all Token.closesValue = true ∧
      [semicolon].head?.any (·.isMark ',') = false := by
    rw [← hsemicolon]
    exact ⟨rfl, rfl⟩
  obtain ⟨statements, hdeclarations⟩ : ∃ statements,
    Runs ((Grammar.upTo (depth + 3)).declarations (scope :: enclosing)
      true (depth + 4)) ⟨placed p₁ ds.pieces ++ [semicolon], none,
        table⟩ statements ⟨[semicolon], none, _⟩ :=
    ds.runs_declarations p₁ (by omega) hclosed.1 hclosed.2
  have hend : Runs ((Grammar.upTo (depth + 4)).statements (scope :: enclosing) (depth + 3))
      ⟨[semicolon], none, declareAll table scope ds.names⟩ ([] ++ [])
        ⟨[], none, declareAll table scope ds.names⟩ := by
    refine Grammar.runs_statements ?_
      (Grammar.runs_statement_semicolon hmark) Grammar.runs_statements_end
    rw [← hsemicolon]
    rfl
  rw [hsemicolon]
  exact ⟨_, Grammar.runs_statements rfl (Grammar.runs_statement_let rfl rfl hdeclarations) hend⟩

theorem runs_loop (ds : Declarators reserved) {condition update : Chain reserved}
    (enclosing : List ScopeId) (table : ScopeTable) (hcondition : condition.badTargets 0 = [])
    (hupdate : update.badTargets 0 = []) (hlinks : condition.links ≤ depth + 2)
    (hlinks' : update.links ≤ depth + 2) (hb : ds.steps + 6 ≤ depth + 4) :
    ∃ b : Block, b.kind = .forLoop ∧ b.scope = table.size ∧
      Runs ((Grammar.upTo (depth + 4)).statements enclosing (depth + 4))
        ⟨placed 0 (ds.loop condition update), none, table⟩ [.block b]
        ⟨[], none, (table.extend enclosing.head?).2.declare table.size ds.first.name.text⟩ := by
  rw [loop, placed, placed, placed, placed_append]
  generalize 0 + (Word.forWord reserved).size + 1 = p₁
  generalize p₁ + (Word.parenthesis reserved).size = p₂
  generalize p₂ + byteLength (written (ds.header condition update)) = p₃
  obtain ⟨t, ht, hmark⟩ : ∃ t, (Word.parenthesis reserved).token p₁ = t ∧ t.isMark '(' = true :=
    ⟨_, rfl, Word.isMark_mark (by decide) p₁⟩
  obtain ⟨u, u', hbraces, hbrace, hbrace'⟩ : ∃ u u',
      placed p₃ [.blank, .word (.brace reserved), .word (.closingBrace reserved)] = [u, u'] ∧
        u.isMark '\x7b' = true ∧ u'.isMark '\x7d' = true :=
    ⟨_, _, rfl, Word.isMark_mark _ _, Word.isMark_mark _ _⟩
  obtain ⟨items, closing, hheader⟩ :=
    ds.runs_header enclosing table.size t.span (table.extend enclosing.head?).2
    [u, u'] p₂ hcondition hupdate hlinks hlinks' hb
  rw [ht, hbraces]
  refine ⟨_, ?_, ?_, Grammar.runs_statements rfl (Grammar.runs_statement_headed rfl rfl rfl
    (Grammar.runs_header hmark hheader)
      (Grammar.runs_body_empty hbrace hbrace')) Grammar.runs_statements_end⟩
  · rw [Block.withBody_kind, Block.withHeader_kind]
    rfl
  · rw [Block.withBody_scope, Block.withHeader_scope, Block.begin_scope]

theorem declareAll_root (seen names : List String) (h : (seen ++ names).Nodup) :
    declareAll ⟨[⟨none, seen.reverse, seen⟩]⟩ 0 names =
      ⟨[⟨none, (seen ++ names).reverse, seen ++ names⟩]⟩ := by
  induction names generalizing seen with
  | nil => simp [declareAll]
  | cons name names ih =>
    have hnew : name ∉ seen := fun hmem => (List.nodup_append.1 h).2.2 name hmem name (by simp) rfl
    have hdeclare : ScopeTable.declare ⟨[⟨none, seen.reverse, seen⟩]⟩ 0 name =
        ⟨[⟨none, (seen ++ [name]).reverse, seen ++ [name]⟩]⟩ := by
      simp [ScopeTable.declare, Scope.declare, Scope.declares, hnew]
    have hrest := ih (seen ++ [name]) (by simpa using h)
    rw [List.append_assoc, List.singleton_append] at hrest
    rw [declareAll, List.foldl_cons, hdeclare]
    exact hrest

end Declarators

end

namespace Script

/-- As a statement, a list of declarations declares all of its names, in their order, in the scope
around it. In the header of a loop it declares only the first one, in the scope of the loop. -/
theorem declaration_lists (options : Options) (file : String) (ds : Declarators options.reserved)
    (hnames : ds.names.Nodup) (condition update : Chain options.reserved)
    (hcondition : condition.badTargets 0 = []) (hupdate : update.badTargets 0 = []) :
    (∃ script, parse options (.ofText file ("let " ++ ds.text ++ ";")) = .ok script ∧
      script.scopes.get? script.root.scope = some ⟨none, ds.names.reverse, ds.names⟩) ∧
    ∃ script b, parse options (.ofText file
      ("for (let " ++ ds.text ++ "; " ++ condition.text ++ "; " ++ update.text ++
        ") \x7b\x7d")) = .ok script ∧ script.root.body = [.block b] ∧ b.kind = .forLoop ∧
      script.scopes.get? b.scope =
        some ⟨some script.root.scope, ds.names.take 1, ds.names.take 1⟩ := by
  rw [← ds.written_statement, ← ds.written_loop, ds.take_names]
  constructor
  · obtain ⟨htokens, hfault⟩ := Source.tokens_written file ds.legible_statement
    obtain ⟨statements, hruns⟩ := ds.runs_statement 0 [] rootScope
      (Nat.le_add_left ds.names.length (placed 0 ds.statement).length)
    have hb : (placed 0 ds.statement).length <
      (placed 0 ds.statement).length + ds.names.length + 4 := by omega
    rw [← htokens] at hruns hb
    obtain ⟨script, hparse, -, hroot, hscopes⟩ := parse_of_runs hfault hb hruns
    have htable : script.scopes = ⟨[⟨none, ds.names.reverse, ds.names⟩]⟩ :=
      hscopes.trans (Declarators.declareAll_root [] ds.names hnames)
    refine ⟨script, hparse, ?_⟩
    rw [hroot, htable]
    rfl
  · obtain ⟨htokens, hfault⟩ := Source.tokens_written file (ds.legible_loop condition update)
    -- Every bound above the number of tokens gives the same answer; this one leaves room for each
    -- part of the header.
    obtain ⟨depth, hlength, hlinks, hlinks', hsteps⟩ : ∃ depth,
        (placed 0 (ds.loop condition update)).length < depth + 4 ∧ condition.links ≤ depth + 2 ∧
          update.links ≤ depth + 2 ∧ ds.steps + 6 ≤ depth + 4 :=
      ⟨(placed 0 (ds.loop condition update)).length + condition.links + update.links + ds.steps +
        2, by omega, by omega, by omega, by omega⟩
    obtain ⟨b, hkind, hscope, hruns⟩ :=
      ds.runs_loop [0] rootScope hcondition hupdate hlinks hlinks' hsteps
    rw [← htokens] at hruns hlength
    obtain ⟨script, hparse, hbody, hroot, hscopes⟩ := parse_of_runs hfault hlength hruns
    refine ⟨script, b, hparse, hbody, hkind, ?_⟩
    rw [hscope, hroot, hscopes]
    rfl

/-- Of two names, the loop declares one. -/
theorem declaration_lists_two :
    (∃ script, parse {} (.ofText "a.js" "let a = 1, b = 2;") = .ok script ∧
      script.scopes.get? script.root.scope = some ⟨none, ["b", "a"], ["a", "b"]⟩) ∧
    ∃ script b, parse {} (.ofText "a.js" "for (let a = 1, b = 2; c; u) \x7b\x7d") = .ok script ∧
      script.root.body = [.block b] ∧ b.kind = .forLoop ∧
      script.scopes.get? b.scope = some ⟨some script.root.scope, ["a"], ["a"]⟩ := by
  have hlist : ∃ (ds : Declarators ({} : Options).reserved)
      (condition update : Chain ({} : Options).reserved),
        "let a = 1, b = 2;" = "let " ++ ds.text ++ ";" ∧
        "for (let a = 1, b = 2; c; u) \x7b\x7d" =
          "for (let " ++ ds.text ++ "; " ++ condition.text ++ "; " ++ update.text ++ ") \x7b\x7d" ∧
        ds.names = ["a", "b"] ∧ condition.badTargets 0 = [] ∧ update.badTargets 0 = [] :=
    ⟨.more ⟨⟨⟨.variable, "a", rfl, by decide +kernel⟩, rfl⟩,
      some ⟨⟨.number, "1", rfl, by decide +kernel⟩, rfl⟩, rfl⟩
      (.one ⟨⟨⟨.variable, "b", rfl, by decide +kernel⟩, rfl⟩,
        some ⟨⟨.number, "2", rfl, by decide +kernel⟩, rfl⟩, rfl⟩),
      .last ⟨⟨.variable, "c", rfl, by decide +kernel⟩, rfl⟩,
        .last ⟨⟨.variable, "u", rfl, by decide +kernel⟩, rfl⟩,
      by decide +kernel, by decide +kernel, rfl, rfl, rfl⟩
  obtain ⟨ds, condition, update, hlet, hfor, hnames, hcondition, hupdate⟩ := hlist
  have hforms := declaration_lists {} "a.js" ds
    (by rw [hnames]; decide) condition update hcondition hupdate
  rw [← hlet, ← hfor, hnames] at hforms
  exact hforms

end Script

end ScriptToPhp
