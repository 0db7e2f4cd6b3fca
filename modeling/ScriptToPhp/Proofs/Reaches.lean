import Mathlib.Data.List.Infix
import ScriptToPhp.Proofs.Derivation

/-!
# From one place to a later one

Whatever is derived between two places, the later one has only some of the earlier one's tokens
left, the same fault behind them, and a scope table in which nothing was taken back.
-/

namespace ScriptToPhp

-- ---------------------------------------------------------------------------
-- Scope tables
-- ---------------------------------------------------------------------------

namespace ScopeTable

variable {table : ScopeTable}

@[simp] theorem size_extend : (table.extend parent).2.size = table.size + 1 := by
  simp [extend, size]

@[simp] theorem size_declare : (table.declare scope name).size = table.size := by
  simp [declare, size]

theorem lt_size_of_declares (h : table.declares scope name = true) : scope < table.size := by
  simp only [declares, get?, Option.any_eq_true] at h
  obtain ⟨found, hfound, -⟩ := h
  exact (List.getElem?_eq_some_iff.1 hfound).1

@[simp] theorem declares_extend :
    (table.extend parent).2.declares scope name = table.declares scope name := by
  simp only [declares, get?, extend]
  rcases Nat.lt_trichotomy scope table.scopes.length with h | h | h
  · rw [List.getElem?_append_left h]
  · subst h
    simp [Scope.ofParent, Scope.declares]
  · rw [List.getElem?_eq_none (by simp; omega), List.getElem?_eq_none (by omega)]

theorem declares_scope_declare (found : Scope) :
    (found.declare name).declares other = true ↔ found.declares other = true ∨ other = name := by
  unfold Scope.declare
  split
  next h =>
    constructor
    · exact .inl
    · rintro (h' | rfl)
      · exact h'
      · exact h
  next => simp [Scope.declares, or_comm]

theorem declares_declare : (table.declare scope name).declares other name' = true ↔
    table.declares other name' = true ∨ (other = scope ∧ name' = name ∧ scope < table.size) := by
  simp only [declares, get?, declare, List.getElem?_modify, size]
  by_cases heq : scope = other
  · subst heq
    cases hfound : table.scopes[scope]? with
    | none =>
      have hle := List.getElem?_eq_none_iff.1 hfound
      simp [hle]
    | some found =>
      have hlt := (List.getElem?_eq_some_iff.1 hfound).1
      simp [declares_scope_declare, hlt]
  · have hne : ¬ other = scope := fun h => heq h.symm
    simp [heq, hne]

end ScopeTable

-- ---------------------------------------------------------------------------
-- Places
-- ---------------------------------------------------------------------------

namespace Cursor

structure Reaches (c c' : Cursor) : Prop where
  rest : c'.rest <:+ c.rest
  fault : c'.fault = c.fault
  size : c.scopes.size ≤ c'.scopes.size
  declares : ∀ scope name, c.scopes.declares scope name = true →
    c'.scopes.declares scope name = true

theorem Reaches.refl (c : Cursor) : c.Reaches c :=
  ⟨List.suffix_refl _, rfl, Nat.le_refl _, fun _ _ h => h⟩

theorem Reaches.trans {c₁ c₂ c₃ : Cursor} (h : c₁.Reaches c₂) (h' : c₂.Reaches c₃) :
    c₁.Reaches c₃ :=
  ⟨h'.rest.trans h.rest, h'.fault.trans h.fault, h.size.trans h'.size,
    fun scope name hd => h'.declares scope name (h.declares scope name hd)⟩

theorem reaches_before (c : Cursor) (t : Token) : (c.before t).Reaches c :=
  ⟨List.suffix_cons _ _, rfl, Nat.le_refl _, fun _ _ h => h⟩

theorem reaches_before? (c : Cursor) (t : Option Token) : (c.before? t).Reaches c := by
  cases t with
  | none => exact .refl c
  | some t => exact reaches_before c t

theorem reaches_enter (c : Cursor) (enclosing : List ScopeId) : c.Reaches (c.enter enclosing) :=
  ⟨List.suffix_refl _, rfl, by simp [enter], fun _ _ h => by simpa [enter] using h⟩

theorem reaches_declare (c : Cursor) (enclosing : List ScopeId) (name : String) :
    c.Reaches (c.declare enclosing name) := by
  cases enclosing with
  | nil => exact .refl c
  | cons scope enclosing =>
    exact ⟨List.suffix_refl _, rfl, by simp [declare],
      fun _ _ h => ScopeTable.declares_declare.2 (.inl h)⟩

theorem reaches_introduce (c : Cursor) (blockLocal : Bool) (enclosing : List ScopeId)
    (name : String) :
    c.Reaches (c.introduce blockLocal enclosing name) := by
  cases blockLocal with
  | false => exact .refl c
  | true => exact reaches_declare c enclosing name

theorem reaches_skipSemicolon (c : Cursor) : c.Reaches c.skipSemicolon := by
  obtain h | ⟨t, -, h⟩ := c.skipSemicolon_cases
  · rw [h]; exact .refl c
  · have hbefore := reaches_before c.skipSemicolon t
    rwa [← h] at hbefore

grind_pattern reaches_before => before c t
grind_pattern reaches_before? => before? c t
grind_pattern reaches_enter => enter c enclosing
grind_pattern reaches_declare => declare c enclosing name
grind_pattern reaches_introduce => introduce c blockLocal enclosing name
grind_pattern reaches_skipSemicolon => skipSemicolon c

attribute [grind .] Reaches.refl
attribute [grind →] Reaches.trans

end Cursor

/-- Every rule goes from its place through those of its parts to a later one. -/
theorem Derives.reaches (h : Derives enclosing phrase c c') : c.Reaches c' := by
  induction h <;> grind

theorem Derives.rest_eq_nil (h : Derives enclosing (.script statements) c c') : c'.rest = [] := by
  generalize hphrase : Phrase.script statements = phrase at h
  induction h generalizing statements with
  | scriptEnd hrest => exact hrest
  | scriptMore _ _ _ _ ih => exact ih rfl
  | _ => cases hphrase

end ScriptToPhp
