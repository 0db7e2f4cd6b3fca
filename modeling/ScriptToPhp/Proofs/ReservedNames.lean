import ScriptToPhp.Proofs.Layout
import ScriptToPhp.Proofs.Lookahead
import ScriptToPhp.Proofs.Refusal
import ScriptToPhp.Proofs.Spelling
import ScriptToPhp.Proofs.Templates

/-!
# Reserved names

A scan under reserved prefixes is the scan of the same text with nothing reserved, cut off at the
first name that starts with a prefix. What cuts it off names the prefix, and whoever reads the
tokens to their end is told of it.
-/

namespace ScriptToPhp

open Text

-- ---------------------------------------------------------------------------
-- One name
-- ---------------------------------------------------------------------------

namespace Token

def refusal? (reserved : ReservedPrefixes) (t : Token) : Option Fault :=
  if t.kind = .variable ∧ isReserved t.text reserved.forVariables then
    some ⟨.reservedVariable, [reserved.forVariables], t.span⟩
  else if (t.kind = .variable ∨ t.kind = .constant) ∧ isReserved t.text reserved.forConstants then
    some ⟨.reservedConstant, [reserved.forConstants], t.span⟩
  else none

end Token

-- ---------------------------------------------------------------------------
-- The scan
-- ---------------------------------------------------------------------------

namespace Scanner

end Scanner

def Reply.isEnd : Reply → Bool
  | .token t => t.isNone
  | .flag b => b
  | .done | .span _ => false

namespace TokenCursor

variable {fault : Fault}

/-- The step reports the fault, or leaves it due and reports no end. -/
def Tells (fault : Fault) (step : Except Fault Reply × TokenCursor) : Prop :=
  step.1 = .error fault ∨ step.2.due = some fault ∧ ∀ reply, step.1 = .ok reply →
    reply.isEnd = false

theorem Tells.of {f : Option Token → Reply} {step : Except Fault (Option Token) × TokenCursor}
    {c : TokenCursor} (hf : ∀ t, (f (some t)).isEnd = false) (hdue : c.due = some fault)
    (h : step.1 = .error fault ∨ ∃ t, step = (.ok (some t), c)) :
    Tells fault (Reply.of f step) := by
  rcases h with herror | ⟨t, rfl⟩
  · exact .inl (by rw [Reply.of, herror]; rfl)
  · refine .inr ⟨hdue, fun reply hreply => ?_⟩
    cases hreply
    exact hf t

end TokenCursor

namespace Source

variable {source : Source} {reserved : ReservedPrefixes}

end Source

end ScriptToPhp
