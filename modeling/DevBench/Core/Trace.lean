import Mathlib.Data.List.Basic
import Mathlib.Tactic.Common

/-!
# Traced computations

A computation that always returns a value and logs what it did on the way. What it
returns and what it logged can be reasoned about apart.
-/

namespace DevBench.Core

/-- A value and the events logged while computing it, in order. -/
structure Traced (ε α : Type) where
  value : α
  log : List ε

namespace Traced

variable {ε α β : Type}

instance : Monad (Traced ε) where
  pure a := ⟨a, []⟩
  bind m f := ⟨(f m.value).value, m.log ++ (f m.value).log⟩

/-- Log one event. -/
def emit (e : ε) : Traced ε Unit := ⟨(), [e]⟩

/-- An `if` without an `else`. -/
def when (c : Prop) [Decidable c] (m : Traced ε Unit) : Traced ε Unit := if c then m else pure ()

/-- A pure computation returns its value. -/
@[simp] theorem value_pure (a : α) : (pure a : Traced ε α).value = a := rfl

/-- A pure computation logs nothing. -/
@[simp] theorem log_pure (a : α) : (pure a : Traced ε α).log = [] := rfl

/-- A continuation starts from the value before it. -/
@[simp] theorem value_bind (m : Traced ε α) (f : α → Traced ε β) :
    (m >>= f).value = (f m.value).value := rfl

/-- A continuation logs behind what was logged before it. -/
@[simp] theorem log_bind (m : Traced ε α) (f : α → Traced ε β) :
    (m >>= f).log = m.log ++ (f m.value).log := rfl

/-- An event returns nothing. -/
@[simp] theorem value_emit (e : ε) : (emit e).value = () := rfl

/-- An event is logged once. -/
@[simp] theorem log_emit (e : ε) : (emit e).log = [e] := rfl

/-- Every event logged has the property. -/
def Logs (p : ε → Prop) (m : Traced ε α) : Prop := ∀ e ∈ m.log, p e

/-- A pure computation logs no event without the property. -/
theorem logs_pure (p : ε → Prop) (a : α) : (pure a : Traced ε α).Logs p := by simp [Logs]

/-- An event logs itself. -/
theorem logs_emit {p : ε → Prop} {e : ε} : (emit e).Logs p ↔ p e := by simp [Logs]

/-- The events of a sequence are those of its two parts. -/
theorem logs_bind {p : ε → Prop} {m : Traced ε α} {f : α → Traced ε β} :
    (m >>= f).Logs p ↔ m.Logs p ∧ (f m.value).Logs p := by
  simp only [Logs, log_bind, List.mem_append, or_imp, forall_and]

/-- A part left out logs nothing. -/
theorem logs_when {p : ε → Prop} {c : Prop} [Decidable c] {m : Traced ε Unit} (h : m.Logs p) :
    (when c m).Logs p := by
  rw [when]
  split
  · exact h
  · exact logs_pure p ()

end Traced

end DevBench.Core
