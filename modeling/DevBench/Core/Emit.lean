import Mathlib.Data.List.Basic
import Mathlib.Tactic.Common

/-!
# Bounded writers

A writer appends to a buffer of fixed capacity and gives up when the next piece
does not fit. `Emits` says which bytes a writer appends; as it gives up only when
they do not fit, it is determined by them.
-/

namespace DevBench.Core

/-- A writer is run with the capacity of its buffer and what it holds so far. -/
def Emit (α : Type) : Type := Nat → List UInt8 → Option (α × List UInt8)

namespace Emit

variable {α β : Type}

instance : Monad Emit where
  pure a := fun _ out => some (a, out)
  bind m f := fun cap out =>
    match m cap out with
    | none => none
    | some (a, out) => f a cap out

theorem bind_apply (m : Emit α) (f : α → Emit β) (cap : Nat) (out : List UInt8) :
    (m >>= f) cap out = match m cap out with
      | none => none
      | some (a, out) => f a cap out := rfl

/-- Append bytes if they fit. -/
def put (bytes : List UInt8) : Emit Unit := fun cap out =>
  if out.length + bytes.length > cap then none else some ((), out ++ bytes)

/-- The writer appends exactly the bytes `bs`, and nothing if they do not fit. -/
def Emits (bs : List UInt8) (m : Emit Unit) : Prop :=
  ∀ (cap : Nat) (out : List UInt8), out.length ≤ cap →
    m cap out = if out.length + bs.length ≤ cap then some ((), out ++ bs) else none

theorem emits_pure : Emits [] (pure ()) := by
  intro cap out h
  have hcap : out.length + ([] : List UInt8).length ≤ cap := h
  rw [if_pos hcap, List.append_nil]
  rfl

theorem emits_put (bs : List UInt8) : Emits bs (put bs) := by
  intro cap out _
  by_cases h : out.length + bs.length ≤ cap
  · rw [put, if_neg (Nat.not_lt.mpr h), if_pos h]
  · rw [put, if_pos (Nat.lt_of_not_le h), if_neg h]

/-- Writers in sequence append their bytes in sequence. -/
theorem Emits.bind {bs cs : List UInt8} {m n : Emit Unit} (hm : Emits bs m) (hn : Emits cs n) :
    Emits (bs ++ cs) (m >>= fun _ => n) := by
  intro cap out h
  rw [bind_apply, hm cap out h]
  by_cases hbs : out.length + bs.length ≤ cap
  · rw [if_pos hbs]
    simp only
    rw [hn cap (out ++ bs) (by rwa [List.length_append])]
    simp only [List.length_append, List.append_assoc, Nat.add_assoc]
  · have hcs : ¬ out.length + (bs ++ cs).length ≤ cap := by
      rw [List.length_append]
      omega
    rw [if_neg hbs, if_neg hcs]

/-- A loop appends the bytes of its elements in order. -/
theorem emits_forM {enc : α → List UInt8} {f : α → Emit Unit} (xs : List α)
    (h : ∀ x ∈ xs, Emits (enc x) (f x)) : Emits (xs.flatMap enc) (xs.forM f) := by
  induction xs with
  | nil => exact emits_pure
  | cons x xs ih =>
    rw [List.flatMap_cons]
    exact (h x List.mem_cons_self).bind (ih fun y hy => h y (List.mem_cons_of_mem _ hy))

/-- A finished writer leaves its bytes in the buffer, all of which fit. -/
theorem Emits.of_eq_some {bs : List UInt8} {m : Emit Unit} (hm : Emits bs m) {cap : Nat}
    {a : Unit} {out : List UInt8} (h : m cap [] = some (a, out)) :
    out = bs ∧ bs.length ≤ cap := by
  rw [hm cap [] (Nat.zero_le _), List.length_nil, Nat.zero_add] at h
  by_cases hcap : bs.length ≤ cap
  · rw [if_pos hcap, List.nil_append, Option.some.injEq, Prod.mk.injEq] at h
    exact ⟨h.2.symm, hcap⟩
  · rw [if_neg hcap] at h
    exact absurd h (by simp)

/-- A writer appends one string only. -/
theorem Emits.unique {bs cs : List UInt8} {m : Emit Unit} (hbs : Emits bs m) (hcs : Emits cs m) :
    bs = cs := by
  have hrun := hbs (bs.length + cs.length) [] (Nat.zero_le _)
  rw [List.length_nil, Nat.zero_add, if_pos (Nat.le_add_right _ _), List.nil_append] at hrun
  exact (hcs.of_eq_some hrun).1

end Emit

end DevBench.Core
