import Mathlib.Data.List.Basic
import Mathlib.Tactic.Common

/-!
# Accesses to buffers

A load and a store name the index they touch and fail outside the buffer, so a
computation that comes to its end has touched nothing else. A loop is given a
number of rounds and fails when it wants more.
-/

namespace DevBench.Core.Buffers

variable {α : Type}

/-- What keeps a computation from its end. -/
inductive Fault where
  | load
  | store
  | rounds
  deriving DecidableEq, Repr

/-- One element is read. -/
def load (buffer : List α) (i : Nat) : Except Fault α :=
  match buffer[i]? with
  | some a => .ok a
  | none => .error .load

/-- One element is written. -/
def store (buffer : List α) (i : Nat) (a : α) : Except Fault (List α) :=
  if i < buffer.length then .ok (buffer.set i a) else .error .store

/-- A store behind `before` replaces the element there. -/
theorem store_append (before : List α) (a : α) (behind : List α) (b : α) :
    store (before ++ a :: behind) before.length b = .ok (before ++ b :: behind) := by
  simp [store]

/-- A run of elements stored from an index on, none of them unless there is room for all. -/
def storeAll (buffer : List α) (i : Nat) (xs : List α) : Except Fault (List α) :=
  if i + xs.length ≤ buffer.length then
    .ok (buffer.take i ++ xs ++ buffer.drop (i + xs.length))
  else .error .store

/-! ## Reading on -/

/-- From the index on the buffer holds `rest`. -/
def Ahead (buffer : List α) (i : Nat) (rest : List α) : Prop :=
  ∃ done, buffer = done ++ rest ∧ i = done.length

/-- From index 0 on the buffer holds all of it. -/
theorem ahead_zero (buffer : List α) : Ahead buffer 0 buffer := ⟨[], rfl, rfl⟩

namespace Ahead

variable {buffer rest : List α} {i : Nat} {a : α}

/-- The element ahead is what a load gives. -/
theorem load_cons (h : Ahead buffer i (a :: rest)) : load buffer i = .ok a := by
  obtain ⟨done, rfl, rfl⟩ := h
  simp [load]

/-- There is nothing to load behind the last element. -/
theorem load_nil (h : Ahead buffer i []) : load buffer i = .error .load := by
  obtain ⟨done, rfl, rfl⟩ := h
  simp [load]

/-- One element read. -/
theorem next (h : Ahead buffer i (a :: rest)) : Ahead buffer (i + 1) rest := by
  obtain ⟨done, rfl, rfl⟩ := h
  exact ⟨done ++ [a], by simp, by simp⟩

/-- What was read and what is ahead make up the buffer. -/
theorem add_length (h : Ahead buffer i rest) : i + rest.length = buffer.length := by
  obtain ⟨done, rfl, rfl⟩ := h
  rw [List.length_append]

/-- The index lies within the buffer as long as something is ahead. -/
theorem lt_iff (h : Ahead buffer i rest) : i < buffer.length ↔ rest ≠ [] := by
  rw [← h.add_length, ← List.length_pos_iff]
  omega

end Ahead

/-! ## Writing on -/

/-- Before the index the buffer holds `stored`. -/
def Behind (buffer : List α) (i : Nat) (stored : List α) : Prop :=
  ∃ spare, buffer = stored ++ spare ∧ i = stored.length

/-- Nothing is stored before index 0. -/
theorem behind_zero (buffer : List α) : Behind buffer 0 [] := ⟨buffer, rfl, rfl⟩

namespace Behind

variable {buffer stored : List α} {i : Nat}

/-- No more is stored than the buffer has room for. -/
theorem length_le (h : Behind buffer i stored) : stored.length ≤ buffer.length := by
  obtain ⟨spare, rfl, _⟩ := h
  rw [List.length_append]
  exact Nat.le_add_right _ _

/-- The index counts what is stored. -/
theorem index_eq (h : Behind buffer i stored) : i = stored.length := by
  obtain ⟨_, _, rfl⟩ := h
  rfl

/-- The first elements of the buffer are those stored. -/
theorem take_eq (h : Behind buffer i stored) : buffer.take i = stored := by
  obtain ⟨spare, rfl, rfl⟩ := h
  exact List.take_left

/-- One element written, where there is room for it. -/
theorem store (h : Behind buffer i stored) (hroom : stored.length < buffer.length) (a : α) :
    ∃ buffer', Buffers.store buffer i a = .ok buffer' ∧ buffer'.length = buffer.length ∧
      Behind buffer' (i + 1) (stored ++ [a]) := by
  obtain ⟨spare, rfl, rfl⟩ := h
  cases spare with
  | nil =>
    rw [List.append_nil] at hroom
    exact absurd hroom (Nat.lt_irrefl _)
  | cons stale spare =>
    exact ⟨_, store_append stored stale spare a, by simp, spare, by simp, by simp⟩

/-- A run of elements written, where there is room for it. -/
theorem storeAll (h : Behind buffer i stored) (xs : List α)
    (hroom : i + xs.length ≤ buffer.length) :
    ∃ spare, Buffers.storeAll buffer i xs = .ok (stored ++ xs ++ spare) ∧
      (stored ++ xs ++ spare).length = buffer.length := by
  refine ⟨buffer.drop (i + xs.length), ?_, ?_⟩
  · rw [Buffers.storeAll, if_pos hroom, h.take_eq]
  · rw [List.length_append, List.length_append, List.length_drop, ← h.index_eq]
    omega

end Behind

end DevBench.Core.Buffers
