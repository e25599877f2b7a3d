import Mathlib.Data.List.Basic
import Mathlib.Data.List.Induction

/-!
# Delimited streams

The runs of a stream that a delimiter ends, and readers that keep a state over each
run and start afresh behind it.
-/

namespace DevBench.Core

section

variable {α : Type} [DecidableEq α] (d : α)

/-- The runs of a stream behind what is pending of the first. -/
def runsFrom : List α → List α → List (List α)
  | _, [] => []
  | run, x :: xs => if x = d then run :: runsFrom [] xs else runsFrom (run ++ [x]) xs

/-- The maximal runs without the delimiter that a delimiter ends, in order. -/
def runs (xs : List α) : List (List α) := runsFrom d [] xs

variable {d}

private theorem runsFrom_append {run : List α} (h : d ∉ run) (pending rest : List α) :
    runsFrom d pending (run ++ rest) = runsFrom d (pending ++ run) rest := by
  induction run generalizing pending with
  | nil => rw [List.nil_append, List.append_nil]
  | cons x run ih =>
    rw [List.mem_cons, not_or] at h
    rw [List.cons_append, runsFrom, if_neg (Ne.symm h.1), ih h.2, List.append_assoc,
      List.singleton_append]

theorem runs_append {run : List α} (h : d ∉ run) (rest : List α) :
    runs d (run ++ d :: rest) = run :: runs d rest := by
  rw [runs, runsFrom_append h, List.nil_append, runsFrom, if_pos rfl, runs]

/-- What no delimiter ends is no run. -/
theorem runs_of_notMem {xs : List α} (h : d ∉ xs) : runs d xs = [] := by
  rw [runs, ← List.append_nil xs, runsFrom_append h, runsFrom]

end

section

variable {α β σ : Type} [DecidableEq α] {d : α}

/-- A reader that pushes every element onto a state, and at a delimiter takes what the
state is worth and starts again. -/
def readRuns (d : α) (push : σ → α → σ) (take : σ → β) (init : σ) : σ → List α → List β
  | _, [] => []
  | s, x :: xs =>
    if x = d then take s :: readRuns d push take init init xs
    else readRuns d push take init (push s x) xs

/-- Such a reader takes one value for each run. -/
theorem readRuns_eq (push : σ → α → σ) (take : σ → β) (init : σ) (xs run : List α) :
    readRuns d push take init (run.foldl push init) xs =
      (runsFrom d run xs).map fun run => take (run.foldl push init) := by
  induction xs generalizing run with
  | nil => rfl
  | cons x xs ih =>
    rw [readRuns, runsFrom]
    split
    · rw [List.map_cons, ← ih [], List.foldl_nil]
    · rw [← ih, List.foldl_append, List.foldl_cons, List.foldl_nil]

end

section

variable {α β : Type}

/-- A buffer that takes an element while there is room and is emptied by the one behind. -/
def pushRestart (capacity : Nat) (buf : List α) (x : α) : List α :=
  if buf.length < capacity then buf ++ [x] else []

/-- Pushing a run leaves its last elements, as many as a multiple of one more than the
capacity leaves over. -/
theorem foldl_pushRestart (capacity : Nat) (run : List α) :
    run.foldl (pushRestart capacity) [] =
      run.drop (run.length - run.length % (capacity + 1)) := by
  induction run using List.reverseRecOn with
  | nil => rfl
  | append_singleton run x ih =>
    have hmod : run.length % (capacity + 1) ≤ run.length := Nat.mod_le _ _
    have hlt : run.length % (capacity + 1) < capacity + 1 := Nat.mod_lt _ (Nat.succ_pos _)
    have hlength : (run.drop (run.length - run.length % (capacity + 1))).length =
        run.length % (capacity + 1) := by
      rw [List.length_drop]
      omega
    rw [List.foldl_append, ih, List.foldl_cons, List.foldl_nil, pushRestart, hlength,
      List.length_append, List.length_singleton]
    by_cases hroom : run.length % (capacity + 1) < capacity
    · have hnext : (run.length + 1) % (capacity + 1) = run.length % (capacity + 1) + 1 := by
        rw [Nat.add_mod, Nat.mod_eq_of_lt (a := 1) (by omega), Nat.mod_eq_of_lt (by omega)]
      rw [if_pos hroom, hnext, Nat.add_sub_add_right, List.drop_append_of_le_length (by omega)]
    · have hfull : run.length % (capacity + 1) = capacity := by omega
      have hnext : (run.length + 1) % (capacity + 1) = 0 := by
        rw [Nat.add_mod, hfull, Nat.add_mod_mod, Nat.mod_self]
      rw [if_neg hroom, hnext, Nat.sub_zero, List.drop_of_length_le (by simp)]

theorem length_filterMap_le_of_imp {f g : α → Option β} (h : ∀ x, g x = f x ∨ g x = none) :
    ∀ xs : List α, (xs.filterMap g).length ≤ (xs.filterMap f).length
  | [] => Nat.le_refl _
  | x :: xs => by
    have ih := length_filterMap_le_of_imp h xs
    rw [List.filterMap_cons, List.filterMap_cons]
    rcases h x with hx | hx
    · rw [hx]
      cases f x with
      | none => exact ih
      | some y => exact Nat.succ_le_succ ih
    · rw [hx]
      cases f x with
      | none => exact ih
      | some y => exact Nat.le_succ_of_le ih

/-- Two selections, one taking less than the other, agree on a list exactly when it takes
everything the other does. -/
theorem filterMap_eq_iff {f g : α → Option β} (h : ∀ x, g x = f x ∨ g x = none) :
    ∀ xs : List α, xs.filterMap f = xs.filterMap g ↔ ∀ x ∈ xs, g x = none → f x = none
  | [] => by simp
  | x :: xs => by
    have ih := filterMap_eq_iff h xs
    have hle := length_filterMap_le_of_imp h xs
    rw [List.filterMap_cons, List.filterMap_cons, List.forall_mem_cons, ← ih]
    rcases h x with hx | hx
    · cases hf : f x with
      | none => simp [hx, hf]
      | some y => simp [hx, hf]
    · cases hf : f x with
      | none => simp [hx]
      | some y =>
        simp only [hx, reduceCtorEq, imp_false, not_true, false_and, iff_false]
        intro heq
        have := congrArg List.length heq
        rw [List.length_cons] at this
        omega

end

end DevBench.Core
