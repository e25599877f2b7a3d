import Mathlib.Data.List.Basic
import Mathlib.Tactic.Common

/-!
# Filling a budget

Pieces are appended one after another as long as each of them fits what is left of a budget,
and nothing follows the first one that does not. What is filled in is a whole number of
pieces, and no longer prefix of them would have fitted.
-/

namespace DevBench.Core

variable {α : Type}

/-- What is there with the pieces that fit, and whether one did not. -/
def fill (budget : Nat) : List (List α) → List α → List α × Bool
  | [], filled => (filled, false)
  | piece :: pieces, filled =>
    if filled.length + piece.length ≤ budget then fill budget pieces (filled ++ piece)
    else (filled, true)

/-- How many pieces fit what is left of a budget. -/
def fitCount : Nat → List (List α) → Nat
  | _, [] => 0
  | left, piece :: pieces =>
    if piece.length ≤ left then fitCount (left - piece.length) pieces + 1 else 0

theorem fitCount_le (left : Nat) (pieces : List (List α)) :
    fitCount left pieces ≤ pieces.length := by
  induction pieces generalizing left with
  | nil => exact Nat.le_refl 0
  | cons piece pieces ih =>
    rw [fitCount]
    split
    · exact Nat.succ_le_succ (ih _)
    · exact Nat.zero_le _

/-- What is filled in are the pieces that fit, and one is left out when not all of them do. -/
theorem fill_eq {budget : Nat} (pieces : List (List α)) {filled : List α}
    (h : filled.length ≤ budget) :
    fill budget pieces filled =
      (filled ++ (pieces.take (fitCount (budget - filled.length) pieces)).flatten,
        decide (fitCount (budget - filled.length) pieces < pieces.length)) := by
  induction pieces generalizing filled with
  | nil => simp [fill, fitCount]
  | cons piece pieces ih =>
    rw [fill, fitCount]
    by_cases hfits : filled.length + piece.length ≤ budget
    · have hlength : (filled ++ piece).length = filled.length + piece.length :=
        List.length_append
      rw [if_pos hfits, if_pos (by omega), ih (by omega), hlength, Nat.sub_add_eq]
      simp
    · rw [if_neg hfits, if_neg (by omega)]
      simp

/-- The pieces that fit do. -/
theorem length_fitting_le (left : Nat) (pieces : List (List α)) :
    (pieces.take (fitCount left pieces)).flatten.length ≤ left := by
  induction pieces generalizing left with
  | nil => exact Nat.zero_le _
  | cons piece pieces ih =>
    rw [fitCount]
    split
    · have hrest := ih (left - piece.length)
      rw [List.take_succ_cons, List.flatten_cons, List.length_append]
      omega
    · exact Nat.zero_le _

/-- One piece more would not. -/
theorem lt_length_fitting {left : Nat} {pieces : List (List α)}
    (h : fitCount left pieces < pieces.length) :
    left < (pieces.take (fitCount left pieces + 1)).flatten.length := by
  induction pieces generalizing left with
  | nil => exact absurd h (Nat.not_lt_zero _)
  | cons piece pieces ih =>
    rw [fitCount] at h ⊢
    split at h
    · next hfits =>
      have hrest := ih (Nat.lt_of_succ_lt_succ h)
      rw [if_pos hfits, List.take_succ_cons, List.flatten_cons, List.length_append]
      omega
    · next hfits =>
      rw [if_neg hfits]
      simpa using hfits

end DevBench.Core
