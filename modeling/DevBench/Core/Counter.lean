import Mathlib.Data.List.Basic

/-!
# Loops counted in eight bits

A loop `for (uint8_t i = 0; i < len; i++)` over the first `len` places of a table. The counter
and the length are numbers of eight bits, so the counter starts over behind 255 and the loop is
run on fuel; with more fuel than places it ends, and it is the fold over the places.
-/

namespace DevBench.Core

variable {α σ ρ : Type}

/-- The loop from `i` on, none when the fuel runs out. The body carries a state from one round
to the next, or leaves the loop with a result. -/
def countUp (body : UInt8 → σ → Except ρ σ) (len : UInt8) : Nat → UInt8 → σ →
    Option (Except ρ σ)
  | 0, _, _ => none
  | fuel + 1, i, s =>
    if i < len then
      match body i s with
      | .error r => some (.error r)
      | .ok s => countUp body len fuel (i + 1) s
    else some (.ok s)

/-- Below a length of eight bits the counter does not start over. -/
theorem toNat_succ_of_lt {i len : UInt8} (h : i < len) :
    (i + 1).toNat = i.toNat + 1 := by
  have hlt : i.toNat < len.toNat := UInt8.lt_iff_toNat_lt.mp h
  have hlen := len.toNat_lt
  rw [UInt8.toNat_add, UInt8.toNat_one]
  exact Nat.mod_eq_of_lt (by omega)

/-- From place `k` on the loop folds over the places that are left. -/
theorem countUp_drop {body : UInt8 → σ → Except ρ σ} {step : α × Nat → σ → Except ρ σ}
    {table : List α} {len : UInt8} (hlen : len.toNat = table.length)
    (hbody : ∀ (i : UInt8) (h : i.toNat < table.length) s,
      body i s = step (table[i.toNat], i.toNat) s) (fuel : Nat) :
    ∀ (i : UInt8) (s : σ), i.toNat ≤ table.length → table.length < i.toNat + fuel →
      countUp body len fuel i s =
        some (((table.drop i.toNat).zipIdx i.toNat).foldlM (fun s x => step x s) s) := by
  induction fuel with
  | zero => intro i s hi hfuel; omega
  | succ fuel ih =>
    intro i s hi hfuel
    rw [countUp]
    by_cases h : i < len
    · have hlt : i.toNat < table.length := hlen ▸ UInt8.lt_iff_toNat_lt.mp h
      have hnext := toNat_succ_of_lt h
      rw [if_pos h, hbody i hlt, List.drop_eq_getElem_cons hlt, List.zipIdx_cons,
        List.foldlM_cons]
      cases step (table[i.toNat], i.toNat) s with
      | error r => rfl
      | ok s =>
        simp only [bind, Except.bind]
        rw [ih (i + 1) s (by omega) (by omega), hnext]
    · have hge : ¬ i.toNat < len.toNat := fun hlt => h (UInt8.lt_iff_toNat_lt.mpr hlt)
      have hend : table.drop i.toNat = [] := List.drop_eq_nil_of_le (by omega)
      rw [if_neg h, hend]
      rfl

/-- **The loop ends**, and is the fold over the table: its body reads the place it is at. -/
theorem countUp_eq_foldlM {body : UInt8 → σ → Except ρ σ} {table : List α} {len : UInt8}
    (step : α × Nat → σ → Except ρ σ) (hlen : len.toNat = table.length)
    (hbody : ∀ (i : UInt8) (h : i.toNat < table.length) s,
      body i s = step (table[i.toNat], i.toNat) s) {fuel : Nat} (hfuel : table.length < fuel)
    (s : σ) :
    countUp body len fuel 0 s = some (table.zipIdx.foldlM (fun s x => step x s) s) := by
  have h := countUp_drop hlen hbody fuel 0 s (by simp) (by simpa using hfuel)
  simpa using h

/-- A fold whose rounds never leave it is a fold without results. -/
theorem foldlM_ok (f : σ → α → σ) (table : List (α × Nat)) (s : σ) :
    table.foldlM (m := Except ρ) (fun s x => .ok (f s x.1)) s =
      .ok ((table.map Prod.fst).foldl f s) := by
  induction table generalizing s with
  | nil => rfl
  | cons x table ih => exact ih (f s x.1)

/-- A loop that is never left early ends with the fold over the table. -/
theorem countUp_eq_foldl {body : UInt8 → σ → σ} {table : List α} {len : UInt8} (f : σ → α → σ)
    (hlen : len.toNat = table.length)
    (hbody : ∀ (i : UInt8) (h : i.toNat < table.length) s, body i s = f s table[i.toNat])
    {fuel : Nat} (hfuel : table.length < fuel) (s : σ) :
    countUp (ρ := ρ) (fun i s => .ok (body i s)) len fuel 0 s =
      some (.ok (table.foldl f s)) := by
  rw [countUp_eq_foldlM (fun x s => .ok (f s x.1)) hlen
    (fun i h s => congrArg Except.ok (hbody i h s)) hfuel, foldlM_ok, List.zipIdx_map_fst]

end DevBench.Core
