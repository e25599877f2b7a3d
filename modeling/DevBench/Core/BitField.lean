import Mathlib.Data.BitVec
import Mathlib.Data.Nat.Bitwise

/-!
# Bit-fields

A field of a word is a run of its bits. Writing a value into a field keeps as many of the
value's bits as the field has and leaves every field beside it alone, so a word is read by its
fields once it is written by them.
-/

namespace DevBench.Core

/-- The bits of an `n`-bit word from `off` on. -/
structure BitField (n : Nat) where
  off : Nat
  width : Nat
  fits : off + width ≤ n

namespace BitField

variable {n : Nat} (f g : BitField n)

/-- The value of the field. -/
def get (w : BitVec n) : Nat := (w.extractLsb' f.off f.width).toNat

/-- Ones in the field and zeros beside it. -/
def mask : BitVec n := (BitVec.allOnes f.width).setWidth n <<< f.off

/-- Write a value into the field, cut to its width. -/
def put (w : BitVec n) (v : Nat) : BitVec n :=
  (w &&& ~~~f.mask) ||| ((BitVec.ofNat f.width v).setWidth n <<< f.off)

/-- The two fields share no bit. -/
def Disjoint : Prop := f.off + f.width ≤ g.off ∨ g.off + g.width ≤ f.off

instance : Decidable (f.Disjoint g) := inferInstanceAs (Decidable (_ ∨ _))

variable {f g}

theorem Disjoint.symm (h : f.Disjoint g) : g.Disjoint f := Or.symm h

/-- Four fields used together, pair by pair. -/
theorem disjoint_four {a b c d : BitField n} (h : [a, b, c, d].Pairwise Disjoint) :
    a.Disjoint b ∧ a.Disjoint c ∧ a.Disjoint d ∧ b.Disjoint c ∧ b.Disjoint d ∧ c.Disjoint d := by
  simpa [and_assoc] using h

theorem get_lt (w : BitVec n) : f.get w < 2 ^ f.width := (w.extractLsb' f.off f.width).isLt

@[simp] theorem get_zero : f.get 0#n = 0 := by
  rw [get]
  simp

/-- A field is read off the bits it covers. -/
theorem get_congr {w w' : BitVec n}
    (h : ∀ i < f.width, w.getLsbD (f.off + i) = w'.getLsbD (f.off + i)) : f.get w = f.get w' := by
  rw [get, get]
  congr 1
  ext i hi
  simp only [BitVec.getElem_extractLsb']
  exact h i hi

theorem getLsbD_mask (i : Nat) :
    f.mask.getLsbD i = decide (f.off ≤ i ∧ i < f.off + f.width) := by
  have hfits := f.fits
  rw [mask, BitVec.getLsbD_shiftLeft, BitVec.getLsbD_setWidth, BitVec.getLsbD_allOnes]
  rw [Bool.eq_iff_iff]
  simp only [Bool.and_eq_true, decide_eq_true_eq, Bool.not_eq_true', decide_eq_false_iff_not]
  omega

/-- The bits of another field lie outside the mask. -/
theorem Disjoint.getLsbD_mask (h : f.Disjoint g) {i : Nat} (hi : i < g.width) :
    f.mask.getLsbD (g.off + i) = false := by
  rw [BitField.getLsbD_mask, decide_eq_false_iff_not]
  rcases h with h | h <;> omega

/-- Clearing a field leaves the others alone. -/
theorem get_clear (h : f.Disjoint g) (w : BitVec n) : g.get (w &&& ~~~f.mask) = g.get w := by
  apply get_congr
  intro i hi
  have hg := g.fits
  rw [BitVec.getLsbD_and, BitVec.getLsbD_not, h.getLsbD_mask hi, Bool.not_false, Bool.and_true,
    decide_eq_true (by omega), Bool.and_true]

/-- Filling a field with ones leaves the others alone. -/
theorem get_fill (h : f.Disjoint g) (w : BitVec n) : g.get (w ||| f.mask) = g.get w := by
  apply get_congr
  intro i hi
  rw [BitVec.getLsbD_or, h.getLsbD_mask hi, Bool.or_false]

/-- Writing a field leaves the others alone. -/
theorem get_put_of_disjoint (h : f.Disjoint g) (w : BitVec n) (v : Nat) :
    g.get (f.put w v) = g.get w := by
  have hg := g.fits
  apply get_congr
  intro i hi
  have hvalue : ((BitVec.ofNat f.width v).setWidth n <<< f.off).getLsbD (g.off + i) = false := by
    rw [BitVec.getLsbD_shiftLeft, BitVec.getLsbD_setWidth]
    rcases h with h | h
    · have hover : f.width ≤ g.off + i - f.off := by omega
      rw [BitVec.getLsbD_of_ge _ _ hover, Bool.and_false, Bool.and_false]
    · have hbelow : g.off + i < f.off := by omega
      simp [hbelow]
  rw [put, BitVec.getLsbD_or, hvalue, Bool.or_false, BitVec.getLsbD_and, BitVec.getLsbD_not,
    h.getLsbD_mask hi, Bool.not_false, Bool.and_true, decide_eq_true (by omega), Bool.and_true]

/-- What is written into a field is read out of it, as far as the field can hold it. -/
theorem get_put (w : BitVec n) (v : Nat) : f.get (f.put w v) = v % 2 ^ f.width := by
  have hfits := f.fits
  rw [get, ← BitVec.toNat_ofNat]
  congr 1
  ext i hi
  have hmask : f.mask.getLsbD (f.off + i) = true := by
    rw [getLsbD_mask, decide_eq_true_eq]
    omega
  rw [BitVec.getElem_extractLsb', put, BitVec.getLsbD_or, BitVec.getLsbD_and, BitVec.getLsbD_not,
    hmask, BitVec.getLsbD_shiftLeft, BitVec.getLsbD_setWidth]
  have hsub : f.off + i - f.off = i := by omega
  have hin : f.off + i < n := by omega
  have hlow : i < n := by omega
  rw [hsub, BitVec.getLsbD_eq_getElem hi]
  simp [hin, hlow]

end BitField

end DevBench.Core
