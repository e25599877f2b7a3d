import Mathlib.Data.Nat.Bitwise
import Mathlib.Data.Nat.Digits.Lemmas
import Mathlib.Tactic.Common
import Mathlib.Tactic.Ring

/-!
# Numbers in bytes

A number in a fixed count of bytes, the lowest first, and back: what is dropped is what does not
fit the count. Machine words that gather or extend such a number are the numbers they stand for.
-/

namespace DevBench.Core

/-- The lowest bytes of a number, the lowest first. -/
def placeBytes (w n : Nat) : List UInt8 := (List.range w).map fun i => UInt8.ofNat (n / 256 ^ i)

/-- The number in bytes, the lowest first. -/
def placeValue (bytes : List UInt8) : Nat := Nat.ofDigits 256 (bytes.map UInt8.toNat)

@[simp] theorem length_placeBytes (w n : Nat) : (placeBytes w n).length = w := by
  rw [placeBytes, List.length_map, List.length_range]

theorem placeValue_append (front back : List UInt8) :
    placeValue (front ++ back) = placeValue front + 256 ^ front.length * placeValue back := by
  rw [placeValue, List.map_append, Nat.ofDigits_append, List.length_map]
  rfl

theorem placeValue_singleton (b : UInt8) : placeValue [b] = b.toNat := Nat.ofDigits_singleton ..

theorem lt_of_mem_toNat (bytes : List UInt8) : ∀ d ∈ bytes.map UInt8.toNat, d < 256 := by
  intro d hd
  obtain ⟨b, -, rfl⟩ := List.mem_map.mp hd
  exact b.toNat_lt

theorem placeValue_lt (bytes : List UInt8) : placeValue bytes < 256 ^ bytes.length := by
  have h := Nat.ofDigits_lt_base_pow_length (by decide) (lt_of_mem_toNat bytes)
  rwa [List.length_map] at h

/-- What a number comes to in a count of bytes. -/
theorem placeValue_placeBytes (w n : Nat) : placeValue (placeBytes w n) = n % 256 ^ w := by
  induction w with
  | zero =>
    rw [pow_zero, Nat.mod_one]
    rfl
  | succ w ih =>
    have hsnoc : placeBytes (w + 1) n = placeBytes w n ++ [UInt8.ofNat (n / 256 ^ w)] := by
      rw [placeBytes, List.range_succ, List.map_append]
      rfl
    rw [hsnoc, placeValue_append, ih, length_placeBytes, placeValue_singleton, UInt8.toNat_ofNat']
    exact Nat.mod_pow_succ.symm

/-- Bytes of one length are told apart by their number. -/
theorem placeValue_inj {bytes bytes' : List UInt8} (hlength : bytes.length = bytes'.length)
    (h : placeValue bytes = placeValue bytes') : bytes = bytes' := by
  apply List.map_injective_iff.mpr fun _ _ => UInt8.toNat_inj.mp
  exact Nat.ofDigits_inj_of_len_eq (by decide) (by simpa using hlength) (lt_of_mem_toNat bytes)
    (lt_of_mem_toNat bytes') h

theorem placeBytes_placeValue (bytes : List UInt8) :
    placeBytes bytes.length (placeValue bytes) = bytes := by
  apply placeValue_inj (length_placeBytes _ _)
  rw [placeValue_placeBytes, Nat.mod_eq_of_lt (placeValue_lt bytes)]

/-- Only the number's remainder counts. -/
theorem placeBytes_eq_iff {w n n' : Nat} :
    placeBytes w n = placeBytes w n' ↔ n % 256 ^ w = n' % 256 ^ w := by
  constructor
  · intro h
    rw [← placeValue_placeBytes, h, placeValue_placeBytes]
  · intro h
    apply placeValue_inj
    · rw [length_placeBytes, length_placeBytes]
    · rw [placeValue_placeBytes, placeValue_placeBytes, h]

/-! ## Machine words -/

/-- A byte shifted in from below. -/
theorem toNat_shiftLeft_or {v : UInt64} (h : v.toNat * 256 < 2 ^ 64) (b : UInt8) :
    (v <<< 8 ||| b.toUInt64).toNat = v.toNat * 256 + b.toNat := by
  have hshift : (v <<< 8).toNat = v.toNat <<< 8 := by
    rw [UInt64.toNat_shiftLeft, Nat.mod_eq_of_lt]
    · rfl
    · rw [Nat.shiftLeft_eq]
      exact h
  rw [UInt64.toNat_or, hshift, UInt8.toNat_toUInt64, ← Nat.shiftLeft_add_eq_or_of_lt b.toNat_lt,
    Nat.shiftLeft_eq]

/-- Bytes gathered into a word, the highest one first. -/
theorem toNat_foldl_shiftLeft_or (bytes : List UInt8) :
    ∀ v : UInt64, (v.toNat + 1) * 256 ^ bytes.length ≤ 2 ^ 64 →
      (bytes.foldl (fun (v : UInt64) (b : UInt8) => v <<< 8 ||| b.toUInt64) v).toNat =
        v.toNat * 256 ^ bytes.length + placeValue bytes.reverse := by
  induction bytes with
  | nil =>
    intro v _
    simp [placeValue]
  | cons b bytes ih =>
    intro v h
    rw [List.length_cons, pow_succ', ← mul_assoc] at h
    have hone : 0 < 256 ^ bytes.length := Nat.pow_pos (by decide)
    have hroom : (v.toNat + 1) * 256 ≤ 2 ^ 64 := (Nat.le_mul_of_pos_right _ hone).trans h
    have hb := b.toNat_lt
    have hshift := toNat_shiftLeft_or (show v.toNat * 256 < 2 ^ 64 by omega) b
    have hnext : ((v <<< 8 ||| b.toUInt64).toNat + 1) * 256 ^ bytes.length ≤ 2 ^ 64 := by
      rw [hshift]
      exact (Nat.mul_le_mul_right _ (by omega)).trans h
    rw [List.foldl_cons, ih _ hnext, hshift, List.reverse_cons, placeValue_append,
      List.length_reverse, placeValue_singleton, List.length_cons]
    ring

theorem toInt_toInt64 (v : UInt64) : v.toInt64.toInt = Int.bmod v.toNat (2 ^ 64) :=
  BitVec.toInt_eq_toNat_bmod v.toBitVec

/-- A bit of a word. -/
theorem toNat_one_shiftLeft {k : Nat} (hk : k < 64) :
    ((1 : UInt64) <<< UInt64.ofNat k).toNat = 2 ^ k := by
  have hmod : (UInt64.ofNat k).toNat % 64 = k := by
    rw [UInt64.toNat_ofNat_of_lt' (hk.trans (by decide)), Nat.mod_eq_of_lt hk]
  rw [UInt64.toNat_shiftLeft, hmod, UInt64.toNat_one, Nat.one_shiftLeft]
  exact Nat.mod_eq_of_lt (Nat.pow_lt_pow_right (by decide) hk)

/-- The top bit of a number below a power of two is set from its half on. -/
theorem and_bit_ne_zero_iff {k : Nat} (hk : k < 64) {v : UInt64} (hv : v.toNat < 2 ^ (k + 1)) :
    v &&& 1 <<< UInt64.ofNat k ≠ 0 ↔ 2 ^ k ≤ v.toNat := by
  have hpos : 0 < 2 ^ k := Nat.two_pow_pos k
  have hdiv : v.toNat / 2 ^ k < 2 := by
    rw [Nat.div_lt_iff_lt_mul hpos, ← pow_succ']
    exact hv
  rw [ne_eq, ← UInt64.toNat_inj, UInt64.toNat_and, toNat_one_shiftLeft hk, Nat.and_two_pow,
    UInt64.toNat_zero, Nat.testBit_eq_decide_div_mod_eq, Nat.mod_eq_of_lt hdiv]
  by_cases hle : 2 ^ k ≤ v.toNat
  · have hone : v.toNat / 2 ^ k = 1 := by
      have := Nat.div_pos hle hpos
      omega
    simp [hone, hle]
  · simp [Nat.div_eq_of_lt (Nat.not_le.mp hle), hle]

/-- A number below a power of two with all bits from there on set. -/
theorem toNat_or_not_mask {k : Nat} (hk : k < 64) {v : UInt64} (hv : v.toNat < 2 ^ k) :
    (v ||| ~~~((1 <<< UInt64.ofNat k) - 1)).toNat = v.toNat + (2 ^ 64 - 2 ^ k) := by
  have hbit := toNat_one_shiftLeft hk
  have hpos : 0 < 2 ^ k := Nat.two_pow_pos k
  have hlt : 2 ^ k < 2 ^ 64 := Nat.pow_lt_pow_right (by decide) hk
  have hmask : (~~~((1 <<< UInt64.ofNat k) - 1 : UInt64)).toNat = (2 ^ (64 - k) - 1) <<< k := by
    have hone : (1 : UInt64) ≤ 1 <<< UInt64.ofNat k := by
      rw [UInt64.le_iff_toNat_le, hbit]
      exact hpos
    rw [UInt64.toNat_not, UInt64.toNat_sub_of_le _ _ hone, hbit, Nat.shiftLeft_eq, Nat.sub_mul,
      ← pow_add, Nat.sub_add_cancel hk.le]
    simp only [UInt64.size, UInt64.toNat_one]
    omega
  rw [UInt64.toNat_or, hmask, Nat.or_comm, ← Nat.shiftLeft_add_eq_or_of_lt hv, Nat.shiftLeft_eq,
    Nat.sub_mul, ← pow_add, Nat.sub_add_cancel hk.le]
  omega

/-- The signed number of an unsigned one. -/
theorem bmod_of_lt {n m : Nat} (h : n < 2 * m) :
    Int.bmod n (2 * m) = if n < m then (n : Int) else n - 2 * m := by
  have hmod : (n : Int) % ((2 * m : Nat) : Int) = n :=
    Int.emod_eq_of_lt (Int.natCast_nonneg n) (Int.ofNat_lt.mpr h)
  rw [Int.bmod_def, hmod]
  split_ifs <;> omega

/-- A word as a signed number. -/
theorem toInt_toInt64_eq (v : UInt64) : v.toInt64.toInt =
    if v.toNat < 2 ^ 63 then (v.toNat : Int) else v.toNat - 2 * (2 ^ 63 : Nat) := by
  have hlt := v.toNat_lt
  rw [toInt_toInt64, pow_succ' 2 63]
  rw [pow_succ' 2 63] at hlt
  exact bmod_of_lt hlt

theorem toInt_toInt64_of_lt {v : UInt64} (h : v.toNat < 2 ^ 63) :
    v.toInt64.toInt = v.toNat := by
  rw [toInt_toInt64_eq, if_pos h]

/-- A word kept within what a signed one has. -/
theorem toInt_saturated (v : UInt64) :
    (if v > Int64.maxValue.toUInt64 then Int64.maxValue else v.toInt64).toInt =
      min (v.toNat : Int) (2 ^ 63 - 1) := by
  have hmax : v > Int64.maxValue.toUInt64 ↔ 2 ^ 63 - 1 < v.toNat := UInt64.lt_iff_toNat_lt
  by_cases hover : 2 ^ 63 - 1 < v.toNat
  · rw [if_pos (hmax.mpr hover), min_eq_right (by omega)]
    rfl
  · rw [if_neg (fun h => hover (hmax.mp h)), toInt_toInt64_of_lt (by omega),
      min_eq_left (by omega)]

/-- Filling a word from the sign bit on extends a number's sign. -/
theorem toInt_signFilled {k : Nat} (hk : k < 63) {v : UInt64} (hv : v.toNat < 2 ^ (k + 1)) :
    (if v &&& 1 <<< UInt64.ofNat k ≠ 0 then v ||| ~~~((1 <<< UInt64.ofNat (k + 1)) - 1)
      else v).toInt64.toInt = Int.bmod v.toNat (2 ^ (k + 1)) := by
  have htop := and_bit_ne_zero_iff (by omega) hv
  have hhalf : 2 ^ (k + 1) = 2 * 2 ^ k := pow_succ' 2 k
  have hsmall : 2 ^ k < 2 ^ 63 := Nat.pow_lt_pow_right (by decide) hk
  rw [hhalf] at hv
  rw [toInt_toInt64_eq, hhalf, bmod_of_lt hv]
  by_cases hle : 2 ^ k ≤ v.toNat
  · rw [if_pos (htop.mpr hle), toNat_or_not_mask (by omega) (hhalf ▸ hv), if_neg (by omega),
      if_neg (by omega)]
    omega
  · rw [if_neg (fun h => hle (htop.mp h)), if_pos (by omega), if_pos (by omega)]

/-- A signed word as an unsigned one. -/
theorem toNat_toUInt64 (v : Int64) : (v.toUInt64.toNat : Int) = v.toInt % 2 ^ 64 := by
  have hword : v.toInt = Int.bmod v.toUInt64.toNat (2 ^ 64) := toInt_toInt64 v.toUInt64
  have hlt : (v.toUInt64.toNat : Int) < (2 ^ 64 : Nat) := Int.ofNat_lt.mpr v.toUInt64.toNat_lt
  rw [hword]
  exact (Int.bmod_emod.trans (Int.emod_eq_of_lt (Int.natCast_nonneg _) hlt)).symm

/-- A number kept in a signed word is its remainder in an unsigned one. -/
theorem toNat_toUInt64_ofInt (x : Int) :
    ((Int64.ofInt x).toUInt64.toNat : Int) = x % 2 ^ 64 := by
  rw [toNat_toUInt64, Int64.toInt_ofInt]
  exact Int.bmod_emod

end DevBench.Core
