import Mathlib.Data.Nat.Bits
import Mathlib.Data.Nat.Bitwise
import Mathlib.Data.Nat.Log
import Mathlib.Tactic.Ring

/-!
# Little-endian base-128 numbers

A byte below 128 ends a number; any other byte contributes its low seven bits
and announces more. The relation covers every such spelling, padded ones
included.
-/

namespace DevBench.Core.Leb128

/-- The bytes spell the number. -/
inductive Encodes : List UInt8 → Nat → Prop where
  | last {b : UInt8} (h : b.toNat < 128) : Encodes [b] b.toNat
  | more {b : UInt8} {bs : List UInt8} {v : Nat} (h : 128 ≤ b.toNat) (hs : Encodes bs v) :
      Encodes (b :: bs) (b.toNat - 128 + 128 * v)

theorem Encodes.ne_nil {bs : List UInt8} {v : Nat} (h : Encodes bs v) : bs ≠ [] := by
  cases h <;> exact List.cons_ne_nil _ _

/-- A number ends where its bytes say, so what begins with two numbers begins with one. -/
theorem Encodes.cancel {bs cs r t : List UInt8} {v w : Nat} (hv : Encodes bs v)
    (hw : Encodes cs w) (h : bs ++ r = cs ++ t) : v = w ∧ r = t := by
  induction hv generalizing cs w with
  | last hb =>
    cases hw with
    | last => exact ⟨congrArg UInt8.toNat (List.cons.inj h).1, (List.cons.inj h).2⟩
    | more hc =>
      rw [(List.cons.inj h).1] at hb
      exact absurd hb (Nat.not_lt.mpr hc)
  | more hb _ ih =>
    cases hw with
    | last hc =>
      rw [(List.cons.inj h).1] at hb
      exact absurd hc (Nat.not_lt.mpr hb)
    | more _ hcs =>
      obtain ⟨rfl, hrest⟩ := List.cons.inj h
      obtain ⟨rfl, hrt⟩ := ih hcs hrest
      exact ⟨rfl, hrt⟩

/-- The low seven bits of a byte. -/
theorem byte_and_127 (b : UInt8) : b.toNat &&& 0x7F = b.toNat % 128 :=
  Nat.and_two_pow_sub_one_eq_mod b.toNat 7

/-- The continuation bit of a byte. -/
theorem byte_and_128 (b : UInt8) : b.toNat &&& 0x80 = 0 ↔ b.toNat < 128 := by
  have h : b.toNat &&& 2 ^ 7 = (b.toNat.testBit 7).toNat * 2 ^ 7 := Nat.and_two_pow _ _
  have ht : b.toNat.testBit 7 = decide (b.toNat / 2 ^ 7 % 2 = 1) := Nat.testBit_eq_decide_div_mod_eq
  have hb := b.toNat_lt
  simp only [Nat.reducePow] at h ht hb
  rw [h, ht]
  by_cases hlt : b.toNat < 128
  · simp [Nat.div_eq_of_lt hlt, hlt]
  · have h1 : b.toNat / 128 = 1 := by omega
    simp [h1, hlt]

/-- Setting the continuation bit of a seven-bit group. -/
theorem group_or_128 (n : Nat) : (n &&& 0x7F) ||| 0x80 = n % 128 + 128 := by
  have h7 : n &&& 0x7F = n % 128 := Nat.and_two_pow_sub_one_eq_mod n 7
  have hlt : n % 128 < 2 ^ 7 := Nat.mod_lt _ (by decide)
  have h := Nat.two_pow_add_eq_or_of_lt hlt 1
  rw [h7, Nat.or_comm]
  simp only [Nat.mul_one, Nat.reducePow] at h
  rw [← h, Nat.add_comm]

/-- Joining a group above the bits already gathered. -/
theorem or_shiftLeft {acc shift : Nat} (h : acc < 2 ^ shift) (n : Nat) :
    acc ||| n <<< shift = acc + n * 2 ^ shift := by
  rw [Nat.shiftLeft_eq, Nat.or_comm, Nat.mul_comm n, ← Nat.two_pow_add_eq_or_of_lt h,
    Nat.add_comm]

/-- The same in a word of `width` bits: what does not fit is lost. -/
theorem or_shiftLeft_mod {acc shift width : Nat} (h : acc < 2 ^ shift) (hshift : shift ≤ width)
    (n : Nat) : acc ||| n <<< shift % 2 ^ width = (acc + n * 2 ^ shift) % 2 ^ width := by
  have hwidth : 2 ^ width = 2 ^ (width - shift) * 2 ^ shift := by
    rw [← Nat.pow_add, Nat.sub_add_cancel hshift]
  have hgroup : n <<< shift % 2 ^ width = n % 2 ^ (width - shift) * 2 ^ shift := by
    rw [Nat.shiftLeft_eq, hwidth, Nat.mul_mod_mul_right]
  have hlt : n % 2 ^ (width - shift) + 1 ≤ 2 ^ (width - shift) := Nat.mod_lt _ (Nat.two_pow_pos _)
  have hsum : acc + n % 2 ^ (width - shift) * 2 ^ shift < 2 ^ width := by
    have hle := Nat.mul_le_mul_right (2 ^ shift) hlt
    rw [Nat.add_mul, Nat.one_mul, ← hwidth] at hle
    omega
  calc acc ||| n <<< shift % 2 ^ width
      = acc + n % 2 ^ (width - shift) * 2 ^ shift := by
        rw [hgroup, ← Nat.shiftLeft_eq, or_shiftLeft h, Nat.shiftLeft_eq]
    _ = (acc + n % 2 ^ (width - shift) * 2 ^ shift) % 2 ^ width := (Nat.mod_eq_of_lt hsum).symm
    _ = (acc + n * 2 ^ shift) % 2 ^ width := by
        rw [← hgroup, Nat.shiftLeft_eq, Nat.add_mod_mod]

/-- The number of seven-bit groups of a value, at least one. -/
def groups (value : Nat) : Nat := Nat.log 128 value + 1

theorem groups_of_lt {value : Nat} (h : value < 128) : groups value = 1 := by
  rw [groups, Nat.log_of_lt h]

theorem groups_of_le {value : Nat} (h : 128 ≤ value) :
    groups value = groups (value / 128) + 1 := by
  rw [groups, groups, Nat.log_of_one_lt_of_le (by decide) h]

theorem groups_le {value k : Nat} (hk : k ≠ 0) (h : value < 128 ^ k) : groups value ≤ k :=
  Nat.log_lt_of_lt_pow' hk h

/-! ## Shortest spellings -/

/-- Two spellings of one number in as many bytes are the same. -/
theorem Encodes.eq_of_length {bs cs : List UInt8} {v w : Nat} (hbs : Encodes bs v)
    (hcs : Encodes cs w) (hvw : v = w) (h : bs.length = cs.length) : bs = cs := by
  induction hbs generalizing cs w with
  | last =>
    cases hcs with
    | last => rw [UInt8.toNat_inj.mp hvw]
    | more _ hcs => exact absurd (List.length_eq_zero_iff.mp (Nat.succ.inj h).symm) hcs.ne_nil
  | @more b _ _ hb hbs ih =>
    cases hcs with
    | last => exact absurd (List.length_eq_zero_iff.mp (Nat.succ.inj h)) hbs.ne_nil
    | @more c _ _ hc hcs =>
      have hb' := b.toNat_lt
      have hc' := c.toNat_lt
      have hbc : b = c := UInt8.toNat_inj.mp (by omega)
      rw [hbc, ih hcs (by omega) (Nat.succ.inj h)]

/-- The bytes spell the number, and no fewer do. -/
structure Shortest (bs : List UInt8) (v : Nat) : Prop where
  encodes : Encodes bs v
  least {cs : List UInt8} (h : Encodes cs v) : bs.length ≤ cs.length

theorem Shortest.unique {bs cs : List UInt8} {v : Nat} (hbs : Shortest bs v)
    (hcs : Shortest cs v) : bs = cs :=
  hbs.encodes.eq_of_length hcs.encodes rfl
    (Nat.le_antisymm (hbs.least hcs.encodes) (hcs.least hbs.encodes))

end DevBench.Core.Leb128
