import Mathlib.Data.List.Basic
import Mathlib.Tactic.Common

/-!
# Consistent overhead byte stuffing

The format as a relation between the stuffed bytes and the plain ones. A block of
non-zero bytes follows a code byte one more than its length; a block shorter than
254 bytes stands for itself and a zero, unless it is the last one, and a block of
254 bytes stands for itself alone.
-/

namespace DevBench.Core.Stuffing

/-- The code byte in front of a block. -/
def blockCode (block : List UInt8) : UInt8 := UInt8.ofNat (block.length + 1)

/-- The first bytes are the second ones stuffed. -/
inductive Stuffed : List UInt8 → List UInt8 → Prop where
  | last {block : List UInt8} (hz : 0 ∉ block) (hlen : block.length < 254) :
      Stuffed (blockCode block :: block) block
  | zero {block bs cs : List UInt8} (hz : 0 ∉ block) (hlen : block.length < 254)
      (h : Stuffed bs cs) : Stuffed (blockCode block :: (block ++ bs)) (block ++ 0 :: cs)
  | full {block bs cs : List UInt8} (hz : 0 ∉ block) (hlen : block.length = 254)
      (h : Stuffed bs cs) : Stuffed (blockCode block :: (block ++ bs)) (block ++ cs)

theorem toNat_blockCode {block : List UInt8} (h : block.length ≤ 254) :
    (blockCode block).toNat = block.length + 1 := by
  rw [blockCode, UInt8.toNat_ofNat', Nat.mod_eq_of_lt (by omega)]

theorem blockCode_ne_zero {block : List UInt8} (h : block.length ≤ 254) : blockCode block ≠ 0 := by
  intro he
  have hc := toNat_blockCode h
  rw [he] at hc
  exact absurd hc (by simp)

theorem blockCode_eq_255 {block : List UInt8} (h : block.length ≤ 254) :
    blockCode block = 0xFF ↔ block.length = 254 := by
  rw [← UInt8.toNat_inj, toNat_blockCode h]
  simp

theorem Stuffed.ne_nil {bs cs : List UInt8} (h : Stuffed bs cs) : bs ≠ [] := by
  cases h <;> exact List.cons_ne_nil _ _

/-- No zero byte is left. -/
theorem Stuffed.zero_notMem {bs cs : List UInt8} (h : Stuffed bs cs) : 0 ∉ bs := by
  induction h with
  | last hz hlen =>
    rw [List.mem_cons, not_or]
    exact ⟨(blockCode_ne_zero (by omega)).symm, hz⟩
  | zero hz hlen _ ih =>
    rw [List.mem_cons, List.mem_append, not_or, not_or]
    exact ⟨(blockCode_ne_zero (by omega)).symm, hz, ih⟩
  | full hz hlen _ ih =>
    rw [List.mem_cons, List.mem_append, not_or, not_or]
    exact ⟨(blockCode_ne_zero (by omega)).symm, hz, ih⟩

/-- One code byte for every 254 bytes, and one more. -/
theorem Stuffed.length_le {bs cs : List UInt8} (h : Stuffed bs cs) :
    bs.length ≤ cs.length + cs.length / 254 + 1 := by
  induction h with
  | last hz hlen =>
    rw [List.length_cons]
    omega
  | zero hz hlen _ ih =>
    simp only [List.length_cons, List.length_append] at ih ⊢
    omega
  | full hz hlen _ ih =>
    simp only [List.length_cons, List.length_append] at ih ⊢
    omega

/-- Stuffing adds at least one byte. -/
theorem Stuffed.length_lt {bs cs : List UInt8} (h : Stuffed bs cs) : cs.length < bs.length := by
  induction h with
  | last hz hlen => exact Nat.lt_succ_self _
  | zero hz hlen _ ih =>
    simp only [List.length_cons, List.length_append] at ih ⊢
    omega
  | full hz hlen _ ih =>
    simp only [List.length_cons, List.length_append] at ih ⊢
    omega

/-! ## What a decoder takes

A decoder does not look into a block. It reads a zero behind every block but a full
one and the last one.
-/

/-- What is read between a block and the bytes behind it. -/
def separator (code : UInt8) (bs : List UInt8) : List UInt8 :=
  if code ≠ 0xFF ∧ bs ≠ [] then [0] else []

/-- The first bytes are taken for the second ones. -/
inductive Unstuffs : List UInt8 → List UInt8 → Prop where
  | nil : Unstuffs [] []
  | cons {code : UInt8} {block bs cs : List UInt8} (hcode : code.toNat = block.length + 1)
      (h : Unstuffs bs cs) : Unstuffs (code :: (block ++ bs)) (block ++ (separator code bs ++ cs))

/-- The code says how many of the bytes behind it are its block. -/
theorem unstuffs_cons_iff {code : UInt8} {bs cs : List UInt8} :
    Unstuffs (code :: bs) cs ↔ code ≠ 0 ∧ code.toNat - 1 ≤ bs.length ∧
      ∃ tail, Unstuffs (bs.drop (code.toNat - 1)) tail ∧
        cs = bs.take (code.toNat - 1) ++ (separator code (bs.drop (code.toNat - 1)) ++ tail) := by
  constructor
  · intro h
    cases h with
    | @cons _ block bs tail hcode h =>
      have hn : code.toNat - 1 = block.length := by omega
      have hne : code ≠ 0 := by
        rintro rfl
        simp at hcode
      rw [hn, List.drop_left, List.take_left, List.length_append]
      exact ⟨hne, Nat.le_add_right _ _, tail, h, rfl⟩
  · rintro ⟨hne, hlen, tail, h, rfl⟩
    have hpos : 0 < code.toNat := UInt8.pos_iff_ne_zero.mpr hne
    have hcode : code.toNat = (bs.take (code.toNat - 1)).length + 1 := by
      rw [List.length_take]
      omega
    have hcons := Unstuffs.cons hcode h
    rwa [List.take_append_drop] at hcons

theorem Unstuffs.unique {bs cs cs' : List UInt8} (h : Unstuffs bs cs) (h' : Unstuffs bs cs') :
    cs = cs' := by
  induction h generalizing cs' with
  | nil =>
    cases h'
    rfl
  | @cons code block bs cs hcode h ih =>
    have hn : code.toNat - 1 = block.length := by omega
    obtain ⟨_, _, tail, htail, rfl⟩ := unstuffs_cons_iff.mp h'
    rw [hn, List.drop_left] at htail
    rw [hn, List.take_left, List.drop_left, ih htail]

/-- A stuffing is taken for what was stuffed. -/
theorem Stuffed.unstuffs {bs cs : List UInt8} (h : Stuffed bs cs) : Unstuffs bs cs := by
  induction h with
  | @last block hz hlen =>
    have hcode : (blockCode block).toNat = block.length + 1 := toNat_blockCode (by omega)
    have hcons := Unstuffs.cons hcode .nil
    simpa [separator] using hcons
  | @zero block bs cs hz hlen hs ih =>
    have hcode : (blockCode block).toNat = block.length + 1 := toNat_blockCode (by omega)
    have hne : blockCode block ≠ 0xFF := by
      rw [ne_eq, blockCode_eq_255 (by omega)]
      omega
    have hcons := Unstuffs.cons hcode ih
    rwa [separator, if_pos ⟨hne, hs.ne_nil⟩] at hcons
  | @full block bs cs hz hlen hs ih =>
    have hcode : (blockCode block).toNat = block.length + 1 := toNat_blockCode (by omega)
    have hfull : blockCode block = 0xFF := (blockCode_eq_255 (by omega)).mpr hlen
    have hcons := Unstuffs.cons hcode ih
    rwa [separator, if_neg (by simp [hfull])] at hcons

end DevBench.Core.Stuffing
