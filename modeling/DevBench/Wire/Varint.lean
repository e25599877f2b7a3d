import DevBench.Core.Leb128
import DevBench.Core.Reads
import DevBench.Wire.Message

/-!
# Postcard primitives

The primitive readers and writers of `serial_protocol.c`: varints, zigzag
integers, length-prefixed strings and skipped fields. Values are naturals
below `2 ^ 64`, the range of the `uint64_t` the source computes with.
-/

namespace DevBench.Wire

open DevBench.Core DevBench.Core.Reader

/-! ## Writing -/

/-- The loop of `pc_write_varint`; a `uint64_t` needs at most nine rounds. -/
def pcWriteVarintLoop : Nat → Nat → List UInt8
  | 0, value => [UInt8.ofNat (value &&& 0x7F)]
  | rounds + 1, value =>
    if value ≥ 0x80 then
      UInt8.ofNat ((value &&& 0x7F) ||| 0x80) :: pcWriteVarintLoop rounds (value >>> 7)
    else [UInt8.ofNat (value &&& 0x7F)]

/-- `pc_write_varint`, ten bytes at most. -/
def pcWriteVarint (value : Nat) : List UInt8 := pcWriteVarintLoop 9 value

/-- The bytes `pc_write_bytes` appends: a length prefix and the bytes. -/
def pcWriteBytes (bytes : List UInt8) : List UInt8 := pcWriteVarint bytes.length ++ bytes

/-! ## Reading -/

/-- The loop of `pc_read_varint`. The test on `shift` ends it after ten rounds, so
the count of rounds never runs out first. -/
def pcReadVarintLoop : Nat → Nat → Nat → Reader Nat
  | 0, _, _ => fail
  | rounds + 1, result, shift => do
    let byte ← byte
    let result := result ||| ((byte.toNat &&& 0x7F) <<< shift) % 2 ^ 64
    if byte.toNat &&& 0x80 = 0 then pure result
    else if shift + 7 ≥ 64 then fail
    else pcReadVarintLoop rounds result (shift + 7)

/-- `pc_read_varint`, ten bytes at most. -/
def pcReadVarint : Reader Nat := pcReadVarintLoop 10 0 0

/-! A varint stored in a narrower field keeps its low bits. -/

/-- A varint in a `uint8_t`, which keeps its low bits. -/
def readVarint8 : Reader UInt8 := do
  let value ← pcReadVarint
  pure (UInt8.ofNat value)

/-- A varint in a `uint16_t`, which keeps its low bits. -/
def readVarint16 : Reader UInt16 := do
  let value ← pcReadVarint
  pure (UInt16.ofNat value)

/-- A varint in a `uint32_t`, which keeps its low bits. -/
def readVarint32 : Reader UInt32 := do
  let value ← pcReadVarint
  pure (UInt32.ofNat value)

/-- A varint in a `uint64_t`. -/
def readVarint64 : Reader UInt64 := do
  let value ← pcReadVarint
  pure (UInt64.ofNat value)

/-- A string that would not fit its array is refused, never cut. -/
def pcReadStr (outCap : Nat) : Reader (CharArray outCap) := do
  let len ← pcReadVarint
  if h : len < outCap then
    requireWide len
    let bytes ← copyAhead 0 len 0 outCap
    record (.store len 1 outCap)
    skip len
    pure ⟨bytes.toList, by rwa [Vector.length_toList]⟩
  else fail

/-- `pc_skip_len_prefixed`. -/
def pcSkipLenPrefixed (elemSize : Nat) : Reader Unit := do
  let len ← pcReadVarint
  let i ← buffer
  let n := i.mul (i.cast len) elemSize
  require n
  skip n

/-- `(int64_t)(raw >> 1) ^ -(int64_t)(raw & 1)`. -/
def unzigzag (raw : UInt64) : Int64 := (raw >>> 1).toInt64 ^^^ -(raw &&& 1).toInt64

/-- `pc_read_zigzag`. -/
def pcReadZigzag : Reader Int64 := do
  let raw ← pcReadVarint
  pure (unzigzag (UInt64.ofNat raw))

/-- An `Option` byte, any non-zero value meaning that `m` follows. -/
def pcReadOption {α : Type} (m : Reader α) : Reader (Option α) := do
  let present ← byte
  if present ≠ 0 then
    let a ← m
    pure (some a)
  else pure none

/-- A counted sequence: a count above the array's capacity is refused before the loop. -/
def pcReadSlots {α : Type} (capacity : Nat) (m : Reader α) : Reader (Slots α capacity) := do
  let len ← pcReadVarint
  if h : len ≤ capacity then
    let items ← fill m capacity 0 len
    pure ⟨items.1, by rw [items.2]; exact h⟩
  else fail

/-- Two UUIDs back to back behind one bounds test. -/
def pcReadUuidPair : Reader (Eap.Uuid × Eap.Uuid) := do
  require 32
  let service ← take 16
  let characteristic ← take 16
  pure (service, characteristic)

/-! ## What the writers emit -/

/-- A byte holds numbers below 256. -/
theorem toNat_ofNat_of_lt {n : Nat} (h : n < 256) : (UInt8.ofNat n).toNat = n := by
  rw [UInt8.toNat_ofNat', Nat.mod_eq_of_lt h]

/-- The loop writes a LEB128 encoding of a value it has rounds enough for. -/
theorem encodes_pcWriteVarintLoop : ∀ (rounds value : Nat), value < 128 ^ (rounds + 1) →
    Leb128.Encodes (pcWriteVarintLoop rounds value) value := by
  have hlast : ∀ value, value < 128 →
      Leb128.Encodes [UInt8.ofNat (value &&& 0x7F)] value := by
    intro value h
    have hb : (UInt8.ofNat (value &&& 0x7F)).toNat = value := by
      rw [Nat.and_two_pow_sub_one_eq_mod value 7, Nat.mod_eq_of_lt h,
        toNat_ofNat_of_lt (by omega)]
    have he := Leb128.Encodes.last (hb.trans_lt h)
    rwa [hb] at he
  intro rounds
  induction rounds with
  | zero => exact fun value h => hlast value (by simpa using h)
  | succ rounds ih =>
    intro value h
    rw [pcWriteVarintLoop]
    by_cases hv : value ≥ 0x80
    · rw [if_pos hv, Leb128.group_or_128, Nat.shiftRight_eq_div_pow]
      have hb : (UInt8.ofNat (value % 128 + 128)).toNat = value % 128 + 128 :=
        toNat_ofNat_of_lt (by omega)
      have hrest := ih (value / 2 ^ 7) (by
        rw [Nat.div_lt_iff_lt_mul (by decide)]
        rwa [Nat.pow_succ] at h)
      have he := Leb128.Encodes.more (by rw [hb]; omega) hrest
      have hval : (UInt8.ofNat (value % 128 + 128)).toNat - 128 + 128 * (value / 2 ^ 7) =
          value := by
        rw [hb]
        omega
      rwa [hval] at he
    · rw [if_neg hv]
      exact hlast value (by omega)

/-- The writer spells its value. -/
theorem encodes_pcWriteVarint {value : Nat} (h : value < 2 ^ 64) :
    Leb128.Encodes (pcWriteVarint value) value :=
  encodes_pcWriteVarintLoop 9 value (h.trans_le (by decide))

/-- No spelling is shorter than the loop's: it goes on only while a group is left. -/
theorem length_pcWriteVarintLoop_le (rounds value : Nat) (cs : List UInt8)
    (hcs : Leb128.Encodes cs value) : (pcWriteVarintLoop rounds value).length ≤ cs.length := by
  induction rounds generalizing value cs with
  | zero => exact List.length_pos_iff.mpr hcs.ne_nil
  | succ rounds ih =>
    rw [pcWriteVarintLoop]
    by_cases hv : value ≥ 0x80
    · rw [if_pos hv, Nat.shiftRight_eq_div_pow]
      cases hcs with
      | last hb => exact absurd hb (Nat.not_lt.mpr hv)
      | @more b bs w _ hw =>
        have hb := b.toNat_lt
        have hdiv : (b.toNat - 128 + 128 * w) / 2 ^ 7 = w := by omega
        rw [hdiv]
        exact Nat.succ_le_succ (ih w bs hw)
    · rw [if_neg hv]
      exact List.length_pos_iff.mpr hcs.ne_nil

/-- No encoding of the value is shorter. -/
theorem shortest_pcWriteVarint {value : Nat} (h : value < 2 ^ 64) :
    Leb128.Shortest (pcWriteVarint value) value where
  encodes := encodes_pcWriteVarint h
  least := fun {cs} hcs => length_pcWriteVarintLoop_le 9 value cs hcs

/-- A round writes one byte. -/
theorem length_pcWriteVarintLoop (rounds value : Nat) :
    (pcWriteVarintLoop rounds value).length ≤ rounds + 1 := by
  induction rounds generalizing value with
  | zero => simp [pcWriteVarintLoop]
  | succ rounds ih =>
    rw [pcWriteVarintLoop]
    split
    · exact Nat.succ_le_succ (ih _)
    · simp

/-- A varint has at most ten bytes. -/
theorem length_pcWriteVarint (value : Nat) : (pcWriteVarint value).length ≤ 10 :=
  length_pcWriteVarintLoop 9 value

/-- A small value is its own byte. -/
theorem pcWriteVarint_of_lt {value : Nat} (h : value < 128) :
    pcWriteVarint value = [UInt8.ofNat value] := by
  have hgroup : value &&& 0x7F = value := by
    rw [Nat.and_two_pow_sub_one_eq_mod value 7, Nat.mod_eq_of_lt h]
  rw [pcWriteVarint, pcWriteVarintLoop, if_neg (Nat.not_le.mpr h), hgroup]

/-- A varint has at least one byte. -/
theorem pcWriteVarint_ne_nil (value : Nat) : pcWriteVarint value ≠ [] := by
  rw [pcWriteVarint, pcWriteVarintLoop]
  split <;> exact List.cons_ne_nil _ _

/-! ## What the readers consume -/

/-- A reader that begins by reading one byte. -/
theorem Reads.byte_cons {α : Type} {b : UInt8} {bs : List UInt8} {f : UInt8 → Reader α} {a : α}
    (h : Reads bs (f b) a) : Reads (b :: bs) (Reader.byte >>= f) a := (reads_byte b).bind h

/-- One round of the reader's loop gathers one group; the groups to come must still
fit below bit 64. -/
theorem reads_pcReadVarintLoop {bs : List UInt8} {v : Nat} (hv : Leb128.Encodes bs v) :
    ∀ (rounds result shift : Nat), bs.length ≤ rounds → result < 2 ^ shift →
      shift + 7 * rounds = 70 → v * 2 ^ shift < 2 ^ 64 →
      Reads bs (pcReadVarintLoop rounds result shift) (result + v * 2 ^ shift) := by
  induction hv with
  | @last b hb =>
    intro rounds result shift hlen hres _ hfit
    obtain ⟨rounds, rfl⟩ : ∃ r, rounds = r + 1 :=
      Nat.exists_eq_add_one.mpr hlen
    have hgroup : result ||| ((b.toNat &&& 0x7F) <<< shift) % 2 ^ 64 =
        result + b.toNat * 2 ^ shift := by
      rw [Leb128.byte_and_127, Nat.mod_eq_of_lt hb, Nat.mod_eq_of_lt (by rwa [Nat.shiftLeft_eq]),
        Leb128.or_shiftLeft hres]
    have hend : b.toNat &&& 0x80 = 0 := (Leb128.byte_and_128 b).mpr hb
    apply Reads.byte_cons
    simp only [hend, if_true, hgroup]
    exact reads_pure _
  | @more b bs v hb hs ih =>
    intro rounds result shift hlen hres hbudget hfit
    have hbs : 0 < bs.length := List.length_pos_iff.mpr hs.ne_nil
    have hb' := b.toNat_lt
    obtain ⟨rounds, rfl⟩ : ∃ r, rounds = r + 1 :=
      Nat.exists_eq_add_one.mpr (by rw [List.length_cons] at hlen; omega)
    rw [List.length_cons] at hlen
    have hgfit : (b.toNat - 128) * 2 ^ shift ≤ (b.toNat - 128 + 128 * v) * 2 ^ shift :=
      Nat.mul_le_mul_right _ (Nat.le_add_right _ _)
    have hgroup : result ||| ((b.toNat &&& 0x7F) <<< shift) % 2 ^ 64 =
        result + (b.toNat - 128) * 2 ^ shift := by
      have hmod : b.toNat % 128 = b.toNat - 128 := by omega
      rw [Leb128.byte_and_127, hmod, Nat.mod_eq_of_lt (by rw [Nat.shiftLeft_eq]; omega),
        Leb128.or_shiftLeft hres]
    have hcont : ¬ b.toNat &&& 0x80 = 0 := by
      rw [Leb128.byte_and_128]
      omega
    have hshift : ¬ shift + 7 ≥ 64 := by omega
    have hpow : 2 ^ (shift + 7) = 128 * 2 ^ shift := by rw [Nat.pow_add, Nat.mul_comm]
    have hvfit : v * 2 ^ (shift + 7) + (b.toNat - 128) * 2 ^ shift =
        (b.toNat - 128 + 128 * v) * 2 ^ shift := by
      rw [hpow]
      ring
    have hres' : result + (b.toNat - 128) * 2 ^ shift < 2 ^ (shift + 7) := by
      have : (b.toNat - 128) * 2 ^ shift ≤ 127 * 2 ^ shift :=
        Nat.mul_le_mul_right _ (by omega)
      omega
    have hrest := ih rounds (result + (b.toNat - 128) * 2 ^ shift) (shift + 7) (by omega) hres'
      (by omega) (by omega)
    rw [Nat.add_assoc, Nat.add_comm ((b.toNat - 128) * 2 ^ shift), hvfit] at hrest
    apply Reads.byte_cons
    simp only [hcont, if_false, hshift, hgroup]
    exact hrest

/-- A varint of at most ten bytes is read back from any spelling of it. -/
theorem reads_pcReadVarint_of_encodes {bs : List UInt8} {v : Nat} (hv : Leb128.Encodes bs v)
    (hlen : bs.length ≤ 10) (h : v < 2 ^ 64) : Reads bs pcReadVarint v := by
  have hr := reads_pcReadVarintLoop hv 10 0 0 hlen (by decide) (by decide) (by simpa using h)
  rwa [Nat.zero_add, Nat.pow_zero, Nat.mul_one] at hr

/-- What was written is read. -/
theorem reads_pcReadVarint {v : Nat} (h : v < 2 ^ 64) : Reads (pcWriteVarint v) pcReadVarint v :=
  reads_pcReadVarint_of_encodes (encodes_pcWriteVarint h) (length_pcWriteVarint v) h

/-- A written string is read back whole if it fits the array. -/
theorem reads_pcReadStr {outCap : Nat} {bytes : List UInt8} (h : bytes.length < outCap)
    (hcap : outCap < 2 ^ 64) : Reads (pcWriteBytes bytes) (pcReadStr outCap) ⟨bytes, h⟩ := by
  refine (reads_pcReadVarint (h.trans hcap)).bind ?_
  rw [dif_pos h]
  apply Reads.requireWide _ (Nat.le_refl _)
  apply Reads.copy
  exact Reads.bind_nil (reads_record _) ((reads_skip bytes).map _)

/-- A skipped field is stepped over if its prefix counts what stands behind it. -/
theorem reads_pcSkipLenPrefixed {elemSize len : Nat} {bytes : List UInt8} (hlen : len < 2 ^ 64)
    (helem : 0 < elemSize) (h : bytes.length = len * elemSize) :
    Reads (pcWriteVarint len ++ bytes) (pcSkipLenPrefixed elemSize) () := by
  refine (reads_pcReadVarint hlen).bind ?_
  apply Reads.buffer
  intro i pre post hi
  have hfit : bytes.length < 2 ^ i.bits := by
    have hl := i.len_lt
    simp only [Input.len, hi, List.length_append] at hl
    omega
  have hle : len ≤ len * elemSize := Nat.le_mul_of_pos_right len helem
  have hcast : i.cast len = len := Nat.mod_eq_of_lt (by omega)
  have hn : i.mul (i.cast len) elemSize = bytes.length := by
    rw [hcast, Input.mul, ← h, Nat.mod_eq_of_lt hfit]
  rw [hn]
  exact (reads_skip bytes).require (Nat.le_refl _)

/-- An absent value is read from its byte. -/
theorem reads_pcReadOption_none {α : Type} (m : Reader α) : Reads [0] (pcReadOption m) none :=
  Reads.byte_cons (reads_pure none)

/-- A present value is read behind its byte. -/
theorem reads_pcReadOption_some {α : Type} {bs : List UInt8} {m : Reader α} {a : α}
    (h : Reads bs m a) : Reads (1 :: bs) (pcReadOption m) (some a) :=
  Reads.byte_cons (h.map some)

/-- A counted sequence that fits its array is read back element by element. -/
theorem reads_pcReadSlots {α γ : Type} {capacity : Nat} {m : Reader α} {enc : γ → List UInt8}
    {dec : γ → α} (xs : Slots γ capacity) (hcap : capacity < 2 ^ 64)
    (h : ∀ x ∈ xs.items, Reads (enc x) m (dec x)) :
    Reads (pcWriteVarint xs.items.length ++ xs.items.flatMap enc) (pcReadSlots capacity m)
      (xs.map dec) := by
  refine (reads_pcReadVarint (xs.fits.trans_lt hcap)).bind ?_
  rw [dif_pos xs.fits]
  exact (reads_fill capacity xs.items 0 h).map _

/-- Two UUIDs are read one after the other. -/
theorem reads_pcReadUuidPair (a b : Eap.Uuid) :
    Reads (a.toList ++ b.toList) pcReadUuidPair (a, b) :=
  Reads.require ((reads_take a).bind ((reads_take b).map _)) (by simp)

end DevBench.Wire
