import DevBench.Core.Crc
import DevBench.Wire.Walk

/-!
# The CRC-32 of a seal

`dbm_crc32` is the check catalogued as CRC-32/ISO-HDLC, and tells apart any two byte
strings of one length that differ within four bytes next to each other.
-/

namespace DevBench.Wire

open DevBench.Core DevBench.Core.Crc

/-- CRC-32/ISO-HDLC. -/
def isoHdlc : Crc.Model 32 where
  poly := 0x04C11DB7#32
  init := 0xFFFFFFFF#32
  refin := true
  refout := true
  xorout := 0xFFFFFFFF#32

/-- The reflected polynomial. -/
theorem reverse_poly : isoHdlc.poly.reverse = 0xEDB88320#32 := by decide +kernel

/-- The register starts from ones either way round. -/
theorem reverse_init : isoHdlc.init.reverse = 0xFFFFFFFF#32 := by decide +kernel

/-- The mask of the source is the polynomial or nothing. -/
theorem toBitVec_crcBit (crc : UInt32) :
    (crcBit crc).toBitVec = shift 0xEDB88320#32 crc.toBitVec := by
  have hlow : crc.toBitVec &&& 1#32 = unit (crc.toBitVec.getLsbD 0) := by
    apply BitVec.eq_of_getLsbD_eq
    intro i hi
    rw [BitVec.getLsbD_and, getLsbD_unit, BitVec.getLsbD_one]
    cases i <;> simp
  have hmask : (crcBit crc).toBitVec =
      crc.toBitVec >>> 1 ^^^ (0xEDB88320#32 &&& (0#32 - unit (crc.toBitVec.getLsbD 0))) := by
    rw [← hlow]
    rfl
  rw [hmask, shift]
  cases crc.toBitVec.getLsbD 0 <;> rfl

/-- Any number of rounds of the bit loop are as many shifts. -/
theorem toBitVec_repeat_crcBit (n : Nat) (crc : UInt32) :
    (Nat.repeat crcBit n crc).toBitVec = (shift 0xEDB88320#32)^[n] crc.toBitVec := by
  induction n with
  | zero => rfl
  | succ n ih => rw [Nat.repeat, toBitVec_crcBit, ih, Function.iterate_succ_apply']

/-- The bits of a byte in the order they enter are the byte. -/
theorem ofBits_bitsOf (byte : UInt8) :
    (ofBits (isoHdlc.bitsOf byte) : BitVec 32) = byte.toUInt32.toBitVec := by
  apply BitVec.eq_of_getLsbD_eq
  intro i hi
  have hbyte : byte.toUInt32.toBitVec = byte.toBitVec.setWidth 32 := rfl
  have hbits : isoHdlc.bitsOf byte = List.ofFn fun k : Fin 8 => byte.toBitVec.getLsbD k := rfl
  rw [getLsbD_ofBits, hbyte, BitVec.getLsbD_setWidth, hbits]
  by_cases h : i < 8
  · rw [List.getD_eq_getElem _ _ (by simpa using h), List.getElem_ofFn]
  · have hout : byte.toBitVec.getLsbD i = false := BitVec.getLsbD_of_ge _ _ (Nat.le_of_not_lt h)
    rw [hout, List.getD_eq_default _ _ (by simpa using h)]

/-- A byte is eight bits. -/
theorem length_bitsOf (byte : UInt8) : (isoHdlc.bitsOf byte).length = 8 := List.length_ofFn

/-- One byte feeds its eight bits. -/
theorem toBitVec_crcByte (crc : UInt32) (byte : UInt8) :
    (crcByte crc byte).toBitVec = feed 0xEDB88320#32 crc.toBitVec (isoHdlc.bitsOf byte) := by
  have hlen : (isoHdlc.bitsOf byte).length ≤ 32 := by rw [length_bitsOf]; decide
  rw [feed_eq _ _ _ hlen, ofBits_bitsOf, length_bitsOf, crcByte, toBitVec_repeat_crcBit]
  rfl

/-- The bytes feed their bits one after another. -/
theorem toBitVec_foldl_crcByte (data : List UInt8) (crc : UInt32) :
    (data.foldl crcByte crc).toBitVec =
      feed 0xEDB88320#32 crc.toBitVec (data.flatMap isoHdlc.bitsOf) := by
  induction data generalizing crc with
  | nil => rfl
  | cons byte data ih =>
    rw [List.foldl_cons, ih, toBitVec_crcByte, List.flatMap_cons, feed_append]

/-- The seal is the register behind all bits, inverted. -/
theorem toBitVec_dbmCrc32 (data : List UInt8) :
    (dbmCrc32 data).toBitVec =
      feed 0xEDB88320#32 0xFFFFFFFF#32 (data.flatMap isoHdlc.bitsOf) ^^^ 0xFFFFFFFF#32 := by
  rw [dbmCrc32, UInt32.toBitVec_xor, toBitVec_foldl_crcByte]
  rfl

/-- `dbm_crc32` computes the catalogued check. -/
theorem toBitVec_dbmCrc32_eq (data : List UInt8) :
    (dbmCrc32 data).toBitVec = isoHdlc.crc data := by
  rw [Crc.Model.crc_eq_feed isoHdlc rfl, reverse_poly, reverse_init, toBitVec_dbmCrc32]
  rfl

/-- The catalogue's own check of the digits 1 to 9. -/
example : isoHdlc.crc (ascii "123456789") = 0xCBF43926#32 := by decide +kernel

/-- Bytes of one length are known by their bits. -/
theorem flatMap_bitsOf_inj : ∀ {xs ys : List UInt8}, xs.length = ys.length →
    xs.flatMap isoHdlc.bitsOf = ys.flatMap isoHdlc.bitsOf → xs = ys
  | [], [], _, _ => rfl
  | x :: xs, y :: ys, hlen, h => by
    rw [List.flatMap_cons, List.flatMap_cons] at h
    obtain ⟨hhead, htail⟩ :=
      List.append_inj h ((length_bitsOf x).trans (length_bitsOf y).symm)
    have hbits : x.toUInt32.toBitVec = y.toUInt32.toBitVec := by
      rw [← ofBits_bitsOf, ← ofBits_bitsOf, hhead]
    have hx : x.toUInt32.toUInt8 = y.toUInt32.toUInt8 := by
      rw [UInt32.toBitVec_inj.mp hbits]
    rw [UInt8.toUInt8_toUInt32, UInt8.toUInt8_toUInt32] at hx
    rw [hx, flatMap_bitsOf_inj (Nat.succ.inj hlen) htail]

/-- Strings that differ only within four bytes next to each other have different CRCs. -/
theorem dbmCrc32_burst {xs ys : List UInt8} (hlen : xs.length = ys.length) (hshort : xs.length ≤ 4)
    (pre post : List UInt8)
    (h : dbmCrc32 (pre ++ xs ++ post) = dbmCrc32 (pre ++ ys ++ post)) : xs = ys := by
  have hfeed := congrArg UInt32.toBitVec h
  rw [toBitVec_dbmCrc32, toBitVec_dbmCrc32, BitVec.xor_left_inj] at hfeed
  simp only [List.flatMap_append] at hfeed
  have hbits : ∀ zs : List UInt8, (zs.flatMap isoHdlc.bitsOf).length = zs.length * 8 := fun zs =>
    length_flatMap_of_forall zs length_bitsOf
  have hwidth : (xs.flatMap isoHdlc.bitsOf).length ≤ 32 := by
    rw [hbits]
    omega
  have hsame : (xs.flatMap isoHdlc.bitsOf).length = (ys.flatMap isoHdlc.bitsOf).length := by
    rw [hbits, hbits, hlen]
  exact flatMap_bitsOf_inj hlen (feed_burst (by decide) hsame hwidth _ _ _ hfeed)

end DevBench.Wire
