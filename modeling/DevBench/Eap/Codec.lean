import DevBench.Core.Places
import DevBench.Eap.Scalar

/-!
# Scalars there and back

The fourteen integer types by what their names say, and the two directions of `Eap/Scalar` as
what they do to numbers: bytes are read as the number they stand for in the type, and a value is
written as its remainder in the type's width.
-/

namespace DevBench.Eap

open DevBench.Core

/-- The integer types. -/
inductive IntegerType where
  | u8 | i8
  | u16le | u16be | i16le | i16be
  | u32le | u32be | i32le | i32be
  | u64le | u64be | i64le | i64be
  deriving DecidableEq, Repr

namespace IntegerType

/-- `enum eap_scalar_type`. -/
def code : IntegerType → UInt8
  | u8 => 0
  | i8 => 1
  | u16le => 2
  | u16be => 3
  | i16le => 4
  | i16be => 5
  | u32le => 6
  | u32be => 7
  | i32le => 8
  | i32be => 9
  | u64le => 10
  | u64be => 11
  | i64le => 12
  | i64be => 13

/-- Bytes. -/
def width : IntegerType → Nat
  | u8 | i8 => 1
  | u16le | u16be | i16le | i16be => 2
  | u32le | u32be | i32le | i32be => 4
  | u64le | u64be | i64le | i64be => 8

/-- The most significant byte comes first. -/
def bigEndian : IntegerType → Bool
  | u16be | i16be | u32be | i32be | u64be | i64be => true
  | _ => false

/-- Its top bit is the sign. -/
def signed : IntegerType → Bool
  | i8 | i16le | i16be | i32le | i32be | i64le | i64be => true
  | _ => false

/-- The bytes of the type, the lowest first, in the order they are sent, and the other way
round. -/
def order (t : IntegerType) (bytes : List UInt8) : List UInt8 :=
  if t.bigEndian then bytes.reverse else bytes

/-- What bytes of the type that stand for a number are read as. -/
def value (t : IntegerType) (n : Nat) : Int :=
  if t.signed then Int.bmod n (256 ^ t.width) else min n (2 ^ 63 - 1)

/-! ## The tables -/

/-- The width by the code. -/
@[simp] theorem scalarWidth_code (t : IntegerType) : scalarWidth t.code = t.width := by
  cases t <;> rfl

/-- The order by the code. -/
@[simp] theorem scalarIsBigEndian_code (t : IntegerType) :
    scalarIsBigEndian t.code = t.bigEndian := by
  cases t <;> rfl

/-- The sign by the code. -/
@[simp] theorem scalarIsSigned_code (t : IntegerType) : scalarIsSigned t.code = t.signed := by
  cases t <;> rfl

/-- All of them are integers. -/
@[simp] theorem scalarIsInteger_code (t : IntegerType) : scalarIsInteger t.code = true := by
  cases t <;> rfl

/-- There are no others. -/
theorem exists_code_iff (ty : UInt8) : (∃ t : IntegerType, t.code = ty) ↔ scalarIsInteger ty := by
  constructor
  · rintro ⟨t, rfl⟩
    exact t.scalarIsInteger_code
  · intro h
    have hlt : ty.toNat < 14 := by
      unfold scalarIsInteger at h
      split at h
      all_goals simp at h
      omega
    have hcodes : (List.range 14).map UInt8.ofNat = [u8, i8, u16le, u16be, i16le, i16be, u32le,
        u32be, i32le, i32be, u64le, u64be, i64le, i64be].map code := rfl
    have hmem : ty ∈ (List.range 14).map UInt8.ofNat :=
      List.mem_map.mpr ⟨ty.toNat, List.mem_range.mpr hlt, UInt8.ofNat_toNat⟩
    rw [hcodes] at hmem
    obtain ⟨t, -, ht⟩ := List.mem_map.mp hmem
    exact ⟨t, ht⟩

/-- The two codes that saturate are the unsigned ones of eight bytes. -/
theorem code_saturated_iff (t : IntegerType) :
    (t.code = 10 ∨ t.code = 11) ↔ t.signed = false ∧ t.width = 8 := by
  cases t <;> decide

/-- No type is empty. -/
theorem width_pos (t : IntegerType) : 0 < t.width := by
  cases t <;> decide

/-- A type takes eight bytes or at most four. -/
theorem width_cases (t : IntegerType) : t.width = 8 ∨ t.width ≤ 4 := by
  cases t <;> decide

/-- Turning bytes around loses none. -/
@[simp] theorem length_order (t : IntegerType) (bytes : List UInt8) :
    (t.order bytes).length = bytes.length := by
  rw [order]
  split
  · exact List.length_reverse
  · rfl

/-- Turned twice they are as they were. -/
@[simp] theorem order_order (t : IntegerType) (bytes : List UInt8) :
    t.order (t.order bytes) = bytes := by
  unfold order
  cases t.bigEndian
  · rfl
  · exact List.reverse_reverse bytes

/-! ## Reading -/

/-- The word gathered is the number in the bytes. -/
theorem toNat_gatherBytes {bytes : List UInt8} (h : bytes.length ≤ 8) :
    (gatherBytes bytes).toNat = placeValue bytes.reverse := by
  have hfits : ((0 : UInt64).toNat + 1) * 256 ^ bytes.length ≤ 2 ^ 64 := by
    rw [UInt64.toNat_zero, Nat.zero_add, Nat.one_mul]
    exact (Nat.pow_le_pow_right (by decide) h).trans (by decide)
  rw [gatherBytes, toNat_foldl_shiftLeft_or bytes 0 hfits, UInt64.toNat_zero, Nat.zero_mul,
    Nat.zero_add]

/-- A value is the one made of its number. -/
theorem eq_ofInt {v : Int64} {x : Int} (h : v.toInt = x) : v = .ofInt x := by
  rw [← h, Int64.ofInt_toInt]

/-- And so in the byte order of the type. -/
theorem toNat_gatherBytes_field (t : IntegerType) {field : List UInt8} (h : field.length ≤ 8) :
    (gatherBytes (if t.bigEndian then field else field.reverse)).toNat =
      placeValue (t.order field) := by
  rw [order]
  split
  · exact toNat_gatherBytes h
  · rw [toNat_gatherBytes (by rwa [List.length_reverse]), List.reverse_reverse]

/-- What is read of a payload that is long enough. -/
theorem scalarReadI64_code (t : IntegerType) {bytes : List UInt8} (h : t.width ≤ bytes.length) :
    scalarReadI64 t.code bytes =
      some (.ofInt (t.value (placeValue (t.order (bytes.take t.width))))) := by
  have hpos := t.width_pos
  have hwidth : t.width ≤ 8 := t.width_cases.elim (fun h => h.le) (fun h => by omega)
  generalize hfield : bytes.take t.width = field
  have hlength : field.length = t.width := by
    rw [← hfield, List.length_take, Nat.min_eq_left h]
  have hgather := t.toNat_gatherBytes_field (hlength.trans_le hwidth)
  have hlt : placeValue (t.order field) < 256 ^ t.width := by
    have := placeValue_lt (t.order field)
    rwa [length_order, hlength] at this
  have hbyte : (256 : Nat) ^ t.width = 2 ^ (t.width * 8) := by
    rw [Nat.mul_comm, pow_mul]
    rfl
  simp only [scalarReadI64, scalarWidth_code, scalarIsInteger_code, scalarIsBigEndian_code,
    scalarIsSigned_code, hfield]
  rw [if_neg (by simp; omega)]
  generalize gatherBytes _ = v at hgather
  rw [← hgather] at hlt ⊢
  by_cases hsigned : t.signed = true
  · rw [value, if_pos hsigned]
    rcases t.width_cases with height | hfour
    · have hsaturated : ¬ (t.code = 10 ∨ t.code = 11) := by
        rw [code_saturated_iff, hsigned]
        exact fun h => Bool.noConfusion h.1
      rw [if_neg (by omega), if_neg hsaturated, height]
      exact congrArg some (eq_ofInt (toInt_toInt64 v))
    · obtain ⟨k, hk⟩ : ∃ k, t.width * 8 = k + 1 := ⟨t.width * 8 - 1, by omega⟩
      rw [hbyte, hk] at hlt ⊢
      rw [if_pos ⟨hsigned, by omega⟩, Nat.add_sub_cancel]
      exact congrArg some (eq_ofInt (toInt_signFilled (by omega) hlt))
  · rw [value, if_neg hsigned, if_neg (fun h => hsigned h.1)]
    rcases t.width_cases with height | hfour
    · have hsaturated : t.code = 10 ∨ t.code = 11 := by
        rw [code_saturated_iff]
        exact ⟨Bool.eq_false_of_not_eq_true hsigned, height⟩
      rw [if_pos hsaturated]
      exact congrArg some (eq_ofInt (toInt_saturated v))
    · have hsaturated : ¬ (t.code = 10 ∨ t.code = 11) := by
        rw [code_saturated_iff]
        omega
      have hsmall : v.toNat < 2 ^ 32 := hlt.trans_le (Nat.pow_le_pow_right (by decide) hfour)
      rw [if_neg hsaturated, min_eq_left (by omega)]
      exact congrArg some (eq_ofInt (toInt_toInt64_of_lt (by omega)))

/-- A payload that is too short has no scalar. -/
theorem scalarReadI64_short (t : IntegerType) {bytes : List UInt8} (h : bytes.length < t.width) :
    scalarReadI64 t.code bytes = none := by
  simp only [scalarReadI64, scalarWidth_code, h, or_true, if_true]

/-- Bytes behind the width are not read. -/
theorem scalarReadI64_take (t : IntegerType) (bytes : List UInt8) :
    scalarReadI64 t.code (bytes.take t.width) = scalarReadI64 t.code bytes := by
  have hlength : (bytes.take t.width).length = min t.width bytes.length := List.length_take
  by_cases h : t.width ≤ bytes.length
  · have htake : t.width ≤ (bytes.take t.width).length := by omega
    rw [scalarReadI64_code t h, scalarReadI64_code t htake, List.take_take, Nat.min_self]
  · have htake : (bytes.take t.width).length < t.width := by omega
    rw [scalarReadI64_short t (Nat.not_le.mp h), scalarReadI64_short t htake]

/-! ## Writing -/

/-- A byte of a word, by its place. -/
theorem toUInt8_shiftRight (v : UInt64) {i : Nat} (hi : i < 8) :
    (v >>> UInt64.ofNat (i * 8)).toUInt8 = UInt8.ofNat (v.toNat / 256 ^ i) := by
  have hshift : (UInt64.ofNat (i * 8)).toNat % 64 = i * 8 := by
    rw [UInt64.toNat_ofNat_of_lt' (show i * 8 < 2 ^ 64 by omega)]
    omega
  rw [← UInt8.toNat_inj, UInt64.toNat_toUInt8, UInt64.toNat_shiftRight, hshift,
    Nat.shiftRight_eq_div_pow, Nat.mul_comm, pow_mul, UInt8.toNat_ofNat']
  rfl

/-- What is written where there is room. -/
theorem scalarWriteI64_code (t : IntegerType) (v : Int64) {cap : Nat} (h : t.width ≤ cap) :
    scalarWriteI64 t.code v cap = some (t.order (placeBytes t.width v.toUInt64.toNat)) := by
  have hwidth : t.width ≤ 8 := t.width_cases.elim (fun h => h.le) (fun h => by omega)
  have hlittle : (List.range t.width).map (fun i =>
      (v.toUInt64 >>> UInt64.ofNat (i * 8)).toUInt8) = placeBytes t.width v.toUInt64.toNat := by
    refine List.map_congr_left fun i hi => toUInt8_shiftRight _ ?_
    exact (List.mem_range.mp hi).trans_le hwidth
  simp only [scalarWriteI64, scalarWidth_code, scalarIsInteger_code, scalarIsBigEndian_code]
  rw [if_neg (by have := t.width_pos; simp; omega), order]
  cases t.bigEndian with
  | false => exact congrArg some hlittle
  | true =>
    have hreverse : (List.range t.width).reverse =
        (List.range t.width).map fun i => t.width - 1 - i := by
      rw [List.range_eq_range', List.reverse_range', ← List.range_eq_range', Nat.zero_add]
    rw [if_pos rfl, ← hlittle, ← List.map_reverse, hreverse, List.map_map]
    rfl

/-- What does not fit is not written. -/
theorem scalarWriteI64_short (t : IntegerType) (v : Int64) {cap : Nat} (h : cap < t.width) :
    scalarWriteI64 t.code v cap = none := by
  simp only [scalarWriteI64, scalarWidth_code, h, or_true, if_true]

/-! ## There and back -/

/-- A value truncated to the width of a type, and extended as the type is signed or not; of the
unsigned type of full width the largest value there is stands for every negative one. -/
def wrapped (t : IntegerType) (v : Int64) : Int64 :=
  if t.signed then .ofInt (Int.bmod v.toInt (256 ^ t.width))
  else if t.width = 8 then if v < 0 then Int64.maxValue else v
  else .ofInt (v.toInt % 256 ^ t.width)

/-- The values of a type. -/
def InRange (t : IntegerType) (v : Int64) : Prop :=
  if t.signed then -(256 ^ t.width) ≤ 2 * v.toInt ∧ 2 * v.toInt < 256 ^ t.width
  else 0 ≤ v.toInt ∧ v.toInt < 256 ^ t.width

/-- The modulus of a type divides that of 64 bits. -/
theorem pow_width_dvd (t : IntegerType) : (256 : Int) ^ t.width ∣ 2 ^ 64 := by
  cases t <;> decide

/-- Nothing but a word's remainder counts in a width. -/
theorem emod_pow_width (t : IntegerType) (x : Int) :
    x % 2 ^ 64 % 256 ^ t.width = x % 256 ^ t.width := Int.emod_emod_of_dvd x t.pow_width_dvd

/-- It is the same number as an integer. -/
theorem natCast_pow_width (t : IntegerType) :
    ((256 ^ t.width : Nat) : Int) = 256 ^ t.width := Int.natCast_pow ..

/-- Below the full width there is room for every unsigned value. -/
theorem pow_width_lt {t : IntegerType} (h : t.width ≤ 4) : (256 : Int) ^ t.width ≤ 2 ^ 32 := by
  rw [← natCast_pow_width]
  exact Int.ofNat_le.mpr (Nat.pow_le_pow_right (by decide) h)

/-- What is written of a value is read as what it is truncated and extended to. -/
theorem ofInt_value_toUInt64 (t : IntegerType) (v : Int64) :
    .ofInt (t.value (v.toUInt64.toNat % 256 ^ t.width)) = t.wrapped v := by
  have hword : ((v.toUInt64.toNat % 256 ^ t.width : Nat) : Int) = v.toInt % 256 ^ t.width := by
    rw [Int.natCast_emod, toNat_toUInt64, Int.natCast_pow]
    exact t.emod_pow_width v.toInt
  rw [value, wrapped]
  by_cases hsigned : t.signed = true
  · rw [if_pos hsigned, if_pos hsigned, hword, ← natCast_pow_width, Int.emod_bmod]
  · rw [if_neg hsigned, if_neg hsigned]
    rcases t.width_cases with height | hfour
    · have hlow := v.le_toInt
      have hhigh := v.toInt_lt
      rw [height] at hword ⊢
      rw [if_pos rfl, hword]
      by_cases hneg : v < 0
      · have hnegative : v.toInt < 0 := Int64.lt_iff_toInt_lt.mp hneg
        rw [if_pos hneg, min_eq_right (by omega)]
        rfl
      · have hnonneg : 0 ≤ v.toInt := Int.not_lt.mp fun h => hneg (Int64.lt_iff_toInt_lt.mpr h)
        rw [if_neg hneg, min_eq_left (by omega), Int.emod_eq_of_lt hnonneg (by omega),
          Int64.ofInt_toInt]
    · have hpos : (0 : Int) < 256 ^ t.width := Int.pow_pos (by decide)
      have hlt := Int.emod_lt_of_pos v.toInt hpos
      have hroom := pow_width_lt hfour
      rw [if_neg (by omega), hword, min_eq_left (by omega)]

/-- A value of the type is neither truncated nor extended. -/
theorem wrapped_of_inRange {t : IntegerType} {v : Int64} (h : t.InRange v) : t.wrapped v = v := by
  rw [InRange] at h
  rw [wrapped]
  by_cases hsigned : t.signed = true
  · rw [if_pos hsigned] at h ⊢
    rw [Int.bmod_eq_of_le_mul_two (by rw [natCast_pow_width]; omega)
      (by rw [natCast_pow_width]; omega), Int64.ofInt_toInt]
  · rw [if_neg hsigned] at h ⊢
    split
    · rw [if_neg fun hneg => Int.not_lt.mpr h.1 (Int64.lt_iff_toInt_lt.mp hneg)]
    · rw [Int.emod_eq_of_lt h.1 h.2, Int64.ofInt_toInt]

/-- Bytes are written back unless the largest value stands for them. -/
theorem placeBytes_ofInt_value (t : IntegerType) {n : Nat} (h : n < 256 ^ t.width) :
    placeBytes t.width (Int64.ofInt (t.value n)).toUInt64.toNat = placeBytes t.width n ↔
      (t.signed = true ∨ n < 2 ^ 63) := by
  have hword : (((Int64.ofInt (t.value n)).toUInt64.toNat % 256 ^ t.width : Nat) : Int) =
      t.value n % 256 ^ t.width := by
    rw [Int.natCast_emod, toNat_toUInt64_ofInt, Int.natCast_pow]
    exact t.emod_pow_width _
  rw [placeBytes_eq_iff, Nat.mod_eq_of_lt h, ← Int.natCast_inj, hword, value]
  have hn : (n : Int) < 256 ^ t.width := t.natCast_pow_width ▸ Int.ofNat_lt.mpr h
  by_cases hsigned : t.signed = true
  · rw [if_pos hsigned, ← natCast_pow_width, Int.bmod_emod, natCast_pow_width,
      Int.emod_eq_of_lt (Int.natCast_nonneg n) hn]
    simp only [hsigned, true_or]
  · rw [if_neg hsigned]
    simp only [hsigned, Bool.false_eq_true, false_or]
    rcases t.width_cases with height | hfour
    · rw [height] at hn ⊢
      omega
    · have hroom := pow_width_lt hfour
      rw [min_eq_left (by omega), Int.emod_eq_of_lt (Int.natCast_nonneg n) hn]
      simp only [true_iff]
      omega

/-- What is written is as long as the type is wide, and there is room for it. -/
theorem length_of_scalarWriteI64 {t : IntegerType} {v : Int64} {cap : Nat} {bytes : List UInt8}
    (h : scalarWriteI64 t.code v cap = some bytes) : t.width ≤ cap ∧ bytes.length = t.width := by
  have hcap : t.width ≤ cap := by
    by_contra hshort
    rw [scalarWriteI64_short t v (Nat.not_le.mp hshort)] at h
    exact nomatch h
  rw [scalarWriteI64_code t v hcap] at h
  obtain rfl := Option.some.inj h
  exact ⟨hcap, by rw [length_order, length_placeBytes]⟩

/-- What was written is read, whatever stands behind it. -/
theorem scalarReadI64_of_write {t : IntegerType} {v : Int64} {cap : Nat} {bytes : List UInt8}
    (h : scalarWriteI64 t.code v cap = some bytes) (rest : List UInt8) :
    scalarReadI64 t.code (bytes ++ rest) = some (t.wrapped v) := by
  obtain ⟨hcap, hlength⟩ := length_of_scalarWriteI64 h
  have htake : (bytes ++ rest).take t.width = bytes := by
    rw [← hlength, List.take_left]
  rw [scalarWriteI64_code t v hcap] at h
  rw [← scalarReadI64_take, htake, scalarReadI64_code t hlength.ge, ← hlength, List.take_length,
    ← Option.some.inj h, order_order, placeValue_placeBytes, ofInt_value_toUInt64]

/-- What was read is written back, but for what the largest value stands for. -/
theorem scalarWriteI64_of_read {t : IntegerType} {bytes : List UInt8} {v : Int64}
    (h : scalarReadI64 t.code bytes = some v) {cap : Nat} (hcap : t.width ≤ cap) :
    scalarWriteI64 t.code v cap = some (bytes.take t.width) ↔
      (t.signed = true ∨ placeValue (t.order (bytes.take t.width)) < 2 ^ 63) := by
  have hlong : t.width ≤ bytes.length := by
    by_contra hshort
    rw [scalarReadI64_short t (Nat.not_le.mp hshort)] at h
    exact nomatch h
  rw [scalarReadI64_code t hlong] at h
  obtain rfl := Option.some.inj h
  have hfield : (t.order (bytes.take t.width)).length = t.width := by
    rw [length_order, List.length_take, Nat.min_eq_left hlong]
  generalize hplaces : t.order (bytes.take t.width) = places at hfield ⊢
  have hback : bytes.take t.width = t.order places := by
    rw [← hplaces, order_order]
  have hlt : placeValue places < 256 ^ t.width := hfield ▸ placeValue_lt places
  have hplace : placeBytes t.width (placeValue places) = places := by
    rw [← hfield, placeBytes_placeValue]
  rw [scalarWriteI64_code t _ hcap, ← placeBytes_ofInt_value t hlt, hback, hplace, Option.some_inj]
  constructor
  · intro heq
    rw [← order_order t (placeBytes _ _), heq, order_order]
  · exact congrArg t.order

/-- **The codec of the integer types.** A value is written exactly where there is room for its
width, and takes up its width; read again, whatever follows it, it is the value where that is in
the range of the type, and otherwise truncated to the width and extended. What is read of any
bytes is written back as these bytes, but for the unsigned numbers from `2 ^ 63` on, and bytes
behind the width are not read. -/
theorem codec_law (t : IntegerType) :
    (∀ v cap, (∃ bytes, scalarWriteI64 t.code v cap = some bytes) ↔ t.width ≤ cap) ∧
    (∀ v cap bytes, scalarWriteI64 t.code v cap = some bytes → bytes.length = t.width ∧
      (∀ rest, scalarReadI64 t.code (bytes ++ rest) = some (t.wrapped v)) ∧
      (t.InRange v → t.wrapped v = v)) ∧
    (∀ bytes v cap, scalarReadI64 t.code bytes = some v → t.width ≤ cap →
      (scalarWriteI64 t.code v cap = some (bytes.take t.width) ↔
        (t.signed = true ∨ placeValue (t.order (bytes.take t.width)) < 2 ^ 63))) ∧
    ∀ bytes, scalarReadI64 t.code (bytes.take t.width) = scalarReadI64 t.code bytes := by
  refine ⟨fun v cap => ⟨?_, fun hcap => ⟨_, scalarWriteI64_code t v hcap⟩⟩, ?_, ?_, ?_⟩
  · rintro ⟨bytes, h⟩
    exact (length_of_scalarWriteI64 h).1
  · intro v cap bytes h
    exact ⟨(length_of_scalarWriteI64 h).2, scalarReadI64_of_write h, wrapped_of_inRange⟩
  · intro bytes v cap h hcap
    exact scalarWriteI64_of_read h hcap
  · exact scalarReadI64_take t

end IntegerType

end DevBench.Eap
