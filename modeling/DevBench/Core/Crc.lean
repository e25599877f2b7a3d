import Mathlib.Data.List.GetD
import Mathlib.Data.List.OfFn
import Mathlib.Logic.Function.Iterate
import Mathlib.Tactic.Common

/-!
# Cyclic redundancy checks

The catalogue's description of a check, a register shifted towards its high end, and
the reflected register most code keeps instead. A reflected register is shifted by a
linear map, injective when the polynomial has its highest bit, so two messages that
differ in no more bits than the register has, next to each other, never share a check.
-/

namespace DevBench.Core.Crc

variable {w : Nat}

/-- A single bit at the low end. -/
def unit (b : Bool) : BitVec w := if b then 1#w else 0#w

/-! ## The reflected register -/

/-- The register shifted once towards its low end. -/
def shift (poly r : BitVec w) : BitVec w := (r >>> 1) ^^^ (if r.getLsbD 0 then poly else 0#w)

/-- The register with message bits brought in at its low end. -/
def feed (poly : BitVec w) (r : BitVec w) (bits : List Bool) : BitVec w :=
  bits.foldl (fun r b => shift poly (r ^^^ unit b)) r

/-- A shift is linear. -/
theorem shift_xor (poly a b : BitVec w) : shift poly (a ^^^ b) = shift poly a ^^^ shift poly b := by
  simp only [shift, BitVec.ushiftRight_xor_distrib, BitVec.getLsbD_xor]
  cases ha : a.getLsbD 0 <;> cases hb : b.getLsbD 0
  · simp
  · simp [BitVec.xor_assoc]
  · simp only [Bool.xor_false, if_true, Bool.false_eq_true, if_false, BitVec.xor_zero]
    rw [BitVec.xor_assoc, BitVec.xor_comm (b >>> 1) poly, ← BitVec.xor_assoc]
  · simp only [bne_self_eq_false, Bool.false_eq_true, if_false, if_true, BitVec.xor_zero]
    have hpoly : poly ^^^ (b >>> 1 ^^^ poly) = b >>> 1 := by
      rw [BitVec.xor_comm (b >>> 1), ← BitVec.xor_assoc, BitVec.xor_self, BitVec.zero_xor]
    rw [BitVec.xor_assoc, hpoly]

/-- A polynomial of full degree lets no register shift to zero. -/
theorem shift_eq_zero {poly r : BitVec w} (hpoly : poly.msb = true) (h : shift poly r = 0#w) :
    r = 0#w := by
  rw [shift] at h
  cases hlow : r.getLsbD 0 with
  | true =>
    have hmsb : (r >>> 1 ^^^ poly).msb = false := by
      rw [hlow, if_pos rfl] at h
      rw [h, BitVec.msb_zero]
    simp [BitVec.msb_xor, BitVec.msb_ushiftRight, hpoly] at hmsb
  | false =>
    rw [hlow, if_neg Bool.false_ne_true, BitVec.xor_zero] at h
    apply BitVec.eq_of_getLsbD_eq
    intro i _
    rw [BitVec.getLsbD_zero]
    cases i with
    | zero => exact hlow
    | succ i =>
      have hbit : (r >>> 1).getLsbD i = false := by rw [h, BitVec.getLsbD_zero]
      rwa [BitVec.getLsbD_ushiftRight, Nat.add_comm] at hbit

/-- With the top bit of the polynomial set a shift loses nothing. -/
theorem shift_injective {poly : BitVec w} (hpoly : poly.msb = true) :
    Function.Injective (shift poly) := by
  intro a b h
  have hzero : shift poly (a ^^^ b) = 0#w := by rw [shift_xor, h, BitVec.xor_self]
  exact BitVec.xor_eq_zero_iff.mp (shift_eq_zero hpoly hzero)

/-- One bit and those behind it. -/
theorem feed_cons (poly r : BitVec w) (b : Bool) (bits : List Bool) :
    feed poly r (b :: bits) = feed poly (shift poly (r ^^^ unit b)) bits := rfl

/-- Two runs of bits in sequence. -/
theorem feed_append (poly r : BitVec w) (xs ys : List Bool) :
    feed poly r (xs ++ ys) = feed poly (feed poly r xs) ys := List.foldl_append

/-- The message bits leave two registers apart. -/
theorem feed_injective {poly : BitVec w} (hpoly : poly.msb = true) (bits : List Bool) :
    Function.Injective fun r => feed poly r bits := by
  induction bits with
  | nil => exact Function.injective_id
  | cons b bits ih =>
    intro r r' h
    exact (BitVec.xor_left_inj _).mp (shift_injective hpoly (ih h))

/-! ## Up to a register's worth of bits -/

/-- The bits packed into a register, the first one lowest. -/
def ofBits : List Bool → BitVec w
  | [] => 0#w
  | b :: bits => (ofBits bits <<< 1) ^^^ unit b

/-- A unit has its bit at place 0. -/
theorem getLsbD_unit (b : Bool) (i : Nat) :
    (unit b : BitVec w).getLsbD i = (decide (0 < w) && decide (i = 0) && b) := by
  cases b <;> simp [unit, BitVec.getLsbD_one]

/-- A word has the bits it is made of, the first at place 0. -/
theorem getLsbD_ofBits (bits : List Bool) (i : Nat) :
    (ofBits bits : BitVec w).getLsbD i = (decide (i < w) && bits.getD i false) := by
  induction bits generalizing i with
  | nil => simp [ofBits]
  | cons b bits ih =>
    rw [ofBits, BitVec.getLsbD_xor, BitVec.getLsbD_shiftLeft, getLsbD_unit, ih]
    cases i with
    | zero => simp
    | succ i =>
      have hsucc : i + 1 < w → i < w := Nat.lt_of_succ_lt
      by_cases hi : i + 1 < w
      · simp [hi, hsucc hi]
      · simp [hi]

/-- Bits that fit the register lose none of it when they make room for one more. -/
theorem shift_ofBits (poly : BitVec w) {bits : List Bool} (h : bits.length < w) :
    shift poly (ofBits bits <<< 1) = ofBits bits := by
  have hlow : (ofBits bits <<< 1 : BitVec w).getLsbD 0 = false := by simp
  rw [shift, hlow, if_neg Bool.false_ne_true, BitVec.xor_zero]
  apply BitVec.eq_of_getLsbD_eq
  intro i hi
  rw [BitVec.getLsbD_ushiftRight, BitVec.getLsbD_shiftLeft, Nat.add_sub_cancel_left]
  by_cases hlast : 1 + i < w
  · simp [hlast]
  · have hend : (ofBits bits : BitVec w).getLsbD i = false := by
      rw [getLsbD_ofBits, List.getD_eq_default _ _ (by omega), Bool.and_false]
    simp [hlast, hend]

/-- No more bits than the register has may as well be brought in all at once. -/
theorem feed_eq (poly : BitVec w) : ∀ (bits : List Bool) (r : BitVec w), bits.length ≤ w →
    feed poly r bits = (shift poly)^[bits.length] (r ^^^ ofBits bits)
  | [], r, _ => by rw [ofBits, BitVec.xor_zero]; rfl
  | b :: bits, r, h => by
    have hshort : bits.length < w := h
    have hshift : shift poly (r ^^^ unit b) ^^^ ofBits bits =
        shift poly (r ^^^ ofBits (b :: bits)) := by
      rw [ofBits, BitVec.xor_comm (ofBits bits <<< 1), ← BitVec.xor_assoc,
        shift_xor _ (r ^^^ unit b), shift_ofBits poly hshort]
    rw [feed_cons, feed_eq poly bits _ (Nat.le_of_lt hshort), hshift, List.length_cons,
      Function.iterate_succ_apply]

/-- Of runs of one length, short enough for a word, no two make the same word. -/
theorem ofBits_inj : ∀ {xs ys : List Bool}, xs.length = ys.length → xs.length ≤ w →
    (ofBits xs : BitVec w) = ofBits ys → xs = ys := by
  intro xs ys hlen hw h
  apply List.ext_getElem hlen
  intro i hx hy
  have hbit : (ofBits xs : BitVec w).getLsbD i = (ofBits ys : BitVec w).getLsbD i := by rw [h]
  have hi : i < w := Nat.lt_of_lt_of_le hx hw
  rwa [getLsbD_ofBits, getLsbD_ofBits, List.getD_eq_getElem _ _ hx, List.getD_eq_getElem _ _ hy,
    decide_eq_true hi, Bool.true_and, Bool.true_and] at hbit

/-- Two messages that differ only within a register's worth of bits leave different
registers. -/
theorem feed_burst {poly : BitVec w} (hpoly : poly.msb = true) {xs ys : List Bool}
    (hlen : xs.length = ys.length) (hw : xs.length ≤ w) (pre post : List Bool) (r : BitVec w)
    (h : feed poly r (pre ++ xs ++ post) = feed poly r (pre ++ ys ++ post)) : xs = ys := by
  rw [feed_append, feed_append, feed_append, feed_append] at h
  have hburst := feed_injective hpoly post h
  rw [feed_eq poly xs _ hw, feed_eq poly ys _ (hlen ▸ hw), hlen] at hburst
  have hsame := (shift_injective hpoly).iterate _ hburst
  exact ofBits_inj hlen hw ((BitVec.xor_right_inj _).mp hsame)

/-! ## The catalogue's description -/

/-- The parameters a check is catalogued by. -/
structure Model (w : Nat) where
  poly : BitVec w
  init : BitVec w
  /-- Each byte of the message enters lowest bit first. -/
  refin : Bool
  /-- The register is reflected before it is given out. -/
  refout : Bool
  xorout : BitVec w

namespace Model

variable (c : Model w)

/-- A message bit meets the register's highest one. -/
def push (r : BitVec w) (b : Bool) : BitVec w :=
  (r <<< 1) ^^^ (if r.msb ^^ b then c.poly else 0#w)

/-- The bits of a byte in the order they enter. -/
def bitsOf (byte : UInt8) : List Bool :=
  if c.refin then List.ofFn fun k : Fin 8 => byte.toBitVec.getLsbD k
  else List.ofFn fun k : Fin 8 => byte.toBitVec.getMsbD k

/-- The check of a message. -/
def crc (message : List UInt8) : BitVec w :=
  let r := (message.flatMap c.bitsOf).foldl c.push c.init
  (if c.refout then r.reverse else r) ^^^ c.xorout

/-- Reflecting the register reflects its shift. -/
theorem reverse_push (r : BitVec w) (b : Bool) :
    (c.push r b).reverse = shift c.poly.reverse (r.reverse ^^^ unit b) := by
  apply BitVec.eq_of_getLsbD_eq
  intro i hi
  have hlow : (r.reverse ^^^ unit b).getLsbD 0 = (r.msb ^^ b) := by
    rw [BitVec.getLsbD_xor, BitVec.getLsbD_reverse, getLsbD_unit, BitVec.msb_eq_getMsbD_zero]
    simp [Nat.zero_lt_of_lt hi]
  rw [BitVec.getLsbD_reverse, push, BitVec.getMsbD_xor, BitVec.getMsbD_shiftLeft, shift, hlow,
    BitVec.getLsbD_xor, BitVec.getLsbD_ushiftRight, BitVec.getLsbD_xor, BitVec.getLsbD_reverse,
    getLsbD_unit]
  cases r.msb ^^ b <;> simp [BitVec.getLsbD_reverse, Nat.add_comm]

/-- The register the other way round is fed the reversed polynomial. -/
theorem reverse_foldl_push (bits : List Bool) (r : BitVec w) :
    (bits.foldl c.push r).reverse = feed c.poly.reverse r.reverse bits := by
  induction bits generalizing r with
  | nil => rfl
  | cons b bits ih => rw [List.foldl_cons, ih, reverse_push, feed_cons]

/-- A reflected check is the reflected register's. -/
theorem crc_eq_feed (hrefout : c.refout = true) (message : List UInt8) :
    c.crc message =
      feed c.poly.reverse c.init.reverse (message.flatMap c.bitsOf) ^^^ c.xorout := by
  rw [crc, hrefout, if_pos rfl, reverse_foldl_push]

end Model

end DevBench.Core.Crc
