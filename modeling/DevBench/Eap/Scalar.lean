import DevBench.Eap.Types

/-!
# Scalars

The two directions of a scalar type (`eap_interp.c`). A type is its discriminant;
those of the four float types are never read or written.
-/

namespace DevBench.Eap

open DevBench.Core

/-- `scalar_width`, 0 for a discriminant that is none. -/
def scalarWidth (ty : UInt8) : Nat :=
  match ty.toNat with
  | 0 | 1 => 1
  | 2 | 3 | 4 | 5 => 2
  | 6 | 7 | 8 | 9 | 14 | 15 => 4
  | 10 | 11 | 12 | 13 | 16 | 17 => 8
  | _ => 0

/-- `scalar_is_big_endian`. -/
def scalarIsBigEndian (ty : UInt8) : Bool :=
  match ty.toNat with
  | 3 | 5 | 7 | 9 | 11 | 13 => true
  | _ => false

/-- `scalar_is_signed`. -/
def scalarIsSigned (ty : UInt8) : Bool :=
  match ty.toNat with
  | 1 | 4 | 5 | 8 | 9 | 12 | 13 => true
  | _ => false

/-- `scalar_is_integer`. -/
def scalarIsInteger (ty : UInt8) : Bool :=
  match ty.toNat with
  | 14 | 15 | 16 | 17 => false
  | n => n ≤ 13

/-- The bytes of a scalar, the most significant one first, gathered into one word. -/
def gatherBytes (bytes : List UInt8) : UInt64 :=
  bytes.foldl (fun v b => (v <<< 8) ||| b.toUInt64) 0

/-- A payload too short to contain the scalar has none. -/
def scalarReadI64 (ty : UInt8) (bytes : List UInt8) : Option Int64 :=
  let w := scalarWidth ty
  if w = 0 ∨ ¬ scalarIsInteger ty ∨ bytes.length < w then none
  else
    let field := bytes.take w
    let v := gatherBytes (if scalarIsBigEndian ty then field else field.reverse)
    if scalarIsSigned ty ∧ w < 8 then
      let signBit : UInt64 := 1 <<< UInt64.ofNat (w * 8 - 1)
      let v := if v &&& signBit ≠ 0 then v ||| ~~~((1 <<< UInt64.ofNat (w * 8)) - 1) else v
      some v.toInt64
    else if ty = 10 ∨ ty = 11 then
      -- Saturated: an expression has no larger value.
      some (if v > Int64.maxValue.toUInt64 then Int64.maxValue else v.toInt64)
    else some v.toInt64

/-- The value truncated to the width of its type, if there is room for it. -/
def scalarWriteI64 (ty : UInt8) (value : Int64) (outCap : Nat) : Option (List UInt8) :=
  let w := scalarWidth ty
  if w = 0 ∨ ¬ scalarIsInteger ty ∨ outCap < w then none
  else some ((List.range w).map fun i =>
    let shift := if scalarIsBigEndian ty then (w - 1 - i) * 8 else i * 8
    (value.toUInt64 >>> UInt64.ofNat shift).toUInt8)

end DevBench.Eap
