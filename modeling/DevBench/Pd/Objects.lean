import DevBench.Core.BitField
import Mathlib.Data.List.Pairwise

/-!
# Power Data Objects and Request Data Objects

The words a Source offers in and a Sink asks with. Where their bit-fields lie is the USB-C
stack's business (`usbc_pd.h`); the bench reads and writes them by name and relies on no more
than that fields used together do not overlap and that a Request has room for what a Source
can offer.
-/

namespace DevBench.Pd

open DevBench.Core

/-- A Power Data Object or Request Data Object. -/
abbrev Word := BitVec 32

/-- `PDO_MAX_DATA_OBJECTS` -/
abbrev pdoMaxDataObjects : Nat := 7

/-! ## The stack's layout -/

/-- `union pd_fixed_supply_pdo_source`, `union pd_augmented_supply_pdo_source` and
`union pd_rdo`, as far as the bench uses them. -/
structure Layout where
  type : BitField 32
  pdoFixed : Nat
  pdoAugmented : Nat
  maxCurrent : BitField 32
  voltage : BitField 32
  /-- `PDO_FIXED_DATA_SWAP` -/
  dualRoleData : BitField 32
  apdoType : BitField 32
  apdoTypePps : Nat
  augMaxCurrent : BitField 32
  augMinVoltage : BitField 32
  augMaxVoltage : BitField 32
  objectPos : BitField 32
  operatingCurrent : BitField 32
  minOrMaxOperatingCurrent : BitField 32
  noUsbSuspend : BitField 32
  augOperatingCurrent : BitField 32
  augOutputVoltage : BitField 32
  augNoUsbSuspend : BitField 32
  types_ne : pdoFixed ≠ pdoAugmented
  fixedPdo : [type, maxCurrent, voltage, dualRoleData].Pairwise BitField.Disjoint
  fixedRdo : [objectPos, operatingCurrent, minOrMaxOperatingCurrent, noUsbSuspend].Pairwise
    BitField.Disjoint
  augRdo : [objectPos, augOperatingCurrent, augOutputVoltage, augNoUsbSuspend].Pairwise
    BitField.Disjoint
  objectPos_room : pdoMaxDataObjects < 2 ^ objectPos.width
  operating_room : maxCurrent.width ≤ operatingCurrent.width
  minOrMax_room : maxCurrent.width ≤ minOrMaxOperatingCurrent.width
  augOperating_room : augMaxCurrent.width ≤ augOperatingCurrent.width
  /-- An APDO counts 100 mV and a Request 20 mV. -/
  augVoltage_room : 5 * 2 ^ augMaxVoltage.width ≤ 2 ^ augOutputVoltage.width

/-- The layout of USB Power Delivery. -/
def usbPd : Layout where
  type := ⟨30, 2, by decide⟩
  pdoFixed := 0
  pdoAugmented := 3
  maxCurrent := ⟨0, 10, by decide⟩
  voltage := ⟨10, 10, by decide⟩
  dualRoleData := ⟨25, 1, by decide⟩
  apdoType := ⟨28, 2, by decide⟩
  apdoTypePps := 0
  augMaxCurrent := ⟨0, 7, by decide⟩
  augMinVoltage := ⟨8, 8, by decide⟩
  augMaxVoltage := ⟨17, 8, by decide⟩
  objectPos := ⟨28, 3, by decide⟩
  operatingCurrent := ⟨10, 10, by decide⟩
  minOrMaxOperatingCurrent := ⟨0, 10, by decide⟩
  noUsbSuspend := ⟨24, 1, by decide⟩
  augOperatingCurrent := ⟨0, 7, by decide⟩
  augOutputVoltage := ⟨9, 11, by decide⟩
  augNoUsbSuspend := ⟨24, 1, by decide⟩
  types_ne := by decide
  fixedPdo := by decide
  fixedRdo := by decide
  augRdo := by decide
  objectPos_room := by decide
  operating_room := by decide
  minOrMax_room := by decide
  augOperating_room := by decide
  augVoltage_room := by decide

/-! ## Reading and building objects -/

/-- What a 5 V Request asks for when nothing better is valid. -/
abbrev safeMa : Nat := 500

/-- What a cable without an e-marker carries. -/
abbrev cableMa : Nat := 3000

namespace Layout

variable (z : Layout)

/-- `pdo_is_fixed`. -/
def pdoIsFixed (pdo : Word) : Bool := z.type.get pdo == z.pdoFixed

/-- `pdo_is_pps`. -/
def pdoIsPps (pdo : Word) : Bool :=
  z.type.get pdo == z.pdoAugmented && z.apdoType.get pdo == z.apdoTypePps

/-- `fixed_mv`: 50 mV a unit. -/
def fixedMv (pdo : Word) : Nat := z.voltage.get pdo * 50

/-- `fixed_ma`: 10 mA a unit. -/
def fixedMa (pdo : Word) : Nat := z.maxCurrent.get pdo * 10

/-- The `min_voltage` of an APDO, 100 mV a unit. -/
def augMinMv (pdo : Word) : Nat := z.augMinVoltage.get pdo * 100

/-- The `max_voltage` of an APDO, 100 mV a unit. -/
def augMaxMv (pdo : Word) : Nat := z.augMaxVoltage.get pdo * 100

/-- The `max_current` of an APDO, 50 mA a unit. -/
def augMaxMa (pdo : Word) : Nat := z.augMaxCurrent.get pdo * 50

/-- `rdo_fixed`. -/
def rdoFixed (pos ma : Nat) : Word :=
  let rdo := z.objectPos.put 0 pos
  let rdo := z.operatingCurrent.put rdo (ma / 10)
  let rdo := z.minOrMaxOperatingCurrent.put rdo (ma / 10)
  z.noUsbSuspend.put rdo 1

/-- `rdo_pps`. -/
def rdoPps (pos mv ma : Nat) : Word :=
  let rdo := z.objectPos.put 0 pos
  let rdo := z.augOutputVoltage.put rdo (mv / 20)
  let rdo := z.augOperatingCurrent.put rdo (ma / 50)
  z.augNoUsbSuspend.put rdo 1

/-- `rdo_pos`. -/
def rdoPos (rdo : Word) : Nat := z.objectPos.get rdo

/-- A PDO of the devicetree at another current: `PDO_FIXED_CURR` in place of its own. -/
def withCurrent (pdo : Word) (ma : Nat) : Word := z.maxCurrent.put pdo (ma / 10)

/-! ## What is written is read back -/

variable {z}

section

variable (pos mv ma : Nat)

/-- The position, as far as its field holds it. -/
theorem rdoPos_rdoFixed : z.rdoPos (z.rdoFixed pos ma) = pos % 2 ^ z.objectPos.width := by
  obtain ⟨hoperating, hmax, hsuspend, -⟩ := BitField.disjoint_four z.fixedRdo
  rw [rdoPos, rdoFixed, BitField.get_put_of_disjoint hsuspend.symm,
    BitField.get_put_of_disjoint hmax.symm, BitField.get_put_of_disjoint hoperating.symm,
    BitField.get_put]

/-- The operating current, as far as its field holds it. -/
theorem operatingCurrent_rdoFixed :
    z.operatingCurrent.get (z.rdoFixed pos ma) = ma / 10 % 2 ^ z.operatingCurrent.width := by
  obtain ⟨-, -, -, hmax, hsuspend, -⟩ := BitField.disjoint_four z.fixedRdo
  rw [rdoFixed, BitField.get_put_of_disjoint hsuspend.symm,
    BitField.get_put_of_disjoint hmax.symm, BitField.get_put]

/-- The maximum operating current is the operating one. -/
theorem minOrMaxOperatingCurrent_rdoFixed :
    z.minOrMaxOperatingCurrent.get (z.rdoFixed pos ma) =
      ma / 10 % 2 ^ z.minOrMaxOperatingCurrent.width := by
  obtain ⟨-, -, -, -, -, hsuspend⟩ := BitField.disjoint_four z.fixedRdo
  rw [rdoFixed, BitField.get_put_of_disjoint hsuspend.symm, BitField.get_put]

/-- The position, as far as its field holds it. -/
theorem rdoPos_rdoPps : z.rdoPos (z.rdoPps pos mv ma) = pos % 2 ^ z.objectPos.width := by
  obtain ⟨hoperating, hvoltage, hsuspend, -⟩ := BitField.disjoint_four z.augRdo
  rw [rdoPos, rdoPps, BitField.get_put_of_disjoint hsuspend.symm,
    BitField.get_put_of_disjoint hoperating.symm, BitField.get_put_of_disjoint hvoltage.symm,
    BitField.get_put]

/-- The voltage in units of 20 mV, as far as its field holds it. -/
theorem augOutputVoltage_rdoPps :
    z.augOutputVoltage.get (z.rdoPps pos mv ma) = mv / 20 % 2 ^ z.augOutputVoltage.width := by
  obtain ⟨-, -, -, hoperating, -, hsuspend⟩ := BitField.disjoint_four z.augRdo
  rw [rdoPps, BitField.get_put_of_disjoint hsuspend.symm,
    BitField.get_put_of_disjoint hoperating, BitField.get_put]

/-- The current in units of 50 mA, as far as its field holds it. -/
theorem augOperatingCurrent_rdoPps :
    z.augOperatingCurrent.get (z.rdoPps pos mv ma) =
      ma / 50 % 2 ^ z.augOperatingCurrent.width := by
  obtain ⟨-, -, -, -, hsuspend, -⟩ := BitField.disjoint_four z.augRdo
  rw [rdoPps, BitField.get_put_of_disjoint hsuspend.symm, BitField.get_put]

end

/-! ## Changing a fixed PDO -/

section

variable (pdo : Word)

/-- The type alone decides. -/
theorem pdoIsFixed_congr {pdo pdo' : Word} (h : z.type.get pdo = z.type.get pdo') :
    z.pdoIsFixed pdo = z.pdoIsFixed pdo' := by
  rw [pdoIsFixed, pdoIsFixed, h]

/-- A PDO is of one type. -/
theorem not_pdoIsPps {pdo : Word} (h : z.pdoIsFixed pdo = true) : z.pdoIsPps pdo = false := by
  rw [pdoIsFixed, beq_iff_eq] at h
  rw [pdoIsPps, h, beq_false_of_ne z.types_ne, Bool.false_and]

/-- Another current does not change the type. -/
theorem pdoIsFixed_withCurrent (ma : Nat) :
    z.pdoIsFixed (z.withCurrent pdo ma) = z.pdoIsFixed pdo := by
  obtain ⟨hcurrent, -⟩ := BitField.disjoint_four z.fixedPdo
  exact pdoIsFixed_congr (BitField.get_put_of_disjoint hcurrent.symm _ _)

/-- Another current does not change the voltage. -/
theorem fixedMv_withCurrent (ma : Nat) : z.fixedMv (z.withCurrent pdo ma) = z.fixedMv pdo := by
  obtain ⟨-, -, -, hvoltage, -⟩ := BitField.disjoint_four z.fixedPdo
  rw [fixedMv, withCurrent, BitField.get_put_of_disjoint hvoltage, fixedMv]

/-- The current is rounded down to what a PDO counts in. -/
theorem fixedMa_withCurrent_le (ma : Nat) : z.fixedMa (z.withCurrent pdo ma) ≤ ma := by
  rw [fixedMa, withCurrent, BitField.get_put]
  have hcut := Nat.mod_le (ma / 10) (2 ^ z.maxCurrent.width)
  omega

end

end Layout

end DevBench.Pd
