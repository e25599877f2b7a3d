import DevBench.Wire.RoundTrip
import Mathlib.Algebra.Order.BigOperators.Group.List

/-!
# Encoded sizes

How many bytes the grammar spends on each element of a study or of a result, as a
formula in the lengths and the values of its fields, and the most it can spend on one.
-/

namespace DevBench.Wire

open DevBench.Core DevBench.Core.Leb128 DevBench.Eap

/-! ## Scalars and containers -/

/-- The bytes of a varint; the writer stops after its tenth. -/
def varintSize (value : Nat) : Nat := min (groups value) 10

/-- A length prefix and as many bytes. -/
def stringSize (length : Nat) : Nat := varintSize length + length

/-- A byte, and what follows it. -/
def optionSize {α : Type} (size : α → Nat) : Option α → Nat
  | none => 1
  | some a => 1 + size a

/-- The loop writes a byte for each group, up to its last round. -/
theorem length_pcWriteVarintLoop_eq (rounds value : Nat) :
    (pcWriteVarintLoop rounds value).length = min (groups value) (rounds + 1) := by
  induction rounds generalizing value with
  | zero =>
    have hone : 0 + 1 ≤ groups value := Nat.le_add_left 1 _
    rw [pcWriteVarintLoop, Nat.min_eq_right hone]
    rfl
  | succ rounds ih =>
    rw [pcWriteVarintLoop]
    split
    · next h =>
      rw [List.length_cons, ih, Nat.shiftRight_eq_div_pow, groups_of_le h, Nat.add_min_add_right]
    · next h =>
      rw [groups_of_lt (Nat.not_le.mp h), Nat.min_eq_left (Nat.le_add_left 1 _)]
      rfl

/-- So a number takes as many bytes as it has groups. -/
@[simp] theorem length_varint (value : Nat) : (pcWriteVarint value).length = varintSize value :=
  length_pcWriteVarintLoop_eq 9 value

/-- A string takes its length and itself. -/
@[simp] theorem length_pcWriteBytes (bytes : List UInt8) :
    (pcWriteBytes bytes).length = stringSize bytes.length := by
  rw [pcWriteBytes, List.length_append, length_varint, stringSize]

/-- A value that may be missing. -/
theorem length_optionBytes {α : Type} {enc : α → List UInt8} {size : α → Nat}
    (h : ∀ a, (enc a).length = size a) (o : Option α) :
    (optionBytes enc o).length = optionSize size o := by
  cases o with
  | none => rfl
  | some a => rw [optionBytes, List.length_cons, h, optionSize, Nat.add_comm]

/-- A number below 128 takes one byte. -/
theorem varintSize_of_lt {value : Nat} (h : value < 128) : varintSize value = 1 := by
  rw [varintSize, groups_of_lt h]
  rfl

/-- A number of so many groups takes no more bytes. -/
theorem varintSize_le {value k : Nat} (hk : k ≠ 0) (h : value < 128 ^ k) : varintSize value ≤ k :=
  (Nat.min_le_left _ _).trans (groups_le hk h)

/-- No number takes more than ten bytes. -/
theorem varintSize_le_ten (value : Nat) : varintSize value ≤ 10 := Nat.min_le_right _ _

/-- One of eight bits takes two. -/
theorem varintSize_uint8 (v : UInt8) : varintSize v.toNat ≤ 2 :=
  varintSize_le (by decide) (v.toNat_lt.trans_le (by decide))

/-- One of sixteen bits takes three. -/
theorem varintSize_uint16 (v : UInt16) : varintSize v.toNat ≤ 3 :=
  varintSize_le (by decide) (v.toNat_lt.trans_le (by decide))

/-- One of thirty-two bits takes five. -/
theorem varintSize_uint32 (v : UInt32) : varintSize v.toNat ≤ 5 :=
  varintSize_le (by decide) (v.toNat_lt.trans_le (by decide))

/-- A string shorter than a kilobyte spends at most two bytes on its length. -/
theorem stringSize_le {length bound : Nat} (h : length ≤ bound) (hbound : bound < 1024) :
    stringSize length ≤ 2 + bound := by
  have hprefix : varintSize length ≤ 2 := varintSize_le (by decide) (by omega)
  rw [stringSize]
  omega

/-- A short string takes one byte more than itself. -/
theorem stringSize_of_lt {length : Nat} (h : length < 128) : stringSize length = 1 + length := by
  rw [stringSize, varintSize_of_lt h]

/-- A sequence takes its count and the sum of its elements. -/
theorem length_seqBytes {α : Type} (enc : α → List UInt8) (xs : List α) :
    (seqBytes enc xs).length = varintSize xs.length + (xs.map fun x => (enc x).length).sum := by
  rw [seqBytes, List.length_append, length_varint, List.length_flatMap]

/-- A value that may be missing takes at most one byte more than it may. -/
theorem optionSize_le {α : Type} {size : α → Nat} {bound : Nat} (o : Option α)
    (h : ∀ a ∈ o, size a ≤ bound) : optionSize size o ≤ 1 + bound := by
  cases o with
  | none => exact Nat.le_add_right 1 bound
  | some a => exact Nat.add_le_add_left (h a rfl) 1

/-- A counted sequence takes no more than its count, its elements being bounded. -/
theorem length_seqBytes_le {α : Type} {enc : α → List UInt8} {capacity bound : Nat}
    (xs : Slots α capacity) (hcap : capacity < 128) (h : ∀ x, (enc x).length ≤ bound) :
    (seqBytes enc xs.items).length ≤ 1 + capacity * bound := by
  have hsum : (xs.items.map fun x => (enc x).length).sum ≤ capacity * bound :=
    calc (xs.items.map fun x => (enc x).length).sum
        ≤ (xs.items.map fun x => (enc x).length).length • bound :=
          List.sum_le_card_nsmul _ _ (by simpa using fun x _ => h x)
      _ = xs.items.length * bound := by rw [List.length_map, Nat.nsmul_eq_mul]
      _ ≤ capacity * bound := Nat.mul_le_mul_right bound xs.fits
  rw [length_seqBytes, varintSize_of_lt (Nat.lt_of_le_of_lt xs.fits hcap)]
  exact Nat.add_le_add_left hsum 1

/-! ## Steps -/

/-- What an operation takes, by what it carries. -/
def GattOperation.size : GattOperation → Nat
  | read | subscribe | streamCapture => 1
  | write payload => 1 + stringSize payload.items.length
  | notify timeoutMs | indicate timeoutMs => 1 + varintSize timeoutMs.toNat

/-- The fields of an action, an advertise action with this many service UUIDs. -/
def Action.size (serviceUuids : Nat) : Action → Nat
  | bleAdvertise localName advIntervalMs =>
    optionSize (fun s => stringSize s.bytes.length) localName +
      (varintSize serviceUuids + serviceUuids * 16 + varintSize advIntervalMs.toNat)
  | bleConnect role target targetName =>
    varintSize role.toNat + (optionSize (fun t => 6 + varintSize t.kind.toNat) target +
      optionSize (fun s => stringSize s.bytes.length) targetName)
  | dataExchange _ _ operation => 32 + operation.size
  | bleSecurity level => varintSize level.toNat
  | gattMonitorSelected targets | gattMonitorSelectedStart targets =>
    1 + targets.items.length * 32
  | runProtocol _ _ => 2
  | gattDiscover | gattMonitorAll | gattMonitorStart | gattMonitorStop | bleUnbond => 0

/-- A step: its name, its tag, its fields, two times and a flag. -/
def StepDecl.size (d : StepDecl) : Nat :=
  1 + d.step.name.bytes.length + 1 + d.step.action.size d.serviceUuids.length +
    varintSize d.step.timeoutMs.toNat + 1 + varintSize d.step.delayBeforeMs.toNat

/-- That is what is written. -/
theorem length_operation (o : GattOperation) : o.bytes.length = o.size := by
  cases o with
  | write payload =>
    rw [GattOperation.bytes, List.length_append, length_pcWriteBytes]
    rfl
  | notify timeoutMs =>
    rw [GattOperation.bytes, List.length_append, length_varint timeoutMs.toNat]
    rfl
  | indicate timeoutMs =>
    rw [GattOperation.bytes, List.length_append, length_varint timeoutMs.toNat]
    rfl
  | read => rfl
  | subscribe => rfl
  | streamCapture => rfl

/-- A target is two UUIDs. -/
theorem length_targets (ts : Slots GattTarget dbmMaxMonitorTargets) :
    (seqBytes GattTarget.bytes ts.items).length = 1 + ts.items.length * 32 := by
  have hlt : ts.items.length < 128 := Nat.lt_of_le_of_lt ts.fits (by decide)
  rw [seqBytes, List.length_append, length_varint, varintSize_of_lt hlt,
    length_flatMap_of_forall (n := 32) ts.items fun t => by simp [GattTarget.bytes]]

/-- One case for each of the twelve actions. -/
theorem length_fields (uuids : List Uuid) (a : Action) :
    (a.fields uuids).length = a.size uuids.length := by
  have hname : ∀ s : Option (CharArray (dbmMaxLocalNameLen + 1)),
      (optionBytes (fun s => pcWriteBytes s.bytes) s).length =
        optionSize (fun s => stringSize s.bytes.length) s :=
    length_optionBytes fun s => length_pcWriteBytes s.bytes
  cases a with
  | bleAdvertise localName advIntervalMs =>
    have huuids : (seqBytes Vector.toList uuids).length =
        varintSize uuids.length + uuids.length * 16 := by
      rw [seqBytes, List.length_append, length_varint,
        length_flatMap_of_forall uuids fun u => u.length_toList]
    rw [Action.fields, List.length_append, List.length_append, hname, huuids, length_varint]
    rfl
  | bleConnect role target targetName =>
    have htarget : (optionBytes TargetAddress.bytes target).length =
        optionSize (fun t => 6 + varintSize t.kind.toNat) target :=
      length_optionBytes (fun t => by
        rw [TargetAddress.bytes, List.length_append, t.address.length_toList, length_varint]) target
    rw [Action.fields, List.length_append, List.length_append, hname, htarget, length_varint]
    rfl
  | dataExchange service characteristic operation =>
    rw [Action.fields, List.length_append, List.length_append, service.length_toList,
      characteristic.length_toList, length_operation]
    rfl
  | bleSecurity level => exact length_varint level.toNat
  | gattMonitorSelected targets => exact length_targets targets
  | gattMonitorSelectedStart targets => exact length_targets targets
  | runProtocol protocol entryState => rfl
  | gattDiscover => rfl
  | gattMonitorAll => rfl
  | gattMonitorStart => rfl
  | gattMonitorStop => rfl
  | bleUnbond => rfl

/-- A step takes what its parts take. -/
theorem length_step (d : StepDecl) : d.bytes.length = d.size := by
  have hname : d.step.name.bytes.length < 128 := d.step.name.fits.trans (by decide)
  have htag : d.step.action.tag < 128 := by cases d.step.action <;> simp [Action.tag]
  rw [StepDecl.bytes, List.length_append, length_pcWriteBytes, stringSize_of_lt hname,
    List.length_append, length_varint, varintSize_of_lt htag, List.length_append, length_fields,
    List.length_append, length_varint, List.length_cons, length_varint, StepDecl.size]
  omega

/-- No action takes more than a write of a full payload. -/
theorem Action.size_le (a : Action) : a.size 0 ≤ 547 := by
  have hname : ∀ s : Option (CharArray (dbmMaxLocalNameLen + 1)),
      optionSize (fun s => stringSize s.bytes.length) s ≤ 1 + 28 := fun s =>
    optionSize_le s fun n _ => stringSize_le (Nat.le_of_lt_succ n.fits) (by decide)
  cases a with
  | bleAdvertise localName advIntervalMs =>
    have hcount : varintSize 0 = 1 := varintSize_of_lt (by decide)
    have hname := hname localName
    have hinterval := varintSize_uint16 advIntervalMs
    simp only [Action.size, hcount]
    omega
  | bleConnect role target targetName =>
    have hrole := varintSize_uint8 role
    have htarget : optionSize (fun t : TargetAddress => 6 + varintSize t.kind.toNat) target ≤
        1 + 8 := optionSize_le target fun t _ => Nat.add_le_add_left (varintSize_uint8 t.kind) 6
    have hname := hname targetName
    simp only [Action.size]
    omega
  | dataExchange service characteristic operation =>
    have hop : operation.size ≤ 515 := by
      cases operation with
      | write payload =>
        have hpayload : stringSize payload.items.length ≤ 2 + 512 :=
          stringSize_le payload.fits (by decide)
        simp only [GattOperation.size]
        omega
      | notify timeoutMs =>
        have htimeout := varintSize_uint32 timeoutMs
        simp only [GattOperation.size]
        omega
      | indicate timeoutMs =>
        have htimeout := varintSize_uint32 timeoutMs
        simp only [GattOperation.size]
        omega
      | read => simp [GattOperation.size]
      | subscribe => simp [GattOperation.size]
      | streamCapture => simp [GattOperation.size]
    simp only [Action.size]
    omega
  | bleSecurity level =>
    have hlevel := varintSize_uint8 level
    simp only [Action.size]
    omega
  | gattMonitorSelected targets =>
    have hfits : targets.items.length ≤ 16 := targets.fits
    simp only [Action.size]
    omega
  | gattMonitorSelectedStart targets =>
    have hfits : targets.items.length ≤ 16 := targets.fits
    simp only [Action.size]
    omega
  | runProtocol protocol entryState => simp [Action.size]
  | gattDiscover => simp [Action.size]
  | gattMonitorAll => simp [Action.size]
  | gattMonitorStart => simp [Action.size]
  | gattMonitorStop => simp [Action.size]
  | bleUnbond => simp [Action.size]

/-- The most a step takes without service UUIDs is a write of a full payload. -/
theorem StepDecl.size_le {d : StepDecl} (h : d.serviceUuids = []) : d.size ≤ 592 := by
  have hname : d.step.name.bytes.length < 33 := d.step.name.fits
  have haction := d.step.action.size_le
  have htimeout := varintSize_uint32 d.step.timeoutMs
  have hdelay := varintSize_uint32 d.step.delayBeforeMs
  rw [StepDecl.size, h, List.length_nil]
  omega

/-! ## Results -/

/-- A bound for the value is one for the option. -/
theorem length_optionBytes_le {α : Type} {enc : α → List UInt8} {bound : Nat} (o : Option α)
    (h : ∀ a ∈ o, (enc a).length ≤ bound) : (optionBytes enc o).length ≤ 1 + bound := by
  rw [length_optionBytes fun a => rfl]
  exact optionSize_le o h

/-- An outcome is longest with a reason that fills its field. -/
theorem length_outcome_le (o : Outcome) : o.bytes.length ≤ 66 := by
  rw [Outcome.bytes, List.length_append, length_varint]
  by_cases h : o.tag = 1
  · have hreason : o.failReason.bytes.length < 65 := o.failReason.fits
    have htag : varintSize (1 : UInt8).toNat = 1 := varintSize_of_lt (by decide)
    rw [if_pos h, h, htag, length_pcWriteBytes, stringSize_of_lt (by omega)]
    omega
  · have htag := varintSize_uint8 o.tag
    rw [if_neg h, List.length_nil]
    omega

/-- A service is longest with all its characteristics. -/
theorem length_service_le (s : ServiceInfo) : s.bytes.length ≤ 289 := by
  have hcharacteristics :
      (seqBytes CharacteristicInfo.bytes s.characteristics.items).length ≤ 1 + 16 * 17 :=
    length_seqBytes_le s.characteristics (by decide) fun c => by simp [CharacteristicInfo.bytes]
  rw [ServiceInfo.bytes, List.length_append, s.uuid.length_toList]
  omega

/-- What a protocol came to is longest with a name and a reason that fill theirs. -/
theorem length_protocolOutcome_le (p : ProtocolOutcome) : p.bytes.length ≤ 91 := by
  have hname : p.finalState.bytes.length < 25 := p.finalState.fits
  have houtcome := length_outcome_le p.outcome
  rw [ProtocolOutcome.bytes, List.length_append, length_pcWriteBytes,
    stringSize_of_lt (by omega)]
  omega

/-- The largest result carries every optional part. -/
theorem length_stepResult_le (r : StepResult) : r.bytes.length ≤ 3028 := by
  have hindex := varintSize_uint32 r.stepIndex
  have hname : r.stepName.bytes.length < 33 := r.stepName.fits
  have houtcome := length_outcome_le r.outcome
  have hcaptured : (optionBytes (fun p => pcWriteBytes p.items) r.capturedData).length ≤
      1 + (2 + 512) := length_optionBytes_le _ fun p _ => by
    rw [length_pcWriteBytes]
    exact stringSize_le p.fits (by decide)
  have hservices : (optionBytes (fun s : Slots ServiceInfo dbmMaxDiscoveredServices =>
      seqBytes ServiceInfo.bytes s.items) r.gattServices).length ≤ 1 + (1 + 8 * 289) :=
    length_optionBytes_le _ fun s _ => length_seqBytes_le s (by decide) length_service_le
  have hlevel : (optionBytes (fun l : UInt8 => pcWriteVarint l.toNat) r.securityLevel).length ≤
      1 + 2 := length_optionBytes_le _ fun l _ => by
    rw [length_varint]
    exact varintSize_uint8 l
  have hprotocol : (optionBytes ProtocolOutcome.bytes r.protocol).length ≤ 1 + 91 :=
    length_optionBytes_le _ fun p _ => length_protocolOutcome_le p
  simp only [StepResult.bytes, List.length_append, length_varint, length_pcWriteBytes]
  rw [stringSize_of_lt (by omega)]
  omega

end DevBench.Wire
