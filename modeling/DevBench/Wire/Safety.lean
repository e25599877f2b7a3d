import DevBench.Wire.Decode

/-!
# Memory safety of the decoder

Every reader of the decoder is sound: on any buffer its accesses are safe exactly
when none of its bounds tests wraps around. The readers are walked in source
order, each from the soundness of its parts. The one test whose operand is a
64-bit number off the wire is that of `pc_skip_len_prefixed`, and there the
cursor can be made to run backwards.
-/

namespace DevBench.Wire

open DevBench.Core DevBench.Core.Reader DevBench.Eap

variable {α : Type}

/-! ## Primitives -/

/-- A group is read behind a test for its byte. -/
theorem sound_pcReadVarintLoop :
    ∀ rounds result shift, Sound (pcReadVarintLoop rounds result shift)
  | 0, _, _ => sound_fail
  | rounds + 1, result, shift => by
    refine sound_byte.bind fun byte => ?_
    split
    · exact sound_pure _
    · split
      · exact sound_fail
      · exact sound_pcReadVarintLoop rounds _ _

/-- So ten of them are, at most. -/
theorem sound_pcReadVarint : Sound pcReadVarint := sound_pcReadVarintLoop 10 0 0

/-- A number kept in eight bits is read like any other. -/
theorem sound_readVarint8 : Sound readVarint8 := sound_pcReadVarint.bind fun _ => sound_pure _

/-- The same for sixteen bits. -/
theorem sound_readVarint16 : Sound readVarint16 := sound_pcReadVarint.bind fun _ => sound_pure _

/-- The same for thirty-two bits. -/
theorem sound_readVarint32 : Sound readVarint32 := sound_pcReadVarint.bind fun _ => sound_pure _

/-- The same for sixty-four bits. -/
theorem sound_readVarint64 : Sound readVarint64 := sound_pcReadVarint.bind fun _ => sound_pure _

/-- Bytes copied to an array and stepped over stay inside the block they were tested for. -/
theorem unguarded_copySkip (i : Input) {len capacity : Nat} (h : len ≤ capacity)
    (hcap : capacity < 2 ^ 32) (f : Vector UInt8 len → α) :
    Unguarded i len (copyAhead 0 len 0 capacity >>= fun v => skip len >>= fun _ => pure (f v)) := by
  have hbits : len < 2 ^ i.bits := i.lt_two_pow (Nat.lt_of_le_of_lt h hcap)
  exact unguarded_copy (by omega) (by omega) fun v => (unguarded_skip i hbits).map fun _ => f v

/-- A string is copied behind a test of its length against the array's and against the buffer's. -/
theorem sound_pcReadStr {outCap : Nat} (hcap : outCap < 2 ^ 32) : Sound (pcReadStr outCap) := by
  refine sound_pcReadVarint.bind fun len => ?_
  split
  · next h =>
    refine sound_requireWide (fun i => ?_) (by omega)
    have hbits : len < 2 ^ i.bits := i.lt_two_pow (by omega)
    refine unguarded_copy (by omega) (by omega) fun v => ?_
    have hstore : Unguarded i 0 (record (.store len 1 outCap)) := unguarded_store i h
    exact (hstore.bind fun _ => (unguarded_skip i hbits).map _).of_eq (Nat.zero_add len)
  · exact sound_fail

/-- What is skipped is tested with a product and a sum that may wrap around. -/
theorem sound_pcSkipLenPrefixed (elemSize : Nat) : Sound (pcSkipLenPrefixed elemSize) := by
  refine sound_pcReadVarint.bind fun len i p => SoundFrom.buffer ?_
  have hn : i.mul (i.cast len) elemSize < 2 ^ i.bits := Nat.mod_lt _ (Nat.two_pow_pos _)
  exact soundFrom_require (unguarded_skip i hn) hn

/-- A signed number is an unsigned one, folded. -/
theorem sound_pcReadZigzag : Sound pcReadZigzag :=
  sound_pcReadVarint.bind fun _ => sound_pure _

/-- What follows a byte that is not zero. -/
theorem sound_pcReadOption {m : Reader α} (hm : Sound m) : Sound (pcReadOption m) := by
  refine sound_byte.bind fun present => ?_
  split
  · exact hm.bind fun _ => sound_pure _
  · exact sound_pure _

/-- A count is tested against the array before the elements are read. -/
theorem sound_pcReadSlots {m : Reader α} (hm : Sound m) (capacity : Nat) :
    Sound (pcReadSlots capacity m) := by
  refine sound_pcReadVarint.bind fun len => ?_
  split
  · next h => exact (sound_fill hm (by omega)).bind fun _ => sound_pure _
  · exact sound_fail

/-- A run of bytes whose number is known to be an index. -/
theorem unguarded_take_of_lt (i : Input) {count : Nat} (h : count < 2 ^ 32) :
    Unguarded i count (take count) :=
  unguarded_take i (i.lt_two_pow h)

/-- Two UUIDs are tested for together. -/
theorem sound_pcReadUuidPair : Sound pcReadUuidPair :=
  sound_require (fun i => (unguarded_take_of_lt i (by decide)).bind fun _ =>
    (unguarded_take_of_lt i (by decide)).map _) (by decide)

/-- A payload is a string that may hold any byte. -/
theorem sound_readPayload {capacity : Nat} (hcap : capacity < 2 ^ 32) :
    Sound (readPayload capacity) := by
  refine sound_pcReadVarint.bind fun len => ?_
  split
  · next h => exact sound_requireWide (fun i => unguarded_copySkip i h hcap _) (by omega)
  · exact sound_fail

/-- Two bytes behind one test. -/
theorem sound_requireTwo {f : UInt8 → UInt8 → α} :
    Sound (require 2 >>= fun _ => next >>= fun a => next >>= fun b => pure (f a b)) :=
  sound_require (fun i => (unguarded_next i).bind fun _ => (unguarded_next i).map _) (by decide)

/-! ## Stream taps -/

/-- The source of a stream: what it carries is read or skipped, by its discriminant. -/
theorem sound_readStreamSource : Sound readStreamSource := by
  refine sound_pcReadVarint.bind fun tag => ?_
  split
  · refine sound_require (fun i => ?_) (by decide)
    have hbits : 32 < 2 ^ i.bits := i.lt_two_pow (by decide)
    exact unguarded_copy (by decide) (by decide) fun _ => (unguarded_skip i hbits).map _
  · exact sound_pcReadVarint.bind fun _ => sound_pure _
  · exact sound_pure _
  · exact sound_pure _
  · exact (sound_pcSkipLenPrefixed 1).bind fun _ => sound_pure _
  · exact sound_fail

/-- The encoding is skipped, and it is here that the cursor can be sent back. -/
theorem sound_skipStreamEncoding : Sound skipStreamEncoding := by
  refine sound_pcReadVarint.bind fun tag => ?_
  split
  · exact sound_pure _
  · exact sound_pure _
  · exact sound_pure _
  · exact sound_pure _
  · exact sound_pcReadVarint.bind fun _ => sound_pcReadVarint.bind fun _ =>
      sound_byte.bind fun _ => sound_pure _
  · exact sound_byte.bind fun _ => sound_pure _
  · exact sound_fail

/-- The scope of a tap, a whole study or a range of steps. -/
theorem sound_readStreamScope : Sound readStreamScope := by
  refine sound_pcReadVarint.bind fun tag => ?_
  split
  · exact sound_pure _
  · exact sound_readVarint32.bind fun _ => sound_readVarint32.bind fun _ => sound_pure _
  · exact sound_fail

/-- An id, a name that is skipped, a source, an encoding and a scope. -/
theorem sound_pcReadStreamTap : Sound pcReadStreamTap :=
  sound_byte.bind fun _ => (sound_pcSkipLenPrefixed 1).bind fun _ =>
    sound_readStreamSource.bind fun _ => sound_skipStreamEncoding.bind fun _ =>
      sound_readStreamScope.bind fun _ => sound_pure _

/-! ## Protocol manifests -/

/-- A literal, or the index of what is looked up. -/
theorem sound_pcReadEapOperand : Sound pcReadEapOperand := by
  refine sound_pcReadVarint.bind fun kind => ?_
  split
  · exact sound_pcReadZigzag.bind fun _ => sound_pure _
  · exact sound_byte.bind fun _ => sound_pure _
  · exact sound_byte.bind fun _ => sound_pure _
  · exact sound_byte.bind fun _ => sound_pure _
  · exact sound_fail

/-- One operand, or two. -/
theorem sound_pcReadEapExpr : Sound pcReadEapExpr := by
  refine sound_pcReadVarint.bind fun kind => sound_pcReadEapOperand.bind fun a => ?_
  split
  · exact sound_pure _
  · exact sound_pcReadEapOperand.bind fun _ => sound_pure _
  · exact sound_fail

/-- Two operands around a comparison. -/
theorem sound_pcReadEapCondition : Sound pcReadEapCondition := by
  refine sound_pcReadEapOperand.bind fun lhs => sound_pcReadVarint.bind fun op => ?_
  split
  · exact sound_pcReadEapOperand.bind fun _ => sound_pure _
  · exact sound_fail

/-- A type and an operand. -/
theorem sound_readWriteField : Sound readWriteField :=
  sound_readVarint8.bind fun _ => sound_pcReadEapOperand.bind fun _ => sound_pure _

/-- A source, the fields in order, and whether a response is asked for. -/
theorem sound_pcReadEapWrite : Sound pcReadEapWrite :=
  sound_byte.bind fun _ => (sound_pcReadSlots sound_readWriteField _).bind fun _ =>
    sound_byte.bind fun _ => sound_pure _

/-- A session variable and what it is set to. -/
theorem sound_readRemember : Sound readRemember :=
  sound_byte.bind fun _ => sound_pcReadEapExpr.bind fun _ => sound_pure _

/-- A condition and a target. -/
theorem sound_readGuardedGoto : Sound readGuardedGoto :=
  sound_pcReadEapCondition.bind fun _ => sound_byte.bind fun _ => sound_pure _

/-- A frame with what it makes the machine remember and where it goes. -/
theorem sound_pcReadEapEventArm : Sound pcReadEapEventArm :=
  sound_byte.bind fun _ => (sound_pcReadSlots sound_readRemember _).bind fun _ =>
    (sound_pcReadSlots sound_readGuardedGoto _).bind fun _ =>
      (sound_pcReadOption sound_byte).bind fun _ => sound_pure _

/-- A time, a number of retries and a target. -/
theorem sound_readTimeoutArm : Sound readTimeoutArm :=
  sound_readVarint32.bind fun _ => sound_requireTwo

/-- A name and the kind of state, active or terminal. -/
theorem sound_pcReadEapState : Sound pcReadEapState := by
  refine (sound_pcReadStr (by decide)).bind fun name => sound_pcReadVarint.bind fun kind => ?_
  split
  · refine sound_pcReadVarint.bind fun outcome => ?_
    split
    · exact sound_pure _
    · exact sound_pure _
    · exact sound_fail
  · exact (sound_pcReadOption sound_pcReadEapWrite).bind fun _ =>
      (sound_pcReadSlots sound_pcReadEapEventArm _).bind fun _ =>
        (sound_pcReadOption sound_readTimeoutArm).bind fun _ => sound_pure _
  · exact sound_fail

/-- An offset and the bytes that stand there. -/
theorem sound_readSelect : Sound readSelect :=
  sound_readVarint16.bind fun _ => (sound_readPayload (by decide)).bind fun _ => sound_pure _

/-- A name that is skipped, an offset and a type. -/
theorem sound_readScalarRead : Sound readScalarRead :=
  (sound_pcSkipLenPrefixed 1).bind fun _ => sound_readVarint16.bind fun _ =>
    sound_readVarint8.bind fun _ => sound_pure _

/-- A name that is skipped, an offset and a length that may be missing. -/
theorem sound_readSpanRead : Sound readSpanRead :=
  (sound_pcSkipLenPrefixed 1).bind fun _ => sound_readVarint16.bind fun _ =>
    (sound_pcReadOption sound_readVarint16).bind fun _ => sound_pure _

/-- A name that is skipped, a source, what selects the frame and what is read from it. -/
theorem sound_pcReadEapFrame : Sound pcReadEapFrame :=
  (sound_pcSkipLenPrefixed 1).bind fun _ => sound_byte.bind fun _ =>
    (sound_pcReadOption sound_readSelect).bind fun _ =>
      (sound_pcReadSlots sound_readScalarRead _).bind fun _ =>
        (sound_pcReadSlots sound_readSpanRead _).bind fun _ => sound_pure _

/-- A name that is skipped and two UUIDs. -/
theorem sound_readSource : Sound readSource :=
  (sound_pcSkipLenPrefixed 1).bind fun _ => sound_pcReadUuidPair.bind fun _ => sound_pure _

/-- A name that is skipped and a value. -/
theorem sound_readSessionInitial : Sound readSessionInitial :=
  (sound_pcSkipLenPrefixed 1).bind fun _ => sound_pcReadZigzag

/-- Four arrays, each tested against its capacity. -/
theorem sound_pcReadProtocolDef : Sound pcReadProtocolDef :=
  (sound_pcSkipLenPrefixed 1).bind fun _ =>
    (sound_pcReadSlots sound_readSource _).bind fun _ =>
      (sound_pcReadSlots sound_pcReadEapFrame _).bind fun _ =>
        (sound_pcReadSlots sound_readSessionInitial _).bind fun _ =>
          (sound_pcReadSlots sound_pcReadEapState _).bind fun _ => sound_pure _

/-! ## Studies -/

/-- A seal is read no earlier than where its span began. -/
theorem soundFrom_readSeal (i : Input) {start p : Nat} (h : start ≤ p) :
    SoundFrom i p (readSeal start) := by
  refine SoundFrom.position fun stop hstop => ?_
  refine (sound_readVarint32 i stop).bind fun crc => ?_
  exact (soundFrom_spanned i (h.trans hstop)).bind fun _ => sound_pure _ i stop

/-- What an operation carries depends on its discriminant. -/
theorem sound_readGattOperation : Sound readGattOperation := by
  refine sound_pcReadVarint.bind fun kind => ?_
  split
  · exact sound_pure _
  · exact (sound_readPayload (by decide)).bind fun _ => sound_pure _
  · exact sound_readVarint32.bind fun _ => sound_pure _
  · exact sound_readVarint32.bind fun _ => sound_pure _
  · exact sound_pure _
  · exact sound_pure _
  · exact sound_fail

/-- The kind of an address and its bytes. -/
theorem sound_readTargetAddress : Sound readTargetAddress :=
  sound_require_bind (fun i => unguarded_take_of_lt i (by decide)) (by decide) fun _ =>
    sound_readVarint8.bind fun _ => sound_pure _

/-- A target is read without a test of its own. -/
theorem unguarded_readGattTarget (i : Input) : Unguarded i 32 readGattTarget :=
  (unguarded_take_of_lt i (by decide)).bind fun _ => (unguarded_take_of_lt i (by decide)).map _

/-- All of them are tested for together, by a product that does not wrap around. -/
theorem sound_readGattTargets : Sound readGattTargets := by
  refine sound_pcReadVarint.bind fun len => ?_
  split
  · next h =>
    have hlen : len ≤ 16 := h
    exact sound_require (fun i => (unguarded_fill (unguarded_readGattTarget i) (by omega)).map _)
      (by omega)
  · exact sound_fail

/-- A level is refused above the last. -/
theorem sound_readSecurityLevel : Sound readSecurityLevel := by
  refine sound_pcReadVarint.bind fun level => ?_
  split
  · exact sound_pure _
  · exact sound_fail

/-- One case for each action; a field-less or unknown one reads nothing. -/
theorem sound_readAction (tag : Nat) : Sound (readAction tag) := by
  have hname : Sound (pcReadOption (pcReadStr (dbmMaxLocalNameLen + 1))) :=
    sound_pcReadOption (sound_pcReadStr (by decide))
  unfold readAction
  split
  · exact hname.bind fun _ => (sound_pcSkipLenPrefixed 16).bind fun _ =>
      sound_readVarint16.bind fun _ => sound_pure _
  · exact sound_readVarint8.bind fun _ => (sound_pcReadOption sound_readTargetAddress).bind
      fun _ => hname.bind fun _ => sound_pure _
  · exact sound_pcReadUuidPair.bind fun _ => sound_readGattOperation.bind fun _ => sound_pure _
  · exact sound_pure _
  · exact sound_pure _
  · exact sound_pure _
  · exact sound_pure _
  · exact sound_readSecurityLevel.bind fun _ => sound_pure _
  · exact sound_pure _
  · exact sound_readGattTargets.bind fun _ => sound_pure _
  · exact sound_readGattTargets.bind fun _ => sound_pure _
  · exact sound_requireTwo
  · exact sound_pure _

/-- A step with its action, whose tag says what follows. -/
theorem sound_readStep : Sound readStep := by
  refine (sound_pcReadStr (by decide)).bind fun name => sound_pcReadVarint.bind fun tag =>
    (sound_readAction tag).bind fun action => ?_
  cases action with
  | none => exact sound_pure _
  | some action =>
    exact sound_readVarint32.bind fun _ => sound_byte.bind fun _ =>
      sound_readVarint32.bind fun _ => sound_pure _

/-- The loop stores no step behind the last element of its array. -/
theorem sound_readSteps : ∀ {count index : Nat}, index + count ≤ dbmMaxStepsPerStudy →
    Sound (readSteps index count)
  | 0, _, _ => sound_pure _
  | count + 1, index, h => by
    refine (sound_store (by omega)).bind fun _ => sound_readStep.bind fun step => ?_
    cases step with
    | none => exact sound_pure _
    | some step => exact (sound_readSteps (by omega)).bind fun _ => sound_pure _

/-- The taps of a study with their seal. -/
theorem sound_readStreams : Sound readStreams := by
  refine sound_pcReadVarint.bind fun len => ?_
  split
  · next h =>
    intro i p
    refine SoundFrom.position fun start _ => ?_
    exact (sound_fill sound_pcReadStreamTap (by omega) i start).bind fun _ =>
      (soundFrom_readSeal i (Nat.le_refl start)).bind fun _ => sound_pure _ i start
  · exact sound_fail

/-- Its protocols with theirs, of a length that is capped. -/
theorem sound_readProtocols : Sound readProtocols := by
  refine sound_pcReadVarint.bind fun len => ?_
  split
  · next h =>
    intro i p
    refine SoundFrom.position fun start _ => ?_
    refine (sound_fill sound_pcReadProtocolDef (by omega) i start).bind fun _ => ?_
    refine SoundFrom.position fun stop hstop => SoundFrom.buffer ?_
    split
    · exact sound_fail i stop
    · exact (soundFrom_readSeal i hstop).bind fun _ => sound_pure _ i stop
  · exact sound_fail

/-- The name, the steps, the taps and the protocols of a study, one behind the other. -/
theorem sound_readStudyStart : Sound readStudyStart := by
  refine sound_pcReadVarint.bind fun stepsLen => ?_
  split
  · next h =>
    intro i p
    refine SoundFrom.position fun start _ => ?_
    refine (sound_readSteps (by omega) i start).bind fun steps => ?_
    split
    · exact sound_pure _ i start
    · exact (soundFrom_readSeal i (Nat.le_refl start)).bind fun _ =>
        (sound_readStreams i start).bind fun _ => (sound_pcReadVarint i start).bind fun _ =>
          (sound_readProtocols i start).bind fun _ => sound_pure _ i start
  · exact sound_fail

/-! ## Results -/

/-- A tag, and the reason of a failure. -/
theorem sound_readOutcome : Sound readOutcome := by
  refine sound_pcReadVarint.bind fun tag => ?_
  split
  · exact sound_pure _
  · exact (sound_pcReadStr (by decide)).bind fun _ => sound_pure _
  · exact sound_pure _
  · exact sound_fail

/-- A UUID and its properties. -/
theorem sound_readCharacteristicInfo : Sound readCharacteristicInfo :=
  sound_require (fun i => (unguarded_take_of_lt i (by decide)).bind fun _ =>
    (unguarded_next i).map _) (by decide)

/-- A UUID and its characteristics. -/
theorem sound_readServiceInfo : Sound readServiceInfo :=
  sound_require_bind (fun i => unguarded_take_of_lt i (by decide)) (by decide) fun _ =>
    (sound_pcReadSlots sound_readCharacteristicInfo _).bind fun _ => sound_pure _

/-- The state a protocol ended in and its outcome. -/
theorem sound_readProtocolOutcome : Sound readProtocolOutcome :=
  (sound_pcReadStr (by decide)).bind fun _ => sound_readOutcome.bind fun _ => sound_pure _

/-- An outcome with what was captured, found and agreed on. -/
theorem sound_readStepResult : Sound readStepResult :=
  sound_readVarint32.bind fun _ => (sound_pcReadStr (by decide)).bind fun _ =>
    sound_readOutcome.bind fun _ =>
      (sound_pcReadOption (sound_readPayload (by decide))).bind fun _ =>
        (sound_pcReadOption (sound_pcReadSlots sound_readServiceInfo _)).bind fun _ =>
          (sound_pcReadOption sound_readSecurityLevel).bind fun _ =>
            (sound_pcReadOption sound_readProtocolOutcome).bind fun _ => sound_pure _

/-- The version of the wire format and the level of the log. -/
theorem sound_readHello : Sound readHello :=
  sound_readVarint32.bind fun _ => sound_readVarint64.bind fun _ => sound_pure _

/-- The answer to it, with the identity of the firmware. -/
theorem sound_readHelloAck : Sound readHelloAck :=
  sound_readVarint32.bind fun _ => sound_byte.bind fun _ =>
    (sound_pcReadStr (by decide)).bind fun _ => (sound_pcReadStr (by decide)).bind fun _ =>
      sound_pure _

/-- Whatever tag the body has, its reader is one of these. -/
theorem sound_decodeBody : Sound decodeBody := by
  refine sound_pcReadVarint.bind fun tag => ?_
  split
  · exact sound_readHello.bind fun _ => sound_pure _
  · exact sound_readHelloAck.bind fun _ => sound_pure _
  · exact (sound_pcReadStr (by decide)).bind fun _ => sound_pure _
  · exact sound_readStudyStart.bind fun _ => sound_pure _
  · exact sound_readStepResult.bind fun _ => sound_pure _
  · exact sound_byte.bind fun _ => sound_pure _
  · exact sound_fail

/-- On every buffer the whole walk is memory safe exactly when none of its bounds
tests wraps around. -/
theorem decodeBody_safe_iff (i : Input) :
    Safe i.len (decodeBody i 0).log ↔ Unwrapped (decodeBody i 0).log :=
  (sound_decodeBody i 0 0 (Nat.le_refl 0) (Nat.zero_le _)).1

/-- A study without steps and with one tap, whose name claims to be `2 ^ 64 - 15`
bytes long. -/
def longNameBody (w : Width) : Input where
  toWidth := w
  bytes := [0x86, 0x80, 0x80, 0x80, 0x80, 0x02, 0, 0, 1, 0,
    0xF1, 0xFF, 0xFF, 0xFF, 0xFF, 0xFF, 0xFF, 0xFF, 0xFF, 0x01]
  fits := w.lt_two_pow (by decide)

/-- Skipping that name moves the cursor from 20 back to 5, and the CRC of the taps
is then taken over a span that ends at 8 before it starts at 9. -/
theorem decodeBody_longNameBody :
    Access.move 20 5 ∈ (decodeBody (longNameBody width32) 0).log ∧
    Access.span 9 8 ∈ (decodeBody (longNameBody width32) 0).log ∧
    ¬ Safe 20 (decodeBody (longNameBody width32) 0).log ∧
    Access.move 20 5 ∈ (decodeBody (longNameBody ⟨64, by decide, by decide⟩) 0).log ∧
    Access.span 9 8 ∈ (decodeBody (longNameBody ⟨64, by decide, by decide⟩) 0).log ∧
    ¬ Safe 20 (decodeBody (longNameBody ⟨64, by decide, by decide⟩) 0).log := by
  decide +kernel

end DevBench.Wire
