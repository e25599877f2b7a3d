import DevBench.Core.Emit
import DevBench.Wire.Cobs
import DevBench.Wire.Walk

/-!
# The encoder

`encode_body` and the frame functions (`serial_protocol.c`). Counts that would
reach past an array cannot be written down here, so the checks the source makes on
them have no counterpart. Strings are sent up to their terminator. Each encoder
emits the bytes the grammar gives to what it sends.
-/

namespace DevBench.Wire

open DevBench.Core DevBench.Core.Emit DevBench.Eap

/-! ## Encoders -/

/-- `pc_write_varint`. -/
def writeVarint (value : Nat) : Emit Unit := put (pcWriteVarint value)

/-- An `Option` byte and the value behind it. -/
def writeOption {α : Type} (write : α → Emit Unit) : Option α → Emit Unit
  | none => put [0]
  | some a => do
    put [1]
    write a

/-- A string, up to its terminator. -/
def writeStr {capacity : Nat} (s : CharArray capacity) : Emit Unit := put (pcWriteBytes s.str)

/-- A GATT operation, with what belongs to it. -/
def encodeOperation : GattOperation → Emit Unit
  | .read => writeVarint 0
  | .write payload => do
    writeVarint 1
    put (pcWriteBytes payload.items)
  | .notify timeoutMs => do
    writeVarint 2
    writeVarint timeoutMs.toNat
  | .indicate timeoutMs => do
    writeVarint 3
    writeVarint timeoutMs.toNat
  | .subscribe => writeVarint 4
  | .streamCapture => writeVarint 5

/-- The targets of a selective monitor, each one 32 bytes. -/
def encodeTargets (targets : Slots GattTarget dbmMaxMonitorTargets) : Emit Unit := do
  writeVarint targets.items.length
  targets.items.forM fun t => put (t.serviceUuid.toList ++ t.characteristicUuid.toList)

/-- The fields of an action. Service UUIDs are not stored, so none are sent. -/
def encodeAction : Action → Emit Unit
  | .bleAdvertise localName advIntervalMs => do
    writeOption writeStr localName
    writeVarint 0
    writeVarint advIntervalMs.toNat
  | .bleConnect role target targetName => do
    writeVarint role.toNat
    writeOption (fun t => do
      put t.address.toList
      writeVarint t.kind.toNat) target
    writeOption writeStr targetName
  | .dataExchange service characteristic operation => do
    put (service.toList ++ characteristic.toList)
    encodeOperation operation
  | .bleSecurity level => writeVarint level.toNat
  | .gattMonitorSelected targets => encodeTargets targets
  | .gattMonitorSelectedStart targets => encodeTargets targets
  | .runProtocol protocol entryState => put ([protocol] ++ [entryState])
  | .gattDiscover | .gattMonitorAll | .gattMonitorStart | .gattMonitorStop | .bleUnbond => pure ()

/-- One step of a study. -/
def encodeStep (step : Step) : Emit Unit := do
  writeStr step.name
  writeVarint step.action.tag
  encodeAction step.action
  writeVarint step.timeoutMs.toNat
  put [boolByte step.continueOnFail]
  writeVarint step.delayBeforeMs.toNat

/-- Taps and protocols are sent empty, each with the CRC of nothing. -/
def encodeStudyStart (m : StudyStart) : Emit Unit := do
  writeVarint m.steps.items.length
  m.steps.items.forM encodeStep
  writeVarint m.stepsCrc.toNat
  writeVarint 0
  writeVarint 0
  writeVarint m.devBenchLogLevel.toNat
  writeVarint 0
  writeVarint 0

/-- An outcome, with its reason for a failure only. -/
def encodeOutcome (o : Outcome) : Emit Unit := do
  writeVarint o.tag.toNat
  if o.tag = 1 then writeStr o.failReason else pure ()

/-- A discovered service with its characteristics. -/
def encodeService (s : ServiceInfo) : Emit Unit := do
  put s.uuid.toList
  writeVarint s.characteristics.items.length
  s.characteristics.items.forM fun c => put (c.uuid.toList ++ [c.properties])

/-- The body of a `StepResult`. -/
def encodeStepResult (r : StepResult) : Emit Unit := do
  writeVarint r.stepIndex.toNat
  writeStr r.stepName
  encodeOutcome r.outcome
  writeOption (fun p => put (pcWriteBytes p.items)) r.capturedData
  writeOption (fun s : Slots ServiceInfo dbmMaxDiscoveredServices => do
    writeVarint s.items.length
    s.items.forM encodeService) r.gattServices
  writeOption (fun l : UInt8 => writeVarint l.toNat) r.securityLevel
  writeOption (fun p => do
    writeStr p.finalState
    encodeOutcome p.outcome) r.protocol

/-- One arrival-stamped record. -/
def encodeRecord (r : StreamRecord) : Emit Unit := do
  writeVarint r.rxUtcMs.toNat
  put (pcWriteBytes r.bytes.items)

/-- `encode_body`: the tag and the body behind it. -/
def encodeBody : Message → Emit Unit
  | .hello m => do
    writeVarint 0
    writeVarint m.schemaVersion.toNat
    writeVarint m.hostUtcMs.toNat
  | .helloAck m => do
    writeVarint 1
    writeVarint m.schemaVersion.toNat
    put [boolByte m.compatible]
    writeStr m.firmwareVersion
    writeStr m.hardwareId
  | .streamOpen id => do
    writeVarint 2
    put [id]
  | .streamChunkBatch m => do
    writeVarint 3
    put [m.id]
    writeVarint m.records.items.length
    m.records.items.forM encodeRecord
  | .streamClose m => do
    writeVarint 4
    put [m.id]
    writeVarint m.dropped.toNat
  | .logLine text => do
    writeVarint 5
    writeStr text
  | .studyStart m => do
    writeVarint 6
    encodeStudyStart m
  | .stepResult m => do
    writeVarint 7
    encodeStepResult m
  | .studyDone completed => do
    writeVarint 8
    put [boolByte completed]

/-- A frame ends with the only zero byte in it. -/
def dbmEncodeFrame (msg : Message) (outCap : Nat) : Option (List UInt8) :=
  match encodeBody msg dbmMaxRawLen [] with
  | none => none
  | some ((), raw) =>
    let cobsCap := raw.length + raw.length / 254 + 2
    if cobsCap + 1 > outCap then none else some (cobsEncode raw ++ [0])

/-- The frame is given without its delimiter. -/
def dbmDecodeFrame (w : Width) (input : List UInt8) : Option Message :=
  if input.length = 0 ∨ input.length > dbmMaxFrameLen then none
  else
    match cobsDecode input dbmMaxRawLen with
    | .error _ => none
    | .ok raw =>
      if h : raw.length = 0 ∨ raw.length > dbmMaxRawLen then none
      else
        let body : Input := { w with
          bytes := raw
          fits := by
            have hraw : raw.length ≤ 12312 := Nat.not_lt.mp (not_or.mp h).2
            exact w.lt_two_pow (by omega) }
        (decodeBody body 0).value

/-! ## What is sent -/

/-- Strings end at their terminator. -/
def Action.sent : Action → Action
  | bleAdvertise localName advIntervalMs =>
    bleAdvertise (localName.map CharArray.trimmed) advIntervalMs
  | bleConnect role target targetName =>
    bleConnect role target (targetName.map CharArray.trimmed)
  | a => a

/-- The name ends at its terminator. -/
def Step.sent (s : Step) : Step := { s with name := s.name.trimmed, action := s.action.sent }

/-- A reason is sent for a failure only. -/
def Outcome.sent (o : Outcome) : Outcome :=
  ⟨o.tag, if o.tag = 1 then o.failReason.trimmed else .empty⟩

/-- The name ends at its terminator. -/
def ProtocolOutcome.sent (p : ProtocolOutcome) : ProtocolOutcome :=
  ⟨p.finalState.trimmed, p.outcome.sent⟩

/-- The strings of a result end at their terminators. -/
def StepResult.sent (r : StepResult) : StepResult :=
  { r with
    stepName := r.stepName.trimmed
    outcome := r.outcome.sent
    protocol := r.protocol.map ProtocolOutcome.sent }

/-- The two strings end at their terminators. -/
def HelloAck.sent (m : HelloAck) : HelloAck :=
  { m with firmwareVersion := m.firmwareVersion.trimmed, hardwareId := m.hardwareId.trimmed }

/-- Only the steps and the log level of a study are sent. -/
def StudyStart.sent (m : StudyStart) : StudyDecl where
  steps := m.steps.map fun s => ⟨s.sent, []⟩
  stepsCrc := m.stepsCrc
  streams := .empty
  streamsCrc := 0
  devBenchLogLevel := m.devBenchLogLevel
  protocols := .empty
  protocolsCrc := 0

/-! ## What is emitted -/

/-- A varint is emitted as it is written. -/
theorem emits_writeVarint (value : Nat) : Emits (pcWriteVarint value) (writeVarint value) :=
  emits_put _

/-- An absent value is one byte, a present one follows another. -/
theorem emits_writeOption {α : Type} {enc : α → List UInt8} {write : α → Emit Unit}
    (o : Option α) (h : ∀ a ∈ o, Emits (enc a) (write a)) :
    Emits (optionBytes enc o) (writeOption write o) := by
  cases o with
  | none => exact emits_put _
  | some a => exact (emits_put [1]).bind (h a rfl)

/-- A string is emitted as its trimmed array. -/
theorem emits_writeStr_option {capacity : Nat} (o : Option (CharArray capacity)) :
    Emits (optionBytes (fun s => pcWriteBytes s.bytes) (o.map CharArray.trimmed))
      (writeOption writeStr o) := by
  cases o with
  | none => exact emits_put _
  | some s => exact (emits_put [1]).bind (emits_put _)

/-- An operation is emitted as the grammar has it. -/
theorem emits_encodeOperation (o : GattOperation) : Emits o.bytes (encodeOperation o) := by
  cases o with
  | read => exact emits_put _
  | write payload => exact (emits_put _).bind (emits_put _)
  | notify timeoutMs => exact (emits_put _).bind (emits_put _)
  | indicate timeoutMs => exact (emits_put _).bind (emits_put _)
  | subscribe => exact emits_put _
  | streamCapture => exact emits_put _

/-- A count and that many targets. -/
theorem emits_encodeTargets (ts : Slots GattTarget dbmMaxMonitorTargets) :
    Emits (seqBytes GattTarget.bytes ts.items) (encodeTargets ts) :=
  (emits_writeVarint _).bind (emits_forM ts.items fun _ _ => emits_put _)

/-- One case for each of the twelve actions. -/
theorem emits_encodeAction (a : Action) : Emits (a.sent.fields []) (encodeAction a) := by
  cases a with
  | bleAdvertise localName advIntervalMs =>
    exact (emits_writeStr_option localName).bind ((emits_writeVarint 0).bind (emits_put _))
  | bleConnect role target targetName =>
    exact (emits_put _).bind ((emits_writeOption target fun _ _ =>
      (emits_put _).bind (emits_put _)).bind (emits_writeStr_option targetName))
  | dataExchange service characteristic operation =>
    exact (emits_put _).bind (emits_encodeOperation operation)
  | gattDiscover => exact emits_pure
  | gattMonitorAll => exact emits_pure
  | gattMonitorStart => exact emits_pure
  | gattMonitorStop => exact emits_pure
  | bleSecurity level => exact emits_put _
  | bleUnbond => exact emits_pure
  | gattMonitorSelected targets => exact emits_encodeTargets targets
  | gattMonitorSelectedStart targets => exact emits_encodeTargets targets
  | runProtocol protocol entryState => exact emits_put _

/-- Sending does not change the kind of an action. -/
theorem Action.tag_sent (a : Action) : a.sent.tag = a.tag := by cases a <;> rfl

/-- A step is emitted without the service UUIDs it does not have. -/
theorem emits_encodeStep (s : Step) : Emits (StepDecl.bytes ⟨s.sent, []⟩) (encodeStep s) := by
  have htag : Emits (pcWriteVarint s.sent.action.tag) (writeVarint s.action.tag) := by
    rw [Step.sent, Action.tag_sent]
    exact emits_writeVarint _
  exact (emits_put _).bind (htag.bind ((emits_encodeAction s.action).bind
    ((emits_put _).bind ((emits_put [_]).bind (emits_put _)))))

/-- A study is emitted with its steps, and with nothing for taps and protocols. -/
theorem emits_encodeStudyStart (m : StudyStart) : Emits m.sent.bytes (encodeStudyStart m) := by
  have hsteps : Emits m.sent.stepsBytes (m.steps.items.forM encodeStep) := by
    have h := emits_forM m.steps.items fun s _ => emits_encodeStep s
    rwa [← List.flatMap_map] at h
  have hlen : Emits (pcWriteVarint m.sent.steps.items.length)
      (writeVarint m.steps.items.length) := by
    rw [StudyStart.sent, Slots.items_map, List.length_map]
    exact emits_writeVarint _
  exact hlen.bind (hsteps.bind ((emits_writeVarint _).bind ((emits_writeVarint 0).bind
    ((emits_writeVarint 0).bind ((emits_writeVarint _).bind ((emits_writeVarint 0).bind
      (emits_writeVarint 0)))))))

/-- The reason is emitted for a failure only. -/
theorem emits_encodeOutcome (o : Outcome) : Emits o.sent.bytes (encodeOutcome o) := by
  refine (emits_writeVarint _).bind ?_
  by_cases h : o.tag = 1
  · simp only [Outcome.sent, h, if_true]
    exact emits_put _
  · simp only [Outcome.sent, h, if_false]
    exact emits_pure

/-- A service is emitted as the grammar has it. -/
theorem emits_encodeService (s : ServiceInfo) : Emits s.bytes (encodeService s) :=
  (emits_put _).bind ((emits_writeVarint _).bind
    (emits_forM s.characteristics.items fun _ _ => emits_put _))

/-- A result is emitted field by field. -/
theorem emits_encodeStepResult (r : StepResult) : Emits r.sent.bytes (encodeStepResult r) := by
  have hprotocol : Emits (optionBytes ProtocolOutcome.bytes (r.protocol.map ProtocolOutcome.sent))
      (writeOption (fun p => do
        writeStr p.finalState
        encodeOutcome p.outcome) r.protocol) := by
    cases r.protocol with
    | none => exact emits_put _
    | some p => exact (emits_put [1]).bind ((emits_put _).bind (emits_encodeOutcome p.outcome))
  exact (emits_writeVarint _).bind ((emits_put _).bind ((emits_encodeOutcome r.outcome).bind
    ((emits_writeOption r.capturedData fun _ _ => emits_put _).bind
      ((emits_writeOption r.gattServices fun s _ => (emits_writeVarint _).bind
        (emits_forM s.items fun x _ => emits_encodeService x)).bind
          ((emits_writeOption r.securityLevel fun _ _ => emits_put _).bind hprotocol)))))

end DevBench.Wire
