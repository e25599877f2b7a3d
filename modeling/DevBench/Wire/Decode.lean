import DevBench.Wire.Varint

/-!
# The decoder

`decode_body` and the readers it is built of (`serial_protocol.c`), in source
order: stream taps, protocol manifests, the CRC, then one reader for each
message. Every bounds test stands where the source makes it, because the tests
and the accesses behind them are what memory safety is about.
-/

namespace DevBench.Wire

open DevBench.Core DevBench.Core.Reader DevBench.Eap

/-! ## Stream taps -/

/-- The `source` of a tap with the characteristic it names, zero when it names none. -/
def readStreamSource : Reader (StreamSourceTag × Uuid) := do
  let tag ← pcReadVarint
  match tag with
  | 0 => do
    require 32
    let characteristic ← copyAhead 16 16 0 16
    skip 32
    pure (.gattNotify, characteristic)
  | 1 => do
    let _sampleHz ← pcReadVarint
    pure (.powerFrontEnd, Vector.replicate 16 0)
  | 2 => pure (.gattTranscript, Vector.replicate 16 0)
  | 3 => pure (.devBenchLog, Vector.replicate 16 0)
  | 4 => do
    pcSkipLenPrefixed 1
    pure (.signal, Vector.replicate 16 0)
  | _ => fail

/-- The `encoding` of a tap is walked and not kept. -/
def skipStreamEncoding : Reader Unit := do
  let tag ← pcReadVarint
  match tag with
  | 0 | 1 | 3 | 4 => pure ()
  | 2 => do
    let _layout ← pcReadVarint
    let _unit ← pcReadVarint
    let _channelId ← byte
    pure ()
  | 5 => do
    let _decoder ← byte
    pure ()
  | _ => fail

/-- The `scope` of a tap. -/
def readStreamScope : Reader StreamScope := do
  let tag ← pcReadVarint
  match tag with
  | 0 => pure .wholeStudy
  | 1 => do
    let scopeFrom ← readVarint32
    let scopeTo ← readVarint32
    pure (.steps scopeFrom scopeTo)
  | _ => fail

/-- `pc_read_stream_tap`. -/
def pcReadStreamTap : Reader StreamTap := do
  let id ← byte
  pcSkipLenPrefixed 1
  let source ← readStreamSource
  skipStreamEncoding
  let scope ← readStreamScope
  pure ⟨id, source.1, scope, source.2⟩

/-! ## Protocol manifests -/

/-- `pc_read_eap_operand`. -/
def pcReadEapOperand : Reader Operand := do
  let kind ← pcReadVarint
  match kind with
  | 0 => do
    let value ← pcReadZigzag
    pure (.literal value)
  | 1 => do
    let index ← byte
    pure (.field index)
  | 2 => do
    let index ← byte
    pure (.session index)
  | 3 => do
    let index ← byte
    pure (.spanLen index)
  | _ => fail

/-- The kind is tested only behind the first operand. -/
def pcReadEapExpr : Reader Expr := do
  let kind ← pcReadVarint
  let a ← pcReadEapOperand
  match kind with
  | 0 => pure (.term a)
  | 1 => do
    let b ← pcReadEapOperand
    pure (.add a b)
  | _ => fail

/-- The comparison of a discriminant up to `EAP_CMP_GE`. -/
def compareOp : Nat → Option CompareOp
  | 0 => some .eq
  | 1 => some .ne
  | 2 => some .lt
  | 3 => some .le
  | 4 => some .gt
  | 5 => some .ge
  | _ => none

/-- `pc_read_eap_condition`. -/
def pcReadEapCondition : Reader Condition := do
  let lhs ← pcReadEapOperand
  let op ← pcReadVarint
  match compareOp op with
  | some op => do
    let rhs ← pcReadEapOperand
    pure ⟨lhs, op, rhs⟩
  | none => fail

/-- One field of a write. -/
def readWriteField : Reader WriteField := do
  let ty ← readVarint8
  let value ← pcReadEapOperand
  pure ⟨ty, value⟩

/-- `pc_read_eap_write`. -/
def pcReadEapWrite : Reader Write := do
  let source ← byte
  let fields ← pcReadSlots maxWriteFields readWriteField
  let withResponse ← byte
  pure ⟨source, fields, withResponse ≠ 0⟩

/-- One `remember` of an arm. -/
def readRemember : Reader Remember := do
  let var ← byte
  let value ← pcReadEapExpr
  pure ⟨var, value⟩

/-- One `when` of an arm. -/
def readGuardedGoto : Reader GuardedGoto := do
  let cond ← pcReadEapCondition
  let gotoState ← byte
  pure ⟨cond, gotoState⟩

/-- `pc_read_eap_event_arm`. -/
def pcReadEapEventArm : Reader EventArm := do
  let frame ← byte
  let remember ← pcReadSlots maxRememberPerArm readRemember
  let guards ← pcReadSlots maxGuardsPerArm readGuardedGoto
  let otherwise ← pcReadOption byte
  pure ⟨frame, remember, guards, otherwise⟩

/-- The `on_timeout` of a state, its last two bytes behind one test. -/
def readTimeoutArm : Reader TimeoutArm := do
  let afterMs ← readVarint32
  require 2
  let retry ← next
  let gotoState ← next
  pure ⟨afterMs, retry, gotoState⟩

/-- `pc_read_eap_state`. -/
def pcReadEapState : Reader State := do
  let name ← pcReadStr (maxStateNameLen + 1)
  let kind ← pcReadVarint
  match kind with
  | 1 => do
    let outcome ← pcReadVarint
    match outcome with
    | 0 => pure ⟨name, .terminal .pass⟩
    | 1 => pure ⟨name, .terminal .fail⟩
    | _ => fail
  | 0 => do
    let onEnter ← pcReadOption pcReadEapWrite
    let onEvent ← pcReadSlots maxEventArmsPerState pcReadEapEventArm
    let onTimeout ← pcReadOption readTimeoutArm
    pure ⟨name, .active onEnter onEvent onTimeout⟩
  | _ => fail

/-- A counted byte array copied out behind one test, its sum 64 bits wide. -/
def readPayload (capacity : Nat) : Reader (Slots UInt8 capacity) := do
  let len ← pcReadVarint
  if h : len ≤ capacity then
    requireWide len
    let bytes ← copyAhead 0 len 0 capacity
    skip len
    pure ⟨bytes.toList, by rwa [Vector.length_toList]⟩
  else fail

/-- The `select_if` of a frame. -/
def readSelect : Reader Select := do
  let offset ← readVarint16
  let eq ← readPayload maxSelectMatchLen
  pure ⟨offset, eq⟩

/-- One field of a frame, its name skipped. -/
def readScalarRead : Reader ScalarRead := do
  pcSkipLenPrefixed 1
  let offset ← readVarint16
  let ty ← readVarint8
  pure ⟨offset, ty⟩

/-- One span of a frame, its name skipped. -/
def readSpanRead : Reader SpanRead := do
  pcSkipLenPrefixed 1
  let offset ← readVarint16
  let len ← pcReadOption readVarint16
  pure ⟨offset, len⟩

/-- `pc_read_eap_frame`. -/
def pcReadEapFrame : Reader Frame := do
  pcSkipLenPrefixed 1
  let source ← byte
  let select ← pcReadOption readSelect
  let fields ← pcReadSlots maxFrameFields readScalarRead
  let spans ← pcReadSlots maxFrameSpans readSpanRead
  pure ⟨source, select, fields, spans⟩

/-- One source, its alias skipped. -/
def readSource : Reader Source := do
  pcSkipLenPrefixed 1
  let uuids ← pcReadUuidPair
  pure ⟨uuids.1, uuids.2⟩

/-- The initial value of one session variable, its name skipped. -/
def readSessionInitial : Reader Int64 := do
  pcSkipLenPrefixed 1
  pcReadZigzag

/-- `pc_read_protocol_def`. -/
def pcReadProtocolDef : Reader ProtocolDef := do
  pcSkipLenPrefixed 1
  let sources ← pcReadSlots maxSourcesPerProtocol readSource
  let frames ← pcReadSlots maxFramesPerProtocol pcReadEapFrame
  let sessionInitial ← pcReadSlots maxSessionVars readSessionInitial
  let states ← pcReadSlots maxStatesPerProtocol pcReadEapState
  pure ⟨sources, frames, sessionInitial, states⟩

/-! ## The CRC -/

/-- One round of the bitwise CRC. -/
def crcBit (crc : UInt32) : UInt32 := (crc >>> 1) ^^^ (0xEDB88320 &&& (0 - (crc &&& 1)))

/-- One byte digested. -/
def crcByte (crc : UInt32) (byte : UInt8) : UInt32 := Nat.repeat crcBit 8 (crc ^^^ byte.toUInt32)

/-- `dbm_crc32`. -/
def dbmCrc32 (data : List UInt8) : UInt32 := data.foldl crcByte 0xFFFFFFFF ^^^ 0xFFFFFFFF

/-- The CRC that seals the bytes crossed since `start`, and whether it is theirs. -/
def readSeal (start : Nat) : Reader (UInt32 × Bool) := do
  let stop ← position
  let crc ← readVarint32
  let bytes ← spanned start stop
  pure (crc, dbmCrc32 bytes == crc)

/-! ## Studies -/

/-- `DBM_SECURITY_L4`, the highest level declared. -/
abbrev dbmSecurityL4 : Nat := 3

/-- `DBM_LOG_LEVEL_DBG`, the loudest level declared. -/
abbrev dbmLogLevelDbg : Nat := 4

/-- The operation of a data exchange; an unknown kind cannot be walked past. -/
def readGattOperation : Reader GattOperation := do
  let kind ← pcReadVarint
  match kind with
  | 0 => pure .read
  | 1 => do
    let payload ← readPayload dbmMaxPayloadLen
    pure (.write payload)
  | 2 => do
    let timeoutMs ← readVarint32
    pure (.notify timeoutMs)
  | 3 => do
    let timeoutMs ← readVarint32
    pure (.indicate timeoutMs)
  | 4 => pure .subscribe
  | 5 => pure .streamCapture
  | _ => fail

/-- The target of a connect action. -/
def readTargetAddress : Reader TargetAddress := do
  require 6
  let address ← take 6
  let kind ← readVarint8
  pure ⟨address, kind⟩

/-- One target of a selective monitor; the test for all of them was made before. -/
def readGattTarget : Reader GattTarget := do
  let service ← take 16
  let characteristic ← take 16
  pure ⟨service, characteristic⟩

/-- The targets of a selective monitor. -/
def readGattTargets : Reader (Slots GattTarget dbmMaxMonitorTargets) := do
  let len ← pcReadVarint
  if h : len ≤ dbmMaxMonitorTargets then
    require (len * 32)
    let targets ← fill readGattTarget dbmMaxMonitorTargets 0 len
    pure ⟨targets.1, by rw [targets.2]; exact h⟩
  else fail

/-- A security level up to the highest declared. -/
def readSecurityLevel : Reader UInt8 := do
  let level ← pcReadVarint
  if level ≤ dbmSecurityL4 then pure (UInt8.ofNat level)
  else fail

/-- The fields of an action, `none` when this build does not know the tag. -/
def readAction (tag : Nat) : Reader (Option Action) :=
  match tag with
  | 0 => do
    let localName ← pcReadOption (pcReadStr (dbmMaxLocalNameLen + 1))
    pcSkipLenPrefixed 16
    let advIntervalMs ← readVarint16
    pure (some (.bleAdvertise localName advIntervalMs))
  | 1 => do
    let role ← readVarint8
    let target ← pcReadOption readTargetAddress
    let targetName ← pcReadOption (pcReadStr (dbmMaxLocalNameLen + 1))
    pure (some (.bleConnect role target targetName))
  | 2 => do
    let uuids ← pcReadUuidPair
    let operation ← readGattOperation
    pure (some (.dataExchange uuids.1 uuids.2 operation))
  | 3 => pure (some .gattDiscover)
  | 4 => pure (some .gattMonitorAll)
  | 5 => pure (some .gattMonitorStart)
  | 6 => pure (some .gattMonitorStop)
  | 7 => do
    let level ← readSecurityLevel
    pure (some (.bleSecurity level))
  | 8 => pure (some .bleUnbond)
  | 9 => do
    let targets ← readGattTargets
    pure (some (.gattMonitorSelected targets))
  | 10 => do
    let targets ← readGattTargets
    pure (some (.gattMonitorSelectedStart targets))
  | 11 => do
    require 2
    let protocol ← next
    let entryState ← next
    pure (some (.runProtocol protocol entryState))
  | _ => pure none

/-- One step, `none` when its action is not recognised. -/
def readStep : Reader (Option Step) := do
  let name ← pcReadStr (dbmMaxNameLen + 1)
  let actionTag ← pcReadVarint
  let action ← readAction actionTag
  match action with
  | none => pure none
  | some action => do
    let timeoutMs ← readVarint32
    let continueOnFail ← byte
    let delayBeforeMs ← readVarint32
    pure (some ⟨name, action, timeoutMs, continueOnFail ≠ 0, delayBeforeMs⟩)

/-- The loop over the steps with its `unsupported` flag; an unrecognised action ends it. -/
def readSteps : (index count : Nat) → Reader {r : List Step × Bool // r.1.length ≤ count}
  | _, 0 => pure ⟨([], false), Nat.le_refl 0⟩
  | index, count + 1 => do
    record (.store index 1 dbmMaxStepsPerStudy)
    let step ← readStep
    match step with
    | none => pure ⟨([], true), Nat.zero_le _⟩
    | some step => do
      let rest ← readSteps (index + 1) count
      pure ⟨(step :: rest.1.1, rest.1.2), Nat.succ_le_succ rest.2⟩

/-- The taps and their seal. -/
def readStreams : Reader (Slots StreamTap dbmMaxStreamsPerStudy × UInt32 × Bool) := do
  let len ← pcReadVarint
  if h : len ≤ dbmMaxStreamsPerStudy then
    let start ← position
    let streams ← fill pcReadStreamTap dbmMaxStreamsPerStudy 0 len
    let crc ← readSeal start
    pure (⟨streams.1, by rw [streams.2]; exact h⟩, crc)
  else fail

/-- The protocols and their seal; the bytes they take are bounded as well. -/
def readProtocols : Reader (Slots ProtocolDef dbmMaxProtocolsPerStudy × UInt32 × Bool) := do
  let len ← pcReadVarint
  if h : len ≤ dbmMaxProtocolsPerStudy then
    let start ← position
    let protocols ← fill pcReadProtocolDef dbmMaxProtocolsPerStudy 0 len
    let stop ← position
    let i ← buffer
    if i.sub stop start > dbmMaxProtocolsWireLen then fail
    else
      let crc ← readSeal start
      pure (⟨protocols.1, by rw [protocols.2]; exact h⟩, crc)
  else fail

/-- The body of a `StudyStart`: steps, streams, log level and protocols, each with its seal. -/
def readStudyStart : Reader StudyStart := do
  let stepsLen ← pcReadVarint
  if h : stepsLen ≤ dbmMaxStepsPerStudy then
    let start ← position
    let steps ← readSteps 0 stepsLen
    if steps.1.2 then
      pure {
        steps := ⟨steps.1.1, steps.2.trans h⟩
        stepsCrc := 0
        stepsCrcValid := false
        streams := .empty
        streamsCrc := 0
        streamsCrcValid := false
        hasUnsupportedAction := true
        devBenchLogLevel := 0
        protocols := .empty
        protocolsCrc := 0
        protocolsCrcValid := false }
    else
      let stepsCrc ← readSeal start
      let streams ← readStreams
      let logLevel ← pcReadVarint
      let protocols ← readProtocols
      pure {
        steps := ⟨steps.1.1, steps.2.trans h⟩
        stepsCrc := stepsCrc.1
        stepsCrcValid := stepsCrc.2
        streams := streams.1
        streamsCrc := streams.2.1
        streamsCrcValid := streams.2.2
        hasUnsupportedAction := false
        -- An unknown level is clamped, not refused.
        devBenchLogLevel := UInt8.ofNat (min logLevel dbmLogLevelDbg)
        protocols := protocols.1
        protocolsCrc := protocols.2.1
        protocolsCrcValid := protocols.2.2 }
  else fail

/-! ## Results -/

/-- An outcome with its reason, kept for a failure only. -/
def readOutcome : Reader Outcome := do
  let tag ← pcReadVarint
  match tag with
  | 0 => pure ⟨0, .empty⟩
  | 1 => do
    let failReason ← pcReadStr (dbmMaxFailReasonLen + 1)
    pure ⟨1, failReason⟩
  | 2 => pure ⟨2, .empty⟩
  | _ => fail

/-- One characteristic of a discovered service. -/
def readCharacteristicInfo : Reader CharacteristicInfo := do
  require 17
  let uuid ← take 16
  let properties ← next
  pure ⟨uuid, properties⟩

/-- One discovered service. -/
def readServiceInfo : Reader ServiceInfo := do
  require 16
  let uuid ← take 16
  let characteristics ← pcReadSlots dbmMaxCharsPerService readCharacteristicInfo
  pure ⟨uuid, characteristics⟩

/-- The outcome of a protocol run. -/
def readProtocolOutcome : Reader ProtocolOutcome := do
  let finalState ← pcReadStr (maxStateNameLen + 1)
  let outcome ← readOutcome
  pure ⟨finalState, outcome⟩

/-- The body of a `StepResult`. -/
def readStepResult : Reader StepResult := do
  let stepIndex ← readVarint32
  let stepName ← pcReadStr (dbmMaxNameLen + 1)
  let outcome ← readOutcome
  let capturedData ← pcReadOption (readPayload dbmMaxPayloadLen)
  let gattServices ← pcReadOption (pcReadSlots dbmMaxDiscoveredServices readServiceInfo)
  let securityLevel ← pcReadOption readSecurityLevel
  let protocol ← pcReadOption readProtocolOutcome
  pure ⟨stepIndex, stepName, outcome, capturedData, gattServices, securityLevel, protocol⟩

/-- The body of a `Hello`. -/
def readHello : Reader Hello := do
  let schemaVersion ← readVarint32
  let hostUtcMs ← readVarint64
  pure ⟨schemaVersion, hostUtcMs⟩

/-- The body of a `HelloAck`. -/
def readHelloAck : Reader HelloAck := do
  let schemaVersion ← readVarint32
  let compatible ← byte
  let firmwareVersion ← pcReadStr (dbmMaxFirmwareVersionLen + 1)
  let hardwareId ← pcReadStr (dbmMaxHardwareIdLen + 1)
  pure ⟨schemaVersion, compatible ≠ 0, firmwareVersion, hardwareId⟩

/-- The tag is stored in a 32-bit `enum dbm_tag` before it is switched on. The
stream messages are only ever sent and decode as unknown tags. -/
def decodeBody : Reader Message := do
  let tag ← pcReadVarint
  match tag % 2 ^ 32 with
  | 0 => do
    let m ← readHello
    pure (.hello m)
  | 1 => do
    let m ← readHelloAck
    pure (.helloAck m)
  | 5 => do
    let text ← pcReadStr (dbmMaxLogLineLen + 1)
    pure (.logLine text)
  | 6 => do
    let m ← readStudyStart
    pure (.studyStart m)
  | 7 => do
    let m ← readStepResult
    pure (.stepResult m)
  | 8 => do
    let completed ← byte
    pure (.studyDone (completed ≠ 0))
  | _ => fail

end DevBench.Wire
