import DevBench.Eap.Types

/-!
# Link messages

The decoded messages of the link (`serial_protocol.h`) and the capacities they
are bounded by. A `has_x` flag and the field it guards are one `Option`; a tag
and its union are one inductive type. Discriminants that the decoder stores
without checking them stay raw bytes.
-/

namespace DevBench.Wire

open DevBench.Core DevBench.Eap

/-- `DBM_MAX_FIRMWARE_VERSION_LEN`. -/
abbrev dbmMaxFirmwareVersionLen : Nat := 32

/-- `DBM_MAX_HARDWARE_ID_LEN`. -/
abbrev dbmMaxHardwareIdLen : Nat := 32

/-- `DBM_MAX_LOG_LINE_LEN`. -/
abbrev dbmMaxLogLineLen : Nat := 128

/-- `DBM_MAX_LOCAL_NAME_LEN`. -/
abbrev dbmMaxLocalNameLen : Nat := 26

/-- `DBM_MAX_NAME_LEN`. -/
abbrev dbmMaxNameLen : Nat := 32

/-- `DBM_MAX_STEPS_PER_STUDY`. -/
abbrev dbmMaxStepsPerStudy : Nat := 16

/-- `DBM_MAX_FAIL_REASON_LEN`. -/
abbrev dbmMaxFailReasonLen : Nat := 64

/-- `DBM_MAX_PAYLOAD_LEN`. -/
abbrev dbmMaxPayloadLen : Nat := 512

/-- `DBM_MAX_DISCOVERED_SERVICES`. -/
abbrev dbmMaxDiscoveredServices : Nat := 8

/-- `DBM_MAX_CHARS_PER_SERVICE`. -/
abbrev dbmMaxCharsPerService : Nat := 16

/-- `DBM_MAX_STREAM_CHUNK_BYTES`. -/
abbrev dbmMaxStreamChunkBytes : Nat := 256

/-- `DBM_MAX_STREAM_RECORDS_PER_BATCH`. -/
abbrev dbmMaxStreamRecordsPerBatch : Nat := 4

/-- `DBM_MAX_STREAMS_PER_STUDY`. -/
abbrev dbmMaxStreamsPerStudy : Nat := 8

/-- `DBM_MAX_MONITOR_TARGETS`. -/
abbrev dbmMaxMonitorTargets : Nat := 16

/-- `DBM_MAX_PROTOCOLS_PER_STUDY`. -/
abbrev dbmMaxProtocolsPerStudy : Nat := 2

/-- `DBM_MAX_PROTOCOLS_WIRE_LEN`. -/
abbrev dbmMaxProtocolsWireLen : Nat := 3072

/-- `DBM_MAX_STUDY_START_LEN`. -/
abbrev dbmMaxStudyStartLen : Nat :=
  (8 + (dbmMaxStepsPerStudy * (dbmMaxPayloadLen + 64)) + 8 + dbmMaxProtocolsWireLen + 8)

/-- `DBM_MAX_GATT_SERVICES_LEN`. -/
abbrev dbmMaxGattServicesLen : Nat :=
  (4 + (dbmMaxDiscoveredServices * (16 + 4 + (dbmMaxCharsPerService * 17))))

/-- `DBM_MAX_STEP_RESULT_LEN`. -/
abbrev dbmMaxStepResultLen : Nat :=
  (24 + dbmMaxNameLen + dbmMaxFailReasonLen + dbmMaxPayloadLen + dbmMaxGattServicesLen +
    maxStateNameLen + dbmMaxFailReasonLen + 8)

/-- `DBM_MAX_RAW_LEN`. -/
abbrev dbmMaxRawLen : Nat :=
  if dbmMaxStudyStartLen > dbmMaxStepResultLen then dbmMaxStudyStartLen else dbmMaxStepResultLen

/-- `DBM_MAX_FRAME_LEN`. -/
abbrev dbmMaxFrameLen : Nat := dbmMaxRawLen + (dbmMaxRawLen / 254) + 2

/-- `DBM_MAX_OUTBOUND_RAW_LEN`. -/
abbrev dbmMaxOutboundRawLen : Nat := dbmMaxStepResultLen

/-- `DBM_MAX_OUTBOUND_FRAME_LEN`. -/
abbrev dbmMaxOutboundFrameLen : Nat := dbmMaxOutboundRawLen + (dbmMaxOutboundRawLen / 254) + 2

/-- `DBM_MAX_INBOUND_RAW_LEN`. -/
abbrev dbmMaxInboundRawLen : Nat := dbmMaxStudyStartLen + (dbmMaxStreamsPerStudy * 16) + 16

/-- `DBM_MAX_INBOUND_FRAME_LEN`. -/
abbrev dbmMaxInboundFrameLen : Nat := dbmMaxInboundRawLen + (dbmMaxInboundRawLen / 254) + 2

/-- `struct dbm_hello`. -/
structure Hello where
  schemaVersion : UInt32
  hostUtcMs : UInt64
  deriving DecidableEq, Repr

/-- `struct dbm_hello_ack`. -/
structure HelloAck where
  schemaVersion : UInt32
  compatible : Bool
  firmwareVersion : CharArray (dbmMaxFirmwareVersionLen + 1)
  hardwareId : CharArray (dbmMaxHardwareIdLen + 1)
  deriving DecidableEq, Repr

/-- `struct dbm_stream_close`. -/
structure StreamClose where
  id : UInt8
  dropped : UInt32
  deriving DecidableEq, Repr

/-- `struct dbm_stream_record`. -/
structure StreamRecord where
  rxUtcMs : UInt64
  bytes : Slots UInt8 dbmMaxStreamChunkBytes
  deriving DecidableEq, Repr

/-- `struct dbm_stream_chunk_batch`. -/
structure StreamChunkBatch where
  id : UInt8
  records : Slots StreamRecord dbmMaxStreamRecordsPerBatch
  deriving DecidableEq, Repr

/-- `enum dbm_stream_source_tag`. -/
inductive StreamSourceTag where
  | gattNotify | powerFrontEnd | gattTranscript | devBenchLog | signal
  deriving DecidableEq, Repr

/-- The scope fields of `struct dbm_stream_tap`; both bounds are inclusive. -/
inductive StreamScope where
  | wholeStudy
  | steps (scopeFrom scopeTo : UInt32)
  deriving DecidableEq, Repr

/-- `struct dbm_stream_tap`; the characteristic is zero unless notifications feed the tap. -/
structure StreamTap where
  id : UInt8
  sourceTag : StreamSourceTag
  scope : StreamScope
  characteristicUuid : Uuid
  deriving DecidableEq, Repr

/-- `struct dbm_gatt_operation` with the fields valid for each kind. -/
inductive GattOperation where
  | read
  | write (payload : Slots UInt8 dbmMaxPayloadLen)
  | notify (timeoutMs : UInt32)
  | indicate (timeoutMs : UInt32)
  | subscribe
  | streamCapture
  deriving DecidableEq, Repr

/-- `struct dbm_gatt_target`. -/
structure GattTarget where
  serviceUuid : Uuid
  characteristicUuid : Uuid
  deriving DecidableEq, Repr

/-- The target address of a connect action with its unchecked kind. -/
structure TargetAddress where
  address : Vector UInt8 6
  kind : UInt8
  deriving DecidableEq, Repr

/-- `enum dbm_action_tag` with the action each tag carries. -/
inductive Action where
  | bleAdvertise (localName : Option (CharArray (dbmMaxLocalNameLen + 1)))
      (advIntervalMs : UInt16)
  | bleConnect (role : UInt8) (target : Option TargetAddress)
      (targetName : Option (CharArray (dbmMaxLocalNameLen + 1)))
  | dataExchange (serviceUuid characteristicUuid : Uuid) (operation : GattOperation)
  | gattDiscover
  | gattMonitorAll
  | gattMonitorStart
  | gattMonitorStop
  | bleSecurity (level : UInt8)
  | bleUnbond
  | gattMonitorSelected (targets : Slots GattTarget dbmMaxMonitorTargets)
  | gattMonitorSelectedStart (targets : Slots GattTarget dbmMaxMonitorTargets)
  | runProtocol (protocol entryState : UInt8)
  deriving DecidableEq, Repr

/-- `struct dbm_step`. -/
structure Step where
  name : CharArray (dbmMaxNameLen + 1)
  action : Action
  timeoutMs : UInt32
  continueOnFail : Bool
  delayBeforeMs : UInt32
  deriving DecidableEq, Repr

/-- `struct dbm_study_start`; the `Valid` fields are set by the decoder. -/
structure StudyStart where
  steps : Slots Step dbmMaxStepsPerStudy
  stepsCrc : UInt32
  stepsCrcValid : Bool
  streams : Slots StreamTap dbmMaxStreamsPerStudy
  streamsCrc : UInt32
  streamsCrcValid : Bool
  hasUnsupportedAction : Bool
  devBenchLogLevel : UInt8
  protocols : Slots ProtocolDef dbmMaxProtocolsPerStudy
  protocolsCrc : UInt32
  protocolsCrcValid : Bool
  deriving DecidableEq, Repr

/-- `struct dbm_outcome`; the reason is meaningful for tag 1 only. -/
structure Outcome where
  tag : UInt8
  failReason : CharArray (dbmMaxFailReasonLen + 1)
  deriving DecidableEq, Repr

/-- `struct dbm_gatt_characteristic_info`. -/
structure CharacteristicInfo where
  uuid : Uuid
  properties : UInt8
  deriving DecidableEq, Repr

/-- `struct dbm_gatt_service_info`. -/
structure ServiceInfo where
  uuid : Uuid
  characteristics : Slots CharacteristicInfo dbmMaxCharsPerService
  deriving DecidableEq, Repr

/-- The `protocol_*` fields of `struct dbm_step_result_payload`. -/
structure ProtocolOutcome where
  finalState : CharArray (maxStateNameLen + 1)
  outcome : Outcome
  deriving DecidableEq, Repr

/-- `struct dbm_step_result` with its payload. -/
structure StepResult where
  stepIndex : UInt32
  stepName : CharArray (dbmMaxNameLen + 1)
  outcome : Outcome
  capturedData : Option (Slots UInt8 dbmMaxPayloadLen)
  gattServices : Option (Slots ServiceInfo dbmMaxDiscoveredServices)
  securityLevel : Option UInt8
  protocol : Option ProtocolOutcome
  deriving DecidableEq, Repr

/-- `struct dev_bench_message`: the tag with the variant it selects. -/
inductive Message where
  | hello (m : Hello)
  | helloAck (m : HelloAck)
  | streamOpen (id : UInt8)
  | streamChunkBatch (m : StreamChunkBatch)
  | streamClose (m : StreamClose)
  | logLine (text : CharArray (dbmMaxLogLineLen + 1))
  | studyStart (m : StudyStart)
  | stepResult (m : StepResult)
  | studyDone (completed : Bool)
  deriving DecidableEq, Repr

end DevBench.Wire
