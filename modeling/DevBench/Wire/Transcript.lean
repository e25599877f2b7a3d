import DevBench.Wire.Encode

/-!
# Transcript entries

One GATT event as the bridge records it, and its bytes as the payload of a record.
-/

namespace DevBench.Wire

open DevBench.Core DevBench.Core.Emit DevBench.Eap

/-- `DBM_MAX_TRANSCRIPT_PAYLOAD_LEN`. -/
abbrev dbmMaxTranscriptPayloadLen : Nat := 244

/-- `struct ble_transcript_entry` and, field by field, `struct dbm_gatt_transcript_entry`. -/
structure TranscriptEntry where
  rxUtcMs : UInt64
  direction : UInt8
  kind : UInt8
  serviceUuid : Option Uuid
  characteristicUuid : Option Uuid
  attStatus : UInt8
  payload : Slots UInt8 dbmMaxTranscriptPayloadLen
  deriving DecidableEq, Repr

/-- `BLE_GATT_EVT_NOTIFICATION`. -/
abbrev bleGattEvtNotification : UInt8 := 11

/-- `BLE_GATT_EVT_INDICATION`. -/
abbrev bleGattEvtIndication : UInt8 := 12

/-- `encode_transcript_entry_at`. -/
def encodeTranscriptEntryAt (e : TranscriptEntry) : Emit Unit := do
  writeVarint e.rxUtcMs.toNat
  writeVarint e.direction.toNat
  writeVarint e.kind.toNat
  writeOption (fun uuid : Uuid => put uuid.toList) e.serviceUuid
  writeOption (fun uuid : Uuid => put uuid.toList) e.characteristicUuid
  put [e.attStatus]
  put (pcWriteBytes e.payload.items)

/-- `dbm_encode_transcript_entry`. -/
def dbmEncodeTranscriptEntry (e : TranscriptEntry) (outCap : Nat) : Option (List UInt8) :=
  (encodeTranscriptEntryAt e outCap []).map Prod.snd

end DevBench.Wire
