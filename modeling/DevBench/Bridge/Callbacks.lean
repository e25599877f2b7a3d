import DevBench.Bridge.State

/-!
# What the host calls

The callbacks of `ble_bridge_real.c`, each on the event it is registered for. A callback of
a GATT procedure runs only while that procedure is outstanding, a monitor's only for a
subscription the host has in its list.
-/

namespace DevBench.Bridge

open DevBench.Core DevBench.Core.Program DevBench.Eap DevBench.Bench DevBench.Wire

/-! ## Connections -/

/-- `connected_cb`: a failed connection is not kept, and a second one neither. -/
def connectedCb (conn : BtAddr) (err : UInt8) : Act Unit := do
  modify fun s => { s with link.connErr := err, link.advertising := false }
  modify fun s =>
    if err = 0 ∧ s.link.activeConn = none then { s with link.activeConn := some conn } else s
  give .conn

/-- The host drops what it keeps for the bridge's connection with it. -/
def BridgeState.drop (s : BridgeState) (conn : BtAddr) : BridgeState :=
  if s.link.activeConn = some conn then
    { s with link.activeConn := none, pending := none, armed := [] }
  else s

/-- A connection is over, with what belonged to it. -/
def BridgeState.lose (s : BridgeState) (conn : BtAddr) (reason : UInt8) : BridgeState :=
  { (s.drop conn).give .gatt with
    link.linkLostReason := reason
    link.linkLost := true
    exchange.handleCache.valid := false
    exchange.subscribed := false }

/-- `disconnected_cb`: it wakes the waits for an answer, a notification and a disconnection. -/
def disconnectedCb (conn : BtAddr) (reason : UInt8) : Act Unit := do
  modify fun s => s.lose conn reason
  give .notify
  give .disconn

/-! ## Security -/

/-- `security_changed_cb`. -/
def securityChangedCb (err : UInt8) : Act Unit := do
  modify fun s => { s with security.err := err }
  give .sec

/-- `auth_passkey_display_cb`: a method observed before stays the one observed. -/
def authPasskeyDisplayCb (passkey : UInt32) : Act Unit :=
  modify fun s => { s with
    security.passkey := passkey
    security.observed :=
      if s.security.observed = .none then .passkeyDisplay else s.security.observed }

/-- `auth_passkey_confirm_cb`. -/
def authPasskeyConfirmCb (passkey : UInt32) : Act Unit :=
  modify fun s => { s with
    security.passkey := passkey
    security.observed := .numericComparison }

/-- `auth_pairing_confirm_cb`. -/
def authPairingConfirmCb : Act Unit :=
  modify fun s => { s with security.observed := .justWorks }

/-- `auth_cancel_cb`. -/
def authCancelCb : Act Unit := modify fun s => { s with security.cancelled := true }

/-- `auth_pairing_complete_cb`. -/
def authPairingCompleteCb (bonded : Bool) : Act Unit :=
  modify fun s => { s with security.complete := some bonded }

/-- `auth_pairing_failed_cb`. -/
def authPairingFailedCb (reason : UInt8) : Act Unit := do
  modify fun s => { s with security.failed := some reason }
  give .sec

/-! ## Scanning -/

/-- The scan is over; a host that refuses leaves it running. -/
def btLeScanStop : Act Int := do
  let err ← answer
  when (err = 0) (modify fun s => { s with scanning := false })
  pure err

/-- A connection is created, unless the host refuses. -/
def btConnLeCreate (addr : BtAddr) : Act Int := do
  let err ← answer
  let s ← get
  when (err = 0) (note (.initiated addr (namesOf s.heard addr)))
  pure err

/-- The entry meets what the scan is for. -/
def Scan.accepts (scan : Scan) (addr : BtAddr) (entry : ScanSeenEntry) : Bool :=
  entry.connectable && scan.target.all (· == addr) &&
    (scan.name.str == [] || entry.name.str == scan.name.str)

/-- The second half of `scan_cb`: the scan is over and a connection is created. -/
def scanMatched (addr : BtAddr) : Act Unit := do
  modify fun s => { s with scan.matched := true }
  let err ← btLeScanStop
  if err ≠ 0 ∧ err ≠ ealready then
    modify fun s => { s with link.connErr := btHciErrUnspecified }
    give .conn
  else
    let err ← btConnLeCreate addr
    if err ≠ 0 then
      modify fun s => { s with link.connErr := btHciErrUnspecified }
      give .conn
    else modify fun s => { s with link.pendingConn := some addr }

/-- `scan_cb`: the census hears every advertisement, a match ends the scan. -/
def scanCb (addr : BtAddr) (advType : UInt8) (elements : List BtData) : Act Unit := do
  let s ← get
  if s.scan.matched then pure ()
  else
    let (entry, census) := s.scan.census.record addr advType elements
    modify fun s => { s with scan.census := census }
    match entry with
    | none => pure ()
    | some entry => when (s.scan.accepts addr entry) (scanMatched addr)

/-- The Local Names of an advertisement. -/
def localNames (elements : List BtData) : List (List UInt8) :=
  (elements.filter BtData.isName).map fun d => d.data.items

/-- What a peer advertises is on the air whether the bridge scans or not. -/
def hearAdvertised (addr : BtAddr) (advType : UInt8) (elements : List BtData) : Act Unit := do
  modify fun s => { s with heard := s.heard ++ (localNames elements).map (addr, ·) }
  let s ← get
  when s.scanning (scanCb addr advType elements)

/-! ## GATT procedures -/

/-- The procedure outstanding is over. -/
def procedureDone : Act Unit := modify fun s => { s.give .gatt with pending := none }

/-- `discover_service_cb`, on the service looked for. -/
def discoverServiceCb (handle endHandle : UInt16) : Act Unit := do
  modify fun s => { s with
    exchange.foundServiceStart := handle + 1
    exchange.foundServiceEnd := endHandle }
  procedureDone

/-- `discover_chrc_cb`, on the characteristic looked for. -/
def discoverChrcCb (valueHandle : UInt16) : Act Unit := do
  modify fun s => { s with exchange.foundValueHandle := valueHandle }
  procedureDone

/-- `transcript_emit`. -/
def transcriptEmit (direction kind : UInt8) (serviceUuid characteristicUuid : Option Uuid)
    (attStatus : UInt8) (payload : List UInt8) : Act Unit := do
  let entry ← transcriptEntry direction kind serviceUuid characteristicUuid attStatus payload
  note (.transcript entry)

/-- `BLE_GATT_DIR_OUT`. -/
abbrev bleGattDirOut : UInt8 := 0

/-- `BLE_GATT_DIR_IN`. -/
abbrev bleGattDirIn : UInt8 := 1

/-- `BLE_GATT_DIR_LOCAL`. -/
abbrev bleGattDirLocal : UInt8 := 2

/-- `BLE_GATT_EVT_DISCOVERY_STARTED`. -/
abbrev bleGattEvtDiscoveryStarted : UInt8 := 2

/-- `BLE_GATT_EVT_SERVICE_DISCOVERED`. -/
abbrev bleGattEvtServiceDiscovered : UInt8 := 3

/-- `BLE_GATT_EVT_CHARACTERISTIC_DISCOVERED`. -/
abbrev bleGattEvtCharacteristicDiscovered : UInt8 := 4

/-- `BLE_GATT_EVT_SUBSCRIBED`. -/
abbrev bleGattEvtSubscribed : UInt8 := 5

/-- `BLE_GATT_EVT_UNSUBSCRIBED`. -/
abbrev bleGattEvtUnsubscribed : UInt8 := 6

/-- `BLE_GATT_EVT_WRITE_REQUEST`. -/
abbrev bleGattEvtWriteRequest : UInt8 := 7

/-- `BLE_GATT_EVT_WRITE_RESPONSE`. -/
abbrev bleGattEvtWriteResponse : UInt8 := 8

/-- `BLE_GATT_EVT_READ_REQUEST`. -/
abbrev bleGattEvtReadRequest : UInt8 := 9

/-- `BLE_GATT_EVT_READ_RESPONSE`. -/
abbrev bleGattEvtReadResponse : UInt8 := 10

/-- `BLE_GATT_EVT_ERROR`. -/
abbrev bleGattEvtError : UInt8 := 13

/-- One more element, when there is room for it. -/
def push {α : Type} {n : Nat} (xs : Slots α n) (x : α) (h : xs.items.length < n) : Slots α n :=
  ⟨xs.items ++ [x], by rw [List.length_append]; exact h⟩

/-- `discover_all_services_cb`: a full table ends the discovery. -/
def discoverAllServicesCb (handle endHandle : UInt16) (uuid : BtUuid) : Act Unit := do
  let s ← get
  if h : s.table.items.length < bleMaxDiscoveredServices then
    modify fun s' => { s' with
      table := push s.table ⟨fromBtUuid uuid, handle + 1, endHandle, .empty⟩ h }
    transcriptEmit bleGattDirIn bleGattEvtServiceDiscovered (some (fromBtUuid uuid)) none 0 []
  else procedureDone

/-- A service is written. -/
def setService (table : Table) (i : Nat) (service : FoundService) : Table :=
  ⟨table.items.set i service, by rw [List.length_set]; exact table.fits⟩

/-- A characteristic behind the last one of a service. -/
def FoundService.add (service : FoundService) (c : FoundCharacteristic)
    (h : service.characteristics.items.length < bleMaxCharsPerService) : FoundService :=
  { service with characteristics := push service.characteristics c h }

/-- `discover_all_chars_cb`, for the service whose characteristics are discovered now. -/
def discoverAllCharsCb (valueHandle : UInt16) (properties : UInt8) (uuid : BtUuid) :
    Act Unit := do
  let s ← get
  match s.table.items[s.discovering]? with
  | none => pure ()
  | some service =>
    if h : service.characteristics.items.length < bleMaxCharsPerService then
      modify fun s' => { s' with
        table := setService s.table s.discovering
          (service.add ⟨⟨fromBtUuid uuid, properties⟩, valueHandle⟩ h) }
      transcriptEmit bleGattDirIn bleGattEvtCharacteristicDiscovered (some service.uuid)
        (some (fromBtUuid uuid)) properties []
    else procedureDone

/-- `capture_reset`. -/
def captureReset : Act Unit := modify fun s => { s with exchange.captured := .empty }

/-- `capture_append`: what there is room for. -/
def captureAppend (data : List UInt8) : Act Unit :=
  modify fun s => { s with exchange.captured := .clamp (s.exchange.captured.items ++ data) }

/-- `read_cb`: without data the value is complete. -/
def readCb (err : UInt8) (data : Option (List UInt8)) : Act Unit :=
  if err ≠ 0 then do
    modify fun s => { s with exchange.attErr := err }
    procedureDone
  else
    match data with
    | none => procedureDone
    | some data => captureAppend data

/-- `write_cb`. -/
def writeCb (err : UInt8) : Act Unit := do
  modify fun s => { s with exchange.attErr := err }
  procedureDone

/-! ## Subscriptions -/

/-- `subscribe_cb`. -/
def subscribeCb (err : UInt8) : Act Unit := do
  modify fun s => { s with exchange.cccAttErr := err }
  give .ccc

/-- `cached_service_uuid`. -/
def cachedServiceUuid (s : BridgeState) : Option Uuid :=
  if s.exchange.handleCache.valid then some s.exchange.handleCache.serviceUuid else none

/-- `cached_characteristic_uuid`. -/
def cachedCharacteristicUuid (s : BridgeState) : Option Uuid :=
  if s.exchange.handleCache.valid then some s.exchange.handleCache.characteristicUuid else none

/-- A transcript entry labelled with the cached pair. -/
def emitCached (direction kind attStatus : UInt8) (payload : List UInt8) : Act Unit := do
  let s ← get
  transcriptEmit direction kind (cachedServiceUuid s) (cachedCharacteristicUuid s) attStatus
    payload

/-- `notify_cb`: without data the subscription is gone. -/
def notifyCb (data : Option (List UInt8)) : Act Unit :=
  match data with
  | none => do
    modify fun s => { s with exchange.subscribed := false, exchange.cccTornDown := true }
    give .ccc
  | some data => do
    let s ← get
    if s.exchange.streaming then
      note (.sample data)
      emitCached bleGattDirIn bleGattEvtNotification 0 data
    else
      emitCached bleGattDirIn bleGattEvtNotification 0 data
      captureReset
      captureAppend data
      give .notify

/-- `uuids_for_flat_index`: the loop over the services that are left. -/
def uuidsForFlatIndexFrom (flat : Nat) : List FoundService → Nat → Option Label
  | [], _ => none
  | service :: services, seen =>
    if flat < seen + service.characteristics.items.length then
      service.characteristics.items[flat - seen]?.map fun c => (service.uuid, c.info.uuid)
    else uuidsForFlatIndexFrom flat services (seen + service.characteristics.items.length)

/-- `uuids_for_flat_index`. -/
def uuidsForFlatIndex (table : Table) (flat : UInt16) : Option Label :=
  uuidsForFlatIndexFrom flat.toNat table.items 0

/-- The index recorded for a slot that counts. -/
def Monitor.recorded (monitor : Monitor) (slot : Nat) : Option UInt16 :=
  if slot < monitor.count then monitor.charIndex[slot]? else none

/-- `monitor_notify_cb`: a slot that does not count is taken for the first characteristic. -/
def monitorNotifyCb (on : Armed) (data : Option (List UInt8)) : Act Unit :=
  match data with
  | none => pure ()
  | some data => do
    let s ← get
    let uuids := uuidsForFlatIndex s.table ((s.monitor.recorded on.slot).getD 0)
    let entry ← transcriptEntry bleGattDirIn bleGattEvtNotification (uuids.map Prod.fst)
      (uuids.map Prod.snd) 0 data
    note (.transcript entry)
    note (.delivered on (s.monitor.recorded on.slot) s.labels entry)

/-- `protocol_notify_cb`: a notification there is no room for is counted. -/
def protocolNotifyCb (slot : Nat) (data : Option (List UInt8)) : Act Unit :=
  match data with
  | none => pure ()
  | some data => do
    let s ← get
    match s.protocol.subscribed[slot]? with
    | none => pure ()
    | some (source, uuid) =>
      if s.protocol.queue.length < protocolNotifyQueueSlots then
        modify fun s => { s with
          protocol.queue := s.protocol.queue ++ [⟨source, .clamp data⟩] }
      else
        modify fun s => { s with
          protocol.notificationsDropped := s.protocol.notificationsDropped + 1 }
        note (.dropped uuid)

/-! ## Events -/

/-- An answer to the procedure, if it is the one outstanding. -/
def whenPending (procedure : Procedure) (act : Act Unit) : Act Unit := do
  let s ← get
  when (s.pending = some procedure) act

/-- One of the four discoveries is outstanding. -/
def discoveryPending (s : BridgeState) : Bool :=
  s.pending == some .service || s.pending == some .characteristic ||
    s.pending == some .allServices || s.pending == some .allCharacteristics

/-- An event reaches its callback. -/
def HostEvent.happen : HostEvent → Act Unit
  | connected conn err => connectedCb conn err
  | disconnected conn reason => disconnectedCb conn reason
  | advertised addr advType elements => hearAdvertised addr advType elements
  | service handle endHandle uuid => do
    whenPending .service (discoverServiceCb handle endHandle)
    whenPending .allServices (discoverAllServicesCb handle endHandle uuid)
  | characteristic valueHandle properties uuid => do
    whenPending .characteristic (discoverChrcCb valueHandle)
    whenPending .allCharacteristics (discoverAllCharsCb valueHandle properties uuid)
  | attributesDone => do
    let s ← get
    when (discoveryPending s) procedureDone
  | readAnswer err data => whenPending .read (readCb err data)
  | writeAnswer err => whenPending .write (writeCb err)
  | cccAnswer err => subscribeCb err
  | notified .exchange data => notifyCb data
  | notified (.monitor slot) data => do
    let s ← get
    match s.armed.find? (·.slot == slot) with
    | some on => monitorNotifyCb on data
    | none => pure ()
  | notified (.protocol slot) data => protocolNotifyCb slot data
  | securityChanged err => securityChangedCb err
  | passkeyDisplay passkey => authPasskeyDisplayCb passkey
  | passkeyConfirm passkey => authPasskeyConfirmCb passkey
  | pairingConfirm => authPairingConfirmCb
  | pairingCancel => authCancelCb
  | pairingComplete bonded => authPairingCompleteCb bonded
  | pairingFailed reason => authPairingFailedCb reason

/-- Events one after the other. -/
def happenings (events : List HostEvent) : Act Unit := each HostEvent.happen events

/-- `k_sem_take`: what happens during the wait decides whether the semaphore is there to be
taken before the time is over. -/
def wait (sem : Sem) (site : Site) : Act Bool := do
  let events ← during
  happenings events
  let s ← get
  if s.given sem then
    clear sem
    note (.waited site true s.live)
    pure true
  else
    note (.waited site false s.live)
    pure false

/-- A wait there may be no reason for. -/
def waitIf (c : Prop) [Decidable c] (sem : Sem) (site : Site) : Act Bool :=
  if c then wait sem site else pure true

/-! ## Calls into the GATT client -/

/-- A call into the GATT client. On a `conn` that is `NULL` the host asserts or faults, and the
program goes no further: the mark tells that this was such a call, and the error is only there
for the model to go on with. A result on how a run goes on behind such a call asks for
`Mark.Live`; an invariant of all runs holds of those that stop there too. -/
def gattCall (call : GattCall) : Act Int := do
  let s ← get
  note (.gatt call s.live)
  if s.live then answer else pure enotconn

/-- A procedure is outstanding when the host took it on. -/
def request (call : GattCall) (procedure : Procedure) : Act Int := do
  let err ← gattCall call
  when (err = 0) (modify fun s => { s with pending := some procedure })
  pure err

/-- A slot leaves the host's list. -/
def disarm (slot : Nat) : Act Unit :=
  modify fun s => { s with armed := s.armed.filter (·.slot ≠ slot) }

/-- A slot is in the host's list for a characteristic. -/
def arm (slot : Nat) (label : Label) : Act Unit := do
  disarm slot
  modify fun s => { s with armed := ⟨slot, label, s.labels⟩ :: s.armed }

/-- `bt_gatt_subscribe` on an element of `monitor_subscribe_params`. -/
def subscribeSlot (slot : Nat) (label : Label) (handle value : UInt16) : Act Int := do
  let err ← gattCall (.subscribe (.monitor slot) handle value)
  when (err = 0 ∨ err = ealready) (arm slot label)
  pure err

/-- `bt_gatt_unsubscribe` on an element of `monitor_subscribe_params`. -/
def unsubscribeSlot (slot : Nat) : Act Unit := do
  let _ ← gattCall (.unsubscribe (.monitor slot))
  disarm slot

/-- `abandon` on a procedure: its callback is driven with an error. -/
def abandon : Act Unit := do
  let s ← get
  when (s.live ∧ s.pending.isSome) procedureDone

/-- `abandon` on an element of `monitor_subscribe_params`. -/
def abandonSlot (slot : Nat) : Act Unit := do
  let s ← get
  when s.live (disarm slot)

end DevBench.Bridge
