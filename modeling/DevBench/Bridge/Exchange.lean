import DevBench.Bridge.Discover

/-!
# Operations on one characteristic

`execute_data_exchange` and what it runs (`ble_bridge_real.c`): read, write, and the one
subscription of its own the bridge keeps.
-/

namespace DevBench.Bridge

open DevBench.Core DevBench.Core.Program DevBench.Eap DevBench.Bench DevBench.Wire

/-- What `execute_read` and `execute_write` reset before they ask. -/
def armRequest : Act Unit := do
  modify fun s => { s with exchange.attErr := 0, link.linkLost := false }
  captureReset
  clear .gatt

/-- What `execute_read` and `execute_write` do with the end of their wait. -/
def answered (what : String) (taken : Bool) (success : Act BridgeOutcome) :
    Act BridgeOutcome := do
  let s ← get
  if ¬ taken then
    abandon
    emitCached bleGattDirLocal bleGattEvtError 0 (ascii (what ++ " timed out"))
    pure outcomeTimedOut
  else if s.link.linkLost then outcomeDisconnected ("during " ++ what)
  else if s.exchange.attErr ≠ 0 then
    emitCached bleGattDirIn bleGattEvtError s.exchange.attErr []
    pure (outcomeFail s!"{what} rejected (ATT 0x{hex s.exchange.attErr})")
  else success

/-- `execute_read`. -/
def executeRead (valueHandle : UInt16) : Act BridgeOutcome := do
  armRequest
  emitCached bleGattDirOut bleGattEvtReadRequest 0 []
  let err ← request (.read valueHandle) .read
  if err ≠ 0 then
    emitCached bleGattDirLocal bleGattEvtError 0 (ascii "bt_gatt_read failed")
    pure (outcomeFail s!"bt_gatt_read failed ({err})")
  else
    let taken ← wait .gatt .read
    answered "read" taken do
      let s ← get
      emitCached bleGattDirIn bleGattEvtReadResponse 0 s.exchange.captured.items
      outcomePass

/-- `execute_write`. -/
def executeWrite (valueHandle : UInt16) (payload : List UInt8) : Act BridgeOutcome := do
  armRequest
  emitCached bleGattDirOut bleGattEvtWriteRequest 0 payload
  let err ← request (.write valueHandle payload) .write
  if err ≠ 0 then
    emitCached bleGattDirLocal bleGattEvtError 0 (ascii "bt_gatt_write failed")
    pure (outcomeFail s!"bt_gatt_write failed ({err})")
  else
    let taken ← wait .gatt .write
    answered "write" taken do
      emitCached bleGattDirIn bleGattEvtWriteResponse 0 []
      outcomePass

/-- What is reset before a CCC write. -/
def armCcc : Act Unit := do
  modify fun s => { s with exchange.cccAttErr := 0, exchange.cccTornDown := false }
  clear .ccc

/-- The second half of `ensure_subscribed`, behind the end of an earlier subscription. -/
def subscribeExchange (valueHandle cccValue : UInt16) : Act BridgeOutcome := do
  modify fun s => { s with
    exchange.subscribeHandle := valueHandle
    exchange.subscribeValue := cccValue }
  armCcc
  let err ← gattCall (.subscribe .exchange valueHandle cccValue)
  if err ≠ 0 ∧ err ≠ ealready then pure (outcomeFail s!"bt_gatt_subscribe failed ({err})")
  else
    let taken ← waitIf (err = 0) .ccc .subscribing
    let s ← get
    if ¬ taken then pure outcomeTimedOut
    else if s.exchange.cccTornDown then
      pure (outcomeFail "subscribe failed — no writable CCC on that characteristic")
    else if s.exchange.cccAttErr ≠ 0 then
      pure (outcomeFail s!"CCC write rejected (ATT 0x{hex s.exchange.cccAttErr})")
    else
      modify fun s => { s with exchange.subscribed := true }
      outcomePass

/-- The first half of `ensure_subscribed`: whether an earlier subscription is out of the way.
It is not looked at the link behind the wait. -/
def clearExchange : Act Bool := do
  let s ← get
  if s.exchange.subscribeHandle = 0 then pure true
  else
    armCcc
    modify fun s => { s with exchange.subscribed := false }
    let err ← gattCall (.unsubscribe .exchange)
    waitIf (err = 0) .ccc .clearing

/-- `ensure_subscribed`: a subscription that stands is kept. -/
def ensureSubscribed (valueHandle cccValue : UInt16) : Act BridgeOutcome := do
  let s ← get
  if s.exchange.subscribed ∧ s.exchange.subscribeHandle = valueHandle ∧
      s.exchange.subscribeValue = cccValue then outcomePass
  else
    let out ← clearExchange
    if out then subscribeExchange valueHandle cccValue else pure outcomeTimedOut

/-- `await_notification`. -/
def awaitNotification : Act BridgeOutcome := do
  let taken ← wait .notify .notification
  let s ← get
  if ¬ taken then pure outcomeTimedOut
  else if s.link.linkLost then outcomeDisconnected "while awaiting notification"
  else outcomePass

/-- The window of `GATT_OP_STREAM_CAPTURE`. -/
def captureStream : Act BridgeOutcome := do
  captureReset
  modify fun s => { s with link.linkLost := false }
  clear .disconn
  modify fun s => { s with exchange.streaming := true }
  let dropped ← wait .disconn .stream
  modify fun s => { s with exchange.streaming := false }
  if dropped then outcomeDisconnected "during stream capture" else outcomePass

/-- What follows a subscription that was made. -/
def subscribedThen (valueHandle cccValue : UInt16) (next : Act BridgeOutcome) :
    Act BridgeOutcome := do
  let sub ← ensureSubscribed valueHandle cccValue
  if sub.kind ≠ .pass then pure sub else next

/-- `execute_data_exchange`. -/
def executeDataExchange (serviceUuid characteristicUuid : Uuid) (operation : GattOperation) :
    Act BridgeOutcome := do
  let s ← get
  if ¬ s.live then pure (outcomeFail "no active connection — run a BleConnect step first")
  else
    let resolved ← resolveHandles serviceUuid characteristicUuid
    if resolved.kind ≠ .pass then pure resolved
    else
      let s ← get
      let valueHandle := s.exchange.handleCache.valueHandle
      match operation with
      | .read => executeRead valueHandle
      | .write payload => executeWrite valueHandle payload.items
      | .notify _ => subscribedThen valueHandle btGattCccNotify awaitNotification
      | .indicate _ => subscribedThen valueHandle btGattCccIndicate awaitNotification
      | .subscribe => ensureSubscribed valueHandle btGattCccNotify
      | .streamCapture => subscribedThen valueHandle btGattCccNotify captureStream

end DevBench.Bridge
