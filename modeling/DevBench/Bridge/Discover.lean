import DevBench.Bridge.Connect

/-!
# Discovery

The targeted discovery of one characteristic (`resolve_handles`) and the walk over every
service and characteristic (`run_gatt_discovery`), both of `ble_bridge_real.c`.
-/

namespace DevBench.Bridge

open DevBench.Core DevBench.Core.Program DevBench.Eap DevBench.Bench DevBench.Wire

/-! ## One characteristic -/

/-- `run_discovery`. -/
def runDiscovery (procedure : Procedure) : Act Int := do
  modify fun s => { s with link.linkLost := false }
  clear .gatt
  let err ← request (.discover procedure) procedure
  if err ≠ 0 then pure err
  else
    let taken ← wait .gatt .discovery
    if ¬ taken then
      abandon
      pure etimedout
    else
      let s ← get
      if s.link.linkLost then pure enotconn else pure 0

/-- What a failed `run_discovery` is reported as. -/
def discoveryFailed (what : String) (err : Int) : Act BridgeOutcome :=
  if err = etimedout then pure outcomeTimedOut
  else if err = enotconn then outcomeDisconnected ("during " ++ what)
  else pure (outcomeFail s!"{what} failed ({err})")

/-- The cache holds the pair already. -/
def HandleCache.holds (cache : HandleCache) (serviceUuid characteristicUuid : Uuid) : Bool :=
  cache.valid && cache.serviceUuid == serviceUuid &&
    cache.characteristicUuid == characteristicUuid

/-- `resolve_handles` behind the discovery of the service. -/
def resolveCharacteristic (serviceUuid characteristicUuid : Uuid) : Act BridgeOutcome := do
  let s ← get
  let serviceEnd := s.exchange.foundServiceEnd
  modify fun s => { s with exchange.foundValueHandle := 0 }
  let err ← runDiscovery .characteristic
  let s ← get
  if err ≠ 0 then discoveryFailed "characteristic discovery" err
  else if s.exchange.foundValueHandle = 0 then
    pure (outcomeFail "characteristic not found in service")
  else
    modify fun s => { s with exchange.handleCache :=
      ⟨true, serviceUuid, characteristicUuid, s.exchange.foundValueHandle, serviceEnd⟩ }
    outcomePass

/-- `resolve_handles`: the last pair resolved is not looked up again. -/
def resolveHandles (serviceUuid characteristicUuid : Uuid) : Act BridgeOutcome := do
  let s ← get
  if s.exchange.handleCache.holds serviceUuid characteristicUuid then outcomePass
  else
    modify fun s => { s with exchange.foundServiceStart := 0, exchange.foundServiceEnd := 0 }
    let err ← runDiscovery .service
    let s ← get
    if err ≠ 0 then discoveryFailed "service discovery" err
    else if s.exchange.foundServiceEnd = 0 then pure (outcomeFail "service not found on DUT")
    else resolveCharacteristic serviceUuid characteristicUuid

/-! ## Every characteristic -/

/-- `bt_gatt_discover` with the wait for its end, as `run_gatt_discovery` has it twice: no
outcome when the procedure came to its end. -/
def walk (procedure : Procedure) (ofWhat during : String) : Act (Option BridgeOutcome) := do
  clear .gatt
  let err ← request (.discover procedure) procedure
  if err ≠ 0 then pure (some (outcomeFail s!"{ofWhat} discovery failed to start ({err})"))
  else
    let taken ← wait .gatt .discovery
    let s ← get
    if ¬ taken then
      abandon
      pure (some outcomeTimedOut)
    else if s.link.linkLost then some <$> outcomeDisconnected during
    else pure none

/-- The loop of `run_gatt_discovery` over the services from one on. -/
def walkServices : Nat → Nat → Act (Option BridgeOutcome)
  | 0, _ => pure none
  | left + 1, i => do
    modify fun s => { s with discovering := i }
    let failed ← walk .allCharacteristics "characteristic" "during characteristic discovery"
    match failed with
    | some outcome => pure (some outcome)
    | none => walkServices left (i + 1)

/-- `run_gatt_discovery`. -/
def runGattDiscovery : Act BridgeOutcome := do
  transcriptEmit bleGattDirLocal bleGattEvtDiscoveryStarted none none 0 []
  modify fun s => { s with table := .empty }
  modify fun s => { s with link.linkLost := false }
  let failed ← walk .allServices "primary service" "during service discovery"
  match failed with
  | some outcome => pure outcome
  | none =>
    let s ← get
    let failed ← walkServices s.table.items.length 0
    match failed with
    | some outcome => pure outcome
    | none => outcomePass

/-- The failure of a step that finds no connection. -/
def noActiveConnection : BridgeOutcome :=
  outcomeFail "no active connection -- run a BleConnect step first"

/-- The outcome with what was discovered. -/
def withServices (outcome : BridgeOutcome) : Act BridgeOutcome := do
  let s ← get
  pure { outcome with gattServices := some s.services }

/-- `execute_gatt_discover`. -/
def executeGattDiscover : Act BridgeOutcome := do
  let s ← get
  if ¬ s.live then pure noActiveConnection
  else
    let result ← runGattDiscovery
    if result.kind ≠ .pass then pure result else withServices result

/-- `flat_characteristic_index`. -/
def flatCharacteristicIndex (table : Table) (serviceIdx charIdx : Nat) : UInt16 :=
  UInt16.ofNat (((table.items.take serviceIdx).map fun service =>
    service.characteristics.items.length).sum + charIdx)

/-- The properties have `BT_GATT_CHRC_NOTIFY`. -/
def canNotify (props : UInt8) : Bool := props &&& btGattChrcNotify != 0

/-- The properties have `BT_GATT_CHRC_INDICATE`. -/
def canIndicate (props : UInt8) : Bool := props &&& btGattChrcIndicate != 0

end DevBench.Bridge
