import DevBench.Bridge.Exchange

/-!
# Monitor windows

The five monitor actions of `ble_bridge_real.c`. They share one array of subscriptions, one
count and one flag; each subscription made is labelled, when it delivers, through the
index recorded for its slot.
-/

namespace DevBench.Bridge

open DevBench.Core DevBench.Core.Program DevBench.Eap DevBench.Bench DevBench.Wire

/-- The targets of a selective monitor; none names everything. -/
abbrev Targets : Type := Option (Slots GattTarget dbmMaxMonitorTargets)

/-- The targets there are to be checked. -/
def Targets.list (targets : Targets) : List GattTarget := (targets.map (·.items)).getD []

/-- `target_index_for`. -/
def targetIndexFor (targets : List GattTarget) (label : Label) : Option Nat :=
  if targets = [] then some 0
  else
    targets.findIdx? fun target =>
      target.serviceUuid == label.1 && target.characteristicUuid == label.2

/-- `target_found` and `target_subscribable`. -/
structure TargetChecks where
  found : List Bool
  subscribable : List Bool
  deriving DecidableEq, Repr

/-- Nothing is found yet. -/
def TargetChecks.none : TargetChecks :=
  ⟨.replicate dbmMaxMonitorTargets false, .replicate dbmMaxMonitorTargets false⟩

/-- A target is found, subscribable or not. -/
def TargetChecks.mark (checks : TargetChecks) (target : Nat) (subscribable : Bool) :
    TargetChecks :=
  ⟨checks.found.set target true, checks.subscribable.set target subscribable⟩

/-- A characteristic of the table by its place, with its service. -/
def Table.at (table : Table) (place : Nat × Nat) : Option (FoundService × FoundCharacteristic) :=
  table.items[place.1]?.bind fun service =>
    service.characteristics.items[place.2]?.map fun c => (service, c)

/-- The places the two loops of `monitor_subscribe_matching` visit, in order. -/
def Table.places (table : Table) : List (Nat × Nat) :=
  table.items.zipIdx.flatMap fun (service, i) =>
    (List.range service.characteristics.items.length).map (i, ·)

/-- The characteristic at a place is subscribed to, if there is a slot for it. -/
def wanted (targets : List GattTarget) (table : Table) (place : Nat × Nat) : Bool :=
  (table.at place).any fun (service, c) =>
    (targetIndexFor targets (service.uuid, c.info.uuid)).isSome &&
      (canNotify c.info.properties || canIndicate c.info.properties)

/-- The index of a characteristic is recorded for the next slot. -/
def recordSlot (place : Nat × Nat) : Act Unit :=
  modify fun s => { s with
    monitor.charIndex := s.monitor.charIndex.setIfInBounds s.monitor.count
      (flatCharacteristicIndex s.table place.1 place.2)
    monitor.count := s.monitor.count + 1 }

/-- The next slot is zeroed and subscribed with; it counts when the CCC write was answered in
time, whatever the answer. -/
def subscribeCharacteristic (place : Nat × Nat) (service : FoundService)
    (c : FoundCharacteristic) (another : Bool) : Act Unit := do
  let s ← get
  let slot := s.monitor.count
  let refused (reason : String) := transcriptEmit bleGattDirLocal bleGattEvtError
    (some service.uuid) (some c.info.uuid) 0 (ascii reason)
  if bleMaxMonitorSubscriptions ≤ slot then refused "subscription limit reached"
  else
    note (.zeroed slot (s.isArmed slot))
    armCcc
    let err ← subscribeSlot slot (service.uuid, c.info.uuid) c.valueHandle
      (if canIndicate c.info.properties then btGattCccIndicate else btGattCccNotify)
    if err ≠ 0 ∧ err ≠ ealready then refused "bt_gatt_subscribe failed"
    else
      let taken ← waitIf (err = 0) .ccc (.monitorCcc another)
      if ¬ taken then
        abandonSlot slot
        refused "CCC write timed out"
      else
        transcriptEmit bleGattDirOut bleGattEvtSubscribed (some service.uuid) (some c.info.uuid)
          0 []
        recordSlot place

/-- The body of the two loops. -/
def visit (targets : List GattTarget) (checks : TargetChecks) (place : Nat × Nat)
    (another : Bool) : Act TargetChecks := do
  let s ← get
  match s.table.at place with
  | none => pure checks
  | some (service, c) =>
    match targetIndexFor targets (service.uuid, c.info.uuid) with
    | none => pure checks
    | some target =>
      let subscribable := canNotify c.info.properties || canIndicate c.info.properties
      when subscribable (subscribeCharacteristic place service c another)
      pure (if targets = [] then checks else checks.mark target subscribable)

/-- The two loops over the places that are left. -/
def visitAll (targets : List GattTarget) (checks : TargetChecks) :
    List (Nat × Nat) → Act TargetChecks
  | [] => pure checks
  | place :: places => do
    let s ← get
    let checks ← visit targets checks place (places.any (wanted targets s.table))
    visitAll targets checks places

/-- How a target is named in a failure. -/
def targetText (i : Nat) (target : GattTarget) : String :=
  s!"target {i + 1} ({uuidText target.characteristicUuid})"

/-- What is wrong with the first target that is wrong. -/
def targetFault (checks : TargetChecks) : List (GattTarget × Nat) → Option String
  | [] => none
  | (target, i) :: targets =>
    if ¬ checks.found.getD i false then
      some (targetText i target ++ " is not on this DUT")
    else if ¬ checks.subscribable.getD i false then
      some (targetText i target ++ " can neither notify nor indicate")
    else targetFault checks targets

/-- `monitor_subscribe_matching`: the table is discovered anew and the slots counted from 0. -/
def monitorSubscribeMatching (targets : Targets) : Act BridgeOutcome := do
  let s ← get
  if ¬ s.live then pure noActiveConnection
  else
    let discovered ← runGattDiscovery
    if discovered.kind ≠ .pass then pure discovered
    else
      let s ← get
      note (.recounted (!s.armed.isEmpty))
      modify fun s => { s with monitor.count := 0 }
      let checks ← visitAll targets.list .none s.table.places
      match targetFault checks targets.list.zipIdx with
      | some reason =>
        let s ← get
        note (.missed (!s.armed.isEmpty))
        pure (outcomeFail reason)
      | none => outcomePass

/-- The body of the loop of `monitor_unsubscribe_all`. -/
def unsubscribeCounted (slot : Nat) : Act Unit := do
  let s ← get
  let uuids := uuidsForFlatIndex s.table (s.monitor.charIndex.getD slot 0)
  unsubscribeSlot slot
  transcriptEmit bleGattDirOut bleGattEvtUnsubscribed (uuids.map Prod.fst) (uuids.map Prod.snd)
    0 []

/-- The link is not looked at. -/
def monitorUnsubscribeAll : Act Unit := do
  let s ← get
  each unsubscribeCounted (List.range s.monitor.count)
  modify fun s => { s with monitor.count := 0 }

/-- `monitor_result`. -/
def monitorResult : Act BridgeOutcome := do
  let result ← outcomePass
  withServices result

/-- `execute_gatt_monitor_window`, for MonitorAll and MonitorSelected. -/
def executeGattMonitorWindow (targets : Targets) : Act BridgeOutcome := do
  let subscribed ← monitorSubscribeMatching targets
  if subscribed.kind ≠ .pass then pure subscribed
  else
    modify fun s => { s with link.linkLost := false }
    clear .disconn
    let s ← get
    let dropped ← wait .disconn (.capture s.monitor.count)
    monitorUnsubscribeAll
    if dropped then outcomeDisconnected "during GATT monitor capture" else monitorResult

/-- `execute_gatt_monitor_window_start`, for MonitorStart and MonitorSelectedStart. -/
def executeGattMonitorWindowStart (targets : Targets) : Act BridgeOutcome := do
  let s ← get
  when s.monitor.windowOpen monitorUnsubscribeAll
  let subscribed ← monitorSubscribeMatching targets
  if subscribed.kind ≠ .pass then
    modify fun s => { s with monitor.windowOpen := false }
    pure subscribed
  else
    modify fun s => { s with monitor.windowOpen := true }
    monitorResult

/-- `execute_gatt_monitor_stop`: without an open window there is nothing to stop. -/
def executeGattMonitorStop : Act BridgeOutcome := do
  let s ← get
  if ¬ s.monitor.windowOpen then outcomePass
  else
    monitorUnsubscribeAll
    modify fun s => { s with monitor.windowOpen := false }
    monitorResult

end DevBench.Bridge
