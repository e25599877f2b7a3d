import DevBench.Bridge.Monitor
import DevBench.Bridge.ProtocolRun

/-!
# The bridge

The remaining actions, `dispatch_action`, and the entry points of `ble_bridge_real.c`, with
the runs of the bridge: its entry points are called one after the other, and the host goes
on between the calls.
-/

namespace DevBench.Bridge

open DevBench.Core DevBench.Core.Program DevBench.Eap DevBench.Bench DevBench.Wire

/-! ## Security -/

/-- `to_bt_security`: the wire's levels start at zero, the host's at one. -/
def toBtSecurity (level : UInt8) : Option Nat :=
  if level.toNat ≤ 3 then some (level.toNat + 1) else none

/-- `from_bt_security`. -/
def fromBtSecurity (level : Nat) : Option UInt8 :=
  if 1 ≤ level ∧ level ≤ 4 then some (UInt8.ofNat (level - 1)) else none

/-- What `execute_set_security` resets before it asks. -/
def armSecurity : Act Unit :=
  modify fun s => { s with security := ⟨0, none, .none, 0, false, none⟩ }

/-- What `execute_set_security` makes of the end of a wait; no outcome when it asks again. -/
def securitySettled (want : Nat) (others : Bool) : Act (Option BridgeOutcome) := do
  let s ← get
  match s.security.failed with
  | some reason =>
    let level ← level
    pure (some (outcomeFail
      s!"pairing failed (security err {reason.toNat}), link stayed at L{level}"))
  | none =>
    if s.security.cancelled then pure (some (outcomeFail "pairing was cancelled by the stack"))
    else
      let reached ← level
      if s.security.err ≠ 0 then
        pure (some (outcomeFail s!"security error {s.security.err.toNat}, link at L{reached}"))
      else if want ≤ reached then some <$> outcomePass
      else if ¬ others then
        pure (some (outcomeFail s!"reached L{reached}, study asked for L{want}"))
      else pure none

/-- One attempt of `execute_set_security`; the procedure may be another's. -/
def securityAttempt (want : Nat) : Act (Option BridgeOutcome) := do
  clear .sec
  let already ← level
  if want ≤ already then some <$> outcomePass
  else
    let err ← answer
    if err ≠ 0 ∧ err ≠ ebusy then
      pure (some (outcomeFail s!"bt_conn_set_security(L{want}) failed ({err})"))
    else
      let taken ← wait .sec .security
      let s ← get
      if s.link.linkLost then some <$> outcomeDisconnected "while establishing security"
      else if ¬ taken then pure (some outcomeTimedOut)
      else securitySettled want (err = ebusy)

/-- `execute_set_security`. -/
def executeSetSecurity (wireLevel : UInt8) : Act BridgeOutcome := do
  let s ← get
  if ¬ s.live then pure (outcomeFail "no connection to secure; connect first")
  else
    match toBtSecurity wireLevel with
    | none => pure (outcomeFail s!"unknown security level {wireLevel.toNat}")
    | some want =>
      armSecurity
      let first ← securityAttempt want
      match first with
      | some outcome => pure outcome
      | none =>
        let second ← securityAttempt want
        match second with
        | some outcome => pure outcome
        | none =>
          let level ← level
          pure (outcomeFail
            s!"stuck at L{level} after the in-flight procedure settled; asked for L{want}")

/-! ## Bonds -/

/-- What the cached handles and the subscription belonged to is gone. -/
def forgetHandles : Act Unit :=
  modify fun s => { s with
    exchange.handleCache.valid := false
    exchange.subscribed := false }

/-- `execute_unbond`: a peer connected is dropped with its bond, and waited for. -/
def executeUnbond : Act BridgeOutcome := do
  let s ← get
  when s.live (clear .disconn)
  let err ← answer
  if err ≠ 0 then pure (outcomeFail s!"bt_unpair failed ({err})")
  else
    let _ ← waitIf s.live .disconn .unbond
    forgetHandles
    outcomePass

/-! ## Entry points -/

/-- `dispatch_action`; no outcome when the action's loop has not come to an end in so many
rounds. -/
def dispatchAction (action : BridgeAction) (deadline rounds : Nat) :
    Act (Option BridgeOutcome) :=
  match action with
  | .advertise localName advIntervalMs => some <$> executeAdvertise localName advIntervalMs
  | .connect role target targetName => executeConnect role ⟨target, targetName⟩ rounds
  | .dataExchange serviceUuid characteristicUuid operation =>
    some <$> executeDataExchange serviceUuid characteristicUuid operation
  | .gattDiscover => some <$> executeGattDiscover
  | .gattMonitorAll => some <$> executeGattMonitorWindow none
  | .gattMonitorStart => some <$> executeGattMonitorWindowStart none
  | .gattMonitorStop => some <$> executeGattMonitorStop
  | .setSecurity level => some <$> executeSetSecurity level
  | .bleUnbond => some <$> executeUnbond
  | .monitorSelected targets => some <$> executeGattMonitorWindow (some targets)
  | .monitorSelectedStart targets => some <$> executeGattMonitorWindowStart (some targets)
  | .runProtocol defn entryState => executeRunProtocol defn entryState deadline rounds

/-- The security level of the link, if there is one and it has a name on the wire. -/
def stampLevel (outcome : BridgeOutcome) : Act BridgeOutcome := do
  let s ← get
  if s.live then
    let level ← level
    pure { outcome with securityLevel := fromBtSecurity level }
  else pure outcome

/-- `ble_bridge_execute`. -/
def bleBridgeExecute (action : BridgeAction) (timeoutMs : UInt32) (rounds : Nat) :
    Act (Option BridgeOutcome) := do
  let now ← uptime
  captureReset
  modify fun s => { s with link.linkLost := false }
  clear .notify
  let outcome ← dispatchAction action (now + timeoutMs.toNat) rounds
  match outcome with
  | some outcome => some <$> stampLevel outcome
  | none => pure none

/-- `ble_bridge_clear_bonds`. -/
def bleBridgeClearBonds : Act Unit := do
  let s ← get
  when s.live (clear .disconn)
  ignored
  let _ ← waitIf s.live .disconn .unbond
  forgetHandles

/-- `bt_gatt_unsubscribe` on `subscribe_params`, whatever it answers. -/
def unsubscribeExchange : Act Unit := do
  let _ ← gattCall (.unsubscribe .exchange)
  pure ()

/-- The subscriptions `ble_bridge_reset` ends before it disconnects. -/
def resetSubscriptions : Act Unit := do
  let s ← get
  when (s.exchange.subscribeHandle ≠ 0 ∧ s.live) unsubscribeExchange
  modify fun s => { s with
    exchange.subscribed := false
    exchange.subscribeHandle := 0
    exchange.subscribeValue := 0 }
  let s ← get
  when s.live (each unsubscribeSlot (List.range s.monitor.count))
  modify fun s => { s with monitor.count := 0, monitor.windowOpen := false }
  modify fun s => { s with table := .empty }

/-- The disconnect of `ble_bridge_reset`. -/
def resetLink : Act Unit := do
  let s ← get
  when s.live do
    clear .disconn
    let err ← answer
    let _ ← waitIf (err = 0) .disconn .resetting
    pure ()

/-- `ble_bridge_reset`. -/
def bleBridgeReset : Act Unit := do
  let _ ← btLeScanStop
  ignored
  releasePendingConn true
  modify fun s => { s with link.advertising := false, exchange.streaming := false }
  resetSubscriptions
  resetLink
  modify fun s => { s with exchange.handleCache.valid := false }
  captureReset
  bleBridgeClearBonds

/-! ## Runs -/

/-- What is called next, or what happens before the next call. -/
inductive Command where
  | execute (action : BridgeAction) (timeoutMs : UInt32)
  | reset
  | clearBonds
  | idle

/-- A command in an environment, with how often a loop is followed at most. -/
structure Episode where
  command : Command
  host : Host
  rounds : Nat

/-- The command is carried out; no value when its loop has not come to an end. -/
def Command.act (rounds : Nat) : Command → Act (Option Unit)
  | execute action timeoutMs => do
    let outcome ← bleBridgeExecute action timeoutMs rounds
    pure (outcome.map fun _ => ())
  | reset => some <$> bleBridgeReset
  | clearBonds => some <$> bleBridgeClearBonds
  | idle => do
    let events ← during
    some <$> happenings events

namespace BridgeState

/-- The state an episode has led to so far. -/
def after (s : BridgeState) (t : Episode) : BridgeState := (t.command.act t.rounds t.host s).2

/-- The state an episode leads to when it comes to an end. -/
def next (s : BridgeState) (t : Episode) : Option BridgeState :=
  (t.command.act t.rounds t.host s).1.map fun _ => s.after t

end BridgeState

/-! ## A host that follows a script -/

/-- A host that takes on whatever it is asked for, and lets happen what a script says for a
turn, and nothing at the others. -/
def Host.scripted (script : List (Nat × List HostEvent)) : Host where
  answer _ := 0
  during turn := (script.lookup turn).getD []
  uptime _ := 0
  level _ := 1
  deviceName := []
  queued _ := 0

/-- An address, a service and a characteristic that notifies. -/
def samplePeer : BtAddr := ⟨btAddrLePublic, .replicate 6 1⟩

/-- A service, and the end of the discovery. -/
def sampleService : List HostEvent := [.service 1 9 (.uuid16 0x180d), .attributesDone]

/-- A characteristic that notifies, and the end of the discovery. -/
def sampleCharacteristic : List HostEvent :=
  [.characteristic 3 btGattChrcNotify (.uuid16 0x2a37), .attributesDone]

/-- The peer is heard and connected to. -/
def sampleConnect : List HostEvent :=
  [.advertised samplePeer btGapAdvTypeAdvInd [], .connected samplePeer 0]

/-- An action in the environment of a script. -/
def Episode.scripted (script : List (Nat × List HostEvent)) (action : BridgeAction) : Episode :=
  ⟨.execute action 1000, .scripted script, 1⟩

end DevBench.Bridge
