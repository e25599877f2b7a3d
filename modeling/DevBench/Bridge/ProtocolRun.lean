import DevBench.Bridge.Exchange

/-!
# Protocol runs on the link

`execute_run_protocol` (`ble_bridge_real.c`) with the host calls it makes: the sources are
resolved and subscribed to, the interpreter's writes carried out and arrivals fed to it.
-/

namespace DevBench.Bridge

open DevBench.Core DevBench.Core.Program DevBench.Eap DevBench.Bench DevBench.Wire

/-! ## Sources -/

/-- How a source is named in a failure. -/
def sourceText (i : Nat) (source : Source) : String :=
  s!"protocol source {i} ({uuidText source.characteristicUuid})"

/-- The first characteristic of the table that is the source's. -/
def findSource (table : Table) (source : Source) : Option SourceHandles :=
  table.items.findSome? fun service =>
    if service.uuid = source.serviceUuid then
      (service.characteristics.items.find? (·.info.uuid = source.characteristicUuid)).map
        fun c => ⟨c.valueHandle, service.finish, c.info.properties⟩
    else none

/-- The loop of `protocol_resolve_sources`. -/
def resolveEach : List (Source × Nat) → Act BridgeOutcome
  | [] => outcomePass
  | (source, i) :: sources => do
    let s ← get
    match findSource s.table source with
    | none => pure (outcomeFail (sourceText i source ++ " is not on this DUT"))
    | some found =>
      modify fun s => { s with protocol.sources := s.protocol.sources ++ [found] }
      resolveEach sources

/-- `protocol_resolve_sources`. -/
def protocolResolveSources (defn : ProtocolDef) : Act BridgeOutcome := do
  let discovered ← runGattDiscovery
  if discovered.kind ≠ .pass then pure discovered
  else
    modify fun s => { s with protocol.sources := [] }
    resolveEach defn.sources.items.zipIdx

/-- `protocol_source_is_read`. -/
def protocolSourceIsRead (defn : ProtocolDef) (source : Nat) : Bool :=
  defn.frames.items.any fun frame => frame.source.toNat == source

/-- A subscription whose CCC write was answered counts. -/
def recordSource (source : Source) (i : Nat) : Act Unit := do
  transcriptEmit bleGattDirOut bleGattEvtSubscribed (some source.serviceUuid)
    (some source.characteristicUuid) 0 []
  modify fun s => { s with
    protocol.subscribed := s.protocol.subscribed ++ [(UInt8.ofNat i, source.characteristicUuid)] }

/-- One source is subscribed to; no outcome when that worked. -/
def subscribeSource (source : Source) (i : Nat) : Act (Option BridgeOutcome) := do
  let s ← get
  let handles := s.protocol.sources.getD i ⟨0, 0, 0⟩
  let slot := s.protocol.subscribed.length
  if ¬ canNotify handles.props ∧ ¬ canIndicate handles.props then
    pure (some (outcomeFail (sourceText i source ++ " can neither notify nor indicate")))
  else
    armCcc
    let err ← gattCall (.subscribe (.protocol slot) handles.handle
      (if canIndicate handles.props then btGattCccIndicate else btGattCccNotify))
    if err ≠ 0 ∧ err ≠ ealready then
      pure (some (outcomeFail s!"subscribe to protocol source {i} failed ({err})"))
    else
      let taken ← waitIf (err = 0) .ccc (.protocolCcc slot)
      let s ← get
      if ¬ taken then pure (some outcomeTimedOut)
      else if s.exchange.cccTornDown then
        pure (some (outcomeFail s!"protocol source {i} has no writable CCC"))
      else if s.exchange.cccAttErr ≠ 0 then
        pure (some (outcomeFail
          s!"protocol source {i} CCC write rejected (ATT 0x{hex s.exchange.cccAttErr})"))
      else
        recordSource source i
        pure none

/-- A source no frame is read from is not subscribed to. -/
def subscribeIfRead (defn : ProtocolDef) (source : Source) (i : Nat) :
    Act (Option BridgeOutcome) :=
  if protocolSourceIsRead defn i then subscribeSource source i else pure none

/-- The loop of `protocol_subscribe_sources`. -/
def subscribeEach (defn : ProtocolDef) : List (Source × Nat) → Act BridgeOutcome
  | [] => outcomePass
  | (source, i) :: sources => do
    let failed ← subscribeIfRead defn source i
    match failed with
    | some outcome => pure outcome
    | none => subscribeEach defn sources

/-- `protocol_subscribe_sources`. -/
def protocolSubscribeSources (defn : ProtocolDef) : Act BridgeOutcome := do
  modify fun s => { s with protocol.subscribed := [] }
  subscribeEach defn defn.sources.items.zipIdx

/-- A transcript entry labelled with the pair of a source. -/
def emitSource (defn : ProtocolDef) (direction kind : UInt8) (source : UInt8)
    (payload : List UInt8) : Act Unit :=
  transcriptEmit direction kind (defn.sources.items[source.toNat]?.map (·.serviceUuid))
    (defn.sources.items[source.toNat]?.map (·.characteristicUuid)) 0 payload

/-- The body of the loop of `protocol_unsubscribe_all`. -/
def unsubscribeSource (defn : ProtocolDef) (subscribed : (UInt8 × Uuid) × Nat) : Act Unit := do
  let _ ← gattCall (.unsubscribe (.protocol subscribed.2))
  emitSource defn bleGattDirOut bleGattEvtUnsubscribed subscribed.1.1 []

/-- The link is not looked at. -/
def protocolUnsubscribeAll (defn : ProtocolDef) : Act Unit := do
  let s ← get
  each (unsubscribeSource defn) s.protocol.subscribed.zipIdx
  modify fun s => { s with protocol.subscribed := [] }

/-! ## The loop -/

/-- What `protocol_write` makes of an answer the host gave at once. -/
def protocolWriteStarted (err : Int) (next : Act BridgeOutcome) : Act BridgeOutcome :=
  if err ≠ 0 then pure (outcomeFail s!"protocol write failed ({err})") else next

/-- An acknowledged write of `protocol_write`. -/
def writeAcknowledged (handle : UInt16) (payload : List UInt8) : Act BridgeOutcome := do
  modify fun s => { s with exchange.attErr := 0, link.linkLost := false }
  clear .gatt
  let err ← request (.write handle payload) .write
  protocolWriteStarted err do
    let s ← get
    let taken ← wait .gatt (.protocolWrite s.protocol.subscribed.length)
    let s ← get
    if ¬ taken then
      abandon
      pure outcomeTimedOut
    else if s.link.linkLost then outcomeDisconnected "during protocol write"
    else if s.exchange.attErr ≠ 0 then
      pure (outcomeFail s!"protocol write rejected (ATT 0x{hex s.exchange.attErr})")
    else outcomePass

/-- `protocol_write`. -/
def protocolWriteOut (defn : ProtocolDef) (source : UInt8) (withResponse : Bool)
    (payload : List UInt8) : Act BridgeOutcome := do
  if defn.sources.items.length ≤ source.toNat then
    pure (outcomeFail s!"protocol write names source {source.toNat}, which does not exist")
  else
    emitSource defn bleGattDirOut bleGattEvtWriteRequest source payload
    let s ← get
    let handle := (s.protocol.sources.getD source.toNat ⟨0, 0, 0⟩).handle
    if ¬ withResponse then
      let err ← gattCall (.writeWithoutResponse handle payload)
      protocolWriteStarted err outcomePass
    else writeAcknowledged handle payload

/-- `k_msgq_get` on `protocol_notify_q`, behind what happens while it waits. -/
def takeNote : Act (Option Note) := do
  let events ← during
  happenings events
  let s ← get
  match s.protocol.queue with
  | [] => pure none
  | n :: queue =>
    modify fun s => { s with protocol.queue := queue }
    pure (some n)

/-- The machine is fed an arrival, or the step's deadline, which is none for it, or its
timeout. -/
def feed (defn : ProtocolDef) (deadline : Nat) (run : EapRun) :
    Option Note → Act (EapRun × EapStep)
  | some n => do
    emitSource defn bleGattDirIn bleGattEvtNotification n.source n.payload.items
    pure (eapRunOnEvent run (.notify n.source n.payload.items)).value
  | none => do
    let now ← uptime
    if deadline ≤ now then pure (eapRunAbandon run).value
    else pure (eapRunOnEvent run .timeout).value

/-- The step has the bridge make GATT calls before it waits again, with so many sources and
so many subscriptions recorded. -/
def stepCalls (sources held : Nat) : EapStep → Bool
  | .wait _ => false
  | .done _ _ => 0 < held
  | .write source _ _ _ => source.toNat < sources || 0 < held

/-- The step the loop goes on with behind a wait. -/
def nextStep (defn : ProtocolDef) (deadline : Nat) (run : EapRun) : Act (EapRun × EapStep) := do
  let arrived ← takeNote
  let next ← feed defn deadline run arrived
  let s ← get
  note (.waited
    (.protocolQueue (stepCalls defn.sources.items.length s.protocol.subscribed.length next.2))
    arrived.isSome s.live)
  pure next

/-- The outcome of a run whose machine is done. -/
def doneOutcome (finalState : List UInt8) (verdict : RunOutcome) : Act BridgeOutcome := do
  let passed ← outcomePass
  let result := if verdict = .pass then passed else .bare (outcomeOf verdict)
  pure { result with
    protocol := (protocolOutcomeInto result.kind finalState verdict).protocol }

/-- The outcome of a run whose write failed: the machine is given up where it is. -/
def writeFailedOutcome (run : EapRun) (result : BridgeOutcome) : BridgeOutcome :=
  { result with
    protocol :=
      (protocolOutcomeInto result.kind run.currentState.value.name.str (.fail [])).protocol }

/-- The loop of `execute_run_protocol`; no outcome when it has not come to an end in so many
rounds. -/
def protocolLoop (defn : ProtocolDef) (deadline : Nat) :
    Nat → EapRun → EapStep → Act (Option BridgeOutcome)
  | 0, _, _ => pure none
  | rounds + 1, run, step => do
    match step with
    | .done finalState verdict => some <$> doneOutcome finalState verdict
    | .wait _ =>
      let next ← nextStep defn deadline run
      protocolLoop defn deadline rounds next.1 next.2
    | .write source withResponse payload _ =>
      let written ← protocolWriteOut defn source withResponse payload
      if written.kind ≠ .pass then pure (some (writeFailedOutcome run written))
      else
        let next ← nextStep defn deadline run
        protocolLoop defn deadline rounds next.1 next.2

/-- The run behind the subscriptions; they end with it. -/
def runMachine (defn : ProtocolDef) (entryState : UInt8) (deadline rounds : Nat) :
    Act (Option BridgeOutcome) := do
  match eapRunStart defn entryState with
  | none => pure none
  | some run =>
    let entered := (eapRunEnter run).value
    let result ← protocolLoop defn deadline rounds entered.1 entered.2
    match result with
    | none => pure none
    | some result =>
      protocolUnsubscribeAll defn
      pure (some result)

/-- `execute_run_protocol`. -/
def executeRunProtocol (defn : ProtocolDef) (entryState : UInt8) (deadline rounds : Nat) :
    Act (Option BridgeOutcome) := do
  let s ← get
  if ¬ s.live then pure (some noActiveConnection)
  else if defn.states.items.length ≤ entryState.toNat then
    pure (some (outcomeFail s!"protocol entry state {entryState.toNat} does not exist"))
  else
    let resolved ← protocolResolveSources defn
    if resolved.kind ≠ .pass then pure (some resolved)
    else
      modify fun s => { s with protocol.queue := [], protocol.notificationsDropped := 0 }
      let subscribed ← protocolSubscribeSources defn
      if subscribed.kind ≠ .pass then
        protocolUnsubscribeAll defn
        pure (some subscribed)
      else runMachine defn entryState deadline rounds

end DevBench.Bridge
