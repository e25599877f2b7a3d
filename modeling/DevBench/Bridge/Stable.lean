import DevBench.Bridge.Frames

/-!
# What GATT procedures leave alone

The same for the code that makes GATT calls and waits for their answers, as long as the
calls and the waits themselves do not matter to the invariant.
-/

namespace DevBench.Bridge

open DevBench.Core DevBench.Core.Program DevBench.Eap DevBench.Bench DevBench.Wire

/-- The invariant is about neither GATT calls nor waits. -/
structure Stable (inv : BridgeState → Prop) : Prop extends KeptWithoutCalls inv where
  gatt : ∀ {s : BridgeState} (call : GattCall), inv s → inv (s.push (.gatt call s.live))
  waited : ∀ {s : BridgeState} (site : Site) (taken : Bool), inv s →
    inv (s.push (.waited site taken s.live))
  sources : ∀ {s : BridgeState} (subscribed : List (UInt8 × Uuid)), inv s →
    inv { s with protocol.subscribed := subscribed }

namespace Stable

variable {inv : BridgeState → Prop} (h : Stable inv)
include h

/-- Any wait may be made. -/
theorem wait (sem : Sem) (site : Site) : Keeps inv (wait sem site) :=
  h.toKeptWithoutCalls.wait fun taken => h.waited site taken

/-- Or left out. -/
theorem waitIf (p : Prop) [Decidable p] (sem : Sem) (site : Site) :
    Keeps inv (waitIf p sem site) :=
  keeps_ite (fun _ => h.wait sem site) fun _ => keeps_pure true

/-- Any call may be made, with a connection or without. -/
theorem gattCall (call : GattCall) : Keeps inv (gattCall call) := by
  refine triple_get fun s => ?_
  refine Triple.bind (q := fun _ => inv) ?_ fun _ => ?_
  · rintro host _ ⟨rfl, hs⟩
    exact h.gatt call hs
  · exact keeps_ite (fun _ => h.answer) fun _ => keeps_pure _

/-- And its procedure be outstanding. -/
theorem request (call : GattCall) (procedure : Procedure) :
    Keeps inv (request call procedure) := by
  refine (h.gattCall call).bind fun _ => Keeps.bind (keeps_when fun _ => ?_) fun _ => keeps_pure _
  exact h.modify fun _ => rfl

/-- A discovery is a call, a wait and the end of its procedure. -/
theorem runDiscovery (procedure : Procedure) : Keeps inv (runDiscovery procedure) := by
  refine Keeps.bind (h.modify fun _ => rfl) fun _ => (h.clear .gatt).bind fun _ => ?_
  refine (h.request _ procedure).bind fun _ => ?_
  refine keeps_ite (fun _ => keeps_pure _) fun _ => (h.wait _ _).bind fun _ => ?_
  refine keeps_ite (fun _ => h.abandon.bind fun _ => keeps_pure _) fun _ => ?_
  refine keeps_get.bind fun _ => ?_
  exact keeps_ite (fun _ => keeps_pure _) fun _ => keeps_pure _

omit h in
/-- Its failure is an outcome. -/
theorem discoveryFailed (what : String) (err : Int) : Keeps inv (discoveryFailed what err) :=
  keeps_ite (fun _ => keeps_pure _) fun _ =>
    keeps_ite (fun _ => OfCore.outcomeDisconnected _) fun _ => keeps_pure _

/-- The handles are found in two discoveries. -/
theorem resolveCharacteristic (serviceUuid characteristicUuid : Uuid) :
    Keeps inv (resolveCharacteristic serviceUuid characteristicUuid) := by
  refine keeps_get.bind fun s => Keeps.bind (h.modify fun _ => rfl) fun _ => ?_
  refine (h.runDiscovery _).bind fun err => ?_
  refine keeps_get.bind fun s => keeps_ite (fun _ => discoveryFailed _ err) fun _ => ?_
  exact keeps_ite (fun _ => keeps_pure _) fun _ =>
    Keeps.bind (h.modify fun _ => rfl) fun _ => OfCore.outcomePass

/-- Or were in the cache. -/
theorem resolveHandles (serviceUuid characteristicUuid : Uuid) :
    Keeps inv (resolveHandles serviceUuid characteristicUuid) := by
  refine keeps_get.bind fun s => keeps_ite (fun _ => OfCore.outcomePass) fun _ => ?_
  refine Keeps.bind (h.modify fun _ => rfl) fun _ => (h.runDiscovery _).bind fun err => ?_
  refine keeps_get.bind fun s => ?_
  refine keeps_ite (fun _ => discoveryFailed _ err) fun _ => ?_
  refine keeps_ite (fun _ => keeps_pure _) fun _ => ?_
  exact h.resolveCharacteristic serviceUuid characteristicUuid

/-- A walk over the peer's attributes is one discovery. -/
theorem walk (procedure : Procedure) (ofWhat during : String) :
    Keeps inv (walk procedure ofWhat during) := by
  refine (h.clear .gatt).bind fun _ => (h.request _ procedure).bind fun _ => ?_
  refine keeps_ite (fun _ => keeps_pure _) fun _ => (h.wait _ _).bind fun _ => ?_
  refine keeps_get.bind fun _ => ?_
  refine keeps_ite (fun _ => h.abandon.bind fun _ => keeps_pure _) fun _ => ?_
  exact keeps_ite (fun _ => (OfCore.outcomeDisconnected _).map some) fun _ => keeps_pure _

/-- There is one for each service. -/
theorem walkServices : ∀ left i, Keeps inv (walkServices left i)
  | 0, _ => keeps_pure none
  | left + 1, i => by
    refine Keeps.bind (h.modify fun _ => rfl) fun _ => (h.walk _ _ _).bind fun failed => ?_
    cases failed with
    | some outcome => exact keeps_pure _
    | none => exact walkServices left (i + 1)

/-- The table is emptied and filled again. -/
theorem runGattDiscovery : Keeps inv runGattDiscovery := by
  refine (h.transcriptEmit _ _ _ _ _ _).bind fun _ => ?_
  refine Keeps.bind (h.modify fun _ => rfl) fun _ => Keeps.bind (h.modify fun _ => rfl) fun _ => ?_
  refine (h.walk _ _ _).bind fun failed => ?_
  cases failed with
  | some outcome => exact keeps_pure _
  | none =>
    refine keeps_get.bind fun s => (h.walkServices _ _).bind fun failed => ?_
    cases failed with
    | some outcome => exact keeps_pure _
    | none => exact OfCore.outcomePass

/-- And reported. -/
theorem executeGattDiscover : Keeps inv executeGattDiscover := by
  refine keeps_get.bind fun s => keeps_ite (fun _ => keeps_pure _) fun _ => ?_
  exact h.runGattDiscovery.bind fun _ =>
    keeps_ite (fun _ => keeps_pure _) fun _ => OfCore.withServices _

/-- A read is a call and a wait. -/
theorem executeRead (valueHandle : UInt16) : Keeps inv (executeRead valueHandle) := by
  refine h.armRequest.bind fun _ => (h.emitCached _ _ _ _).bind fun _ => ?_
  refine (h.request _ _).bind fun _ => keeps_ite (fun _ => ?_) fun _ => ?_
  · exact (h.emitCached _ _ _ _).bind fun _ => keeps_pure _
  · refine (h.wait _ _).bind fun taken => h.answered _ taken ?_
    exact keeps_get.bind fun _ => (h.emitCached _ _ _ _).bind fun _ => OfCore.outcomePass

/-- So is a write. -/
theorem executeWrite (valueHandle : UInt16) (payload : List UInt8) :
    Keeps inv (executeWrite valueHandle payload) := by
  refine h.armRequest.bind fun _ => (h.emitCached _ _ _ _).bind fun _ => ?_
  refine (h.request _ _).bind fun _ => keeps_ite (fun _ => ?_) fun _ => ?_
  · exact (h.emitCached _ _ _ _).bind fun _ => keeps_pure _
  · refine (h.wait _ _).bind fun taken => h.answered _ taken ?_
    exact (h.emitCached _ _ _ _).bind fun _ => OfCore.outcomePass

/-- And a CCC write. -/
theorem subscribeExchange (valueHandle cccValue : UInt16) :
    Keeps inv (subscribeExchange valueHandle cccValue) := by
  refine Keeps.bind (h.modify fun _ => rfl) fun _ => h.armCcc.bind fun _ => ?_
  refine (h.gattCall _).bind fun _ => ?_
  refine keeps_ite (fun _ => keeps_pure _) fun _ => (h.waitIf _ _ _).bind fun _ => ?_
  refine keeps_get.bind fun s => keeps_ite (fun _ => keeps_pure _) fun _ => ?_
  refine keeps_ite (fun _ => keeps_pure _) fun _ => keeps_ite (fun _ => keeps_pure _) fun _ => ?_
  exact Keeps.bind (h.modify fun _ => rfl) fun _ => OfCore.outcomePass

/-- An earlier subscription is ended first. -/
theorem ensureSubscribed (valueHandle cccValue : UInt16) :
    Keeps inv (ensureSubscribed valueHandle cccValue) := by
  have hclear : Keeps inv clearExchange := by
    refine keeps_get.bind fun s => keeps_ite (fun _ => keeps_pure _) fun _ => ?_
    exact h.armCcc.bind fun _ => Keeps.bind (h.modify fun _ => rfl) fun _ =>
      (h.gattCall _).bind fun _ =>
      h.waitIf _ _ _
  refine keeps_get.bind fun s => keeps_ite (fun _ => OfCore.outcomePass) fun _ => ?_
  exact hclear.bind fun _ =>
    keeps_ite (fun _ => h.subscribeExchange valueHandle cccValue) fun _ => keeps_pure _

/-- What follows must keep the invariant too. -/
theorem subscribedThen (valueHandle cccValue : UInt16) {next : Act BridgeOutcome}
    (hnext : Keeps inv next) : Keeps inv (subscribedThen valueHandle cccValue next) :=
  (h.ensureSubscribed valueHandle cccValue).bind fun _ =>
    keeps_ite (fun _ => keeps_pure _) fun _ => hnext

/-- A notification is waited for. -/
theorem awaitNotification : Keeps inv awaitNotification := by
  refine (h.wait _ _).bind fun _ => keeps_get.bind fun s => ?_
  refine keeps_ite (fun _ => keeps_pure _) fun _ => ?_
  exact keeps_ite (fun _ => OfCore.outcomeDisconnected _) fun _ => OfCore.outcomePass

/-- Or a stream, until the link is down or the time is over. -/
theorem captureStream : Keeps inv captureStream := by
  refine h.captureReset.bind fun _ => Keeps.bind (h.modify fun _ => rfl) fun _ => ?_
  refine (h.clear .disconn).bind fun _ => ?_
  refine Keeps.bind (h.modify fun _ => rfl) fun _ => (h.wait _ _).bind fun _ => ?_
  refine Keeps.bind (h.modify fun _ => rfl) fun _ => ?_
  exact keeps_ite (fun _ => OfCore.outcomeDisconnected _) fun _ => OfCore.outcomePass

/-- Any operation on a characteristic. -/
theorem executeDataExchange (serviceUuid characteristicUuid : Uuid)
    (operation : GattOperation) :
    Keeps inv (executeDataExchange serviceUuid characteristicUuid operation) := by
  refine keeps_get.bind fun s => keeps_ite (fun _ => keeps_pure _) fun _ => ?_
  refine (h.resolveHandles _ _).bind fun _ => keeps_ite (fun _ => keeps_pure _) fun _ => ?_
  refine keeps_get.bind fun s => ?_
  cases operation with
  | read => exact h.executeRead _
  | write payload => exact h.executeWrite _ _
  | notify _ => exact h.subscribedThen _ _ h.awaitNotification
  | indicate _ => exact h.subscribedThen _ _ h.awaitNotification
  | subscribe => exact h.ensureSubscribed _ _
  | streamCapture => exact h.subscribedThen _ _ h.captureStream

/-! ## Protocol runs -/

/-- The sources are looked up behind a discovery. -/
theorem protocolResolveSources (defn : ProtocolDef) : Keeps inv (protocolResolveSources defn) := by
  refine h.runGattDiscovery.bind fun _ => keeps_ite (fun _ => keeps_pure _) fun _ => ?_
  exact Keeps.bind (h.modify fun _ => rfl) fun _ => h.resolveEach _

/-- A source that is recorded is one of the things the invariant allows for. -/
theorem recordSource (source : Source) (i : Nat) : Keeps inv (recordSource source i) :=
  (h.transcriptEmit _ _ _ _ _ _).bind fun _ => keeps_modify fun _ hs => h.sources _ hs

/-- Behind a CCC write. -/
theorem subscribeSource (source : Source) (i : Nat) : Keeps inv (subscribeSource source i) := by
  refine keeps_get.bind fun s => keeps_ite (fun _ => keeps_pure _) fun _ => ?_
  refine h.armCcc.bind fun _ => (h.gattCall _).bind fun _ => ?_
  refine keeps_ite (fun _ => keeps_pure _) fun _ => (h.waitIf _ _ _).bind fun _ => ?_
  refine keeps_get.bind fun s => keeps_ite (fun _ => keeps_pure _) fun _ => ?_
  refine keeps_ite (fun _ => keeps_pure _) fun _ => keeps_ite (fun _ => keeps_pure _) fun _ => ?_
  exact (h.recordSource source i).bind fun _ => keeps_pure _

/-- One after the other, up to the first that fails. -/
theorem subscribeEach (defn : ProtocolDef) : ∀ sources, Keeps inv (subscribeEach defn sources)
  | [] => OfCore.outcomePass
  | (source, i) :: sources => by
    have hone : Keeps inv (subscribeIfRead defn source i) :=
      keeps_ite (fun _ => h.subscribeSource source i) fun _ => keeps_pure none
    refine hone.bind fun failed => ?_
    cases failed with
    | some outcome => exact keeps_pure _
    | none => exact subscribeEach defn sources

/-- Recording starts over. -/
theorem protocolSubscribeSources (defn : ProtocolDef) :
    Keeps inv (protocolSubscribeSources defn) :=
  Keeps.bind (keeps_modify fun _ hs => h.sources _ hs) fun _ => h.subscribeEach defn _

/-- So it does when all are ended. -/
theorem protocolUnsubscribeAll (defn : ProtocolDef) : Keeps inv (protocolUnsubscribeAll defn) := by
  refine keeps_get.bind fun s => Keeps.bind (keeps_each fun x _ => ?_) fun _ => ?_
  · exact (h.gattCall _).bind fun _ => h.emitSource _ _ _ _ _
  · exact keeps_modify fun _ hs => h.sources _ hs

/-- A write with a response or without. -/
theorem protocolWriteOut (defn : ProtocolDef) (source : UInt8) (withResponse : Bool)
    (payload : List UInt8) : Keeps inv (protocolWriteOut defn source withResponse payload) := by
  refine keeps_ite (fun _ => keeps_pure _) fun _ => (h.emitSource _ _ _ _ _).bind fun _ => ?_
  refine keeps_get.bind fun s => keeps_ite (fun _ => ?_) fun _ => ?_
  · exact (h.gattCall _).bind fun _ => keeps_ite (fun _ => keeps_pure _) fun _ => OfCore.outcomePass
  · refine Keeps.bind (h.modify fun _ => rfl) fun _ => (h.clear .gatt).bind fun _ => ?_
    refine (h.request _ _).bind fun _ => keeps_ite (fun _ => keeps_pure _) fun _ => ?_
    refine keeps_get.bind fun s => (h.wait _ _).bind fun _ => keeps_get.bind fun _ => ?_
    refine keeps_ite (fun _ => h.abandon.bind fun _ => keeps_pure _) fun _ => ?_
    refine keeps_ite (fun _ => OfCore.outcomeDisconnected _) fun _ => ?_
    exact keeps_ite (fun _ => keeps_pure _) fun _ => OfCore.outcomePass

/-- The next event of the machine. -/
theorem nextStep (defn : ProtocolDef) (deadline : Nat) (run : EapRun) :
    Keeps inv (nextStep defn deadline run) := by
  refine h.takeNote.bind fun arrived => (h.feed defn deadline run arrived).bind fun next => ?_
  refine triple_get fun s => Triple.bind (q := fun _ => inv) ?_ fun _ => keeps_pure next
  rintro host _ ⟨rfl, hs⟩
  exact h.waited _ _ hs

/-- However many there are. -/
theorem protocolLoop (defn : ProtocolDef) (deadline : Nat) :
    ∀ rounds run step, Keeps inv (protocolLoop defn deadline rounds run step)
  | 0, _, _ => keeps_pure none
  | _ + 1, _, .done _ _ =>
    Keeps.map (Keeps.bind OfCore.outcomePass fun _ => keeps_pure _) some
  | rounds + 1, run, .wait _ =>
    (h.nextStep defn deadline run).bind fun next => protocolLoop defn deadline rounds next.1 next.2
  | rounds + 1, run, .write source withResponse payload _ =>
    (h.protocolWriteOut defn source withResponse payload).bind fun _ =>
      keeps_ite (fun _ => keeps_pure _) fun _ =>
        (h.nextStep defn deadline run).bind fun next =>
          protocolLoop defn deadline rounds next.1 next.2

/-- The whole run, from resolving to the end of the subscriptions. -/
theorem executeRunProtocol (defn : ProtocolDef) (entryState : UInt8) (deadline rounds : Nat) :
    Keeps inv (executeRunProtocol defn entryState deadline rounds) := by
  have hrun : Keeps inv (runMachine defn entryState deadline rounds) := by
    rw [runMachine]
    split
    · exact keeps_pure none
    · next run _ =>
      refine (h.protocolLoop defn deadline rounds _ _).bind fun result => ?_
      cases result with
      | none => exact keeps_pure none
      | some result => exact (h.protocolUnsubscribeAll defn).bind fun _ => keeps_pure _
  refine keeps_get.bind fun s => keeps_ite (fun _ => keeps_pure _) fun _ => ?_
  refine keeps_ite (fun _ => keeps_pure _) fun _ => (h.protocolResolveSources defn).bind fun _ => ?_
  refine keeps_ite (fun _ => keeps_pure _) fun _ => Keeps.bind (h.modify fun _ => rfl) fun _ => ?_
  refine (h.protocolSubscribeSources defn).bind fun _ => keeps_ite (fun _ => ?_) fun _ => hrun
  exact (h.protocolUnsubscribeAll defn).bind fun _ => keeps_pure _

/-! ## Everything but the monitors -/

/-- A call that was answered by the host had a connection. -/
theorem gattCall_live (call : GattCall) :
    Triple inv (Bridge.gattCall call) fun err s => inv s ∧ (s.live = true ∨ err = enotconn) := by
  refine triple_get fun s => ?_
  refine Triple.bind (q := fun _ s' => inv s' ∧ s'.live = s.live) ?_ fun _ => ?_
  · rintro host _ ⟨rfl, hs⟩
    exact ⟨h.gatt call hs, rfl⟩
  · refine triple_ite (fun hlive => ?_) fun _ => triple_pure fun s' hs => ⟨hs.1, .inr rfl⟩
    rintro host s' ⟨hs, hsame⟩
    exact ⟨h.answer host s' hs, .inl (hsame.trans hlive)⟩

variable
  (hwindow : ∀ targets, Keeps inv (executeGattMonitorWindow targets))
  (hstart : ∀ targets, Keeps inv (executeGattMonitorWindowStart targets))
  (hstop : Keeps inv executeGattMonitorStop)
include hwindow hstart hstop

/-- So every action but those of a monitor, which must keep the invariant themselves. -/
theorem dispatchAction (action : BridgeAction) (deadline rounds : Nat) :
    Keeps inv (dispatchAction action deadline rounds) := by
  cases action with
  | advertise localName advIntervalMs => exact (h.executeAdvertise _ _).map some
  | connect role target targetName => exact h.executeConnect role _ rounds
  | dataExchange serviceUuid characteristicUuid operation =>
    exact (h.executeDataExchange _ _ operation).map some
  | gattDiscover => exact h.executeGattDiscover.map some
  | gattMonitorAll => exact (hwindow none).map some
  | gattMonitorStart => exact (hstart none).map some
  | gattMonitorStop => exact hstop.map some
  | setSecurity level => exact (h.executeSetSecurity level).map some
  | bleUnbond => exact h.executeUnbond.map some
  | monitorSelected targets => exact (hwindow (some targets)).map some
  | monitorSelectedStart targets => exact (hstart (some targets)).map some
  | runProtocol defn entryState => exact h.executeRunProtocol defn entryState deadline rounds

/-- And every step. -/
theorem bleBridgeExecute (action : BridgeAction) (timeoutMs : UInt32) (rounds : Nat) :
    Keeps inv (bleBridgeExecute action timeoutMs rounds) := by
  refine Keeps.bind (fun _ _ hs => hs) fun now => h.captureReset.bind fun _ => ?_
  refine Keeps.bind (h.modify fun _ => rfl) fun _ => (h.clear .notify).bind fun _ => ?_
  refine (h.dispatchAction hwindow hstart hstop action _ rounds).bind fun outcome => ?_
  cases outcome with
  | some outcome => exact (h.stampLevel outcome).map some
  | none => exact keeps_pure none

/-- What the monitors and the reset keep, every command keeps. -/
theorem act (hreset : Keeps inv resetSubscriptions) (rounds : Nat) (command : Command) :
    Keeps inv (command.act rounds) := by
  cases command with
  | execute action timeoutMs =>
    exact (h.bleBridgeExecute hwindow hstart hstop action timeoutMs rounds).bind fun _ =>
      keeps_pure _
  | reset =>
    exact (h.bleBridgeReset hreset).map some
  | clearBonds => exact h.bleBridgeClearBonds.map some
  | idle => exact h.during.bind fun events => (h.happenings events).map some

end Stable

/-- What the monitor keeps is changed by neither the host nor GATT calls. -/
theorem stable_monitor (m : Monitor) : Stable fun s => s.monitor = m where
  same hcore hs := (congrArg Prod.fst hcore).trans hs
  quiet _ hs := hs
  idle _ _ hs := hs
  up _ _ hs := hs
  down hs := hs
  delivered _ _ _ hs := hs
  gatt _ hs := hs
  waited _ _ hs := hs
  sources _ hs := hs

end DevBench.Bridge
