import DevBench.Bench.ProtocolStep

/-!
# What the bridge is given and gives back

`struct action` and `struct outcome` (`ble_bridge.h`), the translation of a received
step into the one and of the other into a `StepResult`.
-/

namespace DevBench.Bench

open DevBench.Core DevBench.Eap DevBench.Wire

/-- `enum ble_role`. -/
inductive BleRole where
  | central | peripheral
  deriving DecidableEq, Repr

/-- `enum ble_address_kind`. -/
inductive BleAddressKind where
  | publicAddr | randomAddr
  deriving DecidableEq, Repr

/-- `struct action`: the kind with the parameters it carries. -/
inductive BridgeAction where
  | advertise (localName : Option (CharArray (dbmMaxLocalNameLen + 1))) (advIntervalMs : UInt16)
  | connect (role : BleRole) (target : Option (Vector UInt8 6 × BleAddressKind))
      (targetName : Option (CharArray (dbmMaxLocalNameLen + 1)))
  | dataExchange (serviceUuid characteristicUuid : Uuid) (operation : GattOperation)
  | gattDiscover
  | gattMonitorAll
  | gattMonitorStart
  | gattMonitorStop
  | setSecurity (level : UInt8)
  | bleUnbond
  | monitorSelected (targets : Slots GattTarget dbmMaxMonitorTargets)
  | monitorSelectedStart (targets : Slots GattTarget dbmMaxMonitorTargets)
  | runProtocol (defn : ProtocolDef) (entryState : UInt8)
  deriving DecidableEq, Repr

/-- A protocol of zero bytes, as behind the decoded ones of a study. -/
def zeroProtocol : ProtocolDef := ⟨.empty, .empty, .empty, .empty⟩

/-- A protocol is subscripted with the index the step names. -/
def stepToAction (study : StudyStart) (step : Step) : BridgeAction :=
  match step.action with
  | .bleAdvertise localName advIntervalMs =>
    .advertise (localName.map CharArray.trimmed) advIntervalMs
  | .bleConnect role target targetName =>
    .connect (if role = 1 then .peripheral else .central)
      (target.map fun t => (t.address, if t.kind = 1 then .randomAddr else .publicAddr))
      (targetName.map CharArray.trimmed)
  | .dataExchange serviceUuid characteristicUuid operation =>
    .dataExchange serviceUuid characteristicUuid operation
  | .gattDiscover => .gattDiscover
  | .gattMonitorAll => .gattMonitorAll
  | .gattMonitorStart => .gattMonitorStart
  | .gattMonitorStop => .gattMonitorStop
  | .bleSecurity level => .setSecurity level
  | .bleUnbond => .bleUnbond
  | .gattMonitorSelected targets => .monitorSelected targets
  | .gattMonitorSelectedStart targets => .monitorSelectedStart targets
  | .runProtocol protocol entryState =>
    .runProtocol (study.protocols.items.getD protocol.toNat zeroProtocol) entryState

/-- The reason a step is failed for before it is translated. -/
def stepFault (study : StudyStart) (step : Step) : Option (List UInt8) :=
  match step.action with
  | .runProtocol protocol entryState => protocolIndexFault study protocol entryState
  | _ => none

/-- `enum outcome_kind` with the reason a failure carries. -/
inductive OutcomeKind where
  | pass
  | fail (reason : CharArray (dbmMaxFailReasonLen + 1))
  | timedOut
  deriving DecidableEq, Repr

/-- `struct outcome`; a null pointer is no value. -/
structure BridgeOutcome where
  kind : OutcomeKind
  capturedData : Option (List UInt8)
  gattServices : Option (List ServiceInfo)
  securityLevel : Option UInt8
  protocol : Option ProtocolOutcome
  deriving DecidableEq, Repr

/-- An outcome of zero bytes but for its kind. -/
def BridgeOutcome.bare (kind : OutcomeKind) : BridgeOutcome := ⟨kind, none, none, none, none⟩

/-- The outcome as it is reported, its reason cut at the first zero byte. -/
def OutcomeKind.reported : OutcomeKind → Outcome
  | pass => ⟨0, .copy []⟩
  | fail reason => ⟨1, reason.trimmed⟩
  | timedOut => ⟨2, .copy []⟩

/-- A pointer is followed when the count beside it is not zero. -/
def nonEmpty {α : Type} (xs : Option (List α)) : Option (List α) := xs.filter (· ≠ [])

/-- The message `send_step_result` sends. -/
def stepResultOf (stepIndex : UInt32) (stepName : CharArray (dbmMaxNameLen + 1))
    (o : BridgeOutcome) : StepResult where
  stepIndex := stepIndex
  stepName := stepName.trimmed
  outcome := o.kind.reported
  capturedData := (nonEmpty o.capturedData).map Slots.clamp
  gattServices := (nonEmpty o.gattServices).map Slots.clamp
  securityLevel := o.securityLevel
  protocol := o.protocol.map fun p =>
    ⟨p.finalState.trimmed, p.outcome.tag, p.outcome.failReason.trimmed⟩

/-- A step that passes its check hands over the protocol it was checked against. -/
theorem stepToAction_runProtocol {study : StudyStart} {step : Step} {protocol entryState : UInt8}
    (haction : step.action = .runProtocol protocol entryState)
    (h : stepFault study step = none) :
    ∃ defn, study.protocols.items[protocol.toNat]? = some defn ∧
      entryState.toNat < defn.states.items.length ∧
      stepToAction study step = .runProtocol defn entryState := by
  have hvalid : protocolIndexValid study protocol entryState = true := by
    simp only [stepFault, haction] at h
    rw [protocolIndexValid, h, Option.isNone_none]
  obtain ⟨defn, hdefn, hlt⟩ := protocolIndexValid_iff.mp hvalid
  refine ⟨defn, hdefn, hlt, ?_⟩
  simp only [stepToAction, haction, List.getD_eq_getElem?_getD, hdefn, Option.getD_some]

end DevBench.Bench
