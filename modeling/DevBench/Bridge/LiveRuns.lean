import DevBench.Bridge.LiveCalls
import DevBench.Bridge.Stable
import DevBench.Core.Machine

/-!
# Runs that keep the link

The monitor actions and the entry points, with what the calls of a whole run need: that
every unchecked wait ends with a connection, and that one is there when an open window is
ended.
-/

namespace DevBench.Bridge

open DevBench.Core DevBench.Core.Program DevBench.Eap DevBench.Bench DevBench.Wire

variable {needed : Monitor → List (UInt8 × Uuid) → Prop}

/-- What a connection is needed for stays the same. -/
theorem keeps_liveWhere_modify {f : BridgeState → BridgeState} (hlog : ∀ s, (f s).log = s.log)
    (hconn : ∀ s, (f s).link.activeConn = s.link.activeConn) {p : Prop} :
    Keeps (LiveWhere fun _ _ => p) (modify f : Act Unit) :=
  keeps_modify fun s hs => hs.change (hlog s) fun hs => by
    rw [hlog, BridgeState.live, hconn]
    exact hs

/-! ## Monitors -/

/-- A slot is armed by a call. -/
theorem triple_subscribeSlot_linked {slot : Nat} {label : Label} {handle value : UInt16} :
    Keeps Linked (subscribeSlot slot label handle value) := by
  refine (keeps_gattCall _).bind fun _ => Keeps.bind (keeps_when fun _ => ?_) fun _ => keeps_pure _
  exact (keeps_liveWhere_modify (fun _ => rfl) fun _ => rfl).bind fun _ =>
    keeps_liveWhere_modify (fun _ => rfl) fun _ => rfl

/-- One more characteristic is subscribed to behind the wait for the CCC write. -/
theorem triple_subscribeCharacteristic (place : Nat × Nat) (service : FoundService)
    (c : FoundCharacteristic) (another : Bool) :
    Triple Linked (subscribeCharacteristic place service c another) fun _ =>
      LiveWhere fun _ _ => another = true := by
  have hp : OfCore Linked := ofCore_liveWhere
  have hq : OfCore (LiveWhere fun _ _ => another = true) := ofCore_liveWhere
  have hrefused (reason : String) : Keeps (LiveWhere fun _ _ => another = true)
      (transcriptEmit bleGattDirLocal bleGattEvtError (some service.uuid) (some c.info.uuid) 0
        (ascii reason)) := hq.transcriptEmit _ _ _ _ _ _
  refine Triple.bind keeps_get fun s => triple_ite (fun _ => ?_) fun _ => ?_
  · exact (hrefused _).weaken fun s hs => hs.of_linked
  refine Triple.bind (q := fun _ => Linked) (fun host s hs => hs.push trivial) fun _ => ?_
  refine Triple.bind hp.armCcc fun _ => Triple.bind triple_subscribeSlot_linked fun err => ?_
  refine triple_ite (fun _ => (hrefused _).weaken fun s hs => hs.of_linked) fun _ => ?_
  refine Triple.bind (q := fun _ => LiveWhere fun _ _ => another = true) ?_ fun taken => ?_
  · refine triple_ite (fun _ => ?_) fun _ => triple_pure fun s hs => hs.of_linked
    exact triple_of_liveSoFar triple_wait
  refine keeps_ite (fun _ => ?_) fun _ => ?_
  · refine Keeps.bind (keeps_get.bind fun _ => keeps_when fun _ => ?_) fun _ => hrefused _
    exact keeps_liveWhere_modify (fun _ => rfl) fun _ => rfl
  · exact (hq.transcriptEmit _ _ _ _ _ _).bind fun _ =>
      keeps_liveWhere_modify (fun _ => rfl) fun _ => rfl

/-- There is a connection for the places that are wanted. -/
abbrev Wanting (targets : List GattTarget) (table : Table) (places : List (Nat × Nat))
    (s : BridgeState) : Prop :=
  LiveWhere (fun _ _ => places.any (wanted targets table) = true) s ∧ Frozen table s

/-- A place that is wanted is subscribed to while the link holds. -/
theorem triple_visit {targets : List GattTarget} {table : Table} {checks : TargetChecks}
    {place : Nat × Nat} {places : List (Nat × Nat)} :
    Triple (Wanting targets table (place :: places))
      (visit targets checks place (places.any (wanted targets table))) fun _ =>
        Wanting targets table places := by
  have hrest {s : BridgeState} (hs : Wanting targets table (place :: places) s) :
      Wanting targets table places s :=
    ⟨hs.1.mono fun h => by rw [List.any_cons, h, Bool.or_true], hs.2⟩
  refine triple_get fun s => Triple.of_pre fun s' hs => ?_
  obtain ⟨rfl, hs⟩ := hs
  have hstay {checks : TargetChecks} : Triple (· = s') (pure checks : Act TargetChecks)
      fun _ => Wanting targets table places := triple_pure fun _ h => h ▸ hrest hs
  split
  · exact hstay
  · next service c hplace =>
    split
    · exact hstay
    · next target htarget =>
      rw [hs.2.1] at hplace
      refine Triple.bind (q := fun _ => Wanting targets table places) ?_ fun _ =>
        triple_pure fun _ => id
      refine triple_ite (fun hcan => ?_) fun _ => triple_pure fun _ h => h ▸ hrest hs
      have hwanted : wanted targets table place = true := by
        simp only [wanted, hplace, Option.any_some, htarget, Option.isSome_some, Bool.true_and]
        exact hcan
      refine (triple_and (triple_subscribeCharacteristic place service c _)
        (keeps_frozen_subscribeCharacteristic place service c _)).weaken ?_
      rintro _ rfl
      exact ⟨hs.1.mono fun _ => by rw [List.any_cons, hwanted, Bool.true_or], hs.2⟩

/-- So are all of them. -/
theorem triple_visitAll {targets : List GattTarget} {table : Table} : ∀ places checks,
    Triple (Wanting targets table places) (visitAll targets checks places) fun _ => LiveSoFar
  | [], _ => triple_pure fun s hs => hs.1.soFar
  | place :: places, checks => by
    refine triple_get fun s => Triple.of_pre fun s' hs => ?_
    obtain ⟨rfl, hs⟩ := hs
    rw [hs.2.1]
    refine (triple_visit.bind fun _ => triple_visitAll places _).weaken ?_
    rintro _ rfl
    exact hs

/-- The walk over the targets follows a discovery that passed. -/
theorem keeps_monitorSubscribeMatching (targets : Targets) :
    Keeps LiveSoFar (monitorSubscribeMatching targets) := by
  have hdiscovered : Triple Linked runGattDiscovery fun o s =>
      Passed o s ∧ (o.kind = .pass → s.pending = none) :=
    (triple_and triple_runGattDiscovery_linked triple_runGattDiscovery).conseq
      (fun _ hs => ⟨hs, trivial⟩) fun _ _ hs => ⟨hs.1, hs.2.2⟩
  refine triple_checked (keeps_pure _) (hdiscovered.bind fun discovered => ?_)
  refine triple_ite (fun _ => triple_pure fun s hs => hs.1.soFar) fun hpass => ?_
  replace hpass := Classical.not_not.mp hpass
  refine triple_get fun s => ?_
  refine Triple.bind (q := fun _ => Wanting targets.list s.table s.table.places) ?_ fun _ => ?_
  · rintro host _ ⟨rfl, hs, hpending⟩
    have hlinked : Linked _ := hs.mono fun _ => hpass
    exact ⟨(hlinked.push (m := .recounted _) trivial).of_linked, rfl, hpending hpass⟩
  refine Triple.bind (q := fun _ => Wanting targets.list s.table s.table.places) ?_ fun _ => ?_
  · exact triple_modify fun s hs => ⟨hs.1.change rfl fun hs => hs, hs.2⟩
  refine (triple_visitAll _ _).bind fun checks => ?_
  split
  · refine keeps_get.bind fun s => Keeps.bind ?_ fun _ => keeps_pure _
    exact keeps_modify fun _ hs => hs.push trivial
  · exact OfCore.outcomePass

/-- Ending subscriptions makes a call only where some are counted. -/
theorem triple_monitorUnsubscribeAll_linked :
    Triple (LiveWhere fun m _ => 0 < m.count) monitorUnsubscribeAll fun _ => LiveSoFar := by
  refine triple_get fun s => Triple.bind (q := fun _ => LiveSoFar) ?_ fun _ => ?_
  · by_cases hzero : s.monitor.count = 0
    · rw [hzero]
      exact triple_pure fun s hs => hs.2.soFar
    · refine (Triple.weaken (keeps_each fun slot _ => ?_) fun s' hs => ?_).strengthen
        fun _ s (hs : Linked s) =>
        hs.soFar
      · refine keeps_get.bind fun _ => Keeps.bind ?_ fun _ =>
          ofCore_liveWhere.transcriptEmit _ _ _ _ _ _
        exact (keeps_gattCall _).bind fun _ => keeps_liveWhere_modify (fun _ => rfl) fun _ => rfl
      · obtain ⟨rfl, hs⟩ := hs
        exact hs.mono fun _ => Nat.pos_of_ne_zero hzero
  · exact keeps_liveWhere_modify (fun _ => rfl) fun _ => rfl

/-- The capture window ends with the subscriptions it began with. -/
theorem triple_captureWait (s : BridgeState) :
    Triple (fun s' => s' = s ∧ LiveSoFar s') (wait .disconn (.capture s.monitor.count)) fun _ =>
      LiveWhere fun m _ => 0 < m.count := by
  have hmonitor : Keeps (fun s' => s'.monitor = s.monitor)
      (wait .disconn (.capture s.monitor.count)) :=
    (stable_monitor s.monitor).wait .disconn _
  refine (triple_and triple_wait hmonitor).conseq ?_ fun taken s' hs => hs.1.mono fun h => ?_
  · rintro _ ⟨rfl, hs⟩
    exact ⟨hs, rfl⟩
  · rwa [hs.2] at h

/-- The result makes none. -/
theorem keeps_monitorResult : Keeps LiveSoFar monitorResult :=
  OfCore.outcomePass.bind fun _ => OfCore.withServices _

/-- Behind the capture the subscriptions that are held are ended. -/
theorem keeps_executeGattMonitorWindow_liveSoFar (targets : Targets) :
    Keeps LiveSoFar (executeGattMonitorWindow targets) := by
  have hq : OfCore LiveSoFar := ofCore_liveWhere
  refine (keeps_monitorSubscribeMatching targets).bind fun _ => keeps_ite (fun _ => keeps_pure _) ?_
  refine fun _ => Keeps.bind (hq.modify fun _ => rfl) fun _ => (hq.clear _).bind fun _ => ?_
  refine triple_get fun s => (triple_captureWait s).bind fun dropped => ?_
  refine triple_monitorUnsubscribeAll_linked.bind fun _ => ?_
  exact keeps_ite (fun _ => OfCore.outcomeDisconnected _) fun _ => keeps_monitorResult

/-- An open window with subscriptions needs a connection when it is ended. -/
abbrev Ending : BridgeState → Prop := LiveWhere fun m _ => m.windowOpen = true ∧ 0 < m.count

/-- A window left open ends those of an earlier one. -/
theorem triple_executeGattMonitorWindowStart (targets : Targets) :
    Triple Ending (executeGattMonitorWindowStart targets) fun _ => LiveSoFar := by
  have hends (s : BridgeState) : Triple (fun s' => s' = s ∧ Ending s')
      (when s.monitor.windowOpen monitorUnsubscribeAll) fun _ => LiveSoFar := by
    refine triple_ite (fun hopen => ?_) fun _ => triple_pure fun s hs => hs.2.soFar
    refine triple_monitorUnsubscribeAll_linked.weaken ?_
    rintro _ ⟨rfl, hs⟩
    exact hs.mono fun h => ⟨hopen, h⟩
  refine triple_get fun s => (hends s).bind fun _ => ?_
  refine Triple.bind (keeps_monitorSubscribeMatching targets) fun o => triple_ite (fun _ => ?_)
    fun _ => ?_
  · exact (keeps_liveWhere_modify (fun _ => rfl) fun _ => rfl).bind fun _ => keeps_pure o
  · exact (keeps_liveWhere_modify (fun _ => rfl) fun _ => rfl).bind fun _ => keeps_monitorResult

/-- So does its stop. -/
theorem triple_executeGattMonitorStop :
    Triple Ending executeGattMonitorStop fun _ => LiveSoFar := by
  refine triple_get fun s => triple_ite (fun _ host s hs => hs.2.soFar) fun hopen => ?_
  refine Triple.bind (triple_monitorUnsubscribeAll_linked.weaken ?_) fun _ => ?_
  · rintro _ ⟨rfl, hs⟩
    exact hs.mono fun h => ⟨Classical.not_not.mp hopen, h⟩
  · exact (keeps_liveWhere_modify (fun _ => rfl) fun _ => rfl).bind fun _ => keeps_monitorResult

/-- A reset looks for the link before each of its calls. -/
theorem keeps_resetSubscriptions_liveSoFar : Keeps LiveSoFar resetSubscriptions := by
  have hq : OfCore LiveSoFar := ofCore_liveWhere
  have hup {s : BridgeState} {c : Prop} [Decidable c] {m : Act Unit} (hc : c → s.live = true)
      (hm : Keeps Linked m) :
      Triple (fun s' => s' = s ∧ LiveSoFar s') (when c m) fun _ => LiveSoFar := by
    refine triple_ite (fun h => ?_) fun _ => triple_pure fun _ hs => hs.2
    refine hm.conseq ?_ fun _ _ hs => hs.soFar
    rintro _ ⟨rfl, hs⟩
    exact hs.linked (hc h)
  refine triple_get fun s => (hup And.right ?_).bind fun _ => ?_
  · exact (keeps_gattCall _).bind fun _ => keeps_pure ()
  refine Keeps.bind (hq.modify fun _ => rfl) fun _ => triple_get fun s => (hup id ?_).bind
    fun _ => ?_
  · exact keeps_each fun slot _ => (keeps_gattCall _).bind fun _ =>
      keeps_liveWhere_modify (fun _ => rfl) fun _ => rfl
  · exact (keeps_liveWhere_modify (fun _ => rfl) fun _ => rfl).bind fun _ => hq.modify fun _ => rfl

/-! ## Entry points -/

/-- The command ends an open window before it looks at the link. -/
def Command.EndsWindow : Command → Prop
  | execute .gattMonitorStart _ | execute .gattMonitorStop _ => True
  | execute (.monitorSelectedStart _) _ => True
  | _ => False

/-- An action needs a connection at its start where it ends an open window. -/
theorem triple_dispatchAction (action : BridgeAction) (timeoutMs : UInt32) (deadline rounds : Nat) :
    Triple (LiveWhere fun m _ => (Command.execute action timeoutMs).EndsWindow ∧
        m.windowOpen = true ∧ 0 < m.count)
      (dispatchAction action deadline rounds) fun _ => LiveSoFar := by
  have h := keptWithoutCalls_liveSoFar
  have hsome {m : Act BridgeOutcome} {pre : BridgeState → Prop}
      (hm : Triple pre m fun _ => LiveSoFar) : Triple pre (some <$> m) fun _ => LiveSoFar :=
    hm.bind fun _ => keeps_pure _
  have hends {m : Act BridgeOutcome} (hm : Triple Ending m fun _ => LiveSoFar) :
      Triple (LiveWhere fun m _ => True ∧ m.windowOpen = true ∧ 0 < m.count) (some <$> m)
        fun _ => LiveSoFar := hsome (hm.weaken fun s hs => hs.mono fun h => ⟨trivial, h⟩)
  cases action with
  | gattMonitorStart => exact hends (triple_executeGattMonitorWindowStart none)
  | gattMonitorStop => exact hends triple_executeGattMonitorStop
  | monitorSelectedStart targets =>
    exact hends (triple_executeGattMonitorWindowStart (some targets))
  | advertise localName advIntervalMs => exact triple_of_liveSoFar (hsome (h.executeAdvertise _ _))
  | connect role target targetName => exact triple_of_liveSoFar (h.executeConnect role _ rounds)
  | dataExchange serviceUuid characteristicUuid operation =>
    exact triple_of_liveSoFar (hsome (keeps_executeDataExchange _ _ operation))
  | gattDiscover => exact triple_of_liveSoFar (hsome keeps_executeGattDiscover)
  | gattMonitorAll =>
    exact triple_of_liveSoFar (hsome (keeps_executeGattMonitorWindow_liveSoFar none))
  | setSecurity level => exact triple_of_liveSoFar (hsome (h.executeSetSecurity level))
  | bleUnbond => exact triple_of_liveSoFar (hsome h.executeUnbond)
  | monitorSelected targets =>
    exact triple_of_liveSoFar (hsome (keeps_executeGattMonitorWindow_liveSoFar (some targets)))
  | runProtocol defn entryState =>
    exact triple_of_liveSoFar (keeps_executeRunProtocol defn entryState deadline rounds)

/-- So does a command. -/
theorem triple_act (rounds : Nat) (command : Command) :
    Triple (LiveWhere fun m _ => command.EndsWindow ∧ m.windowOpen = true ∧ 0 < m.count)
      (command.act rounds) fun _ => LiveSoFar := by
  have h := keptWithoutCalls_liveSoFar
  cases command with
  | execute action timeoutMs =>
    have hp : OfCore (LiveWhere fun m _ => (Command.execute action timeoutMs).EndsWindow ∧
        m.windowOpen = true ∧ 0 < m.count) := ofCore_liveWhere
    refine Triple.bind (q := fun _ => LiveSoFar) ?_ fun _ => keeps_pure _
    refine Triple.bind (q := fun _ => LiveWhere fun m _ =>
      (Command.execute action timeoutMs).EndsWindow ∧ m.windowOpen = true ∧ 0 < m.count)
      (fun _ _ hs => hs) fun now => Triple.bind hp.captureReset fun _ => ?_
    refine Triple.bind (hp.modify fun _ => rfl) fun _ => Triple.bind (hp.clear _) fun _ => ?_
    refine (triple_dispatchAction action timeoutMs _ rounds).bind fun outcome => ?_
    cases outcome with
    | some outcome => exact (h.stampLevel outcome).map some
    | none => exact keeps_pure none
  | reset =>
    exact triple_of_liveSoFar ((h.bleBridgeReset keeps_resetSubscriptions_liveSoFar).map some)
  | clearBonds => exact triple_of_liveSoFar (h.bleBridgeClearBonds.map some)
  | idle =>
    exact triple_of_liveSoFar (h.during.bind fun events => (h.happenings events).map some)

/-! ## Runs -/

/-- Every unchecked wait of the episode, so far as it has come, ends with a connection, and
so does an open window with subscriptions. -/
structure Attended (s : BridgeState) (t : Episode) : Prop where
  waits : ∀ m ∈ (s.after t).log, m.Kept
  ends : t.command.EndsWindow → s.monitor.windowOpen = true → 0 < s.monitor.count → s.live = true

instance : DecidablePred Command.EndsWindow
  | .execute action _ => by cases action <;> unfold Command.EndsWindow <;> infer_instance
  | .reset | .clearBonds | .idle => isFalse id

instance (s : BridgeState) (t : Episode) : Decidable (Attended s t) :=
  decidable_of_iff
    ((∀ m ∈ (s.after t).log, m.Kept) ∧ (t.command.EndsWindow → s.monitor.windowOpen = true →
      0 < s.monitor.count → s.live = true))
    ⟨fun h => ⟨h.1, h.2⟩, fun h => ⟨h.1, h.2⟩⟩

/-- In every run whose episodes are all attended every GATT call is made with a connection,
in an episode that has not come to its end, too. -/
theorem gatt_live_of_attended {s : BridgeState}
    (h : Reaches BridgeState.next Attended .initial s) :
    (∀ call live, .gatt call live ∈ s.log → live = true) ∧
      ∀ t, Attended s t → ∀ call live, .gatt call live ∈ (s.after t).log → live = true := by
  have hepisode {s : BridgeState} {t : Episode} (hs : LiveSoFar s) (ht : Attended s t) :
      LiveSoFar (s.after t) := by
    refine triple_act t.rounds t.command t.host s fun hok => ⟨(hs hok).1, fun h => ?_⟩
    exact ht.ends h.1 h.2.1 h.2.2
  have hinv : LiveSoFar s ∧ ∀ m ∈ s.log, m.Kept := by
    refine h.invariant (fun s => LiveSoFar s ∧ ∀ m ∈ s.log, m.Kept) ?_ ?_
    · exact ⟨fun _ => ⟨nofun, False.elim⟩, nofun⟩
    · intro s s' t hs ht hstep
      obtain ⟨_, _, rfl⟩ := Option.map_eq_some_iff.mp hstep
      exact ⟨hepisode hs.1 ht, ht.waits⟩
  refine ⟨fun call live hmark => (hinv.1 hinv.2).1 _ hmark, fun t ht call live hmark => ?_⟩
  exact (hepisode hinv.1 ht ht.waits).1 _ hmark

/-- The peer is connected to and a window opened over its one characteristic; the peer is
gone at the given turn. -/
def openThenLose (turn : Nat) : List (Nat × List HostEvent) :=
  [(1, sampleConnect), (6, sampleService), (8, sampleCharacteristic), (10, [.cccAnswer 0]),
    (turn, [.disconnected samplePeer 0x13])]

/-- A window that is opened and ended while the peer stays makes its calls with a
connection. -/
theorem gatt_live_of_attended_stop : ∃ s : BridgeState,
    .gatt (.unsubscribe (.monitor 0)) true ∈ s.log ∧
      (∀ call live, .gatt call live ∈ s.log → live = true) ∧
      ∀ t, Attended s t → ∀ call live, .gatt call live ∈ (s.after t).log → live = true := by
  have hplay : ((play BridgeState.next Attended .initial
      [.scripted (openThenLose 99) (.connect .central none none),
        .scripted (openThenLose 99) .gattMonitorStart,
        .scripted (openThenLose 99) .gattMonitorStop]).any fun s =>
      .gatt (.unsubscribe (.monitor 0)) true ∈ s.log) = true := by
    decide +kernel
  obtain ⟨s, hs, hcall⟩ := (Option.any_eq_true _ _).mp hplay
  exact ⟨s, of_decide_eq_true hcall, gatt_live_of_attended (reaches_of_play .start hs)⟩

/-- A window whose peer is gone is ended with a call that has no connection. -/
theorem gatt_not_live : ∃ s : BridgeState,
    Reaches BridgeState.next (fun _ _ => True) .initial s ∧
      .gatt (.unsubscribe (.monitor 0)) false ∈ s.log := by
  have hplay : ((play BridgeState.next (fun _ _ => True) .initial
      [.scripted (openThenLose 12) (.connect .central none none),
        .scripted (openThenLose 12) .gattMonitorStart, ⟨.idle, .scripted (openThenLose 12), 1⟩,
        .scripted (openThenLose 12) .gattMonitorStop]).any fun s =>
      .gatt (.unsubscribe (.monitor 0)) false ∈ s.log) = true := by
    decide +kernel
  obtain ⟨s, hs, hcall⟩ := (Option.any_eq_true _ _).mp hplay
  exact ⟨s, reaches_of_play .start hs, of_decide_eq_true hcall⟩

end DevBench.Bridge
