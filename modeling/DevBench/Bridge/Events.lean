import DevBench.Bridge.Execute

/-!
# What the host can do

The callbacks change the state of the bridge in a handful of ways. An invariant kept by
each of these is kept by every event: the callbacks are gone through here once for all.
-/

namespace DevBench.Bridge

open DevBench.Core DevBench.Core.Program DevBench.Eap DevBench.Bench DevBench.Wire

/-! ## What the callbacks change -/

/-- The monitor and its subscriptions, those of a protocol run, the connection and the log. -/
def BridgeState.core (s : BridgeState) :
    Monitor × List Armed × List (UInt8 × Uuid) × Option BtAddr × List Mark :=
  (s.monitor, s.armed, s.protocol.subscribed, s.link.activeConn, s.log)

/-- What is logged has nothing to do with GATT calls, waits or monitors. -/
def Mark.Quiet : Mark → Prop
  | initiated .. | advertiser .. | transcript _ | sample _ | dropped _ => True
  | _ => False

/-- That with what the callbacks of a GATT procedure change, the turn, the semaphores of
procedures and CCC writes, and the notes of a protocol run. -/
def BridgeState.view (s : BridgeState) :
    (Monitor × List Armed × List (UInt8 × Uuid) × Option BtAddr × List Mark) × Bool ×
      Option Procedure × Table × Nat × Nat × (Bool × Bool) × List Note × Nat :=
  (s.core, s.link.linkLost, s.pending, s.table, s.discovering, s.turn,
    (s.given .gatt, s.given .ccc), s.protocol.queue, s.protocol.notificationsDropped)

/-- A note of a protocol run is queued, or dropped where there is no room. -/
def BridgeState.arrive (s : BridgeState) (note : Note) : BridgeState :=
  let fits := s.protocol.queue.length < protocolNotifyQueueSlots
  { s with
    protocol.queue := if fits then s.protocol.queue ++ [note] else s.protocol.queue
    protocol.notificationsDropped :=
      if fits then s.protocol.notificationsDropped else s.protocol.notificationsDropped + 1 }

/-- There is room for the note. -/
theorem BridgeState.arrive_queued {s : BridgeState} (note : Note)
    (h : s.protocol.queue.length < protocolNotifyQueueSlots) :
    s.arrive note = { s with protocol.queue := s.protocol.queue ++ [note] } := by
  simp only [arrive, if_pos h]

/-- There is none. -/
theorem BridgeState.arrive_dropped {s : BridgeState} (note : Note)
    (h : ¬ s.protocol.queue.length < protocolNotifyQueueSlots) :
    s.arrive note =
      { s with protocol.notificationsDropped := s.protocol.notificationsDropped + 1 } := by
  simp only [arrive, if_neg h]

/-- A transcript entry of this kind says nothing of a walk over the peer's services. -/
def Unlisted (kind : UInt8) : Prop :=
  kind ≠ bleGattEvtDiscoveryStarted ∧ kind ≠ bleGattEvtServiceDiscovered ∧
    kind ≠ bleGattEvtCharacteristicDiscovered

instance (kind : UInt8) : Decidable (Unlisted kind) := inferInstanceAs (Decidable (_ ∧ _))

/-- The mark is quiet, and no entry of a walk. -/
def Mark.Unlisted : Mark → Prop
  | initiated .. | advertiser .. | sample _ | dropped _ => True
  | transcript entry => Bridge.Unlisted entry.kind
  | _ => False

/-- What is not listed is quiet all the more. -/
theorem Mark.Unlisted.quiet {m : Mark} (h : m.Unlisted) : m.Quiet := by
  cases m <;> trivial

/-- A walk that is outstanding finds a service without characteristics as yet, or a
characteristic of the service it is at; this is the table behind it, and its entry. -/
inductive Found (s : BridgeState) : Table → TranscriptEntry → Prop
  | service {time : UInt64} (service : FoundService)
    (h : s.table.items.length < bleMaxDiscoveredServices) :
    s.pending = some .allServices → service.characteristics.items = [] →
    Found s (push s.table service h)
      ⟨time, bleGattDirIn, bleGattEvtServiceDiscovered, some service.uuid, none, 0, .clamp []⟩
  | characteristic {time : UInt64} {service : FoundService} (c : FoundCharacteristic)
    (h : service.characteristics.items.length < bleMaxCharsPerService) :
    s.pending = some .allCharacteristics → s.table.items[s.discovering]? = some service →
    Found s (setService s.table s.discovering (service.add c h))
      ⟨time, bleGattDirIn, bleGattEvtCharacteristicDiscovered, some service.uuid,
        some c.info.uuid, c.info.properties, .clamp []⟩

/-- Nothing is found when no procedure is outstanding. -/
theorem Found.pending {s : BridgeState} {table : Table} {entry : TranscriptEntry}
    (h : Found s table entry) : s.pending ≠ none := by
  cases h with
  | service _ _ hpending => exact hpending ▸ Option.some_ne_none _
  | characteristic _ _ hpending => exact hpending ▸ Option.some_ne_none _

/-- The event gives `ccc_sem`: a CCC write is answered, or the subscription of a data exchange
is over. -/
def HostEvent.givesCcc : HostEvent → Bool
  | cccAnswer _ => true
  | notified .exchange none => true
  | _ => false

/-- The invariant is kept by every change a callback makes, but for the giving of `ccc_sem`. -/
structure KeptByCallbacks (inv : BridgeState → Prop) : Prop where
  other : ∀ {s s' : BridgeState}, s'.view = s.view → inv s → inv s'
  turn : ∀ {s : BridgeState}, inv s → inv { s with turn := s.turn + 1 }
  quiet : ∀ {s : BridgeState} {m : Mark}, m.Unlisted → inv s → inv (s.push m)
  up : ∀ {s : BridgeState} (conn : BtAddr), s.link.activeConn = none → inv s →
    inv { s with link.activeConn := some conn }
  lost : ∀ {s : BridgeState} (conn : BtAddr) (reason : UInt8), inv s → inv (s.lose conn reason)
  done : ∀ {s : BridgeState}, inv s → inv { s.give .gatt with pending := none }
  found : ∀ {s : BridgeState} {table : Table} {entry : TranscriptEntry}, Found s table entry →
    inv s → inv ({ s with table := table }.push (.transcript entry))
  arrived : ∀ {s : BridgeState} (note : Note), inv s → inv (s.arrive note)
  delivered : ∀ {s : BridgeState} {on : Armed} (data : List UInt8) (host : Host), on ∈ s.armed →
    inv s → inv (monitorNotifyCb on (some data) host s).2

/-- The invariant is kept by whatever the host can do. -/
structure KeptByHost (inv : BridgeState → Prop) : Prop extends KeptByCallbacks inv where
  ccc : ∀ {s : BridgeState}, inv s → inv (s.give .ccc)

/-! ## The callbacks -/

namespace KeptByCallbacks

variable {inv : BridgeState → Prop} (h : KeptByCallbacks inv)
include h

/-- A program that changes nothing the invariant is about. -/
theorem step {α : Type} {m : Act α} (hm : ∀ host s, (m host s).2.view = s.view) :
    Keeps inv m := fun host s hs => h.other (hm host s) hs

/-- A change of what the invariant is not about. -/
theorem modify {f : BridgeState → BridgeState} (hf : ∀ s, (f s).view = s.view) :
    Keeps inv (Program.modify f : Act Unit) := h.step fun _ => hf

/-- A mark of a callback. -/
theorem note {m : Mark} (hm : m.Unlisted) : Keeps inv (note m) := fun _ _ hs => h.quiet hm hs

/-- An answer of the host takes a turn. -/
theorem answer : Keeps inv answer := fun _ _ hs => h.turn hs

/-- So does what happens during a wait. -/
theorem during : Keeps inv during := fun _ _ hs => h.turn hs

/-- A semaphore of neither a procedure nor a CCC write is given. -/
theorem give (sem : Sem) (hgatt : sem ≠ .gatt) (hccc : sem ≠ .ccc) : Keeps inv (give sem) := by
  refine h.modify fun s => ?_
  cases sem <;> first | rfl | exact absurd rfl hgatt | exact absurd rfl hccc

/-- An entry that says nothing of a walk. -/
theorem transcriptEmit {kind : UInt8} (hkind : Unlisted kind) (direction : UInt8)
    (serviceUuid characteristicUuid : Option Uuid) (attStatus : UInt8) (payload : List UInt8) :
    Keeps inv
      (transcriptEmit direction kind serviceUuid characteristicUuid attStatus payload) :=
  fun _ _ hs => h.quiet hkind hs

/-- The entry of a notification. -/
theorem emitNotification (payload : List UInt8) :
    Keeps inv (emitCached bleGattDirIn bleGattEvtNotification 0 payload) :=
  keeps_get.bind fun _ => h.transcriptEmit (by decide) _ _ _ _ _

/-- The end of a procedure gives `gatt_sem`. -/
theorem procedureDone : Keeps inv procedureDone := keeps_modify fun _ hs => h.done hs

/-- The captured value is none of the invariant's business. -/
theorem captureReset : Keeps inv captureReset := h.modify fun _ => rfl

theorem captureAppend (data : List UInt8) : Keeps inv (captureAppend data) :=
  h.modify fun _ => rfl

/-- The first connection that comes up becomes the bridge's. -/
theorem connectedCb (conn : BtAddr) (err : UInt8) : Keeps inv (connectedCb conn err) := by
  refine Keeps.bind (h.modify fun _ => rfl) fun _ => ?_
  refine Keeps.bind (keeps_modify fun s hs => ?_) fun _ => h.give .conn (by decide) (by decide)
  split
  · next hup => exact h.up conn hup.2 hs
  · exact hs

/-- A lost connection takes what belonged to it. -/
theorem disconnectedCb (conn : BtAddr) (reason : UInt8) :
    Keeps inv (disconnectedCb conn reason) := by
  refine Keeps.bind (keeps_modify fun s hs => h.lost conn reason hs) fun _ => ?_
  exact (h.give .notify (by decide) (by decide)).bind fun _ =>
    h.give .disconn (by decide) (by decide)

/-- The scan is stopped, or goes on. -/
theorem btLeScanStop : Keeps inv btLeScanStop := by
  refine h.answer.bind fun _ => Keeps.bind (keeps_when fun _ => ?_) fun _ => keeps_pure _
  exact h.modify fun _ => rfl

/-- A connection that is begun is logged. -/
theorem btConnLeCreate (addr : BtAddr) : Keeps inv (btConnLeCreate addr) := by
  refine h.answer.bind fun _ => keeps_get.bind fun s => ?_
  exact Keeps.bind (keeps_when fun _ => h.note trivial) fun _ => keeps_pure _

/-- A scan that is over keeps the invariant, however the host answers. -/
theorem scanMatched (addr : BtAddr) : Keeps inv (scanMatched addr) := by
  have hrefused : Keeps inv (do
      Program.modify fun s => { s with link.connErr := btHciErrUnspecified }
      Bridge.give .conn : Act Unit) :=
    Keeps.bind (h.modify fun _ => rfl) fun _ => h.give .conn (by decide) (by decide)
  refine Keeps.bind (h.modify fun _ => rfl) fun _ => h.btLeScanStop.bind fun _ => ?_
  refine keeps_ite (fun _ => hrefused) fun _ => (h.btConnLeCreate addr).bind fun _ => ?_
  exact keeps_ite (fun _ => hrefused) fun _ => h.modify fun _ => rfl

/-- An advertisement is heard, and recorded while a scan is on. -/
theorem hearAdvertised (addr : BtAddr) (advType : UInt8) (elements : List BtData) :
    Keeps inv (hearAdvertised addr advType elements) := by
  refine Keeps.bind (h.modify fun _ => rfl) fun _ => keeps_get.bind fun _ => ?_
  refine keeps_when fun _ => keeps_get.bind fun s => keeps_ite (fun _ => keeps_pure ()) fun _ => ?_
  refine Keeps.bind (h.modify fun _ => rfl) fun _ => ?_
  split
  · exact keeps_pure ()
  · exact keeps_when fun _ => h.scanMatched addr

/-- The service asked for is found, and the procedure is over. -/
theorem discoverServiceCb (handle endHandle : UInt16) :
    Keeps inv (discoverServiceCb handle endHandle) :=
  Keeps.bind (h.modify fun _ => rfl) fun _ => h.procedureDone

/-- The same for the characteristic. -/
theorem discoverChrcCb (valueHandle : UInt16) : Keeps inv (discoverChrcCb valueHandle) :=
  Keeps.bind (h.modify fun _ => rfl) fun _ => h.procedureDone

/-- The walk over the services finds one, or is over with a full table. -/
theorem discoverAllServicesCb (handle endHandle : UInt16) (uuid : BtUuid) :
    Triple (fun s => s.pending = some .allServices ∧ inv s)
      (discoverAllServicesCb handle endHandle uuid) fun _ => inv := by
  refine triple_get fun s => ?_
  split
  · next hroom =>
    rintro host _ ⟨rfl, hpending, hs⟩
    exact h.found (.service ⟨fromBtUuid uuid, handle + 1, endHandle, .empty⟩ hroom hpending rfl) hs
  · exact h.procedureDone.weaken fun _ hs => hs.2.2

/-- The walk over the characteristics finds one, or is over with a full service. -/
theorem discoverAllCharsCb (valueHandle : UInt16) (properties : UInt8) (uuid : BtUuid) :
    Triple (fun s => s.pending = some .allCharacteristics ∧ inv s)
      (discoverAllCharsCb valueHandle properties uuid) fun _ => inv := by
  refine triple_get fun s => ?_
  split
  · exact triple_pure fun _ hs => hs.2.2
  · next service hservice =>
    split
    · next hroom =>
      rintro host _ ⟨rfl, hpending, hs⟩
      exact h.found (.characteristic ⟨⟨fromBtUuid uuid, properties⟩, valueHandle⟩ hroom hpending
        hservice) hs
    · exact h.procedureDone.weaken fun _ hs => hs.2.2

/-- A piece of the value, or the end of the read. -/
theorem readCb (err : UInt8) (data : Option (List UInt8)) : Keeps inv (readCb err data) := by
  refine keeps_ite (fun _ => ?_) fun _ => ?_
  · exact Keeps.bind (h.modify fun _ => rfl) fun _ => h.procedureDone
  · split
    · exact h.procedureDone
    · exact h.captureAppend _

/-- A write is answered, and over. -/
theorem writeCb (err : UInt8) : Keeps inv (writeCb err) :=
  Keeps.bind (h.modify fun _ => rfl) fun _ => h.procedureDone

/-- The end of the subscription gives `ccc_sem`, a notification does not. -/
theorem notifyCb (data : Option (List UInt8)) (hccc : data = none → Keeps inv (Bridge.give .ccc)) :
    Keeps inv (notifyCb data) := by
  cases data with
  | none => exact Keeps.bind (h.modify fun _ => rfl) fun _ => hccc rfl
  | some data =>
    refine keeps_get.bind fun s => keeps_ite (fun _ => ?_) fun _ => ?_
    · exact Keeps.bind (h.note trivial) fun _ => h.emitNotification data
    · exact (h.emitNotification data).bind fun _ => h.captureReset.bind fun _ =>
        (h.captureAppend data).bind fun _ => h.give .notify (by decide) (by decide)

/-- A notification is queued for the protocol, or dropped. -/
theorem protocolNotifyCb (slot : Nat) (data : Option (List UInt8)) :
    Keeps inv (protocolNotifyCb slot data) := by
  cases data with
  | none => exact keeps_pure ()
  | some data =>
    refine triple_get fun s => ?_
    dsimp only
    split
    · exact triple_pure fun _ hs => hs.2
    · next source uuid _ =>
      refine triple_ite (fun hroom => ?_) fun hfull => ?_
      · rintro host _ ⟨rfl, hs⟩
        have harrived := h.arrived ⟨source, .clamp data⟩ hs
        rwa [BridgeState.arrive_queued _ hroom] at harrived
      · rintro host _ ⟨rfl, hs⟩
        have harrived := h.arrived ⟨source, .clamp data⟩ hs
        rw [BridgeState.arrive_dropped _ hfull] at harrived
        exact h.quiet (m := .dropped uuid) trivial harrived

omit h in
/-- A callback runs in a state whose procedure is the one it is registered for. -/
theorem whenPending {procedure : Procedure} {act : Act Unit}
    (hact : Triple (fun s => s.pending = some procedure ∧ inv s) act fun _ => inv) :
    Keeps inv (whenPending procedure act) := by
  refine triple_get fun s => triple_ite (fun hpending => ?_) fun _ => triple_pure fun _ => And.right
  exact hact.weaken fun s' hs => ⟨hs.1 ▸ hpending, hs.2⟩

omit h in
/-- A callback that needs nothing of its procedure. -/
theorem whenever {procedure : Procedure} {act : Act Unit} (hact : Keeps inv act) :
    Keeps inv (Bridge.whenPending procedure act) :=
  whenPending (hact.weaken fun _ => And.right)

/-- Whatever happens, the invariant is kept, if `ccc_sem` may be given where the event does so. -/
theorem happen : ∀ event : HostEvent, (event.givesCcc = true → Keeps inv (Bridge.give .ccc)) →
    Keeps inv event.happen
  | .connected conn err, _ => h.connectedCb conn err
  | .disconnected conn reason, _ => h.disconnectedCb conn reason
  | .advertised addr advType elements, _ => h.hearAdvertised addr advType elements
  | .service handle endHandle uuid, _ =>
    (whenever (h.discoverServiceCb handle endHandle)).bind fun _ =>
      whenPending (h.discoverAllServicesCb handle endHandle uuid)
  | .characteristic valueHandle properties uuid, _ =>
    (whenever (h.discoverChrcCb valueHandle)).bind fun _ =>
      whenPending (h.discoverAllCharsCb valueHandle properties uuid)
  | .attributesDone, _ => keeps_get.bind fun _ => keeps_when fun _ => h.procedureDone
  | .readAnswer err data, _ => whenever (h.readCb err data)
  | .writeAnswer err, _ => whenever (h.writeCb err)
  | .cccAnswer _, hccc => Keeps.bind (h.modify fun _ => rfl) fun _ => hccc rfl
  | .notified .exchange data, hccc => h.notifyCb data fun hdata => hccc (by rw [hdata]; rfl)
  | .notified (.monitor slot) data, _ => by
    refine triple_get fun s => ?_
    split
    · next on hfound =>
      rintro host _ ⟨rfl, hs⟩
      cases data with
      | none => exact hs
      | some data => exact h.delivered data host (List.mem_of_find?_eq_some hfound) hs
    · rintro _ _ ⟨rfl, hs⟩
      exact hs
  | .notified (.protocol slot) data, _ => h.protocolNotifyCb slot data
  | .securityChanged _, _ =>
    Keeps.bind (h.modify fun _ => rfl) fun _ => h.give .sec (by decide) (by decide)
  | .passkeyDisplay _, _ => h.modify fun _ => rfl
  | .passkeyConfirm _, _ => h.modify fun _ => rfl
  | .pairingConfirm, _ => h.modify fun _ => rfl
  | .pairingCancel, _ => h.modify fun _ => rfl
  | .pairingComplete _, _ => h.modify fun _ => rfl
  | .pairingFailed _, _ =>
    Keeps.bind (h.modify fun _ => rfl) fun _ => h.give .sec (by decide) (by decide)

end KeptByCallbacks

/-! ## Waits -/

namespace KeptByHost

variable {inv : BridgeState → Prop} (h : KeptByHost inv)
include h

/-- Whatever happens, the invariant is kept. -/
theorem happen (event : HostEvent) : Keeps inv event.happen :=
  h.toKeptByCallbacks.happen event fun _ => keeps_modify fun _ hs => h.ccc hs

/-- One event after the other. -/
theorem happenings (events : List HostEvent) : Keeps inv (happenings events) :=
  keeps_each fun event _ => h.happen event

/-- Behind a wait its semaphore was given, and is taken, or was not. -/
theorem wait {sem : Sem} {site : Site} {post : Bool → BridgeState → Prop}
    (htaken : ∀ s, s.given sem = true → inv s →
      post true ((s.take sem).push (.waited site true s.live)))
    (hout : ∀ s, inv s → post false (s.push (.waited site false s.live))) :
    Triple inv (wait sem site) post := by
  refine Triple.bind h.during fun events => Triple.bind (h.happenings events) fun _ => ?_
  refine triple_get fun s => triple_ite (fun hgiven => ?_) fun _ => ?_
  · rintro host _ ⟨rfl, hs⟩
    exact htaken _ hgiven hs
  · rintro host _ ⟨rfl, hs⟩
    exact hout _ hs

end KeptByHost

end DevBench.Bridge
