import DevBench.Bridge.Stable
import DevBench.Bridge.Tables

/-!
# What the host makes of a subscription

A subscription of a monitor is refused, found to be there already, answered in time with an
ATT status, or not answered. `monitor_subscribe_matching` looks at the return value of
`bt_gatt_subscribe` and at `ccc_sem`, so it counts every subscription but those refused or
not answered.
-/

namespace DevBench.Bridge

open DevBench.Core DevBench.Core.Program DevBench.Eap DevBench.Bench DevBench.Wire

/-! ## The semaphore of CCC writes -/

/-- The ATT status of a CCC write that is answered. -/
def HostEvent.cccStatus : HostEvent → Option UInt8
  | cccAnswer err => some err
  | _ => none

/-- The semaphore is given, or not. -/
def CccGiven (b : Bool) (s : BridgeState) : Prop := s.given .ccc = b

/-- No callback but those two touches the semaphore. -/
theorem keptByCallbacks_cccGiven (b : Bool) : KeptByCallbacks (CccGiven b) where
  other := by
    intro s s' hview hs
    simp only [BridgeState.view, Prod.mk.injEq] at hview
    obtain ⟨-, -, -, -, -, -, ⟨-, hgiven⟩, -⟩ := hview
    exact hgiven.trans hs
  turn hs := hs
  quiet _ hs := hs
  up _ _ hs := hs
  lost {s} conn reason hs := by
    have hgiven : (s.lose conn reason).given .ccc = s.given .ccc := by
      unfold BridgeState.lose BridgeState.drop
      split <;> rfl
    exact hgiven.trans hs
  done hs := hs
  found _ hs := hs
  arrived _ hs := hs
  delivered _ _ _ hs := hs

/-- Every event but these two leaves the semaphore alone. -/
theorem keeps_cccGiven_happen {b : Bool} (event : HostEvent) (h : event.givesCcc = false) :
    Keeps (CccGiven b) event.happen :=
  (keptByCallbacks_cccGiven b).happen event fun hgives =>
    absurd (h.symm.trans hgives) Bool.false_ne_true

/-- Those two give it. -/
theorem given_happen_of_gives (event : HostEvent) (h : event.givesCcc = true) (host : Host)
    (s : BridgeState) : (event.happen host s).2.given .ccc = true := by
  cases event with
  | cccAnswer err => rfl
  | notified on data =>
    cases on with
    | exchange =>
      cases data with
      | none => rfl
      | some data => cases h
    | monitor slot => cases h
    | protocol slot => cases h
  | _ => cases h

/-- The semaphore is given behind events one of which gives it. -/
theorem given_happenings (events : List HostEvent) (host : Host) (s : BridgeState) :
    (happenings events host s).2.given .ccc =
      (s.given .ccc || events.any HostEvent.givesCcc) := by
  induction events generalizing s with
  | nil => exact (Bool.or_false _).symm
  | cons event events ih =>
    have hstep : (happenings (event :: events) host s).2 =
        (happenings events host (event.happen host s).2).2 := rfl
    rw [hstep, ih, List.any_cons]
    cases hgives : event.givesCcc with
    | true => simp [given_happen_of_gives event hgives host s]
    | false =>
      have hkept : (event.happen host s).2.given .ccc = s.given .ccc :=
        keeps_cccGiven_happen event hgives host s rfl
      rw [hkept, Bool.false_or]

/-! ## Responses -/

/-- What the host makes of a subscription. -/
inductive Response where
  /-- `bt_gatt_subscribe` fails. -/
  | refused (err : Int)
  /-- `bt_gatt_subscribe` returns `-EALREADY`: no CCC descriptor is written. -/
  | already
  /-- The CCC write is not answered before the deadline. -/
  | silent
  /-- The CCC write is not answered either, but the subscription of a data exchange is over,
  which gives `ccc_sem` too. -/
  | woken
  /-- The CCC write is answered with an ATT status. -/
  | answered (attErr : UInt8)
  deriving DecidableEq, Repr

/-- The subscription is counted. -/
def Response.counts : Response → Bool
  | refused _ | silent => false
  | already | woken | answered _ => true

/-- What the host makes of a subscription that is begun now: what it answers at this turn, and
what happens at the next one. -/
def Host.response (host : Host) (s : BridgeState) : Response :=
  if ¬ s.live then .refused enotconn
  else
    let err := host.answer s.turn
    if err = ealready then .already
    else if err ≠ 0 then .refused err
    else
      let events := host.during (s.turn + 1)
      match (events.filterMap HostEvent.cccStatus).getLast? with
      | some attErr => .answered attErr
      | none => if events.any HostEvent.givesCcc then .woken else .silent

/-- A CCC write that is answered is one the semaphore is given for. -/
theorem any_givesCcc_of_getLast? {events : List HostEvent} {attErr : UInt8}
    (h : (events.filterMap HostEvent.cccStatus).getLast? = some attErr) :
    events.any HostEvent.givesCcc = true := by
  obtain ⟨event, hmem, hstatus⟩ := List.mem_filterMap.mp (List.mem_of_getLast? h)
  rw [List.any_eq_true]
  refine ⟨event, hmem, ?_⟩
  cases event <;> first | rfl | cases hstatus

/-- The next slot counts, for the characteristic at a flat index. -/
def Monitor.next (m : Monitor) (index : UInt16) : Monitor :=
  { m with charIndex := m.charIndex.setIfInBounds m.count index, count := m.count + 1 }

theorem gattCall_of_live (call : GattCall) (host : Host) {s : BridgeState}
    (h : s.live = true) : gattCall call host s =
      (host.answer s.turn, { s.push (.gatt call true) with turn := s.turn + 1 }) := by
  have hdo : gattCall call host s =
      (if s.live then answer else pure enotconn : Act Int) host (s.push (.gatt call s.live)) := rfl
  rw [hdo, if_pos h, h]
  rfl

theorem gattCall_of_down (call : GattCall) (host : Host) {s : BridgeState}
    (h : ¬ s.live = true) : gattCall call host s = (enotconn, s.push (.gatt call s.live)) := by
  have hdo : gattCall call host s =
      (if s.live then answer else pure enotconn : Act Int) host (s.push (.gatt call s.live)) := rfl
  rw [hdo, if_neg h]
  rfl

/-- The call of a slot's subscription: its result, and the turn and the semaphores behind it. -/
theorem subscribeSlot_apply (slot : Nat) (label : Label) (handle value : UInt16) (host : Host)
    (s : BridgeState) :
    (subscribeSlot slot label handle value host s).1 =
        (if s.live then host.answer s.turn else enotconn) ∧
      (subscribeSlot slot label handle value host s).2.turn =
        (if s.live then s.turn + 1 else s.turn) ∧
      (subscribeSlot slot label handle value host s).2.given = s.given ∧
      (subscribeSlot slot label handle value host s).2.monitor = s.monitor := by
  have harm (c : Prop) [Decidable c] (t : BridgeState) :
      (when c (arm slot label) host t).2.turn = t.turn ∧
        (when c (arm slot label) host t).2.given = t.given ∧
        (when c (arm slot label) host t).2.monitor = t.monitor := by
    rw [when_apply]
    split_ifs <;> exact ⟨rfl, rfl, rfl⟩
  by_cases h : s.live = true
  · have hcall := gattCall_of_live (.subscribe (.monitor slot) handle value) host h
    simp only [subscribeSlot, bind_apply, hcall, h, if_true]
    exact ⟨rfl, harm _ _⟩
  · have hcall := gattCall_of_down (.subscribe (.monitor slot) handle value) host h
    simp only [subscribeSlot, bind_apply, hcall, h, if_false, Bool.false_eq_true]
    exact ⟨rfl, harm _ _⟩

/-- A wait for a CCC write that has just begun ends with the semaphore just when an event of the
turn gives it. -/
theorem wait_ccc_apply (site : Site) (host : Host) {s : BridgeState}
    (hgiven : s.given .ccc = false) :
    (wait .ccc site host s).1 = (host.during s.turn).any HostEvent.givesCcc := by
  have hstate := given_happenings (host.during s.turn) host { s with turn := s.turn + 1 }
  rw [show ({ s with turn := s.turn + 1 } : BridgeState).given .ccc = false from hgiven,
    Bool.false_or] at hstate
  have hdo : wait .ccc site host s =
      (if (happenings (host.during s.turn) host { s with turn := s.turn + 1 }).2.given .ccc then do
        clear .ccc
        note (.waited site true
          (happenings (host.during s.turn) host { s with turn := s.turn + 1 }).2.live)
        pure true
      else do
        note (.waited site false
          (happenings (host.during s.turn) host { s with turn := s.turn + 1 }).2.live)
        pure false : Act Bool) host
        (happenings (host.during s.turn) host { s with turn := s.turn + 1 }).2 := rfl
  rw [hdo, hstate]
  cases (host.during s.turn).any HostEvent.givesCcc <;> rfl

/-- What the monitor keeps behind the answer to a CCC write that is waited for, or not. -/
theorem waited_monitor (place : Nat × Nat) (service : FoundService) (c : FoundCharacteristic)
    (another : Bool) (slot : Nat) (err : Int) (host : Host) {table : Table} {s : BridgeState}
    (hfrozen : Frozen table s) :
    ((do
      let taken ← waitIf (err = 0) .ccc (.monitorCcc another)
      if ¬ taken then
        abandonSlot slot
        transcriptEmit bleGattDirLocal bleGattEvtError (some service.uuid) (some c.info.uuid) 0
          (ascii "CCC write timed out")
      else
        transcriptEmit bleGattDirOut bleGattEvtSubscribed (some service.uuid)
          (some c.info.uuid) 0 []
        recordSlot place : Act Unit) host s).2.monitor =
      if (waitIf (err = 0) .ccc (.monitorCcc another) host s).1 then
        s.monitor.next (flatCharacteristicIndex table place.1 place.2)
      else s.monitor := by
  have hmonitor := (stable_monitor s.monitor).waitIf (err = 0) .ccc (.monitorCcc another) host s rfl
  have hkept := keeps_frozen_waitIf (err = 0) .ccc (.monitorCcc another) host s hfrozen
  rw [bind_apply]
  generalize waitIf (err = 0) .ccc (.monitorCcc another) host s = r at hmonitor hkept ⊢
  obtain ⟨taken, s'⟩ := r
  have habandoned : (abandonSlot slot host s').2.monitor = s'.monitor := by
    unfold abandonSlot
    simp only [bind_apply, when_apply]
    split_ifs <;> rfl
  cases taken with
  | false =>
    rw [if_pos Bool.false_ne_true, if_neg Bool.false_ne_true, ← hmonitor]
    exact habandoned
  | true =>
    rw [if_neg (fun h => h rfl), if_pos rfl, ← hmonitor, ← hkept.1]
    rfl

/-- A subscription that is not begun does not count. -/
theorem counts_of_refused (host : Host) {s : BridgeState} {err : Int}
    (herr : err = if s.live then host.answer s.turn else enotconn)
    (h : err ≠ 0 ∧ err ≠ ealready) : (host.response s).counts = false := by
  unfold Host.response
  by_cases hup : s.live = true
  · rw [if_pos hup] at herr
    subst herr
    simp only [hup, not_true_eq_false, if_false, if_neg h.2, if_pos h.1]
    rfl
  · rw [if_pos hup]
    rfl

/-- A subscription that is begun counts just when there is nothing to wait for or the semaphore
is taken. -/
theorem counts_of_begun (host : Host) (site : Site) {s called : BridgeState} {err : Int}
    (herr : err = if s.live then host.answer s.turn else enotconn)
    (hcalled : called.turn = if s.live then s.turn + 1 else s.turn)
    (hgiven : called.given .ccc = false) (h : ¬ (err ≠ 0 ∧ err ≠ ealready)) :
    (waitIf (err = 0) .ccc site host called).1 = (host.response s).counts := by
  unfold Host.response
  by_cases hup : s.live = true
  · rw [if_pos hup] at herr hcalled
    subst herr
    simp only [hup, not_true_eq_false, if_false]
    by_cases halready : host.answer s.turn = ealready
    · have hnone : ¬ host.answer s.turn = 0 := by
        rw [halready]
        decide
      rw [waitIf, if_neg hnone, if_pos halready]
      rfl
    · have hzero : host.answer s.turn = 0 := by
        by_contra hne
        exact h ⟨hne, halready⟩
      rw [waitIf, if_pos hzero, if_neg halready, if_neg (fun hne => hne hzero),
        wait_ccc_apply site host hgiven, hcalled]
      cases hlast : ((host.during (s.turn + 1)).filterMap HostEvent.cccStatus).getLast? with
      | some attErr => exact any_givesCcc_of_getLast? hlast
      | none => cases (host.during (s.turn + 1)).any HostEvent.givesCcc <;> rfl
  · rw [if_neg hup] at herr
    subst herr
    exact absurd ⟨by decide, by decide⟩ h

/-- What the monitor keeps behind a subscription: the next slot counts just when the host's
response does. -/
theorem subscribeCharacteristic_monitor (place : Nat × Nat) (service : FoundService)
    (c : FoundCharacteristic) (another : Bool) (host : Host) {table : Table} {s : BridgeState}
    (hfrozen : Frozen table s) (hslot : s.monitor.count < bleMaxMonitorSubscriptions) :
    (subscribeCharacteristic place service c another host s).2.monitor =
      if (host.response s).counts then
        s.monitor.next (flatCharacteristicIndex table place.1 place.2)
      else s.monitor := by
  have hroom : ¬ bleMaxMonitorSubscriptions ≤ s.monitor.count := Nat.not_le_of_lt hslot
  have hget : Program.get host s = (s, s) := rfl
  unfold subscribeCharacteristic
  rw [bind_apply]
  simp only [hget, if_neg hroom, bind_apply _ _ host]
  -- What is zeroed and reset leaves the link and the turn alone, and takes the semaphore.
  generalize harmed : (armCcc host _).2 = armed
  have hlive : armed.live = s.live := by rw [← harmed]; rfl
  have hturn : armed.turn = s.turn := by rw [← harmed]; rfl
  have hmonitor : armed.monitor = s.monitor := by rw [← harmed]; rfl
  have hgiven : armed.given .ccc = false := by
    rw [← harmed]
    exact Function.update_self Sem.ccc false s.given
  have hkept : Frozen table armed := by
    rw [← harmed]
    exact hfrozen
  -- The host is called.
  have hcall := subscribeSlot_apply s.monitor.count (service.uuid, c.info.uuid) c.valueHandle
    (if canIndicate c.info.properties then btGattCccIndicate else btGattCccNotify) host armed
  have hfroze := keeps_frozen_subscribeSlot s.monitor.count (service.uuid, c.info.uuid)
    c.valueHandle (if canIndicate c.info.properties then btGattCccIndicate else btGattCccNotify)
    host armed hkept
  generalize subscribeSlot s.monitor.count (service.uuid, c.info.uuid) c.valueHandle _ host armed
    = r at hcall hfroze ⊢
  obtain ⟨err, called⟩ := r
  simp only [hlive, hturn, hmonitor] at hcall
  obtain ⟨herr, hcalled, hgiven', hmonitor'⟩ := hcall
  by_cases hrefused : err ≠ 0 ∧ err ≠ ealready
  · have hcounts : (host.response s).counts = false := counts_of_refused host herr hrefused
    rw [if_pos hrefused, hcounts, ← hmonitor']
    rfl
  · rw [if_neg hrefused, waited_monitor place service c another s.monitor.count err host hfroze,
      hmonitor', counts_of_begun host (.monitorCcc another) herr hcalled (hgiven' ▸ hgiven)
        hrefused]

end DevBench.Bridge
