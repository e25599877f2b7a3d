import DevBench.Bridge.Alike

/-!
# What an action settles before it looks

The code of the bridge run on two sides that are alike. What an action looks at it has set
before, or it is among what the entry point sets; the sides stay alike.
-/

namespace DevBench.Bridge

open DevBench.Core DevBench.Core.Program DevBench.Core.Agreement DevBench.Eap DevBench.Bench
  DevBench.Wire

/-- Alike sides, as they agree on aspects. -/
abbrev twins (c : Scope) : Agreement Aspect Host BridgeState where
  rel := Alike c
  Same p s t := p.Same s t
  forget hE h := h.forget hE
  learn h hL := h.learn hL

variable {c : Scope} {E A : Set Aspect} {host host' : Host} {s t : BridgeState}

/-! ## Setting -/

/-- A semaphore that is reset is the same on both sides. -/
theorem settles_clear (sem : Sem) : (twins c).Settles A (clear sem) fun _ => {.given sem} :=
  fun _ _ => lockstep_modify fun _ _ _ _ h => h.take sem

/-- So is a captured value that is emptied. -/
theorem settles_captureReset : (twins c).Settles A captureReset fun _ => {.captured} := by
  refine settles_modify (fun _ h => { h with same := fun p hp => ?_ }) ?_
  · cases p <;> first | exact h.same _ hp | rfl
  · rintro E host s host' t _ _ p rfl
    rfl

/-- So is the mark of a lost link that is taken back. -/
theorem settles_unlost :
    (twins c).Settles A (modify fun s => { s with link.linkLost := false } : Act Unit)
      fun _ => {.linkLost} := by
  refine settles_modify (fun _ h => { h with same := fun p hp => ?_ }) ?_
  · cases p <;> first | exact h.same _ hp | rfl
  · rintro E host s host' t _ _ p rfl
    rfl

/-- Reads and writes begin with all they look at later reset. -/
theorem settles_armRequest :
    (twins c).Settles A armRequest fun _ => {.captured, .linkLost, .attErr, .given .gatt} := by
  refine Settles.bind (L := fun _ => {.linkLost, .attErr}) (settles_modify ?_ ?_) fun _ =>
    settles_captureReset.bind fun _ => (settles_clear .gatt).conseq fun _ => ?_
  · exact fun _ h => { h with same := fun p hp => by cases p <;> first | exact h.same _ hp | rfl }
  · rintro E host s host' t _ _ p (rfl | rfl) <;> rfl
  · rintro p (rfl | rfl | rfl | rfl) <;> simp

/-- So does a CCC write. -/
theorem settles_armCcc : (twins c).Settles A armCcc fun _ => {.ccc, .given .ccc} := by
  refine Settles.bind (L := fun _ => {.ccc}) (settles_modify ?_ ?_) fun _ =>
    (settles_clear .ccc).conseq fun _ => ?_
  · exact fun _ h => { h with
      same := fun p hp => by cases p <;> first | exact h.same _ hp | exact ⟨rfl, rfl⟩ }
  · rintro E host s host' t _ _ p rfl
    exact ⟨rfl, rfl⟩
  · rintro p (rfl | rfl) <;> simp

/-- So does a change of the security level. -/
theorem settles_armSecurity : (twins c).Settles A armSecurity fun _ => {.security} := by
  refine settles_modify (fun _ h => { h with same := fun p hp => ?_ }) ?_
  · cases p <;> first | exact h.same _ hp | rfl
  · rintro E host s host' t _ _ p rfl
    rfl

/-! ## Asking and waiting -/

/-- The host answers both the same. -/
theorem needs_answer : (twins c).Needs A answer := needs_of_inStep fun _ _ => inStep_answer

/-- It has the same level for both. -/
theorem needs_level : (twins c).Needs A level := needs_of_inStep fun _ _ => inStep_level

/-- A mark is the same on both sides. -/
theorem needs_note (m : Mark) : (twins c).Needs A (note m) :=
  needs_of_inStep fun _ _ => inStep_note m

/-- An answer nothing depends on takes a turn on both sides. -/
theorem needs_ignored : (twins c).Needs A ignored := needs_of_inStep fun _ _ => inStep_ignored

/-- An entry is stamped with the same time. -/
theorem needs_transcriptEmit (direction kind : UInt8)
    (serviceUuid characteristicUuid : Option Uuid) (attStatus : UInt8) (payload : List UInt8) :
    (twins c).Needs A
      (transcriptEmit direction kind serviceUuid characteristicUuid attStatus payload) :=
  needs_of_inStep fun _ _ => inStep_transcriptEmit _ _ _ _ _ _

/-- An entry is labelled from the cache while it is valid, when it is the same. -/
theorem needs_emitCached (direction kind attStatus : UInt8) (payload : List UInt8) :
    (twins c).Needs A (emitCached direction kind attStatus payload) :=
  needs_of_inStep fun _ _ => inStep_emitCached _ _ _ _

/-- A wait looks at its own semaphore, behind what happens the same on both sides. -/
theorem needs_wait {sem : Sem} (hsem : .given sem ∈ A) (site : Site) :
    (twins c).Needs A (wait sem site) := by
  refine Settles.then (needs_of_inStep fun _ _ => inStep_during) fun events => ?_
  refine Settles.then (needs_of_inStep fun _ _ => inStep_happenings events) fun _ => ?_
  refine settles_get (fun {E host s host' t} hE h => ?_) fun s =>
    settles_ite (fun _ => ?_) fun _ => (needs_note _).then fun _ => needs_pure false
  · have hgiven : s.given sem = t.given sem := h.same _ (hE hsem)
    rw [hgiven, h.live]
  · exact (settles_clear sem).forget.then fun _ => (needs_note _).then fun _ => needs_pure true

/-- A wait that is skipped looks at nothing. -/
theorem needs_waitIf {p : Prop} [Decidable p] {sem : Sem} (hsem : p → .given sem ∈ A)
    (site : Site) : (twins c).Needs A (waitIf p sem site) :=
  settles_ite (fun hp => needs_wait (hsem hp) site) fun _ => needs_pure true

/-- A call on a connection is logged so and answered. -/
theorem gattCall_live (hlive : s.live = true) (call : GattCall) : gattCall call host s =
    (host.answer s.turn, { s.push (.gatt call true) with turn := s.turn + 1 }) := by
  simp only [gattCall, bind_apply, Program.get, hlive, if_true]
  rfl

/-- One without is logged so and takes no turn. -/
theorem gattCall_lost (hlost : ¬ s.live = true) (call : GattCall) :
    gattCall call host s = (enotconn, s.push (.gatt call false)) := by
  rw [Bool.not_eq_true] at hlost
  simp only [gattCall, bind_apply, Program.get, hlost, Bool.false_eq_true, if_false]
  rfl

/-- A call the host has taken on was made on a connection. -/
theorem lockstep_gattCall (call : GattCall) :
    Lockstep (Alike c E) (gattCall call) fun err host s host' t =>
      (err = 0 ∨ err = ealready → s.live = true) ∧ Alike c E host s host' t := by
  intro host s host' t h
  by_cases hlive : s.live = true
  · rw [gattCall_live hlive, gattCall_live (h.live ▸ hlive)]
    exact ⟨h.answer, fun _ => hlive, (h.push rfl).turn⟩
  · rw [gattCall_lost hlive, gattCall_lost (h.live ▸ hlive)]
    refine ⟨rfl, fun herr => ?_, h.push rfl⟩
    rcases herr with herr | herr <;> cases herr

/-- Both sides have a connection or neither has. -/
theorem needs_gattCall (call : GattCall) : (twins c).Needs A (gattCall call) :=
  needs_of_inStep fun _ _ => (lockstep_gattCall call).conseq (fun _ _ _ _ => id)
    fun _ _ _ _ _ => And.right

/-- What a procedure's callback looks at. -/
def Procedure.Looks : Procedure → Set Aspect
  | .allServices => {.table}
  | .allCharacteristics => {.table, .discovering}
  | _ => ∅

/-- What the callbacks of the procedure look at must be the same. -/
theorem needs_request (call : GattCall) {procedure : Procedure} (hA : procedure.Looks ⊆ A) :
    (twins c).Needs A (request call procedure) := by
  refine needs_of_inStep fun E hE => (lockstep_gattCall call).bind fun err => ?_
  refine Lockstep.bind (q := fun _ => Alike c E) (lockstep_ite (fun herr => ?_) fun _ => ?_)
    fun _ => inStep_pure err
  · refine lockstep_modify fun host s host' t ⟨hlive, h⟩ => { h with
      same := fun p hp => by cases p <;> exact h.same _ hp
      table := fun hlooks => ?_
      discovering := fun hpending => ?_
      pending := rfl
      idle := fun hnone => ?_ }
    · rcases hlooks with harmed | hopen | hpending | hpending
      · exact h.table (.inl harmed)
      · exact h.table (.inr (.inl hopen))
      · obtain rfl := Option.some.inj hpending
        exact h.same .table (hE (hA rfl))
      · obtain rfl := Option.some.inj hpending
        exact h.same .table (hE (hA (.inl rfl)))
    · obtain rfl := Option.some.inj hpending
      exact h.same .discovering (hE (hA (.inr rfl)))
    · have hlive := hlive (.inl herr)
      rw [BridgeState.live, hnone] at hlive
      cases hlive
  · exact lockstep_pure fun _ _ _ _ => And.right

/-- The host's list loses a slot on both sides. -/
theorem needs_disarm (slot : Nat) : (twins c).Needs A (disarm slot) := by
  refine needs_of_inStep fun E _ => inStep_of_modify fun host s host' t h => { h with
    same := fun p hp => by cases p <;> exact h.same _ hp
    table := fun hlooks => ?_
    armed := by rw [h.armed]
    idle := fun hnone => ?_ }
  · rcases hlooks with harmed | hlooks
    · refine h.table (.inl fun hnil => harmed ?_)
      rw [hnil, List.filter_nil]
    · exact h.table (.inr hlooks)
  · obtain ⟨harmed, hpending⟩ := h.idle hnone
    exact ⟨by rw [harmed, List.filter_nil], hpending⟩

/-- Ending a monitor's subscription looks at the host's list alone. -/
theorem needs_unsubscribeSlot (slot : Nat) : (twins c).Needs A (unsubscribeSlot slot) :=
  (needs_gattCall _).then fun _ => needs_disarm slot

/-- So does giving one up. -/
theorem needs_abandonSlot (slot : Nat) : (twins c).Needs A (abandonSlot slot) :=
  settles_get (fun _ h => by rw [h.live]) fun _ => needs_when fun _ => needs_disarm slot

/-- A slot is armed with the flattened table, which must be the same. -/
theorem needs_subscribeSlot (htable : .table ∈ A) (slot : Nat) (label : Label)
    (handle value : UInt16) : (twins c).Needs A (subscribeSlot slot label handle value) := by
  refine needs_of_inStep fun E hE => (lockstep_gattCall _).bind fun err => ?_
  refine Lockstep.bind (q := fun _ => Alike c E) (lockstep_ite (fun herr => ?_) fun _ => ?_)
    fun _ => inStep_pure err
  · rintro host s host' t ⟨hlive, h⟩
    have hdisarm := (needs_disarm slot E subset_rfl host s host' t h).2
    have htables : s.table = t.table := h.same .table (hE htable)
    have hlabels : s.labels = t.labels := by
      rw [BridgeState.labels, BridgeState.labels, htables]
    refine ⟨rfl, { hdisarm with
      same := fun p hp => by cases p <;> exact hdisarm.same _ (.inl hp)
      table := fun _ => htables
      armed := ?_
      idle := fun hnone => ?_ }⟩
    · exact congrArg₂ (⟨slot, label, ·⟩ :: ·) hlabels hdisarm.armed
    · have hlive := hlive herr
      rw [BridgeState.live, show s.link.activeConn = none from hnone] at hlive
      cases hlive
  · exact lockstep_pure fun _ _ _ _ => And.right

/-- A procedure that is given up is outstanding on both sides or on neither. -/
theorem needs_abandon : (twins c).Needs A abandon :=
  settles_get (fun _ h => by rw [h.live, h.pending]) fun _ => needs_when fun _ =>
    needs_of_inStep fun _ _ => inStep_procedureDone

/-! ## Outcomes -/

/-- A pass reports the captured value. -/
theorem needs_outcomePass (hcaptured : .captured ∈ A) : (twins c).Needs A outcomePass :=
  settles_get (fun hE h => by rw [h.same .captured (hE hcaptured)]) fun _ => needs_pure _

/-- The reason of a lost link is one of the things the two share. -/
theorem needs_outcomeDisconnected (during : String) :
    (twins c).Needs A (outcomeDisconnected during) :=
  settles_get (fun _ h => by rw [h.reason]) fun _ => needs_pure _

/-- An outcome with services reports the table. -/
theorem needs_withServices (htable : .table ∈ A) (outcome : BridgeOutcome) :
    (twins c).Needs A (withServices outcome) := by
  refine settles_get (fun {E host s host' t} hE h => ?_) fun _ => needs_pure _
  have hsame : s.table = t.table := h.same .table (hE htable)
  rw [BridgeState.services, BridgeState.services, hsame]

/-! ## Advertising and connecting -/

/-- The host's scan is on for both or for neither. -/
theorem needs_btLeScanStop : (twins c).Needs A btLeScanStop :=
  needs_of_inStep fun _ _ => inStep_btLeScanStop

/-- A connection that was begun was begun on both sides. -/
theorem needs_releasePendingConn (cancel : Bool) :
    (twins c).Needs A (releasePendingConn cancel) := by
  refine settles_get (fun _ h => by rw [h.pendingConn]) fun _ => needs_when fun _ => ?_
  refine (needs_when fun _ => needs_ignored).then fun _ => needs_of_inStep fun E _ =>
    inStep_of_modify fun host s host' t h => ?_
  exact { h with
    same := fun p hp => by cases p <;> exact h.same _ hp
    pendingConn := rfl }

/-- The own name, where a step gives none, is the host's. -/
theorem needs_startAdvertising (hc : ∀ r, c.holds r)
    (localName : Option (CharArray (dbmMaxLocalNameLen + 1))) (advIntervalMs : UInt16) :
    (twins c).Needs A (startAdvertising localName advIntervalMs) := by
  refine Settles.then (needs_of_inStep fun _ _ => inStep_deviceName) fun own => ?_
  refine needs_ignored.then fun _ => needs_answer.then fun err => ?_
  refine Settles.then (needs_when fun _ => Settles.then (needs_of_inStep fun E _ =>
    inStep_of_modify fun host s host' t h => ?_) fun _ => needs_note _) fun _ => needs_pure err
  exact { h with
    same := fun p hp => by cases p <;> exact h.same _ hp
    advertising := rfl
    rest := hc _ }

/-- Advertising looks at nothing but answers, and passes with what is captured. -/
theorem needs_executeAdvertise (hc : ∀ r, c.holds r) (hcaptured : .captured ∈ A)
    (localName : Option (CharArray (dbmMaxLocalNameLen + 1))) (advIntervalMs : UInt16) :
    (twins c).Needs A (executeAdvertise localName advIntervalMs) :=
  (needs_startAdvertising hc localName advIntervalMs).then fun _ =>
    settles_ite (fun _ => needs_pure _) fun _ =>
      settles_ite (fun _ => needs_pure _) fun _ => needs_outcomePass hcaptured

/-- Filters are set on both sides, and both censuses are begun again. -/
theorem settles_armScan (params : ConnectParams) :
    (twins c).Settles A (armScan params) fun _ => {.scan, .connErr, .given .conn} := by
  have hscan (scan scan' : Scan) : (scan.arm params).Alike (scan'.arm params) :=
    ⟨rfl, rfl, rfl, ⟨rfl, rfl, fun i hi => absurd hi (Nat.not_lt_zero i)⟩⟩
  refine Settles.bind (L := fun _ => {.scan, .connErr}) (settles_modify ?_ ?_) fun _ =>
    (settles_clear .conn).conseq fun _ => ?_
  · exact fun _ h => { h with
      same := fun p hp => by cases p <;> first | exact h.same _ hp | exact hscan _ _ | rfl
      scan := fun _ => hscan _ _ }
  · rintro E host s host' t _ _ p (rfl | rfl)
    · exact hscan _ _
    · rfl
  · rintro p (rfl | rfl | rfl) <;> simp

/-- A scan begins with a filter that must be the same: it is looked at when it ends. -/
theorem needs_btLeScanStart (hscan : .scan ∈ A) : (twins c).Needs A btLeScanStart := by
  refine needs_answer.then fun err => Settles.then (needs_when fun _ => needs_of_inStep fun E hE =>
    inStep_of_modify fun host s host' t h => ?_) fun _ => needs_pure err
  exact { h with
    same := fun p hp => by cases p <;> exact h.same _ hp
    scanning := rfl
    scan := fun _ => h.same .scan (hE hscan) }

/-- Censuses that agree up to stale entries say the same of a name that was not met. -/
theorem Census.Alike.noNameMatch {a b : Census} (h : a.Alike b) :
    noNameMatch a = noNameMatch b := by
  have hsummary (maxLen : Nat) : scanSeenNamesSummary a maxLen = scanSeenNamesSummary b maxLen := by
    rw [scanSeenNamesSummary, scanSeenNamesSummary, h.entries]
  have hnamed : a.namedCount = b.namedCount := by
    rw [Census.namedCount, Census.namedCount, h.entries]
  rw [Bridge.noNameMatch, Bridge.noNameMatch, h.overflowed, hnamed, h.len, hsummary]

/-- The end of a scan looks at the scan, its error and the semaphore of connections. -/
theorem needs_awaitScanned (hscan : .scan ∈ A) (herr : .connErr ∈ A) (hconn : .given .conn ∈ A)
    (hcaptured : .captured ∈ A) : (twins c).Needs A awaitScanned := by
  refine (needs_wait hconn _).then fun taken => settles_ite (fun _ => ?_) fun _ => ?_
  · refine needs_btLeScanStop.then fun _ => (needs_releasePendingConn true).then fun _ =>
      settles_get (fun {E host s host' t} hE h => ?_) fun _ => needs_pure _
    have hsame : s.scan.Alike t.scan := h.same .scan (hE hscan)
    rw [scanGaveUp, scanGaveUp, hsame.name, hsame.census.noNameMatch]
  · refine (needs_releasePendingConn false).then fun _ =>
      settles_get (fun hE h => by rw [h.same .connErr (hE herr), h.live]) fun _ => ?_
    exact settles_ite (fun _ => needs_pure _) fun _ => settles_ite (fun _ => needs_pure _) fun _ =>
      needs_outcomePass hcaptured

/-- All of these are set when the scan is prepared. -/
theorem needs_connectAsCentral (hcaptured : .captured ∈ A) (params : ConnectParams) :
    (twins c).Needs A (connectAsCentral params) := by
  refine (settles_armScan params).bind fun _ => ?_
  refine (needs_btLeScanStart (by simp)).then fun err => settles_ite (fun _ => needs_pure _)
    fun _ => ?_
  exact needs_awaitScanned (by simp) (by simp) (by simp) (.inl hcaptured)

/-- A round of waiting to be connected to resets its error and semaphore first. -/
theorem needs_connectRound (hc : ∀ r, c.holds r) (hcaptured : .captured ∈ A)
    (params : ConnectParams) : (twins c).Needs A (connectRound params) := by
  have hadvertise : ∀ {B}, (twins c).Needs B advertiseAnyway :=
    settles_get (fun _ h => by rw [h.advertising]) fun _ =>
      settles_ite (fun _ => needs_pure _) fun _ => needs_startAdvertising hc none 0
  refine Settles.bind (L := fun _ => {.connErr}) (settles_modify ?_ ?_) fun _ => ?_
  · exact fun _ h => { h with same := fun p hp => by cases p <;> first | exact h.same _ hp | rfl }
  · rintro E host s host' t _ _ p rfl
    rfl
  refine (settles_clear .conn).bind fun _ => hadvertise.then fun err => ?_
  refine settles_ite (fun _ => needs_pure _) fun _ => ?_
  refine (needs_wait (by simp) _).then fun taken => settles_get (fun {E host s host' t} hE h => ?_)
    fun s => settles_ite (fun _ => needs_pure _) fun _ => ?_
  · have herr : s.link.connErr = t.link.connErr := h.same .connErr (hE (by simp))
    have hmatches : peerMatches params s = peerMatches params t := by
      rw [peerMatches, peerMatches, h.activeConn]
    rw [herr, hmatches]
  · refine settles_ite (fun _ => needs_pure _) fun _ => settles_ite (fun _ => ?_) fun _ => ?_
    · exact (needs_outcomePass (.inl (.inl hcaptured))).map some
    · refine (settles_clear .disconn).bind fun _ => needs_ignored.then fun _ => ?_
      refine (needs_wait (by simp) _).then fun _ => ?_
      exact settles_ite (fun _ => needs_pure _) fun _ => needs_pure _

/-- So every round does. -/
theorem needs_connectAsPeripheral (hc : ∀ r, c.holds r) (hcaptured : .captured ∈ A)
    (params : ConnectParams) :
    ∀ rounds, (twins c).Needs A (connectAsPeripheral params rounds)
  | 0 => needs_pure none
  | rounds + 1 => by
    refine (needs_connectRound hc hcaptured params).then fun outcome => ?_
    cases outcome with
    | some outcome => exact needs_pure _
    | none => exact needs_connectAsPeripheral hc hcaptured params rounds

/-- Either role sets what it looks at. -/
theorem needs_executeConnect (hc : ∀ r, c.holds r) (hcaptured : .captured ∈ A) (role : BleRole)
    (params : ConnectParams) (rounds : Nat) :
    (twins c).Needs A (executeConnect role params rounds) := by
  refine settles_get (fun {E host s host' t} _ h => ?_) fun s => settles_ite (fun _ => ?_)
    fun _ => ?_
  · have hmatches : peerMatches params s = peerMatches params t := by
      rw [peerMatches, peerMatches, h.activeConn]
    rw [h.live, hmatches]
  · exact settles_ite (fun _ => (needs_outcomePass hcaptured).map some) fun _ => needs_pure _
  · cases role with
    | central => exact (needs_connectAsCentral hcaptured params).map some
    | peripheral => exact needs_connectAsPeripheral hc hcaptured params rounds

/-! ## Discovery -/

/-- A discovery resets the semaphore and takes its callbacks' scratch for given. -/
theorem needs_runDiscovery {procedure : Procedure} (hA : procedure.Looks ⊆ A) :
    (twins c).Needs A (runDiscovery procedure) := by
  refine settles_unlost.bind fun _ => (settles_clear .gatt).bind fun _ => ?_
  have hlooks : procedure.Looks ⊆ A ∪ {.linkLost} ∪ {.given .gatt} :=
    hA.trans (Set.subset_union_left.trans Set.subset_union_left)
  refine (needs_request _ hlooks).then fun err => settles_ite (fun _ => needs_pure _) fun _ => ?_
  refine (needs_wait (by simp) _).then fun taken => settles_ite (fun _ => ?_) fun _ => ?_
  · exact needs_abandon.then fun _ => needs_pure _
  · refine settles_get (fun {E host s host' t} hE h => ?_) fun _ =>
      settles_ite (fun _ => needs_pure _) fun _ => needs_pure _
    have hlost : s.link.linkLost = t.link.linkLost := h.same .linkLost (hE (by simp))
    rw [hlost]

/-- What an action that passes has settled. -/
abbrev onPass (p : Aspect) (o : BridgeOutcome) : Set Aspect := {q | q = p ∧ o.kind = .pass}

/-- A failure promises nothing. -/
theorem settles_failed {p : Aspect} {o : BridgeOutcome} (h : o.kind ≠ .pass) :
    (twins c).Settles A (pure o) (onPass p) := settles_pure fun _ hq => absurd hq.2 h

/-- A pass may promise what is settled already. -/
theorem settles_passed {p : Aspect} (hp : p ∈ A) (hcaptured : .captured ∈ A) :
    (twins c).Settles A outcomePass (onPass p) :=
  (needs_outcomePass hcaptured).conseq fun _ _ ⟨hq, _⟩ => .inl (hq ▸ hp)

/-- A failure is no pass. -/
theorem outcomeFail_kind (reason : String) : (outcomeFail reason).kind ≠ .pass := nofun

/-- A discovery that failed ends in a failure or a timeout, whatever the cause. -/
theorem settles_discoveryFailed {p : Aspect} (what : String) (err : Int) :
    (twins c).Settles A (discoveryFailed what err) (onPass p) := by
  refine settles_ite (fun _ => settles_failed nofun) fun _ => settles_ite (fun _ => ?_) fun _ => ?_
  · exact settles_get (fun _ h => by rw [h.reason]) fun _ => settles_failed (outcomeFail_kind _)
  · exact settles_failed (outcomeFail_kind _)

/-- A characteristic that is resolved leaves a cache that was written on both sides. -/
theorem settles_resolveCharacteristic (hc : ∀ r, c.holds r) (hfound : .found ∈ A)
    (hcaptured : .captured ∈ A)
    (serviceUuid characteristicUuid : Uuid) :
    (twins c).Settles A (resolveCharacteristic serviceUuid characteristicUuid) (onPass .cache) := by
  refine settles_get (fun {E host s host' t} hE h => ?_) fun s =>
    Settles.bind (L := fun _ => {.foundValue}) (settles_modify ?_ ?_) fun _ => ?_
  · have hsame := (h.same .found (hE hfound)).2
    rw [hsame]
  · exact fun _ h => { h with same := fun p hp => by cases p <;> first | exact h.same _ hp | rfl }
  · rintro E host s host' t _ _ p rfl
    rfl
  refine (needs_runDiscovery (Set.empty_subset _)).then fun err =>
    settles_get (fun {E host s host' t} hE h => ?_) fun s => ?_
  · have hsame : s.exchange.foundValueHandle = t.exchange.foundValueHandle :=
      h.same .foundValue (hE (.inr rfl))
    rw [hsame]
  refine settles_ite (fun _ => settles_discoveryFailed _ err) fun _ => ?_
  refine settles_ite (fun _ => settles_failed (outcomeFail_kind _)) fun _ => ?_
  have hcache {E host s host' t} (hE : A ∪ {.foundValue} ⊆ E) (h : Alike c E host s host' t)
      (serviceEnd : UInt16) :
      (⟨true, serviceUuid, characteristicUuid, s.exchange.foundValueHandle, serviceEnd⟩ :
        HandleCache) =
      ⟨true, serviceUuid, characteristicUuid, t.exchange.foundValueHandle, serviceEnd⟩ :=
    congrArg (HandleCache.mk true serviceUuid characteristicUuid · serviceEnd)
      (h.same .foundValue (hE (.inr rfl)))
  refine Settles.bind (L := fun _ => {.cache}) (settles_modify ?_ ?_) fun _ =>
    settles_passed (.inr rfl) (.inl (.inl hcaptured))
  · exact fun hE h => { h with
      same := fun p hp => by cases p <;> first | exact h.same _ hp | exact hcache hE h _
      cacheValid := rfl
      cache := fun _ => hcache hE h _
      rest := hc _ }
  · rintro E host s host' t hE h p rfl
    exact hcache hE h _

/-- The cache is used only where it is valid, and then it was written. -/
theorem settles_resolveHandles (hc : ∀ r, c.holds r) (hcaptured : .captured ∈ A)
    (serviceUuid characteristicUuid : Uuid) :
    (twins c).Settles A (resolveHandles serviceUuid characteristicUuid) (onPass .cache) := by
  refine settles_look (K := fun s => {p | p = .cache ∧ s.exchange.handleCache.valid = true})
    (fun {E host s host' t} _ h => ?_) ?_ fun s => settles_ite (fun hholds => ?_) fun _ => ?_
  · have hholds : s.exchange.handleCache.holds serviceUuid characteristicUuid =
        t.exchange.handleCache.holds serviceUuid characteristicUuid := by
      cases hvalid : s.exchange.handleCache.valid with
      | false => simp [HandleCache.holds, hvalid, ← h.cacheValid]
      | true => rw [h.cache hvalid]
    rw [hholds]
  · rintro E host s host' t _ h p ⟨rfl, hvalid⟩
    exact h.cache hvalid
  · have hvalid : s.exchange.handleCache.valid = true := by
      simp only [HandleCache.holds, Bool.and_eq_true] at hholds
      exact hholds.1.1
    exact settles_passed (.inr ⟨rfl, hvalid⟩) (.inl hcaptured)
  refine Settles.bind (L := fun _ => {.found}) (settles_modify ?_ ?_) fun _ => ?_
  · exact fun _ h => { h with
      same := fun p hp => by cases p <;> first | exact h.same _ hp | exact ⟨rfl, rfl⟩ }
  · rintro E host s host' t _ _ p rfl
    exact ⟨rfl, rfl⟩
  refine (needs_runDiscovery (Set.empty_subset _)).then fun err =>
    settles_get (fun {E host s host' t} hE h => ?_) fun s => ?_
  · have hsame := (h.same .found (hE (.inr rfl))).2
    rw [hsame]
  refine settles_ite (fun _ => settles_discoveryFailed _ err) fun _ => ?_
  refine settles_ite (fun _ => settles_failed (outcomeFail_kind _)) fun _ => ?_
  exact settles_resolveCharacteristic hc (.inr rfl) (.inl (.inl hcaptured)) _ _

/-! ## The walk over everything -/

/-- A walk looks at the table it adds to and at the mark of a lost link. -/
theorem needs_walk {procedure : Procedure} (hA : procedure.Looks ⊆ A) (hlost : .linkLost ∈ A)
    (ofWhat during : String) : (twins c).Needs A (walk procedure ofWhat during) := by
  refine (settles_clear .gatt).bind fun _ => ?_
  refine (needs_request _ (hA.trans Set.subset_union_left)).then fun err => ?_
  refine settles_ite (fun _ => needs_pure _) fun _ => (needs_wait (by simp) _).then fun taken => ?_
  refine settles_get (fun {E host s host' t} hE h => ?_) fun s => settles_ite (fun _ => ?_)
    fun _ => ?_
  · have hsame : s.link.linkLost = t.link.linkLost := h.same .linkLost (hE (.inl hlost))
    rw [hsame]
  · exact needs_abandon.then fun _ => needs_pure _
  · exact settles_ite (fun _ => (needs_outcomeDisconnected _).map some) fun _ => needs_pure _

/-- The characteristics of each service are added to the table in turn. -/
theorem needs_walkServices (htable : .table ∈ A) (hlost : .linkLost ∈ A) :
    ∀ left i, (twins c).Needs A (walkServices left i)
  | 0, _ => needs_pure none
  | left + 1, i => by
    refine Settles.bind (L := fun _ => {.discovering}) (settles_modify ?_ ?_) fun _ => ?_
    · exact fun _ h => { h with
        same := fun p hp => by cases p <;> first | exact h.same _ hp | rfl
        discovering := fun _ => rfl }
    · rintro E host s host' t _ _ p rfl
      rfl
    have hlooks : Procedure.allCharacteristics.Looks ⊆ A ∪ {.discovering} := by
      rintro p (rfl | rfl)
      · exact .inl htable
      · exact .inr rfl
    refine (needs_walk hlooks (.inl hlost) _ _).then fun failed => ?_
    cases failed with
    | some outcome => exact needs_pure _
    | none => exact (needs_walkServices htable hlost left (i + 1)).mono Set.subset_union_left

/-- A table that is set is the same. -/
theorem settles_setTable (table : Table) :
    (twins c).Settles A (modify fun s => { s with table := table } : Act Unit)
      fun _ => {.table} := by
  refine settles_modify (fun _ h => (inStep_setTable table _ _ _ _ h).2) ?_
  rintro E host s host' t _ _ p rfl
  rfl

/-- A discovery empties the table first, so what it leaves is the same even if it fails. -/
theorem settles_runGattDiscovery (hcaptured : .captured ∈ A) :
    (twins c).Settles A runGattDiscovery fun _ => {.table} := by
  refine (needs_transcriptEmit _ _ _ _ _ _).then fun _ => (settles_setTable _).bind fun _ => ?_
  refine settles_unlost.bind fun _ => (needs_walk (by simp [Procedure.Looks]) (by simp) _ _).then
    fun failed => ?_
  cases failed with
  | some outcome => exact settles_pure (by simp)
  | none =>
    refine settles_get (fun {E host s host' t} hE h => ?_) fun s =>
      (needs_walkServices (by simp) (by simp) _ _).then fun failed => ?_
    · have hsame : s.table = t.table := h.same .table (hE (by simp))
      rw [hsame]
    · cases failed with
      | some outcome => exact settles_pure (by simp)
      | none =>
        exact (needs_outcomePass (.inl (.inl hcaptured))).conseq fun _ => by simp

/-- What the discovery finds is reported behind it. -/
theorem needs_executeGattDiscover (hcaptured : .captured ∈ A) :
    (twins c).Needs A executeGattDiscover := by
  refine settles_get (fun _ h => by rw [h.live]) fun s => settles_ite (fun _ => needs_pure _)
    fun _ => ?_
  refine (settles_runGattDiscovery hcaptured).bind fun result => ?_
  exact settles_ite (fun _ => needs_pure _) fun _ => needs_withServices (.inr rfl) _

/-! ## Operations on one characteristic -/

/-- The end of an operation looks at the mark of a lost link and at the ATT error. -/
theorem needs_answered (hlost : .linkLost ∈ A) (herr : .attErr ∈ A) (what : String) (taken : Bool)
    {success : Act BridgeOutcome} (hsuccess : (twins c).Needs A success) :
    (twins c).Needs A (answered what taken success) := by
  refine settles_get (fun {E host s host' t} hE h => ?_) fun s => settles_ite (fun _ => ?_)
    fun _ => ?_
  · have hsame : s.link.linkLost = t.link.linkLost := h.same .linkLost (hE hlost)
    rw [hsame, h.same .attErr (hE herr)]
  · exact needs_abandon.then fun _ => (needs_emitCached _ _ _ _).then fun _ => needs_pure _
  · refine settles_ite (fun _ => needs_outcomeDisconnected _) fun _ => settles_ite (fun _ => ?_)
      fun _ => hsuccess
    exact (needs_emitCached _ _ _ _).then fun _ => needs_pure _

/-- A read has reset both. -/
theorem needs_executeRead (valueHandle : UInt16) :
    (twins c).Needs A (executeRead valueHandle) := by
  refine settles_armRequest.bind fun _ => (needs_emitCached _ _ _ _).then fun _ => ?_
  refine (needs_request _ (Set.empty_subset _)).then fun err =>
    settles_ite (fun _ => ?_) fun _ => ?_
  · exact (needs_emitCached _ _ _ _).then fun _ => needs_pure _
  · refine (needs_wait (by simp) _).then fun taken => needs_answered (by simp) (by simp) _ _ ?_
    refine settles_get (fun hE h => by rw [h.same .captured (hE (by simp))]) fun _ => ?_
    exact (needs_emitCached _ _ _ _).then fun _ => needs_outcomePass (by simp)

/-- So has a write. -/
theorem needs_executeWrite (valueHandle : UInt16) (payload : List UInt8) :
    (twins c).Needs A (executeWrite valueHandle payload) := by
  refine settles_armRequest.bind fun _ => (needs_emitCached _ _ _ _).then fun _ => ?_
  refine (needs_request _ (Set.empty_subset _)).then fun err =>
    settles_ite (fun _ => ?_) fun _ => ?_
  · exact (needs_emitCached _ _ _ _).then fun _ => needs_pure _
  · refine (needs_wait (by simp) _).then fun taken => needs_answered (by simp) (by simp) _ _ ?_
    exact (needs_emitCached _ _ _ _).then fun _ => needs_outcomePass (by simp)

/-- The same subscription is remembered on both sides. -/
theorem needs_subscribed (hc : ∀ r, c.holds r) (subscribed : Bool) :
    (twins c).Needs A (modify fun s => { s with exchange.subscribed := subscribed } : Act Unit) :=
  needs_of_inStep fun _ _ => inStep_of_modify fun _ _ _ _ h => { h with
    same := fun p hp => by cases p <;> exact h.same _ hp
    subscribed := rfl
    rest := hc _ }

/-- A subscription sets its parameters and resets what the CCC write is judged by. -/
theorem needs_subscribeExchange (hc : ∀ r, c.holds r) (hcaptured : .captured ∈ A)
    (valueHandle cccValue : UInt16) :
    (twins c).Needs A (subscribeExchange valueHandle cccValue) := by
  refine Settles.then (needs_of_inStep fun E _ => inStep_of_modify fun host s host' t h => { h with
    same := fun p hp => by cases p <;> exact h.same _ hp
    subscribeHandle := rfl
    subscribeValue := rfl
    rest := hc _ }) fun _ => settles_armCcc.bind fun _ => ?_
  refine (needs_gattCall _).then fun err => settles_ite (fun _ => needs_pure _) fun _ => ?_
  refine (needs_waitIf (fun _ => by simp) _).then fun taken =>
    settles_get (fun {E host s host' t} hE h => ?_) fun s => settles_ite (fun _ => needs_pure _)
      fun _ => settles_ite (fun _ => needs_pure _) fun _ => settles_ite (fun _ => needs_pure _)
        fun _ => (needs_subscribed hc true).then fun _ => needs_outcomePass (.inl hcaptured)
  have hsame := h.same .ccc (hE (by simp))
  rw [hsame.1, hsame.2]

/-- It is skipped where the one that exists will do, which both sides see alike. -/
theorem needs_ensureSubscribed (hc : ∀ r, c.holds r) (hcaptured : .captured ∈ A)
    (valueHandle cccValue : UInt16) :
    (twins c).Needs A (ensureSubscribed valueHandle cccValue) := by
  have hclear : (twins c).Needs A clearExchange := by
    refine settles_get (fun _ h => by rw [h.subscribeHandle]) fun s =>
      settles_ite (fun _ => needs_pure _) fun _ => settles_armCcc.bind fun _ => ?_
    exact (needs_subscribed hc false).then fun _ => (needs_gattCall _).then fun _ =>
      needs_waitIf (fun _ => by simp) _
  refine settles_get (fun _ h => by rw [h.subscribed, h.subscribeHandle, h.subscribeValue])
    fun s => settles_ite (fun _ => needs_outcomePass hcaptured) fun _ => hclear.then fun out => ?_
  exact settles_ite (fun _ => needs_subscribeExchange hc hcaptured _ _) fun _ => needs_pure _

/-- The wait for a notification resets nothing: its semaphore must be the same. -/
theorem needs_awaitNotification (hnotify : .given .notify ∈ A) (hlost : .linkLost ∈ A)
    (hcaptured : .captured ∈ A) : (twins c).Needs A awaitNotification := by
  refine (needs_wait hnotify _).then fun taken => settles_get (fun {E host s host' t} hE h => ?_)
    fun s => settles_ite (fun _ => needs_pure _) fun _ =>
      settles_ite (fun _ => needs_outcomeDisconnected _) fun _ => needs_outcomePass hcaptured
  have hsame : s.link.linkLost = t.link.linkLost := h.same .linkLost (hE hlost)
  rw [hsame]

/-- The window of a stream resets all it looks at. -/
theorem needs_captureStream (hc : ∀ r, c.holds r) : (twins c).Needs A captureStream := by
  have hstreaming {B} (streaming : Bool) : (twins c).Needs B
      (modify fun s => { s with exchange.streaming := streaming } : Act Unit) :=
    needs_of_inStep fun _ _ => inStep_of_modify fun _ _ _ _ h => { h with
      same := fun p hp => by cases p <;> exact h.same _ hp
      streaming := rfl
      rest := hc _ }
  refine settles_captureReset.bind fun _ => settles_unlost.bind fun _ => ?_
  refine (settles_clear .disconn).bind fun _ => (hstreaming true).then fun _ => ?_
  refine (needs_wait (by simp) _).then fun dropped => (hstreaming false).then fun _ => ?_
  exact settles_ite (fun _ => needs_outcomeDisconnected _) fun _ => needs_outcomePass (by simp)

/-- What follows a subscription may need more. -/
theorem needs_subscribedThen (hc : ∀ r, c.holds r) (hcaptured : .captured ∈ A)
    (valueHandle cccValue : UInt16) {next : Act BridgeOutcome} (hnext : (twins c).Needs A next) :
    (twins c).Needs A (subscribedThen valueHandle cccValue next) :=
  (needs_ensureSubscribed hc hcaptured valueHandle cccValue).then fun _ =>
    settles_ite (fun _ => needs_pure _) fun _ => hnext

/-- Only the wait for a notification asks for something at the start. -/
theorem needs_executeDataExchange (hc : ∀ r, c.holds r) (hnotify : .given .notify ∈ A)
    (hlost : .linkLost ∈ A) (hcaptured : .captured ∈ A) (serviceUuid characteristicUuid : Uuid)
    (operation : GattOperation) :
    (twins c).Needs A (executeDataExchange serviceUuid characteristicUuid operation) := by
  refine settles_get (fun _ h => by rw [h.live]) fun s => settles_ite (fun _ => needs_pure _)
    fun _ => ?_
  refine (settles_resolveHandles hc hcaptured _ _).bind fun resolved =>
    settles_ite (fun _ => needs_pure _) fun hpass => settles_get (fun {E host s host' t} hE h => ?_)
      fun s => ?_
  · have hcache : s.exchange.handleCache = t.exchange.handleCache :=
      h.same .cache (hE (.inr ⟨rfl, not_not.mp hpass⟩))
    rw [hcache]
  · cases operation with
    | read => exact needs_executeRead _
    | write payload => exact needs_executeWrite _ _
    | notify _ =>
      exact needs_subscribedThen hc (.inl hcaptured) _ _
        (needs_awaitNotification (.inl hnotify) (.inl hlost) (.inl hcaptured))
    | indicate _ =>
      exact needs_subscribedThen hc (.inl hcaptured) _ _
        (needs_awaitNotification (.inl hnotify) (.inl hlost) (.inl hcaptured))
    | subscribe => exact needs_ensureSubscribed hc (.inl hcaptured) _ _
    | streamCapture =>
      exact needs_subscribedThen hc (.inl hcaptured) _ _ (needs_captureStream hc)

end DevBench.Bridge
