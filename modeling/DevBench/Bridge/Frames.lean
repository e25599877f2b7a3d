import DevBench.Bridge.Events

/-!
# What the bridge leaves alone

Most of the bridge's code touches neither the monitor's subscriptions nor the connection
itself. An invariant about these is kept by all of that code when it is kept by the few
things that do.
-/

namespace DevBench.Bridge

open DevBench.Core DevBench.Core.Program DevBench.Eap DevBench.Bench DevBench.Wire

/-- No GATT call of the same action comes after the wait. -/
def Site.Idle : Site → Prop
  | connect | drop | security | unbond | resetting => True
  | _ => False

/-- The invariant is about the core of the state, and what is quietly logged keeps it. -/
structure OfCore (inv : BridgeState → Prop) : Prop where
  same : ∀ {s s' : BridgeState}, s'.core = s.core → inv s → inv s'
  quiet : ∀ {s : BridgeState} {m : Mark}, m.Quiet → inv s → inv (s.push m)

/-- And it is kept by what the host does and by the waits that no call comes after, so by all
code that makes no GATT calls. -/
structure KeptWithoutCalls (inv : BridgeState → Prop) : Prop extends OfCore inv where
  idle : ∀ {s : BridgeState} {site : Site} (taken : Bool), site.Idle → inv s →
    inv (s.push (.waited site taken s.live))
  up : ∀ {s : BridgeState} (conn : BtAddr), s.link.activeConn = none → inv s →
    inv { s with link.activeConn := some conn }
  down : ∀ {s : BridgeState}, inv s →
    inv { s with link.activeConn := none, pending := none, armed := [] }
  delivered : ∀ {s : BridgeState} {on : Armed} (data : List UInt8) (host : Host), on ∈ s.armed →
    inv s → inv (monitorNotifyCb on (some data) host s).2

/-- The invariant holds as long as nothing logged breaks a condition. -/
def Provided (ok : Mark → Prop) (inv : BridgeState → Prop) (s : BridgeState) : Prop :=
  (∀ m ∈ s.log, ok m) → inv s

/-- One more mark, which may rely on the condition. -/
theorem Provided.push {ok : Mark → Prop} {inv inv' : BridgeState → Prop} {s : BridgeState}
    {m : Mark} (h : Provided ok inv s) (hm : ok m → inv s → inv' (s.push m)) :
    Provided ok inv' (s.push m) := fun hok =>
  hm (hok m List.mem_cons_self) (h fun m' hm' => hok m' (List.mem_cons_of_mem m hm'))

/-- A change that logs nothing. -/
theorem Provided.change {ok : Mark → Prop} {inv inv' : BridgeState → Prop} {s s' : BridgeState}
    (h : Provided ok inv s) (hlog : s'.log = s.log) (hs : inv s → inv' s') :
    Provided ok inv' s' := fun hok => hs (h (hlog ▸ hok))

namespace OfCore

variable {inv : BridgeState → Prop} (h : OfCore inv)
include h

/-- A program that changes nothing the invariant is about. -/
theorem step {α : Type} {m : Act α} (hm : ∀ host s, (m host s).2.core = s.core) :
    Keeps inv m := fun host s hs => h.same (hm host s) hs

/-- A change of what the invariant is not about. -/
theorem modify {f : BridgeState → BridgeState} (hf : ∀ s, (f s).core = s.core) :
    Keeps inv (Program.modify f : Act Unit) := h.step fun _ => hf

/-- A mark of nothing the invariant is about. -/
theorem note {m : Mark} (hm : m.Quiet) : Keeps inv (note m) := fun _ _ hs => h.quiet hm hs

/-- A turn is none of its business. -/
theorem answer : Keeps inv answer := h.step fun _ _ => rfl

/-- Nor is what will happen during a wait. -/
theorem during : Keeps inv during := h.step fun _ _ => rfl

/-- Nor the level of security. -/
theorem level : Keeps inv level := h.step fun _ _ => rfl

/-- Nor a semaphore. -/
theorem clear (sem : Sem) : Keeps inv (clear sem) := h.modify fun _ => rfl

/-- An entry is a quiet mark. -/
theorem transcriptEmit (direction kind : UInt8) (serviceUuid characteristicUuid : Option Uuid)
    (attStatus : UInt8) (payload : List UInt8) :
    Keeps inv
      (transcriptEmit direction kind serviceUuid characteristicUuid attStatus payload) :=
  fun _ _ hs => h.quiet trivial hs

/-- Whatever it is labelled with. -/
theorem emitCached (direction kind attStatus : UInt8) (payload : List UInt8) :
    Keeps inv (emitCached direction kind attStatus payload) :=
  keeps_get.bind fun _ => h.transcriptEmit _ _ _ _ _ _

/-- A procedure that is over. -/
theorem procedureDone : Keeps inv procedureDone := h.modify fun _ => rfl

/-- The captured value. -/
theorem captureReset : Keeps inv captureReset := h.modify fun _ => rfl

/-- An answer nothing depends on. -/
theorem ignored : Keeps inv ignored := h.answer.bind fun _ => keeps_pure ()

/-- A procedure that is given up. -/
theorem abandon : Keeps inv abandon := keeps_get.bind fun _ => keeps_when fun _ => h.procedureDone

/-- What is reset in front of a request. -/
theorem armRequest : Keeps inv armRequest :=
  Keeps.bind (h.modify fun _ => rfl) fun _ => h.captureReset.bind fun _ => h.clear .gatt

/-- And in front of a CCC write. -/
theorem armCcc : Keeps inv armCcc := Keeps.bind (h.modify fun _ => rfl) fun _ => h.clear .ccc

omit h in
/-- An outcome only reads. -/
theorem outcomePass : Keeps inv outcomePass := fun _ _ hs => hs

omit h in
/-- Whatever its reason. -/
theorem outcomeDisconnected (text : String) : Keeps inv (outcomeDisconnected text) :=
  fun _ _ hs => hs

omit h in
/-- And whatever it reports. -/
theorem withServices (outcome : BridgeOutcome) : Keeps inv (withServices outcome) :=
  fun _ _ hs => hs

/-- The end of an operation, if what a success does keeps the invariant. -/
theorem answered (what : String) (taken : Bool) {success : Act BridgeOutcome}
    (hsuccess : Keeps inv success) : Keeps inv (answered what taken success) := by
  refine keeps_get.bind fun s => keeps_ite (fun _ => ?_) fun _ => ?_
  · exact h.abandon.bind fun _ => (h.emitCached _ _ _ _).bind fun _ => keeps_pure _
  · refine keeps_ite (fun _ => outcomeDisconnected _) fun _ => keeps_ite (fun _ => ?_) fun _ => ?_
    · exact (h.emitCached _ _ _ _).bind fun _ => keeps_pure _
    · exact hsuccess

/-- An entry that names a source of a protocol. -/
theorem emitSource (defn : ProtocolDef) (direction kind source : UInt8) (payload : List UInt8) :
    Keeps inv (emitSource defn direction kind source payload) := h.transcriptEmit _ _ _ _ _ _

/-- The handles of the sources are written where no invariant of this kind looks. -/
theorem resolveEach : ∀ sources, Keeps inv (resolveEach sources)
  | [] => outcomePass
  | (source, i) :: sources => by
    refine keeps_get.bind fun s => ?_
    dsimp only
    split
    · exact keeps_pure _
    · exact Keeps.bind (h.modify fun _ => rfl) fun _ => resolveEach sources

/-- The machine is not part of the bridge's state. -/
theorem feed (defn : ProtocolDef) (deadline : Nat) (run : EapRun) :
    ∀ arrived, Keeps inv (feed defn deadline run arrived)
  | some _ => (h.emitSource _ _ _ _ _).bind fun _ => keeps_pure _
  | none => Keeps.bind (fun _ _ hs => hs) fun _ =>
      keeps_ite (fun _ => keeps_pure _) fun _ => keeps_pure _

end OfCore

namespace KeptWithoutCalls

variable {inv : BridgeState → Prop} (h : KeptWithoutCalls inv)
include h

/-- Whatever the host does, the invariant is kept. -/
theorem keptByHost : KeptByHost inv where
  other hview hs := h.same (congrArg Prod.fst hview) hs
  turn {s} hs := h.same (s := s) rfl hs
  quiet hm hs := h.quiet hm.quiet hs
  ccc {s} hs := h.same (s := s) rfl hs
  up := h.up
  lost {s} conn reason hs := by
    refine h.same (s := s.drop conn) rfl ?_
    rw [BridgeState.drop]
    split
    · exact h.down hs
    · exact hs
  done {s} hs := h.same (s := s) rfl hs
  found {s} _ _ _ hs := h.quiet trivial (h.same (s := s) rfl hs)
  arrived {s} _ hs := h.same (s := s) rfl hs
  delivered := h.delivered

/-- Whatever the host does, event by event. -/
theorem happenings (events : List HostEvent) : Keeps inv (happenings events) :=
  h.keptByHost.happenings events

/-- A scan that is stopped. -/
theorem btLeScanStop : Keeps inv btLeScanStop := h.keptByHost.btLeScanStop

/-- A wait keeps what its own mark keeps. -/
theorem wait {sem : Sem} {site : Site}
    (hsite : ∀ {s : BridgeState} (taken : Bool), inv s → inv (s.push (.waited site taken s.live))) :
    Keeps inv (wait sem site) := by
  refine h.keptByHost.wait (fun s _ hs => ?_) fun _ hs => hsite false hs
  exact hsite (s := s.take sem) true (h.same (s := s) rfl hs)

/-- A wait that no call comes after. -/
theorem waitIdle {sem : Sem} {site : Site} (hsite : site.Idle) :
    Keeps inv (Bridge.wait sem site) := h.wait fun taken => h.idle taken hsite

/-- The queue of notes is not looked at. -/
theorem takeNote : Keeps inv takeNote := by
  refine h.during.bind fun events => (h.happenings events).bind fun _ => keeps_get.bind fun s => ?_
  split
  · exact keeps_pure none
  · exact Keeps.bind (h.modify fun _ => rfl) fun _ => keeps_pure _

/-! ## Code that makes no GATT calls -/

/-- A connection that was begun and is given back. -/
theorem releasePendingConn (cancel : Bool) : Keeps inv (releasePendingConn cancel) := by
  refine keeps_get.bind fun _ => keeps_when fun _ => ?_
  exact Keeps.bind (keeps_when fun _ => h.ignored) fun _ => h.modify fun _ => rfl

/-- Advertising begins with an answer and a quiet mark. -/
theorem startAdvertising (localName : Option (CharArray (dbmMaxLocalNameLen + 1)))
    (advIntervalMs : UInt16) : Keeps inv (startAdvertising localName advIntervalMs) := by
  refine Keeps.bind (fun _ _ hs => hs) fun own => h.ignored.bind fun _ => h.answer.bind fun _ => ?_
  refine Keeps.bind (keeps_when fun _ => ?_) fun _ => keeps_pure _
  exact Keeps.bind (h.modify fun _ => rfl) fun _ => h.note trivial

/-- So the whole action. -/
theorem executeAdvertise (localName : Option (CharArray (dbmMaxLocalNameLen + 1)))
    (advIntervalMs : UInt16) : Keeps inv (executeAdvertise localName advIntervalMs) :=
  (h.startAdvertising localName advIntervalMs).bind fun _ =>
    keeps_ite (fun _ => keeps_pure _) fun _ =>
      keeps_ite (fun _ => keeps_pure _) fun _ => OfCore.outcomePass

/-- A scan that begins. -/
theorem btLeScanStart : Keeps inv btLeScanStart := by
  refine h.answer.bind fun _ => Keeps.bind (keeps_when fun _ => ?_) fun _ => keeps_pure _
  exact h.modify fun _ => rfl

/-- The central scans, waits and takes what came. -/
theorem connectAsCentral (params : ConnectParams) : Keeps inv (connectAsCentral params) := by
  have harm : Keeps inv (armScan params) :=
    Keeps.bind (h.modify fun _ => rfl) fun _ => h.clear .conn
  refine harm.bind fun _ => h.btLeScanStart.bind fun _ => ?_
  refine keeps_ite (fun _ => keeps_pure _) fun _ => ?_
  refine Keeps.bind (h.waitIdle trivial) fun _ => keeps_ite (fun _ => ?_) fun _ => ?_
  · exact h.btLeScanStop.bind fun _ => (h.releasePendingConn true).bind fun _ =>
      keeps_get.bind fun _ => keeps_pure _
  · refine (h.releasePendingConn false).bind fun _ => keeps_get.bind fun _ => ?_
    exact keeps_ite (fun _ => keeps_pure _) fun _ =>
      keeps_ite (fun _ => keeps_pure _) fun _ => OfCore.outcomePass

/-- The peripheral advertises, waits, and drops the wrong peer. -/
theorem connectRound (params : ConnectParams) : Keeps inv (connectRound params) := by
  have hadvertise : Keeps inv advertiseAnyway := keeps_get.bind fun _ =>
    keeps_ite (fun _ => keeps_pure _) fun _ => h.startAdvertising none 0
  refine Keeps.bind (h.modify fun _ => rfl) fun _ => (h.clear .conn).bind fun _ => ?_
  refine hadvertise.bind fun _ => ?_
  refine keeps_ite (fun _ => keeps_pure _) fun _ => Keeps.bind (h.waitIdle trivial) fun _ => ?_
  refine keeps_get.bind fun s => keeps_ite (fun _ => keeps_pure _) fun _ => ?_
  refine keeps_ite (fun _ => keeps_pure _) fun _ => keeps_ite (fun _ => ?_) fun _ => ?_
  · exact OfCore.outcomePass.map some
  · refine (h.clear .disconn).bind fun _ => h.ignored.bind fun _ => Keeps.bind (h.waitIdle trivial)
      fun _ => ?_
    exact keeps_ite (fun _ => keeps_pure _) fun _ => keeps_pure _

/-- As often as a wrong one comes. -/
theorem connectAsPeripheral (params : ConnectParams) :
    ∀ rounds, Keeps inv (connectAsPeripheral params rounds)
  | 0 => keeps_pure none
  | rounds + 1 => by
    refine (h.connectRound params).bind fun outcome => ?_
    cases outcome with
    | some outcome => exact keeps_pure _
    | none => exact connectAsPeripheral params rounds

/-- Either role, where there is no connection yet. -/
theorem executeConnect (role : BleRole) (params : ConnectParams) (rounds : Nat) :
    Keeps inv (executeConnect role params rounds) := by
  refine keeps_get.bind fun s => keeps_ite (fun _ => ?_) fun _ => ?_
  · exact keeps_ite (fun _ => OfCore.outcomePass.map some) fun _ => keeps_pure _
  · cases role with
    | central => exact (h.connectAsCentral params).map some
    | peripheral => exact h.connectAsPeripheral params rounds

/-- The level is asked for and judged. -/
theorem securitySettled (want : Nat) (others : Bool) :
    Keeps inv (securitySettled want others) := by
  refine keeps_get.bind fun s => ?_
  split
  · exact h.level.bind fun _ => keeps_pure _
  · refine keeps_ite (fun _ => keeps_pure _) fun _ => h.level.bind fun _ => ?_
    refine keeps_ite (fun _ => keeps_pure _) fun _ => keeps_ite (fun _ => ?_) fun _ => ?_
    · exact OfCore.outcomePass.map some
    · exact keeps_ite (fun _ => keeps_pure _) fun _ => keeps_pure _

/-- It is asked for again behind a wait. -/
theorem securityAttempt (want : Nat) : Keeps inv (securityAttempt want) := by
  refine (h.clear .sec).bind fun _ => h.level.bind fun _ => keeps_ite (fun _ => ?_) fun _ => ?_
  · exact OfCore.outcomePass.map some
  · refine h.answer.bind fun _ => keeps_ite (fun _ => keeps_pure _) fun _ => ?_
    refine Keeps.bind (h.waitIdle trivial) fun _ => keeps_get.bind fun _ => ?_
    refine keeps_ite (fun _ => ?_) fun _ => ?_
    · exact (OfCore.outcomeDisconnected _).map some
    · exact keeps_ite (fun _ => keeps_pure _) fun _ => h.securitySettled want _

/-- Twice, if the bond has to be made anew. -/
theorem executeSetSecurity (wireLevel : UInt8) : Keeps inv (executeSetSecurity wireLevel) := by
  refine keeps_get.bind fun s => keeps_ite (fun _ => keeps_pure _) fun _ => ?_
  split
  · exact keeps_pure _
  · next want _ =>
    refine Keeps.bind (h.modify fun _ => rfl) fun _ => (h.securityAttempt want).bind fun first => ?_
    cases first with
    | some outcome => exact keeps_pure _
    | none =>
      refine (h.securityAttempt want).bind fun second => ?_
      cases second with
      | some outcome => exact keeps_pure _
      | none => exact h.level.bind fun _ => keeps_pure _

/-- A wait there may be no reason for. -/
theorem waitIfIdle {sem : Sem} {site : Site} {p : Prop} [Decidable p]
    (hsite : site.Idle) : Keeps inv (waitIf p sem site) :=
  keeps_ite (fun _ => h.waitIdle hsite) fun _ => keeps_pure true

/-- The cache is nothing to the invariant. -/
theorem forgetHandles : Keeps inv forgetHandles := h.modify fun _ => rfl

/-- The peer is dropped and waited for. -/
theorem executeUnbond : Keeps inv executeUnbond := by
  refine keeps_get.bind fun s => Keeps.bind (keeps_when fun _ => h.clear .disconn) fun _ => ?_
  refine h.answer.bind fun _ => keeps_ite (fun _ => keeps_pure _) fun _ => ?_
  exact Keeps.bind (h.waitIfIdle trivial) fun _ => h.forgetHandles.bind fun _ => OfCore.outcomePass

/-- So it is at the end of a study. -/
theorem bleBridgeClearBonds : Keeps inv bleBridgeClearBonds := by
  refine keeps_get.bind fun s => Keeps.bind (keeps_when fun _ => h.clear .disconn) fun _ => ?_
  exact h.ignored.bind fun _ => Keeps.bind (h.waitIfIdle trivial) fun _ => h.forgetHandles

/-- The level goes into the outcome. -/
theorem stampLevel (outcome : BridgeOutcome) : Keeps inv (stampLevel outcome) :=
  keeps_get.bind fun _ =>
    keeps_ite (fun _ => h.level.bind fun _ => keeps_pure _) fun _ => keeps_pure _

/-- The first half of a reset takes the connection down. -/
theorem resetLink : Keeps inv resetLink :=
  keeps_get.bind fun _ => keeps_when fun _ => (h.clear .disconn).bind fun _ =>
    h.answer.bind fun _ => Keeps.bind (h.waitIfIdle trivial) fun _ => keeps_pure ()

/-- The second half zeroes the subscriptions, which is for the invariant to stand. -/
theorem bleBridgeReset (hreset : Keeps inv resetSubscriptions) : Keeps inv bleBridgeReset := by
  refine h.btLeScanStop.bind fun _ => h.ignored.bind fun _ => ?_
  refine (h.releasePendingConn true).bind fun _ => Keeps.bind (h.modify fun _ => rfl) fun _ => ?_
  refine hreset.bind fun _ => h.resetLink.bind fun _ => ?_
  exact Keeps.bind (h.modify fun _ => rfl) fun _ => h.captureReset.bind fun _ =>
    h.bleBridgeClearBonds

end KeptWithoutCalls

end DevBench.Bridge
