import DevBench.Bridge.Execute
import DevBench.Core.Lockstep
import Mathlib.Data.Set.Insert

/-!
# Benches nobody can tell apart

Two bridges may differ in what nothing looks at before it is set again: the error of an
earlier connection, the filters of an earlier scan, a table nobody asked for. They are
alike when they agree on the rest, and the hosts under them answer alike from now on.
What the host calls keeps them alike.
-/

namespace DevBench.Bridge

open DevBench.Core DevBench.Core.Program DevBench.Eap DevBench.Bench DevBench.Wire

/-! ## What two sides agree on -/

/-- The host as it goes on behind so many turns. -/
def Host.ahead (host : Host) (n : Nat) : Host where
  answer k := host.answer (n + k)
  during k := host.during (n + k)
  uptime k := host.uptime (n + k)
  level k := host.level (n + k)
  deviceName := host.deviceName
  queued k := host.queued (n + k)

/-- A host that is ahead of one that is ahead. -/
theorem Host.ahead_ahead (host : Host) (m n : Nat) :
    (host.ahead m).ahead n = host.ahead (m + n) := by
  simp only [Host.ahead, Nat.add_assoc]

/-- A mark without what a peer has advertised. -/
def Mark.unnamed : Mark → Mark
  | initiated addr _ => .initiated addr []
  | m => m

/-- Two censuses agree on what is in front of their length. -/
structure Census.Alike (a b : Census) : Prop where
  len : a.len = b.len
  overflowed : a.overflowed = b.overflowed
  seen : ∀ i < a.len.toNat, a.seen.toList[i]? = b.seen.toList[i]?

/-- Two scans are for the same, and have seen the same. -/
structure Scan.Alike (a b : Scan) : Prop where
  target : a.target = b.target
  name : a.name = b.name
  matched : a.matched = b.matched
  census : a.census.Alike b.census

/-- A part of the state two sides may or may not agree on. -/
inductive Aspect where
  | connErr | linkLost | scan | captured | attErr | ccc | found | foundValue | cache
  | table | discovering | security | sources | queue
  | given (sem : Sem)

/-- The two sides agree on it. -/
def Aspect.Same (s t : BridgeState) : Aspect → Prop
  | connErr => s.link.connErr = t.link.connErr
  | linkLost => s.link.linkLost = t.link.linkLost
  | scan => s.scan.Alike t.scan
  | captured => s.exchange.captured = t.exchange.captured
  | attErr => s.exchange.attErr = t.exchange.attErr
  | ccc => s.exchange.cccAttErr = t.exchange.cccAttErr ∧
      s.exchange.cccTornDown = t.exchange.cccTornDown
  | found => s.exchange.foundServiceStart = t.exchange.foundServiceStart ∧
      s.exchange.foundServiceEnd = t.exchange.foundServiceEnd
  | foundValue => s.exchange.foundValueHandle = t.exchange.foundValueHandle
  | cache => s.exchange.handleCache = t.exchange.handleCache
  | table => s.table = t.table
  | discovering => s.discovering = t.discovering
  | security => s.security = t.security
  | sources => s.protocol.sources = t.protocol.sources
  | queue => s.protocol.queue = t.protocol.queue
  | given sem => s.given sem = t.given sem

/-- Something may look at the table without having it made before. -/
def BridgeState.LooksUp (s : BridgeState) : Prop :=
  s.armed ≠ [] ∨ s.monitor.windowOpen = true ∨ s.pending = some .allServices ∨
    s.pending = some .allCharacteristics

/-- What a step or a study can leave to the next one. -/
structure Rest where
  advertising : Bool
  streaming : Bool
  subscribed : Bool
  valid : Bool
  windowOpen : Bool
  subscribeHandle : UInt16
  subscribeValue : UInt16
  count : Nat

/-- The rest of a state. -/
def BridgeState.rest (s : BridgeState) : Rest where
  advertising := s.link.advertising
  streaming := s.exchange.streaming
  subscribed := s.exchange.subscribed
  valid := s.exchange.handleCache.valid
  windowOpen := s.monitor.windowOpen
  subscribeHandle := s.exchange.subscribeHandle
  subscribeValue := s.exchange.subscribeValue
  count := s.monitor.count

/-- Some of it may be gone. -/
structure Rest.Calmer (r r' : Rest) : Prop where
  advertising : r'.advertising = r.advertising ∨ r'.advertising = false
  streaming : r'.streaming = r.streaming ∨ r'.streaming = false
  subscribed : r'.subscribed = r.subscribed ∨ r'.subscribed = false
  valid : r'.valid = r.valid ∨ r'.valid = false
  windowOpen : r'.windowOpen = r.windowOpen ∨ r'.windowOpen = false
  subscribeHandle : r'.subscribeHandle = r.subscribeHandle ∨ r'.subscribeHandle = 0
  subscribeValue : r'.subscribeValue = r.subscribeValue ∨ r'.subscribeValue = 0
  count : r'.count = r.count ∨ r'.count = 0

/-- What is said of two runs beside their sides being alike: what holds of the rest on the
first side, whether no protocol runs on it, and what the logs were before. -/
structure Scope where
  holds : Rest → Prop
  calm : ∀ {r r'}, r.Calmer r' → holds r → holds r'
  unread : Prop
  before : List Mark
  before' : List Mark

/-- Two sides are alike and agree on some aspects. -/
structure Alike (c : Scope) (E : Set Aspect) (host : Host) (s : BridgeState) (host' : Host)
    (t : BridgeState) : Prop where
  sync : host.ahead s.turn = host'.ahead t.turn
  log : ∃ marks, s.log.map Mark.unnamed = marks ++ c.before ∧
    t.log.map Mark.unnamed = marks ++ c.before'
  same : ∀ p ∈ E, p.Same s t
  reason : s.link.linkLostReason = t.link.linkLostReason
  activeConn : s.link.activeConn = t.link.activeConn
  pendingConn : s.link.pendingConn = t.link.pendingConn
  advertising : s.link.advertising = t.link.advertising
  scanning : s.scanning = t.scanning
  scan : s.scanning = true → s.scan.Alike t.scan
  streaming : s.exchange.streaming = t.exchange.streaming
  subscribed : s.exchange.subscribed = t.exchange.subscribed
  subscribeHandle : s.exchange.subscribeHandle = t.exchange.subscribeHandle
  subscribeValue : s.exchange.subscribeValue = t.exchange.subscribeValue
  cacheValid : s.exchange.handleCache.valid = t.exchange.handleCache.valid
  cache : s.exchange.handleCache.valid = true → s.exchange.handleCache = t.exchange.handleCache
  table : s.LooksUp → s.table = t.table
  discovering : s.pending = some .allCharacteristics → s.discovering = t.discovering
  count : s.monitor.count = t.monitor.count
  windowOpen : s.monitor.windowOpen = t.monitor.windowOpen
  charIndex : ∀ i < s.monitor.count, s.monitor.charIndex[i]? = t.monitor.charIndex[i]?
  reads : s.protocol.subscribed = t.protocol.subscribed
  queue : s.protocol.subscribed ≠ [] → s.protocol.queue = t.protocol.queue
  pending : s.pending = t.pending
  armed : s.armed = t.armed
  idle : s.link.activeConn = none → s.armed = [] ∧ s.pending = none
  rest : c.holds s.rest
  unread : c.unread → s.protocol.subscribed = []

variable {c : Scope} {E E' : Set Aspect} {host host' : Host} {s t : BridgeState}

namespace Alike

/-- Less may be known of the two. -/
theorem forget (h : Alike c E' host s host' t) (hE : E ⊆ E') : Alike c E host s host' t :=
  { h with same := fun p hp => h.same p (hE hp) }

/-- More may be known of them, where it is so. -/
theorem learn (h : Alike c E host s host' t) {L : Set Aspect} (hL : ∀ p ∈ L, p.Same s t) :
    Alike c (E ∪ L) host s host' t :=
  { h with same := fun p hp => hp.elim (h.same p) (hL p) }

/-- Both have a connection or neither has. -/
theorem live (h : Alike c E host s host' t) : s.live = t.live :=
  congrArg Option.isSome h.activeConn

/-- A turn is over on both sides. -/
theorem turn (h : Alike c E host s host' t) :
    Alike c E host { s with turn := s.turn + 1 } host' { t with turn := t.turn + 1 } := by
  have hsync : host.ahead (s.turn + 1) = host'.ahead (t.turn + 1) := by
    rw [← Host.ahead_ahead, h.sync, Host.ahead_ahead]
  exact { h with sync := hsync, same := fun p hp => by cases p <;> exact h.same _ hp }

/-- The same is logged on both sides, up to what a peer has advertised. -/
theorem push (h : Alike c E host s host' t) {m m' : Mark} (hm : m.unnamed = m'.unnamed) :
    Alike c E host (s.push m) host' (t.push m') := by
  obtain ⟨marks, hs, ht⟩ := h.log
  have hlog : ∃ marks, (s.push m).log.map Mark.unnamed = marks ++ c.before ∧
      (t.push m').log.map Mark.unnamed = marks ++ c.before' := by
    refine ⟨m.unnamed :: marks, ?_, ?_⟩
    · rw [BridgeState.push, List.map_cons, hs, List.cons_append]
    · rw [BridgeState.push, List.map_cons, ht, ← hm, List.cons_append]
  exact { h with log := hlog, same := fun p hp => by cases p <;> exact h.same _ hp }

/-- What the hosts tell at this turn is the same. -/
theorem answer (h : Alike c E host s host' t) : host.answer s.turn = host'.answer t.turn :=
  congrFun (congrArg Host.answer h.sync) 0

/-- The same happens to both while they wait. -/
theorem during (h : Alike c E host s host' t) : host.during s.turn = host'.during t.turn :=
  congrFun (congrArg Host.during h.sync) 0

/-- It is the same time for both. -/
theorem uptime (h : Alike c E host s host' t) : host.uptime s.turn = host'.uptime t.turn :=
  congrFun (congrArg Host.uptime h.sync) 0

/-- The host has the same level for both. -/
theorem level (h : Alike c E host s host' t) : host.level s.turn = host'.level t.turn :=
  congrFun (congrArg Host.level h.sync) 0

/-- It has the same name. -/
theorem deviceName (h : Alike c E host s host' t) : host.deviceName = host'.deviceName := by
  have hsync := congrArg Host.deviceName h.sync
  exact hsync

/-- As much waits in the transcript queue. -/
theorem queued (h : Alike c E host s host' t) : host.queued s.turn = host'.queued t.turn :=
  congrFun (congrArg Host.queued h.sync) 0

/-- A semaphore is given or taken on both sides. -/
theorem update (h : Alike c E host s host' t) (sem : Sem) (v : Bool) :
    Alike c (E ∪ {.given sem}) host { s with given := Function.update s.given sem v }
      host' { t with given := Function.update t.given sem v } := by
  refine { h with same := fun p hp => ?_ }
  rcases hp with hp | rfl
  · cases p with
    | given other =>
      have hsame : s.given other = t.given other := h.same _ hp
      simp only [Aspect.Same, Function.update_apply, hsame]
    | _ => exact h.same _ hp
  · simp only [Aspect.Same, Function.update_self]

/-- A semaphore is given on both sides. -/
theorem give (h : Alike c E host s host' t) (sem : Sem) :
    Alike c E host (s.give sem) host' (t.give sem) :=
  (h.update sem true).forget Set.subset_union_left

/-- One that is taken is the same from then on. -/
theorem take (h : Alike c E host s host' t) (sem : Sem) :
    Alike c (E ∪ {.given sem}) host (s.take sem) host' (t.take sem) := h.update sem false

/-- The connection is dropped on both sides or on neither. -/
theorem drop (h : Alike c E host s host' t) (conn : BtAddr) :
    Alike c E host (s.drop conn) host' (t.drop conn) := by
  rw [BridgeState.drop, BridgeState.drop, ← h.activeConn]
  split
  · exact { h with
      same := fun p hp => by cases p <;> exact h.same _ hp
      activeConn := rfl
      table := fun hlooks => by
        rcases hlooks with harmed | hopen | hpending | hpending
        · exact absurd rfl harmed
        · exact h.table (.inr (.inl hopen))
        · cases hpending
        · cases hpending
      discovering := fun hpending => by cases hpending
      pending := rfl
      armed := rfl
      idle := fun _ => ⟨rfl, rfl⟩ }
  · exact h

/-- A connection is lost on both sides. -/
theorem lose (h : Alike c E host s host' t) (conn : BtAddr) (reason : UInt8) :
    Alike c E host (s.lose conn reason) host' (t.lose conn reason) := by
  have hd := (h.drop conn).give .gatt
  exact { hd with
    same := fun p hp => by
      have hsame := hd.same p hp
      cases p with
      | linkLost => rfl
      | cache => exact congrArg (fun cache : HandleCache => { cache with valid := false }) hsame
      | _ => exact hsame
    reason := rfl
    subscribed := rfl
    cacheValid := rfl
    cache := fun hvalid => by cases hvalid
    rest := c.calm (by constructor <;> first | exact .inl rfl | exact .inr rfl) hd.rest }

end Alike

/-! ## What the host calls -/

section Callbacks

/-- A change that keeps the two alike. -/
theorem inStep_of_modify {f : BridgeState → BridgeState}
    (h : ∀ host s host' t, Alike c E host s host' t → Alike c E host (f s) host' (f t)) :
    InStep (Alike c E) (modify f) := lockstep_modify h

/-- They are answered the same. -/
theorem inStep_answer : InStep (Alike c E) answer := fun _ _ _ _ h => ⟨h.answer, h.turn⟩

/-- The same happens to them. -/
theorem inStep_during : InStep (Alike c E) during := fun _ _ _ _ h => ⟨h.during, h.turn⟩

/-- They are told the same level. -/
theorem inStep_level : InStep (Alike c E) level := fun _ _ _ _ h => ⟨h.level, h.turn⟩

/-- They read the same clock. -/
theorem inStep_uptime : InStep (Alike c E) uptime := fun _ _ _ _ h => ⟨h.uptime, h⟩

/-- They read the same name. -/
theorem inStep_deviceName : InStep (Alike c E) deviceName := fun _ _ _ _ h => ⟨h.deviceName, h⟩

/-- They see as much in the queue. -/
theorem inStep_queued : InStep (Alike c E) queued := fun _ _ _ _ h => ⟨h.queued, h⟩

/-- They log the same mark. -/
theorem inStep_note (m : Mark) : InStep (Alike c E) (note m) := fun _ _ _ _ h => ⟨rfl, h.push rfl⟩

/-- They give the same semaphore. -/
theorem inStep_give (sem : Sem) : InStep (Alike c E) (give sem) := fun _ _ _ _ h =>
  ⟨rfl, h.give sem⟩

/-- They ignore the same answer. -/
theorem inStep_ignored : InStep (Alike c E) ignored := inStep_answer.bind fun _ => inStep_pure ()

/-- They make the same entry. -/
theorem inStep_transcriptEntry (direction kind : UInt8)
    (serviceUuid characteristicUuid : Option Uuid) (attStatus : UInt8) (payload : List UInt8) :
    InStep (Alike c E)
      (transcriptEntry direction kind serviceUuid characteristicUuid attStatus payload) :=
  inStep_uptime.bind fun _ => inStep_pure _

/-- And log it. -/
theorem inStep_transcriptEmit (direction kind : UInt8)
    (serviceUuid characteristicUuid : Option Uuid) (attStatus : UInt8) (payload : List UInt8) :
    InStep (Alike c E)
      (transcriptEmit direction kind serviceUuid characteristicUuid attStatus payload) :=
  (inStep_transcriptEntry _ _ _ _ _ _).bind fun _ => inStep_note _

/-- A look at the state that what follows does not tell the sides apart by. -/
theorem inStep_get {α : Type} {f : BridgeState → Act α} {post : α → Related Host BridgeState}
    (hsame : ∀ {host s host' t}, Alike c E host s host' t → f s = f t)
    (h : ∀ s, Lockstep (Alike c E) (f s) post) : Lockstep (Alike c E) (get >>= f) post :=
  lockstep_get (fun _ _ _ _ => hsame) fun s => (h s).given

/-- A connection comes up, or its error is kept. -/
theorem inStep_connectedCb (conn : BtAddr) (err : UInt8) :
    InStep (Alike c E) (connectedCb conn err) := by
  refine Lockstep.bind (q := fun _ => Alike c E) (inStep_of_modify fun host s host' t h => ?_)
    fun _ => Lockstep.bind (q := fun _ => Alike c E) (inStep_of_modify fun host s host' t h => ?_)
      fun _ => inStep_give _
  · exact { h with
      same := fun p hp => by cases p <;> first | exact h.same _ hp | rfl
      advertising := rfl
      rest := c.calm (by constructor <;> first | exact .inl rfl | exact .inr rfl) h.rest }
  · rw [← h.activeConn]
    split
    · exact { h with
        same := fun p hp => by cases p <;> exact h.same _ hp
        activeConn := rfl
        idle := fun hnone => by cases hnone }
    · exact h

/-- A connection is lost. -/
theorem inStep_disconnectedCb (conn : BtAddr) (reason : UInt8) :
    InStep (Alike c E) (disconnectedCb conn reason) := by
  refine Lockstep.bind (q := fun _ => Alike c E) (inStep_of_modify fun host s host' t h => ?_)
    fun _ => (inStep_give .notify).bind fun _ => inStep_give .disconn
  exact h.lose conn reason

/-- What the security callbacks change. -/
theorem inStep_security (f : Security → Security) :
    InStep (Alike c E) (modify fun s => { s with security := f s.security } : Act Unit) := by
  refine inStep_of_modify fun host s host' t h => { h with same := fun p hp => ?_ }
  have hsame := h.same p hp
  cases p with
  | security => exact congrArg f hsame
  | _ => exact hsame

/-- A scan is stopped. -/
theorem inStep_btLeScanStop : InStep (Alike c E) btLeScanStop := by
  refine inStep_answer.bind fun err => Lockstep.bind (q := fun _ => Alike c E) (inStep_when fun _ =>
    inStep_of_modify fun host s host' t h => ?_) fun _ => inStep_pure err
  exact { h with
    same := fun p hp => by cases p <;> exact h.same _ hp
    scanning := rfl
    scan := fun hscanning => by cases hscanning }

/-- The names a peer has advertised alone may be others. -/
theorem inStep_btConnLeCreate (addr : BtAddr) : InStep (Alike c E) (btConnLeCreate addr) := by
  refine inStep_answer.bind fun err => ?_
  intro host s host' t h
  unfold when
  split
  · exact ⟨rfl, h.push rfl⟩
  · exact ⟨rfl, h⟩

/-- A connection that could not be begun is refused with the same error. -/
theorem inStep_refusedConn : InStep (Alike c E) (do
    modify fun s => { s with link.connErr := btHciErrUnspecified }
    give .conn : Act Unit) := by
  refine Lockstep.bind (q := fun _ => Alike c E) (inStep_of_modify fun host s host' t h => ?_)
    fun _ => inStep_give _
  exact { h with same := fun p hp => by cases p <;> first | exact h.same _ hp | rfl }

/-- What a scan keeps is changed on both sides alike. -/
theorem Alike.setScan (h : Alike c E host s host' t) {scan scan' : Scan}
    (hscan : scan.Alike scan') :
    Alike c E host { s with scan := scan } host' { t with scan := scan' } := by
  refine { h with same := fun p hp => ?_, scan := fun _ => hscan }
  cases p with
  | scan => exact hscan
  | _ => exact h.same _ hp

/-- A scan is over whose target and filter are alike. -/
theorem inStep_scanMatched (addr : BtAddr) :
    Lockstep (fun host s host' t => s.scan.Alike t.scan ∧ Alike c E host s host' t)
      (scanMatched addr) fun _ => Alike c E := by
  refine Lockstep.bind (q := fun _ => Alike c E) (lockstep_modify fun host s host' t h => ?_)
    fun _ => inStep_btLeScanStop.bind fun err => lockstep_ite (fun _ => inStep_refusedConn)
      fun _ => (inStep_btConnLeCreate addr).bind fun err =>
        lockstep_ite (fun _ => inStep_refusedConn) fun _ =>
          inStep_of_modify fun host s host' t h => ?_
  · exact h.2.setScan { h.1 with matched := rfl }
  · exact { h with
      same := fun p hp => by cases p <;> exact h.same _ hp
      pendingConn := rfl }

namespace Census.Alike

variable {a b : Census}

/-- The entries in use are those in front of the count. -/
theorem entries (h : a.Alike b) : a.entries = b.entries := by
  apply List.ext_getElem?
  intro i
  simp only [Census.entries, List.getElem?_take, ← h.len]
  split
  · next hi => exact h.seen i hi
  · rfl

/-- An entry is written into both censuses. -/
theorem write (h : a.Alike b) (i : Nat) (entry : ScanSeenEntry) :
    (a.write i entry).Alike (b.write i entry) := by
  refine ⟨h.len, h.overflowed, fun j hj => ?_⟩
  simp only [Census.write, Vector.toList_setIfInBounds, List.getElem?_set, Vector.length_toList]
  split
  · rfl
  · exact h.seen j hj

/-- One more entry is in front of the length, or the length has started over. -/
theorem grow (h : a.Alike b) (entry : ScanSeenEntry) :
    Census.Alike { a.write a.len.toNat entry with len := a.len + 1 }
      { b.write b.len.toNat entry with len := b.len + 1 } := by
  refine ⟨by simp only [h.len], h.overflowed, fun j hj => ?_⟩
  simp only [Census.write, Vector.toList_setIfInBounds, List.getElem?_set, Vector.length_toList,
    ← h.len]
  split
  · rfl
  · next hne =>
    refine h.seen j ?_
    have hlt := a.len.toNat_lt
    simp only [UInt8.toNat_add, UInt8.toNat_one] at hj
    omega

/-- An address has the same place on both sides. -/
theorem entryFor (h : a.Alike b) (addr : BtAddr) :
    (a.entryFor addr).1 = (b.entryFor addr).1 ∧
      (a.entryFor addr).2.Alike (b.entryFor addr).2 := by
  simp only [Census.entryFor, ← h.entries, ← h.len]
  cases a.entries.zipIdx.find? (·.1.addr = addr) with
  | some found => exact ⟨rfl, h⟩
  | none =>
    by_cases hfull : scanSeenMax ≤ a.len.toNat
    · simp only [if_pos hfull]
      exact ⟨trivial, rfl, rfl, h.seen⟩
    · simp only [if_neg hfull]
      have hgrow := h.grow (.fresh addr)
      rw [← h.len] at hgrow
      exact ⟨trivial, hgrow⟩

/-- The same advertisement leads to the same entry. -/
theorem record (h : a.Alike b) (addr : BtAddr) (advType : UInt8) (elements : List BtData) :
    (a.record addr advType elements).1 = (b.record addr advType elements).1 ∧
      (a.record addr advType elements).2.Alike (b.record addr advType elements).2 := by
  obtain ⟨hplace, hcensus⟩ := h.entryFor addr
  rw [Census.record, Census.record]
  cases ha : a.entryFor addr with
  | mk place a' =>
    cases hb : b.entryFor addr with
    | mk place' b' =>
      rw [ha, hb] at hplace hcensus
      dsimp only at hplace hcensus
      subst hplace
      cases place with
      | none => exact ⟨rfl, hcensus⟩
      | some found => exact ⟨rfl, hcensus.write _ _⟩

end Census.Alike

/-- Scans that are alike accept the same advertisers. -/
theorem Scan.Alike.accepts {a b : Scan} (h : a.Alike b) (addr : BtAddr) (entry : ScanSeenEntry) :
    a.accepts addr entry = b.accepts addr entry := by
  rw [Scan.accepts, Scan.accepts, h.target, h.name]

/-- Behind a match nothing more is recorded. -/
theorem scanCb_matched (hmatched : s.scan.matched = true) (addr : BtAddr) (advType : UInt8)
    (elements : List BtData) : scanCb addr advType elements host s = ((), s) := by
  change (if s.scan.matched = true then (pure () : Act Unit) else _) host s = _
  rw [if_pos hmatched]
  rfl

/-- Before it the report is recorded, and may be the match. -/
theorem scanCb_unmatched (hmatched : ¬ s.scan.matched = true) (addr : BtAddr) (advType : UInt8)
    (elements : List BtData) :
    scanCb addr advType elements host s =
      (match (s.scan.census.record addr advType elements).1 with
        | none => pure ()
        | some entry => when (s.scan.accepts addr entry) (scanMatched addr) : Act Unit) host
        { s with scan.census := (s.scan.census.record addr advType elements).2 } := by
  change (if s.scan.matched = true then (pure () : Act Unit) else _) host s = _
  rw [if_neg hmatched]
  rfl

/-- The census of a scan that runs is the same on both sides in front of its length. -/
theorem inStep_scanCb (addr : BtAddr) (advType : UInt8) (elements : List BtData) :
    Lockstep (fun host s host' t => s.scanning = true ∧ Alike c E host s host' t)
      (scanCb addr advType elements) fun _ => Alike c E := by
  rintro host s host' t ⟨hscanning, h⟩
  have hscan := h.scan hscanning
  obtain ⟨hentry, hcensus⟩ := hscan.census.record addr advType elements
  have hscan' : Scan.Alike
      { s.scan with census := (s.scan.census.record addr advType elements).2 }
      { t.scan with census := (t.scan.census.record addr advType elements).2 } :=
    { hscan with census := hcensus }
  have hnext := h.setScan hscan'
  have hmatched := hscan.matched
  by_cases hm : s.scan.matched = true
  · rw [scanCb_matched hm, scanCb_matched (hmatched ▸ hm)]
    exact ⟨rfl, h⟩
  · rw [scanCb_unmatched hm, scanCb_unmatched (hmatched ▸ hm), ← hentry]
    cases (s.scan.census.record addr advType elements).1 with
    | none => exact ⟨rfl, hnext⟩
    | some entry =>
      dsimp only
      rw [← hscan.accepts, when_apply, when_apply]
      split
      · exact inStep_scanMatched addr _ _ _ _ ⟨hscan', hnext⟩
      · exact ⟨rfl, hnext⟩

/-- What is heard is recorded by both while a scan is on. -/
theorem inStep_hearAdvertised (addr : BtAddr) (advType : UInt8) (elements : List BtData) :
    InStep (Alike c E) (hearAdvertised addr advType elements) := by
  refine Lockstep.bind (q := fun _ => Alike c E) (inStep_of_modify fun host s host' t h => ?_)
    fun _ => lockstep_get (fun host s host' t h => ?_) fun s => ?_
  · exact { h with same := fun p hp => by cases p <;> exact h.same _ hp }
  · rw [h.scanning]
  · refine lockstep_ite (fun hscanning => ?_) fun _ =>
      lockstep_pure fun _ _ _ _ h => h.2
    refine (inStep_scanCb addr advType elements).conseq ?_ fun _ _ _ _ _ => id
    rintro host s₁ host' t ⟨rfl, h⟩
    exact ⟨hscanning, h⟩

/-- A procedure is over on both sides. -/
theorem inStep_procedureDone : InStep (Alike c E) procedureDone := by
  refine inStep_of_modify fun host s host' t h => ?_
  have hg := h.give .gatt
  exact { hg with
    same := fun p hp => by cases p <;> exact hg.same _ hp
    table := fun hlooks => by
      rcases hlooks with harmed | hopen | hpending | hpending
      · exact h.table (.inl harmed)
      · exact h.table (.inr (.inl hopen))
      · cases hpending
      · cases hpending
    discovering := fun hpending => by cases hpending
    pending := rfl
    idle := fun hnone => ⟨(h.idle hnone).1, rfl⟩ }

/-- What a callback does while its procedure is outstanding. -/
theorem inStep_whenPending {procedure : Procedure} {act : Act Unit}
    (hact : Lockstep (fun host s host' t => s.pending = some procedure ∧ Alike c E host s host' t)
      act fun _ => Alike c E) : InStep (Alike c E) (whenPending procedure act) := by
  refine lockstep_get (fun host s host' t h => by rw [h.pending]) fun s =>
    lockstep_ite (fun hpending => ?_) fun _ => lockstep_pure fun _ _ _ _ h => h.2
  refine hact.conseq ?_ fun _ _ _ _ _ => id
  rintro host s₁ host' t ⟨rfl, h⟩
  exact ⟨hpending, h⟩

/-- A callback runs on both sides or on neither. -/
theorem InStep.pending {procedure : Procedure} {act : Act Unit} (h : InStep (Alike c E) act) :
    InStep (Alike c E) (whenPending procedure act) :=
  inStep_whenPending (Lockstep.given h)

/-- A service is found and the procedure over. -/
theorem inStep_discoverServiceCb (handle endHandle : UInt16) :
    InStep (Alike c E) (discoverServiceCb handle endHandle) := by
  refine Lockstep.bind (q := fun _ => Alike c E) (inStep_of_modify fun host s host' t h => ?_)
    fun _ => inStep_procedureDone
  exact { h with same := fun p hp => by cases p <;> first | exact h.same _ hp | exact ⟨rfl, rfl⟩ }

/-- So for a characteristic. -/
theorem inStep_discoverChrcCb (valueHandle : UInt16) :
    InStep (Alike c E) (discoverChrcCb valueHandle) := by
  refine Lockstep.bind (q := fun _ => Alike c E) (inStep_of_modify fun host s host' t h => ?_)
    fun _ => inStep_procedureDone
  exact { h with same := fun p hp => by cases p <;> first | exact h.same _ hp | rfl }

/-- The table is written on both sides. -/
theorem inStep_setTable (table : Table) :
    InStep (Alike c E) (modify fun s => { s with table := table } : Act Unit) := by
  refine inStep_of_modify fun host s host' t h => ?_
  exact { h with
    same := fun p hp => by cases p <;> first | exact h.same _ hp | rfl
    table := fun _ => rfl }

/-- While a walk over the services is outstanding the tables are the same. -/
theorem inStep_discoverAllServicesCb (handle endHandle : UInt16) (uuid : BtUuid) :
    Lockstep (fun host s host' t => s.pending = some .allServices ∧ Alike c E host s host' t)
      (discoverAllServicesCb handle endHandle uuid) fun _ => Alike c E := by
  refine lockstep_get (fun host s host' t h => ?_) fun s => ?_
  · rw [h.2.table (.inr (.inr (.inl h.1)))]
  refine Lockstep.given (Lockstep.given ?_)
  split
  · exact (inStep_setTable _).bind fun _ => inStep_transcriptEmit _ _ _ _ _ _
  · exact inStep_procedureDone

/-- So they are during one over the characteristics, and so is the service it is at. -/
theorem inStep_discoverAllCharsCb (valueHandle : UInt16) (properties : UInt8) (uuid : BtUuid) :
    Lockstep (fun host s host' t => s.pending = some .allCharacteristics ∧
        Alike c E host s host' t)
      (discoverAllCharsCb valueHandle properties uuid) fun _ => Alike c E := by
  refine lockstep_get (fun host s host' t h => ?_) fun s => ?_
  · rw [h.2.table (.inr (.inr (.inr h.1))), h.2.discovering h.1]
  refine Lockstep.given (Lockstep.given ?_)
  split
  · exact inStep_pure ()
  · split
    · exact (inStep_setTable _).bind fun _ => inStep_transcriptEmit _ _ _ _ _ _
    · exact inStep_procedureDone

/-- What is captured is changed on both sides alike. -/
theorem inStep_capture (f : Slots UInt8 bleMaxPayloadLen → Slots UInt8 bleMaxPayloadLen) :
    InStep (Alike c E)
      (modify fun s => { s with exchange.captured := f s.exchange.captured } : Act Unit) := by
  refine inStep_of_modify fun host s host' t h => { h with same := fun p hp => ?_ }
  have hsame := h.same p hp
  cases p with
  | captured => exact congrArg f hsame
  | _ => exact hsame

/-- A captured value that is emptied. -/
theorem inStep_captureReset : InStep (Alike c E) captureReset := inStep_capture fun _ => .empty

/-- A piece is added to what was captured alike. -/
theorem inStep_captureAppend (data : List UInt8) : InStep (Alike c E) (captureAppend data) :=
  inStep_capture fun captured => .clamp (captured.items ++ data)

/-- An error of the peer is noted on both sides. -/
theorem inStep_attErr (err : UInt8) :
    InStep (Alike c E) (modify fun s => { s with exchange.attErr := err } : Act Unit) := by
  refine inStep_of_modify fun host s host' t h => ?_
  exact { h with same := fun p hp => by cases p <;> first | exact h.same _ hp | rfl }

/-- A read is answered while it is outstanding, when what was captured is the same. -/
theorem inStep_readCb (err : UInt8) (data : Option (List UInt8)) :
    InStep (Alike c E) (readCb err data) := by
  refine lockstep_ite (fun _ => (inStep_attErr err).bind fun _ => inStep_procedureDone) fun _ => ?_
  cases data with
  | none => exact inStep_procedureDone
  | some data => exact inStep_captureAppend data

/-- A write is answered. -/
theorem inStep_writeCb (err : UInt8) : InStep (Alike c E) (writeCb err) :=
  (inStep_attErr err).bind fun _ => inStep_procedureDone

/-- A CCC write is answered. -/
theorem inStep_subscribeCb (err : UInt8) : InStep (Alike c E) (subscribeCb err) := by
  refine Lockstep.bind (q := fun _ => Alike c E) (inStep_of_modify fun host s host' t h => ?_)
    fun _ => inStep_give _
  refine { h with same := fun p hp => ?_ }
  have hsame := h.same p hp
  cases p with
  | ccc => exact ⟨rfl, hsame.2⟩
  | _ => exact hsame

/-- An entry is labelled with the cached UUIDs. -/
theorem inStep_emitCached (direction kind attStatus : UInt8) (payload : List UInt8) :
    InStep (Alike c E) (emitCached direction kind attStatus payload) := by
  refine inStep_get (fun {host s host' t} h => ?_) fun s => inStep_transcriptEmit _ _ _ _ _ _
  have hcached : cachedServiceUuid s = cachedServiceUuid t ∧
      cachedCharacteristicUuid s = cachedCharacteristicUuid t := by
    simp only [cachedServiceUuid, cachedCharacteristicUuid, ← h.cacheValid]
    cases hvalid : s.exchange.handleCache.valid with
    | false => simp
    | true => simp [h.cache hvalid]
  rw [hcached.1, hcached.2]

/-- A notification of the data exchange is kept or handed on. -/
theorem inStep_notifyCb (data : Option (List UInt8)) : InStep (Alike c E) (notifyCb data) := by
  cases data with
  | none =>
    refine Lockstep.bind (q := fun _ => Alike c E) (inStep_of_modify fun host s host' t h => ?_)
      fun _ => inStep_give _
    exact { h with
      same := fun p hp => by
        have hsame := h.same p hp
        cases p with
        | ccc => exact ⟨hsame.1, rfl⟩
        | _ => exact hsame
      subscribed := rfl
      rest := c.calm (by constructor <;> first | exact .inl rfl | exact .inr rfl) h.rest }
  | some data =>
    refine inStep_get (fun h => by rw [h.streaming]) fun s => lockstep_ite (fun _ => ?_) fun _ => ?_
    · exact (inStep_note _).bind fun _ => inStep_emitCached _ _ _ _
    · exact (inStep_emitCached _ _ _ _).bind fun _ => inStep_captureReset.bind fun _ =>
        (inStep_captureAppend data).bind fun _ => inStep_give _

/-- A slot that counts has the same index on both sides. -/
theorem Alike.recorded (h : Alike c E host s host' t) (slot : Nat) :
    s.monitor.recorded slot = t.monitor.recorded slot := by
  simp only [Monitor.recorded, ← h.count]
  split
  · next hslot => exact h.charIndex slot hslot
  · rfl

/-- An armed slot was armed from the table as it was, which the host remembers. -/
theorem inStep_monitorNotifyCb (on : Armed) (data : Option (List UInt8)) :
    Lockstep (fun host s host' t => on ∈ s.armed ∧ Alike c E host s host' t)
      (monitorNotifyCb on data) fun _ => Alike c E := by
  cases data with
  | none => exact lockstep_pure fun _ _ _ _ h => h.2
  | some data =>
    refine lockstep_get (fun host s host' t h => ?_) fun s => ?_
    · have htable : s.table = t.table := h.2.table (.inl fun hnil => by simp [hnil] at h)
      have hlabels : s.labels = t.labels := by
        rw [BridgeState.labels, BridgeState.labels, htable]
      rw [h.2.recorded, htable, hlabels]
    refine Lockstep.given (Lockstep.given ?_)
    exact (inStep_transcriptEntry _ _ _ _ _ _).bind fun _ => (inStep_note _).bind fun _ =>
      inStep_note _

/-- A note of a protocol run is queued or dropped. -/
theorem inStep_protocolNotifyCb (slot : Nat) (data : Option (List UInt8)) :
    InStep (Alike c E) (protocolNotifyCb slot data) := by
  cases data with
  | none => exact inStep_pure ()
  | some data =>
    refine inStep_get (fun {host s host' t} h => ?_) fun s => ?_
    · rw [← h.reads]
      cases hslot : s.protocol.subscribed[slot]? with
      | none => rfl
      | some source =>
        have hreads : s.protocol.subscribed ≠ [] := by
          rintro hnil
          simp [hnil] at hslot
        rw [h.queue hreads]
    · dsimp only
      split
      · exact inStep_pure ()
      · refine lockstep_ite (fun _ => inStep_of_modify fun host s host' t h => ?_) fun _ =>
          Lockstep.bind (q := fun _ => Alike c E) (inStep_of_modify fun host s host' t h => ?_)
            fun _ => inStep_note _
        · refine { h with
            same := fun p hp => ?_
            queue := fun hreads => by rw [h.queue hreads] }
          have hsame := h.same p hp
          cases p with
          | queue => exact congrArg (· ++ _) hsame
          | _ => exact hsame
        · exact { h with same := fun p hp => by cases p <;> exact h.same _ hp }

/-- Whatever happens on both sides keeps them alike. -/
theorem inStep_happen (event : HostEvent) : InStep (Alike c E) event.happen := by
  cases event with
  | connected conn err => exact inStep_connectedCb conn err
  | disconnected conn reason => exact inStep_disconnectedCb conn reason
  | advertised addr advType elements => exact inStep_hearAdvertised addr advType elements
  | service handle endHandle uuid =>
    exact (InStep.pending (inStep_discoverServiceCb handle endHandle)).bind fun _ =>
      inStep_whenPending (inStep_discoverAllServicesCb handle endHandle uuid)
  | characteristic valueHandle properties uuid =>
    exact (InStep.pending (inStep_discoverChrcCb valueHandle)).bind fun _ =>
      inStep_whenPending (inStep_discoverAllCharsCb valueHandle properties uuid)
  | attributesDone =>
    refine inStep_get (fun h => ?_) fun s => inStep_when fun _ => inStep_procedureDone
    rw [discoveryPending, discoveryPending, h.pending]
  | readAnswer err data => exact InStep.pending (inStep_readCb err data)
  | writeAnswer err => exact InStep.pending (inStep_writeCb err)
  | cccAnswer err => exact inStep_subscribeCb err
  | notified on data =>
    cases on with
    | exchange => exact inStep_notifyCb data
    | monitor slot =>
      refine lockstep_get (fun host s host' t h => by rw [h.armed]) fun s => ?_
      cases hfound : s.armed.find? (·.slot == slot) with
      | none => exact lockstep_pure fun _ _ _ _ h => h.2
      | some on =>
        refine (inStep_monitorNotifyCb on data).conseq ?_ fun _ _ _ _ _ => id
        rintro host s₁ host' t ⟨rfl, h⟩
        exact ⟨List.mem_of_find?_eq_some hfound, h⟩
    | protocol slot => exact inStep_protocolNotifyCb slot data
  | securityChanged err =>
    exact (inStep_security fun security => { security with err := err }).bind fun _ =>
      inStep_give _
  | passkeyDisplay passkey =>
    exact inStep_security fun security => { security with
      passkey := passkey
      observed := if security.observed = .none then .passkeyDisplay else security.observed }
  | passkeyConfirm passkey =>
    exact inStep_security fun security => { security with
      passkey := passkey, observed := .numericComparison }
  | pairingConfirm => exact inStep_security fun security => { security with observed := .justWorks }
  | pairingCancel => exact inStep_security fun security => { security with cancelled := true }
  | pairingComplete bonded =>
    exact inStep_security fun security => { security with complete := some bonded }
  | pairingFailed reason =>
    exact (inStep_security fun security => { security with failed := some reason }).bind fun _ =>
      inStep_give _

/-- So are all events in turn. -/
theorem inStep_happenings (events : List HostEvent) : InStep (Alike c E) (happenings events) :=
  inStep_each fun event _ => inStep_happen event

end Callbacks

end DevBench.Bridge
