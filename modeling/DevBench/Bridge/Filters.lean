import DevBench.Bridge.Execute
import DevBench.Bridge.Advertisers
import Mathlib.Data.List.TakeWhile

/-!
# The filters of a connect step

A central's filters, address and name, against the peers it connects to. A scan is a fold
over what the host tells of in one wait; the peer it stops at has the target address and has
advertised a name that the census reads as the target's. The name is right unless the peer
sent another one that is cut to it, or the name asked for is empty.
-/

namespace DevBench.Bridge

open DevBench.Core DevBench.Core.Program DevBench.Eap DevBench.Bench DevBench.Wire

/-- The peer with these names is one the step asks for. -/
def Passes (params : ConnectParams) (addr : BtAddr) (names : List (List UInt8)) : Prop :=
  (∀ target ∈ params.target, addr = toBtAddr target) ∧ ∀ name ∈ params.targetName, name.str ∈ names

/-! ## Names in the census -/

/-- A Local Name as the census has it: as many bytes as there is room for, up to the first
zero byte. -/
def readAs (name : List UInt8) : List UInt8 :=
  (CharArray.copy name : CharArray (bleMaxLocalNameLen + 1)).str

/-- A name of an address is one that was heard from it. -/
theorem mem_namesOf {heard : List (BtAddr × List UInt8)} {addr : BtAddr} {name : List UInt8} :
    name ∈ namesOf heard addr ↔ (addr, name) ∈ heard := by simp [namesOf]

/-- The name of the entry, if it has one, is read from one the peer has advertised. -/
def ScanSeenEntry.Heard (entry : ScanSeenEntry) (heard : List (BtAddr × List UInt8)) : Prop :=
  entry.name.str ≠ [] → ∃ name ∈ namesOf heard entry.addr, readAs name = entry.name.str

/-- And so are the names of all entries. -/
def Census.Heard (c : Census) (heard : List (BtAddr × List UInt8)) : Prop :=
  ∀ entry ∈ c.entries, entry.Heard heard

variable {heard heard' : List (BtAddr × List UInt8)}

/-- What was heard stays heard. -/
theorem ScanSeenEntry.Heard.mono {entry : ScanSeenEntry} (h : entry.Heard heard)
    (hle : ∀ x ∈ heard, x ∈ heard') : entry.Heard heard' := fun hne => by
  obtain ⟨name, hname, hread⟩ := h hne
  exact ⟨name, mem_namesOf.mpr (hle _ (mem_namesOf.mp hname)), hread⟩

/-- A new entry has no name. -/
theorem ScanSeenEntry.heard_fresh (addr : BtAddr) : (ScanSeenEntry.fresh addr).Heard heard :=
  fun hne => absurd rfl hne

/-- One element leaves the name as it was, or is where it is read from. -/
theorem heard_scanSeenAdRecord {entry : ScanSeenEntry} {d : BtData} (h : entry.Heard heard)
    (hd : d.isName = true → d.data.items ∈ namesOf heard entry.addr) :
    (scanSeenAdRecord entry d).Heard heard := by
  rw [scanSeenAdRecord]
  split
  · exact h
  · split
    · exact h
    · next hname =>
      split
      · exact fun _ => ⟨_, hd (Classical.not_not.mp hname), rfl⟩
      · exact h

/-- An entry that takes a report has a name from it or the one it had. -/
theorem heard_foldl_scanSeenAdRecord {elements : List BtData} {entry : ScanSeenEntry}
    (h : entry.Heard heard)
    (hnames : ∀ name ∈ localNames elements, name ∈ namesOf heard entry.addr) :
    (elements.foldl scanSeenAdRecord entry).Heard heard ∧
      (elements.foldl scanSeenAdRecord entry).addr = entry.addr := by
  induction elements generalizing entry with
  | nil => exact ⟨h, rfl⟩
  | cons d elements ih =>
    have hd : d.isName = true → d.data.items ∈ namesOf heard entry.addr := fun hname => by
      refine hnames _ (List.mem_map.mpr ⟨d, ?_, rfl⟩)
      exact List.mem_filter.mpr ⟨List.mem_cons_self, hname⟩
    have hrest : ∀ name ∈ localNames elements, name ∈ namesOf heard entry.addr := by
      intro name hname
      obtain ⟨d', hd', rfl⟩ := List.mem_map.mp hname
      obtain ⟨hmem, hname'⟩ := List.mem_filter.mp hd'
      refine hnames _ (List.mem_map.mpr ⟨d', ?_, rfl⟩)
      exact List.mem_filter.mpr ⟨List.mem_cons_of_mem d hmem, hname'⟩
    rw [← Census.scanSeenAdRecord_addr entry d] at hrest
    obtain ⟨hheard, haddr⟩ := ih (heard_scanSeenAdRecord h hd) hrest
    exact ⟨hheard, haddr.trans (Census.scanSeenAdRecord_addr entry d)⟩

/-- A report adds to the entry of its address what the peer advertised with it. -/
theorem heard_record {c : Census} (h : c.Heard heard) {addr : BtAddr} (advType : UInt8)
    {elements : List BtData}
    (hnames : ∀ name ∈ localNames elements, name ∈ namesOf heard addr) :
    (∀ entry ∈ (c.record addr advType elements).1, entry.addr = addr ∧ entry.Heard heard) ∧
      (c.record addr advType elements).2.Heard heard := by
  obtain ⟨hplace, hcensus⟩ :=
    Census.forall_mem_entryFor (P := (·.Heard heard)) h (ScanSeenEntry.heard_fresh addr)
  rw [Census.record]
  split
  · next c' heq =>
    rw [heq] at hcensus
    exact ⟨fun entry hentry => absurd hentry (Option.not_mem_none entry), hcensus⟩
  · next i entry c' heq =>
    rw [heq] at hcensus hplace
    obtain ⟨haddr, hentry⟩ := hplace (i, entry) rfl
    rw [← haddr] at hnames
    obtain ⟨hheard, haddr'⟩ := heard_foldl_scanSeenAdRecord hentry hnames
    refine ⟨fun entry' hentry' => ?_, Census.forall_mem_write hcensus i fun hne => hheard hne⟩
    obtain rfl := Option.some.inj hentry'
    exact ⟨haddr'.trans haddr, fun hne => hheard hne⟩

/-! ## A scan -/

/-- What a scan and the connection it is for come to, as the host tells of them. -/
structure Hearing where
  scan : Scan
  heard : List (BtAddr × List UInt8)
  active : Option BtAddr
  connErr : UInt8
  /-- Whom a connection is created to, with the names advertised until then. -/
  initiated : Option (BtAddr × List (List UInt8))

namespace Hearing

/-- The scan stops at a peer; the host agrees to end it and to create a connection, or not. -/
def stop (agrees : Bool) (h : Hearing) (addr : BtAddr) : Hearing :=
  { h with
    scan.matched := true
    connErr := if agrees then h.connErr else btHciErrUnspecified
    initiated := if agrees then some (addr, namesOf h.heard addr) else none }

/-- A report is added to the census, and met by the filters or not. -/
def report (agrees : Bool) (h : Hearing) (addr : BtAddr) (advType : UInt8)
    (elements : List BtData) : Hearing :=
  if h.scan.matched then h
  else
    match h.scan.census.record addr advType elements with
    | (none, census) => { h with scan.census := census }
    | (some entry, census) =>
      if h.scan.accepts addr entry then { h with scan.census := census }.stop agrees addr
      else { h with scan.census := census }

/-- The names of an advertisement are heard. -/
def hear (h : Hearing) (addr : BtAddr) (elements : List BtData) : Hearing :=
  { h with heard := h.heard ++ (localNames elements).map (addr, ·) }

/-- One event. -/
def step (agrees : Bool) (h : Hearing) : HostEvent → Hearing
  | .connected conn err =>
    { h with connErr := err, active := if err = 0 ∧ h.active = none then some conn else h.active }
  | .disconnected conn _ => { h with active := if h.active = some conn then none else h.active }
  | .advertised addr advType elements =>
    (h.hear addr elements).report agrees addr advType elements
  | _ => h

/-- What the peers have advertised is what they are asked for by. -/
structure Right (params : ConnectParams) (h : Hearing) : Prop where
  target : h.scan.target = params.target.map toBtAddr
  name : ∀ name ∈ params.targetName, h.scan.name.str = name.str
  census : h.scan.census.Heard h.heard
  initiated : ∀ addr names, h.initiated = some (addr, names) →
    (∀ target ∈ params.target, addr = toBtAddr target) ∧
      ∀ name ∈ params.targetName, name.str = [] ∨ ∃ x ∈ names, readAs x = name.str
  known : ∀ addr names, h.initiated = some (addr, names) → names ⊆ namesOf h.heard addr

/-- A connection is created to the peer the scan stops at. -/
theorem initiated_stop {agrees : Bool} {h : Hearing} {addr addr' : BtAddr}
    {names : List (List UInt8)} (h' : (h.stop agrees addr).initiated = some (addr', names)) :
    addr' = addr ∧ names = namesOf h.heard addr := by
  rw [Hearing.stop] at h'
  simp only at h'
  split at h'
  · obtain ⟨rfl, rfl⟩ := Prod.mk.inj (Option.some.inj h')
    exact ⟨rfl, rfl⟩
  · exact absurd h' (by simp)

/-- A report leaves the hearing right: the match is accepted with the names heard so far. -/
theorem Right.report {params : ConnectParams} {h : Hearing} (hr : h.Right params)
    (agrees : Bool) {addr : BtAddr} {advType : UInt8} {elements : List BtData}
    (hnames : ∀ name ∈ localNames elements, name ∈ namesOf h.heard addr) :
    (h.report agrees addr advType elements).Right params := by
  obtain ⟨hentry, hcensus⟩ := heard_record hr.census advType hnames
  rw [Hearing.report]
  split
  · exact hr
  split
  · next census heq =>
    rw [heq] at hcensus
    exact ⟨hr.target, hr.name, hcensus, hr.initiated, hr.known⟩
  · next entry census heq =>
    rw [heq] at hcensus hentry
    obtain ⟨haddr, hheard⟩ := hentry entry rfl
    split
    · next haccepts =>
      simp only [Scan.accepts, Bool.and_eq_true, Bool.or_eq_true, beq_iff_eq] at haccepts
      obtain ⟨⟨-, htarget⟩, hname⟩ := haccepts
      refine ⟨hr.target, hr.name, hcensus, fun addr' names hinitiated => ?_,
        fun addr' names hinitiated => ?_⟩
      · obtain ⟨rfl, rfl⟩ := initiated_stop hinitiated
        refine ⟨fun target hmem => ?_, fun name hmem => ?_⟩
        · rw [hr.target, Option.mem_def.mp hmem] at htarget
          have htarget' : toBtAddr target = addr' := by simpa using htarget
          exact htarget'.symm
        · rw [hr.name name hmem] at hname
          by_cases hnil : name.str = []
          · exact .inl hnil
          · have heq' := hname.resolve_left hnil
            obtain ⟨x, hx, hread⟩ := hheard (heq' ▸ hnil)
            exact .inr ⟨x, haddr ▸ hx, hread.trans heq'⟩
      · obtain ⟨rfl, rfl⟩ := initiated_stop hinitiated
        exact List.Subset.refl _
    · exact ⟨hr.target, hr.name, hcensus, hr.initiated, hr.known⟩

/-- So does every event. -/
theorem Right.step {params : ConnectParams} {h : Hearing} (hr : h.Right params) (agrees : Bool)
    (event : HostEvent) : (h.step agrees event).Right params := by
  cases event with
  | advertised addr advType elements =>
    have hr' : (h.hear addr elements).Right params := by
      refine ⟨hr.target, hr.name, fun entry hmem => ?_, hr.initiated, fun addr' names h' => ?_⟩
      · exact (hr.census entry hmem).mono fun x hx => List.mem_append_left _ hx
      · intro x hx
        exact mem_namesOf.mpr (List.mem_append_left _ (mem_namesOf.mp (hr.known addr' names h' hx)))
    refine hr'.report agrees fun name hname => ?_
    exact mem_namesOf.mpr (List.mem_append_right _ (List.mem_map_of_mem hname))
  | _ => exact ⟨hr.target, hr.name, hr.census, hr.initiated, hr.known⟩

/-- So do all of them, one after the other. -/
theorem Right.foldl {params : ConnectParams} (agrees : Bool) : ∀ (events : List HostEvent)
    {h : Hearing}, h.Right params → (events.foldl (Hearing.step agrees) h).Right params
  | [], _, hr => hr
  | event :: events, _, hr => Right.foldl agrees events (hr.step agrees event)

end Hearing

/-! ## The scan of the bridge -/

/-- The address and the names of a connection that was begun. -/
def Mark.initiation : Mark → Option (BtAddr × List (List UInt8))
  | initiated addr names => some (addr, names)
  | _ => none

/-- The connections created, newest first. -/
def BridgeState.initiations (s : BridgeState) : List (BtAddr × List (List UInt8)) :=
  s.log.filterMap Mark.initiation

/-- All a scan has to do with. -/
def BridgeState.air (s : BridgeState) :
    Scan × List (BtAddr × List UInt8) × Option BtAddr × UInt8 ×
      List (BtAddr × List (List UInt8)) × Bool × Nat × Bool :=
  (s.scan, s.heard, s.link.activeConn, s.link.connErr, s.initiations, s.scanning, s.turn,
    s.given .conn)

/-- A program that leaves alone what the filters are about. -/
theorem keeps_air {α : Type} {m : Act α} {a} (hm : ∀ host s, (m host s).2.air = s.air) :
    Keeps (fun s => s.air = a) m := fun host s hs => (hm host s).trans hs

section
variable {a : Scan × List (BtAddr × List UInt8) × Option BtAddr × UInt8 ×
  List (BtAddr × List (List UInt8)) × Bool × Nat × Bool}

/-- The end of a procedure does. -/
theorem keeps_air_procedureDone : Keeps (fun s => s.air = a) procedureDone :=
  keeps_air fun _ _ => rfl

/-- An entry does: it begins no connection. -/
theorem keeps_air_transcriptEmit (direction kind : UInt8)
    (serviceUuid characteristicUuid : Option Uuid) (attStatus : UInt8) (payload : List UInt8) :
    Keeps (fun s => s.air = a)
      (transcriptEmit direction kind serviceUuid characteristicUuid attStatus payload) :=
  keeps_air fun _ _ => rfl

/-- A callback that may not run at all. -/
theorem keeps_air_whenPending {procedure : Procedure} {act : Act Unit}
    (hact : Keeps (fun s => s.air = a) act) :
    Keeps (fun s => s.air = a) (whenPending procedure act) :=
  keeps_get.bind fun _ => keeps_when fun _ => hact

/-- A service is added to the table or is not. -/
theorem keeps_air_discoverAllServicesCb (handle endHandle : UInt16) (uuid : BtUuid) :
    Keeps (fun s => s.air = a) (discoverAllServicesCb handle endHandle uuid) := by
  refine keeps_get.bind fun s => ?_
  split
  · exact Keeps.bind (keeps_air fun _ _ => rfl) fun _ => keeps_air_transcriptEmit _ _ _ _ _ _
  · exact keeps_air_procedureDone

/-- A characteristic is added or is not. -/
theorem keeps_air_discoverAllCharsCb (valueHandle : UInt16) (properties : UInt8)
    (uuid : BtUuid) :
    Keeps (fun s => s.air = a) (discoverAllCharsCb valueHandle properties uuid) := by
  refine keeps_get.bind fun s => ?_
  split
  · exact keeps_pure ()
  · split
    · exact Keeps.bind (keeps_air fun _ _ => rfl) fun _ => keeps_air_transcriptEmit _ _ _ _ _ _
    · exact keeps_air_procedureDone

/-- A read goes on or ends. -/
theorem keeps_air_readCb (err : UInt8) (data : Option (List UInt8)) :
    Keeps (fun s => s.air = a) (readCb err data) := by
  refine keeps_ite (fun _ => ?_) fun _ => ?_
  · exact Keeps.bind (keeps_air fun _ _ => rfl) fun _ => keeps_air_procedureDone
  · split
    · exact keeps_air_procedureDone
    · exact keeps_air fun _ _ => rfl

/-- A notification of the data exchange. -/
theorem keeps_air_notifyCb (data : Option (List UInt8)) :
    Keeps (fun s => s.air = a) (notifyCb data) := by
  cases data with
  | none => exact keeps_air fun _ _ => rfl
  | some data =>
    refine keeps_get.bind fun s => keeps_ite (fun _ => ?_) fun _ => keeps_air fun _ _ => rfl
    exact keeps_air fun _ _ => rfl

/-- One of a protocol run. -/
theorem keeps_air_protocolNotifyCb (slot : Nat) (data : Option (List UInt8)) :
    Keeps (fun s => s.air = a) (protocolNotifyCb slot data) := by
  cases data with
  | none => exact keeps_pure ()
  | some data =>
    refine keeps_get.bind fun s => ?_
    dsimp only
    split
    · exact keeps_pure ()
    · exact keeps_ite (fun _ => keeps_air fun _ _ => rfl) fun _ => keeps_air fun _ _ => rfl

/-- Any notification, whoever it is for. -/
theorem keeps_air_notified (on : Subscription) (data : Option (List UInt8)) :
    Keeps (fun s => s.air = a) (HostEvent.notified on data).happen := by
  cases on with
  | exchange => exact keeps_air_notifyCb data
  | protocol slot => exact keeps_air_protocolNotifyCb slot data
  | monitor slot =>
    refine keeps_get.bind fun s => ?_
    split
    · cases data with
      | none => exact keeps_pure ()
      | some data => exact keeps_air fun _ _ => rfl
    · exact keeps_pure ()

end

/-- The event is no report, and the link stays as it is. -/
def HostEvent.Distant : HostEvent → Prop
  | connected .. | disconnected .. | advertised .. => False
  | _ => True

/-- What a scan has to do with changes in three events only. -/
theorem air_happen {event : HostEvent} (h : event.Distant) (host : Host) (s : BridgeState) :
    (event.happen host s).2.air = s.air := by
  refine (?_ : Keeps (fun s' => s'.air = s.air) event.happen) host s rfl
  cases event with
  | connected _ _ | disconnected _ _ | advertised _ _ _ => exact h.elim
  | service handle endHandle uuid =>
    refine (keeps_air_whenPending ?_).bind fun _ => keeps_air_whenPending ?_
    · exact Keeps.bind (keeps_air fun _ _ => rfl) fun _ => keeps_air_procedureDone
    · exact keeps_air_discoverAllServicesCb _ _ _
  | characteristic valueHandle properties uuid =>
    refine (keeps_air_whenPending ?_).bind fun _ => keeps_air_whenPending ?_
    · exact Keeps.bind (keeps_air fun _ _ => rfl) fun _ => keeps_air_procedureDone
    · exact keeps_air_discoverAllCharsCb _ _ _
  | attributesDone => exact keeps_get.bind fun _ => keeps_when fun _ => keeps_air_procedureDone
  | readAnswer err data => exact keeps_air_whenPending (keeps_air_readCb err data)
  | writeAnswer err =>
    exact keeps_air_whenPending
      (Keeps.bind (keeps_air fun _ _ => rfl) fun _ => keeps_air_procedureDone)
  | notified on data => exact keeps_air_notified on data
  | _ => exact keeps_air fun _ _ => rfl

/-- The bridge is where the scan has come to; until it stops, the host has not been asked. -/
structure Follows (turn : Nat) (h : Hearing) (s : BridgeState) : Prop where
  scan : s.scan = h.scan
  heard : s.heard = h.heard
  active : s.link.activeConn = h.active
  connErr : s.link.connErr = h.connErr
  initiated : s.initiations = h.initiated.toList
  fresh : h.scan.matched = false → s.scanning = true ∧ s.turn = turn ∧ h.initiated = none
  given : h.active ≠ none → s.given .conn = true

/-- The host ends the scan and creates the connection when it is asked from this turn on. -/
def Host.agrees (host : Host) (turn : Nat) : Bool :=
  (host.answer turn = 0 || host.answer turn = ealready) && host.answer (turn + 1) = 0

variable {turn : Nat} {h : Hearing} {s s' : BridgeState} {host : Host}

/-- The hearing follows what it is about and nothing else. -/
theorem Follows.of_air (hs : Follows turn h s) (hair : s'.air = s.air) : Follows turn h s' := by
  simp only [BridgeState.air, Prod.mk.injEq] at hair
  obtain ⟨hscan, hheard, hactive, herr, hinitiated, hscanning, hturn, hgiven⟩ := hair
  refine ⟨hscan.trans hs.scan, hheard.trans hs.heard, hactive.trans hs.active,
    herr.trans hs.connErr, hinitiated.trans hs.initiated, ?_, ?_⟩
  · rw [hscanning, hturn]
    exact hs.fresh
  · rw [hgiven]
    exact hs.given

/-- A connection comes up. -/
theorem follows_connectedCb (hs : Follows turn h s) (agrees : Bool) (conn : BtAddr)
    (err : UInt8) :
    Follows turn (h.step agrees (.connected conn err)) (connectedCb conn err host s).2 := by
  have hstate : (connectedCb conn err host s).2 =
      (if err = 0 ∧ s.link.activeConn = none then
        { s with link.connErr := err, link.advertising := false, link.activeConn := some conn }
      else { s with link.connErr := err, link.advertising := false }).give .conn := rfl
  rw [hstate, Hearing.step, ← hs.active]
  split
  · exact ⟨hs.scan, hs.heard, rfl, rfl, hs.initiated, hs.fresh, fun _ => rfl⟩
  · exact ⟨hs.scan, hs.heard, rfl, rfl, hs.initiated, hs.fresh, fun _ => rfl⟩

/-- A connection is lost. -/
theorem follows_disconnectedCb (hs : Follows turn h s) (agrees : Bool) (conn : BtAddr)
    (reason : UInt8) :
    Follows turn (h.step agrees (.disconnected conn reason))
      (disconnectedCb conn reason host s).2 := by
  have hstate : (disconnectedCb conn reason host s).2 =
      ((s.lose conn reason).give .notify).give .disconn := rfl
  rw [hstate, Hearing.step, ← hs.active]
  unfold BridgeState.lose BridgeState.drop
  split
  · exact ⟨hs.scan, hs.heard, rfl, hs.connErr, hs.initiated, hs.fresh, fun h => absurd rfl h⟩
  · exact ⟨hs.scan, hs.heard, rfl, hs.connErr, hs.initiated, hs.fresh, hs.active ▸ hs.given⟩

/-- The end of the scan, as the host answers. -/
theorem btLeScanStop_snd (host : Host) (s : BridgeState) :
    (btLeScanStop host s).2 = { s with
      turn := s.turn + 1
      scanning := if host.answer s.turn = 0 then false else s.scanning } := by
  change (when (host.answer s.turn = 0) _ host _).2 = _
  rw [when_apply]
  split <;> rfl

/-- A connection that is begun is logged with the names heard from its address. -/
theorem btConnLeCreate_snd (addr : BtAddr) (host : Host) (s : BridgeState) :
    (btConnLeCreate addr host s).2 =
      if host.answer s.turn = 0 then
        { s with turn := s.turn + 1 }.push (.initiated addr (namesOf s.heard addr))
      else { s with turn := s.turn + 1 } := by
  change (when (host.answer s.turn = 0) _ host _).2 = _
  rw [when_apply]
  split <;> rfl

/-- A scan that stops asks the host to end it and to create a connection. -/
theorem follows_scanMatched (hs : Follows turn h s) (hfresh : h.scan.matched = false)
    (addr : BtAddr) :
    Follows turn (h.stop (host.agrees turn) addr) (scanMatched addr host s).2 := by
  obtain ⟨hscanning, rfl, hnone⟩ := hs.fresh hfresh
  have hinitiated : s.initiations = [] := by rw [hs.initiated, hnone]; rfl
  have hscan : { s.scan with matched := true } = { h.scan with matched := true } := by rw [hs.scan]
  let matched : BridgeState := { s with scan.matched := true }
  change Follows s.turn _ ((if host.answer s.turn ≠ 0 ∧ host.answer s.turn ≠ ealready then _
    else _ : Act Unit) host (btLeScanStop host matched).2).2
  by_cases hstop : host.answer s.turn ≠ 0 ∧ host.answer s.turn ≠ ealready
  · rw [if_pos hstop, btLeScanStop_snd]
    have hagrees : host.agrees s.turn = false := by simp [Host.agrees, hstop]
    rw [hagrees]
    exact ⟨hscan, hs.heard, hs.active, rfl, hinitiated, nofun, fun _ => rfl⟩
  rw [if_neg hstop]
  let stopped : BridgeState := { matched with
    turn := s.turn + 1
    scanning := if host.answer s.turn = 0 then false else s.scanning }
  rw [show (btLeScanStop host matched).2 = stopped from btLeScanStop_snd host matched]
  change Follows s.turn _ ((if host.answer (s.turn + 1) ≠ 0 then _ else _ : Act Unit) host
    (btConnLeCreate addr host stopped).2).2
  by_cases hcreate : host.answer (s.turn + 1) ≠ 0
  · rw [if_pos hcreate, btConnLeCreate_snd, if_neg hcreate]
    have hagrees : host.agrees s.turn = false := by simp [Host.agrees, hcreate]
    rw [hagrees]
    exact ⟨hscan, hs.heard, hs.active, rfl, hinitiated, nofun, fun _ => rfl⟩
  · rw [if_neg hcreate, btConnLeCreate_snd, if_pos (Classical.not_not.mp hcreate)]
    have hagrees : host.agrees s.turn = true := by
      simp only [Host.agrees, Bool.and_eq_true, Bool.or_eq_true, decide_eq_true_eq]
      exact ⟨by omega, Classical.not_not.mp hcreate⟩
    rw [hagrees]
    refine ⟨hscan, hs.heard, hs.active, hs.connErr, ?_, nofun, hs.given⟩
    change (addr, namesOf s.heard addr) :: s.initiations = _
    rw [hinitiated, hs.heard]
    rfl

/-- A report changes the census, or stops the scan. -/
theorem follows_scanCb (hs : Follows turn h s) (addr : BtAddr) (advType : UInt8)
    (elements : List BtData) :
    Follows turn (h.report (host.agrees turn) addr advType elements)
      (scanCb addr advType elements host s).2 := by
  unfold scanCb
  simp only [bind_apply, Program.get, Hearing.report, hs.scan]
  by_cases hmatched : h.scan.matched = true
  · rw [if_pos hmatched, if_pos hmatched]
    exact hs
  rw [if_neg hmatched, if_neg hmatched]
  rcases h.scan.census.record addr advType elements with ⟨entry, census⟩
  have hcensus : Follows turn { h with scan.census := census } { s with scan.census := census } :=
    ⟨by rw [hs.scan], hs.heard, hs.active, hs.connErr, hs.initiated, hs.fresh, hs.given⟩
  cases entry with
  | none => exact hcensus
  | some entry =>
    change Follows turn (if h.scan.accepts addr entry then _ else _)
      (when (s.scan.accepts addr entry) (scanMatched addr) host
        { s with scan.census := census }).2
    rw [when_apply]
    rw [hs.scan] at hcensus ⊢
    by_cases haccepts : h.scan.accepts addr entry = true
    · rw [if_pos haccepts, if_pos haccepts]
      exact follows_scanMatched hcensus (Bool.eq_false_of_not_eq_true hmatched) addr
    · rw [if_neg haccepts, if_neg haccepts]
      exact hcensus

/-- A report is heard by both, and matched by both. -/
theorem follows_hearAdvertised (hs : Follows turn h s) (addr : BtAddr) (advType : UInt8)
    (elements : List BtData) :
    Follows turn (h.step (host.agrees turn) (.advertised addr advType elements))
      (hearAdvertised addr advType elements host s).2 := by
  have hheard : Follows turn (h.hear addr elements)
      { s with heard := s.heard ++ (localNames elements).map (addr, ·) } :=
    ⟨hs.scan, by rw [hs.heard]; rfl, hs.active, hs.connErr, hs.initiated, hs.fresh, hs.given⟩
  change Follows turn _ (when s.scanning (scanCb addr advType elements) host
    { s with heard := s.heard ++ (localNames elements).map (addr, ·) }).2
  rw [when_apply, Hearing.step]
  by_cases hscanning : s.scanning = true
  · rw [if_pos hscanning]
    exact follows_scanCb hheard addr advType elements
  · -- The scan is over, so it has stopped at a peer.
    have hmatched : (h.hear addr elements).scan.matched = true :=
      Bool.eq_true_of_not_eq_false fun hfalse => hscanning (hs.fresh hfalse).1
    rw [if_neg hscanning, Hearing.report, if_pos hmatched]
    exact hheard

/-- So with every event. -/
theorem follows_happen (hs : Follows turn h s) (event : HostEvent) :
    Follows turn (h.step (host.agrees turn) event) (event.happen host s).2 := by
  cases event with
  | connected conn err => exact follows_connectedCb hs _ conn err
  | disconnected conn reason => exact follows_disconnectedCb hs _ conn reason
  | advertised addr advType elements => exact follows_hearAdvertised hs addr advType elements
  | _ =>
    refine hs.of_air (air_happen ?_ host s)
    trivial

/-- So with all of a wait's. -/
theorem follows_happenings (events : List HostEvent) (hs : Follows turn h s) :
    Follows turn (events.foldl (Hearing.step (host.agrees turn)) h)
      (happenings events host s).2 := by
  induction events generalizing h s with
  | nil => exact hs
  | cons event events ih => exact ih (follows_happen hs event)

/-! ## The step -/

/-- The host takes the scan on when it is asked at this turn. -/
def Host.starts (host : Host) (turn : Nat) : Bool :=
  host.answer turn = 0 || host.answer turn = ealready

/-- The scan of a connect step from its start to the end of its wait. -/
def Hearing.run (params : ConnectParams) (host : Host) (s : BridgeState) : Hearing :=
  (host.during (s.turn + 1)).foldl (Hearing.step (host.agrees (s.turn + 2)))
    ⟨s.scan.arm params, s.heard, none, 0, none⟩

/-- Every connection the step creates and the one it passes with are with peers it asks
for. -/
structure FiltersHold (params : ConnectParams) (rounds : Nat) (host : Host) (s : BridgeState) :
    Prop where
  initiated : ∀ addr names,
    .initiated addr names ∈
      (executeConnect .central params rounds host { s with log := [] }).2.log →
    Passes params addr names
  passed : ∀ o,
    (executeConnect .central params rounds host { s with log := [] }).1 = some o →
    o.kind = .pass →
    ∃ conn, (executeConnect .central params rounds host { s with log := [] }).2.link.activeConn =
        some conn ∧
      Passes params conn
        (namesOf (executeConnect .central params rounds host { s with log := [] }).2.heard conn)

/-- A connection that is up is with a peer that has advertised the name asked for; the peer
the scan stops at, if one of its names is read as that name or the name is empty, has; and
a connection that came up otherwise is with a peer the step asks for. -/
structure FiltersTold (params : ConnectParams) (host : Host) (s : BridgeState) : Prop where
  up : ∀ conn, s.link.activeConn = some conn → peerMatches params s = true →
    ∀ name ∈ params.targetName, name.str ∈ namesOf s.heard conn
  stopped : s.live = false → host.starts s.turn = true → ∀ addr names,
    (Hearing.run params host s).initiated = some (addr, names) →
    ∀ name ∈ params.targetName, (name.str = [] ∨ ∃ x ∈ names, x ≠ name.str ∧ readAs x = name.str) →
      name.str ∈ names
  foreign : s.live = false → host.starts s.turn = true → ∀ conn,
    (Hearing.run params host s).active = some conn → (Hearing.run params host s).connErr = 0 →
    (Hearing.run params host s).initiated.map Prod.fst ≠ some conn →
    Passes params conn (namesOf (Hearing.run params host s).heard conn)

/-- What the step's outcome is about. -/
def BridgeState.ends (s : BridgeState) :
    List (BtAddr × List UInt8) × Option BtAddr × UInt8 × List (BtAddr × List (List UInt8)) :=
  (s.heard, s.link.activeConn, s.link.connErr, s.initiations)

/-- Giving a begun connection back leaves the outcome to be. -/
theorem ends_releasePendingConn (cancel : Bool) (host : Host) (s : BridgeState) :
    (releasePendingConn cancel host s).2.ends = s.ends := by
  have hignored : Keeps (fun s' => s'.ends = s.ends) ignored := fun _ _ hs => hs
  refine (?_ : Keeps (fun s' => s'.ends = s.ends) (releasePendingConn cancel)) host s rfl
  refine keeps_get.bind fun _ => keeps_when fun _ => ?_
  exact (keeps_when fun _ => hignored).bind fun _ => fun _ _ hs => hs

/-- So does stopping the scan. -/
theorem ends_btLeScanStop (host : Host) (s : BridgeState) :
    (btLeScanStop host s).2.ends = s.ends := by
  rw [btLeScanStop_snd]
  rfl

/-- A wait, once it is known what has happened. -/
theorem wait_apply (sem : Sem) (site : Site) (host : Host) (s : BridgeState) :
    let s' := (happenings (host.during s.turn) host { s with turn := s.turn + 1 }).2
    wait sem site host s =
      if s'.given sem then (true, (s'.take sem).push (.waited site true s'.live))
      else (false, s'.push (.waited site false s'.live)) := by
  intro s'
  change ((if s'.given sem then _ else _ : Act Bool) host s') = _
  by_cases hgiven : s'.given sem = true
  · rw [if_pos hgiven, if_pos hgiven]
    rfl
  · rw [if_neg hgiven, if_neg hgiven]
    rfl

/-- Giving up is no success. -/
theorem kind_scanGaveUp (s : BridgeState) : (scanGaveUp s).kind ≠ .pass := by
  rw [scanGaveUp]
  split
  · exact nofun
  · exact nofun

/-- The outcome of a scan that has come to its end. -/
theorem awaitScanned_spec (host : Host) (s : BridgeState) {h : Hearing}
    (hs : Follows turn h (happenings (host.during s.turn) host { s with turn := s.turn + 1 }).2) :
    (awaitScanned host s).2.ends = (h.heard, h.active, h.connErr, h.initiated.toList) ∧
      ((awaitScanned host s).1.kind = .pass ↔ h.active ≠ none ∧ h.connErr = 0) := by
  let s' := (happenings (host.during s.turn) host { s with turn := s.turn + 1 }).2
  have hends : s'.ends = (h.heard, h.active, h.connErr, h.initiated.toList) := by
    rw [BridgeState.ends, hs.heard, hs.active, hs.connErr, hs.initiated]
  have hwait : wait .conn .connect host s = _ := wait_apply .conn .connect host s
  unfold awaitScanned
  rw [bind_apply, hwait]
  by_cases hgiven : s'.given .conn = true
  · rw [if_pos hgiven]
    let taken := (s'.take .conn).push (.waited .connect true s'.live)
    let released := (releasePendingConn false host taken).2
    have hreleased : released.ends = (h.heard, h.active, h.connErr, h.initiated.toList) :=
      (ends_releasePendingConn false host taken).trans hends
    have hactive : released.link.activeConn = h.active := congrArg (·.2.1) hreleased
    have herr : released.link.connErr = h.connErr := congrArg (·.2.2.1) hreleased
    change ((if released.link.connErr ≠ 0 then _ else if ¬ released.live then _
      else _ : Act BridgeOutcome) host released).2.ends = _ ∧
      (((if released.link.connErr ≠ 0 then _ else if ¬ released.live then _
        else _ : Act BridgeOutcome) host released).1.kind = .pass ↔ _)
    by_cases hzero : released.link.connErr ≠ 0
    · rw [if_pos hzero]
      exact ⟨hreleased, nofun, fun h' => absurd (herr.trans h'.2) hzero⟩
    rw [if_neg hzero]
    by_cases hlive : ¬ released.live
    · rw [if_pos hlive]
      refine ⟨hreleased, nofun, fun h' => ?_⟩
      rw [BridgeState.live, hactive, Option.not_isSome_iff_eq_none] at hlive
      exact absurd hlive h'.1
    · rw [if_neg hlive]
      rw [BridgeState.live, hactive, Option.not_isSome_iff_eq_none] at hlive
      exact ⟨hreleased, fun _ => ⟨hlive, herr ▸ Classical.not_not.mp hzero⟩, fun _ => rfl⟩
  · rw [if_neg hgiven]
    have hnone : h.active = none := Classical.not_not.mp fun hne => hgiven (hs.given hne)
    let missed := s'.push (.waited .connect false s'.live)
    refine ⟨?_, fun hpass => absurd hpass (kind_scanGaveUp _), fun h' => absurd hnone h'.1⟩
    calc _ = (btLeScanStop host missed).2.ends := ends_releasePendingConn true host _
      _ = missed.ends := ends_btLeScanStop host missed
      _ = _ := hends

/-- A scan is on when it was started, or was on already. -/
theorem Host.starts_iff (host : Host) (turn : Nat) :
    host.starts turn = true ↔ host.answer turn = 0 ∨ host.answer turn = ealready := by
  simp [Host.starts]

/-- It is marked so only when it was started. -/
theorem btLeScanStart_snd (host : Host) (s : BridgeState) :
    (btLeScanStart host s).2 = { s with
      turn := s.turn + 1
      scanning := if host.starts s.turn = true then true else s.scanning } := by
  change (when (host.answer s.turn = 0 ∨ host.answer s.turn = ealready) _ host _).2 = _
  simp only [when_apply, host.starts_iff]
  split <;> rfl

/-- The bridge when it begins to wait for a scan to match. -/
def BridgeState.scanned (params : ConnectParams) (host : Host) (s : BridgeState) : BridgeState :=
  (btLeScanStart host
    ({ s with scan := s.scan.arm params, link.connErr := 0, log := [] }.take .conn)).2

/-- The central's attempt step by step: arming, starting, waiting, giving back. -/
theorem connectAsCentral_apply (params : ConnectParams) (host : Host) (s : BridgeState) :
    connectAsCentral params host { s with log := [] } =
      if host.starts s.turn = true then awaitScanned host (s.scanned params host)
      else (outcomeFail s!"bt_le_scan_start failed ({host.answer s.turn})",
        s.scanned params host) := by
  change ((if host.answer s.turn ≠ 0 ∧ host.answer s.turn ≠ ealready then _ else _ :
    Act BridgeOutcome) host (s.scanned params host)) = _
  by_cases hstarts : host.starts s.turn = true
  · have h := (host.starts_iff s.turn).mp hstarts
    rw [if_neg (by omega), if_pos hstarts]
  · have h := mt (host.starts_iff s.turn).mpr hstarts
    rw [if_pos (not_or.mp h), if_neg hstarts]
    rfl

/-- The scan starts from nothing seen and nobody connected. -/
theorem follows_scanned (params : ConnectParams) (hlive : s.live = false)
    (hstarts : host.starts s.turn = true) :
    Follows (s.turn + 2) ⟨s.scan.arm params, s.heard, none, 0, none⟩
      { s.scanned params host with turn := (s.scanned params host).turn + 1 } := by
  rw [BridgeState.scanned, btLeScanStart_snd]
  refine ⟨rfl, rfl, ?_, rfl, rfl, fun _ => ⟨if_pos hstarts, rfl, rfl⟩, fun h => absurd rfl h⟩
  exact Option.not_isSome_iff_eq_none.mp (Bool.eq_false_iff.mp hlive)

/-- The scan has a start, and the step is over where the scan is. -/
theorem connectAsCentral_started (params : ConnectParams) (host : Host) (hlive : s.live = false)
    (hstarts : host.starts s.turn = true) :
    let run := Hearing.run params host s
    (connectAsCentral params host { s with log := [] }).2.ends =
        (run.heard, run.active, run.connErr, run.initiated.toList) ∧
      ((connectAsCentral params host { s with log := [] }).1.kind = .pass ↔
        run.active ≠ none ∧ run.connErr = 0) := by
  intro run
  rw [connectAsCentral_apply, if_pos hstarts]
  have hturn : (s.scanned params host).turn = s.turn + 1 := by
    rw [BridgeState.scanned, btLeScanStart_snd]
    rfl
  refine awaitScanned_spec host _ (?_ : Follows (s.turn + 2) run _)
  rw [congrArg host.during hturn]
  exact follows_happenings _ (follows_scanned params hlive hstarts)

/-! ## The peers of a connect step -/

/-- A string copied from its array is the string. -/
theorem str_copy_str {n : Nat} (a : CharArray (n + 1)) :
    (CharArray.copy a.str : CharArray (n + 1)).str = a.str := by
  have htake : a.str.take n = a.str := List.take_of_length_le (Nat.le_of_lt_succ a.length_str_lt)
  change (a.str.take n).takeWhile (· ≠ 0) = a.str
  rw [htake]
  exact List.takeWhile_idem

/-- A scan begins with the filters of the step, and with no names. -/
theorem right_begin (params : ConnectParams) (s : BridgeState) :
    Hearing.Right params ⟨s.scan.arm params, s.heard, none, 0, none⟩ := by
  refine ⟨rfl, fun name hname => ?_, fun entry hentry => ?_, nofun, nofun⟩
  · rw [Scan.arm, Option.mem_def.mp hname]
    exact str_copy_str name
  · exact absurd hentry (s.scan.census.entries_clear ▸ List.not_mem_nil)

/-- The hearing of a run is right at its end. -/
theorem right_run (params : ConnectParams) (host : Host) (s : BridgeState) :
    (Hearing.run params host s).Right params := (right_begin params s).foldl _ _

/-- The central keeps a connection to the right peer and refuses one to another. -/
theorem executeConnect_central (params : ConnectParams) (rounds : Nat) (host : Host)
    (s : BridgeState) :
    executeConnect .central params rounds host s =
      (if s.live then
        if peerMatches params s then some <$> outcomePass
        else pure (some (outcomeFail "already connected to a different peer"))
      else some <$> connectAsCentral params : Act (Option BridgeOutcome)) host s := rfl

/-- A connection that is up passes when its address does. -/
theorem executeConnect_up (params : ConnectParams) (rounds : Nat) (host : Host)
    (hlive : s.live = true) :
    (executeConnect .central params rounds host s).2 = s ∧
      ∃ o, (executeConnect .central params rounds host s).1 = some o ∧
        (o.kind = .pass ↔ peerMatches params s = true) := by
  rw [executeConnect_central, if_pos hlive]
  by_cases hmatches : peerMatches params s = true
  · rw [if_pos hmatches]
    exact ⟨rfl, _, rfl, fun _ => hmatches, fun _ => rfl⟩
  · rw [if_neg hmatches]
    exact ⟨rfl, _, rfl, nofun, fun h => absurd h hmatches⟩

/-- Without one it makes its attempt. -/
theorem executeConnect_idle (params : ConnectParams) (rounds : Nat) (host : Host)
    (hlive : ¬ s.live = true) :
    executeConnect .central params rounds host s =
      (some (connectAsCentral params host s).1, (connectAsCentral params host s).2) := by
  rw [executeConnect_central, if_neg hlive]
  rfl

/-- The connections begun are those logged. -/
theorem mem_initiations {addr : BtAddr} {names : List (List UInt8)} :
    .initiated addr names ∈ s.log ↔ (addr, names) ∈ s.initiations := by
  rw [BridgeState.initiations, List.mem_filterMap]
  refine ⟨fun h => ⟨_, h, rfl⟩, ?_⟩
  rintro ⟨mark, hmark, heq⟩
  cases mark with
  | initiated addr' names' =>
    obtain ⟨rfl, rfl⟩ := Prod.mk.inj (Option.some.inj heq)
    exact hmark
  | _ => exact absurd heq nofun

/-- The peer of a connection is right when every target there is has its address. -/
theorem peerMatches_iff {params : ConnectParams} {conn : BtAddr}
    (hconn : s.link.activeConn = some conn) :
    peerMatches params s = true ↔ ∀ target ∈ params.target, conn = toBtAddr target := by
  rw [peerMatches]
  cases params.target with
  | none => exact ⟨fun _ => nofun, fun _ => rfl⟩
  | some target => simp [hconn]

/-- With a connection that is up, its name is all there is to it. -/
theorem filtersHold_up {params : ConnectParams} {rounds : Nat} {conn : BtAddr}
    (hconn : s.link.activeConn = some conn) :
    FiltersHold params rounds host s ↔ (peerMatches params s = true →
      ∀ name ∈ params.targetName, name.str ∈ namesOf s.heard conn) := by
  have hlive : ({ s with log := [] } : BridgeState).live = true := by simp [BridgeState.live, hconn]
  obtain ⟨hstate, o, ho, hkind⟩ := executeConnect_up params rounds host hlive
  constructor
  · intro hold hmatches
    obtain ⟨conn', hconn', -, hname⟩ := hold.passed o ho (hkind.mpr hmatches)
    rw [hstate] at hconn' hname
    obtain rfl := Option.some.inj (hconn.symm.trans hconn')
    exact hname
  · intro hup
    refine ⟨fun addr names hmem => ?_, fun o' ho' hpass => ?_⟩
    · rw [hstate] at hmem
      exact absurd hmem List.not_mem_nil
    · obtain rfl := Option.some.inj (ho.symm.trans ho')
      have hmatches : peerMatches params s = true := hkind.mp hpass
      rw [hstate]
      exact ⟨conn, hconn, (peerMatches_iff hconn).mp hmatches, hup hmatches⟩

/-- Without one, the scan is what there is to it. -/
theorem filtersHold_idle {params : ConnectParams} {rounds : Nat} (hlive : s.live = false)
    (hstarts : host.starts s.turn = true) :
    FiltersHold params rounds host s ↔
      (∀ addr names, (Hearing.run params host s).initiated = some (addr, names) →
        Passes params addr names) ∧
      ∀ conn, (Hearing.run params host s).active = some conn →
        (Hearing.run params host s).connErr = 0 →
        Passes params conn (namesOf (Hearing.run params host s).heard conn) := by
  have hlive' : ¬ ({ s with log := [] } : BridgeState).live = true := Bool.eq_false_iff.mp hlive
  have hidle := executeConnect_idle params rounds host hlive'
  obtain ⟨hends, hkind⟩ := connectAsCentral_started params host hlive hstarts
  let last := (connectAsCentral params host { s with log := [] }).2
  let run := Hearing.run params host s
  have hheard : last.heard = run.heard := congrArg (·.1) hends
  have hactive : last.link.activeConn = run.active := congrArg (·.2.1) hends
  have hinitiations : last.initiations = run.initiated.toList := congrArg (·.2.2.2) hends
  have hinitiated : ∀ addr names, .initiated addr names ∈ last.log ↔
      run.initiated = some (addr, names) := fun addr names => by
    rw [mem_initiations, hinitiations, Option.mem_toList]
  constructor
  · intro hold
    have hscan := hold.initiated
    have hpass := hold.passed
    rw [hidle] at hscan hpass
    refine ⟨fun addr names h => hscan addr names ((hinitiated addr names).mpr h), ?_⟩
    intro conn hconn herr
    have hkind' := hkind.mpr ⟨hconn ▸ Option.some_ne_none conn, herr⟩
    obtain ⟨conn', hconn', hpasses⟩ := hpass _ rfl hkind'
    obtain rfl := Option.some.inj (hconn.symm.trans (hactive.symm.trans hconn'))
    rw [← hheard]
    exact hpasses
  · rintro ⟨hscan, hpass⟩
    refine ⟨fun addr names hmem => ?_, fun o ho hkind' => ?_⟩
    · rw [hidle] at hmem
      exact hscan addr names ((hinitiated addr names).mp hmem)
    · rw [hidle] at ho ⊢
      obtain rfl := Option.some.inj ho
      obtain ⟨hne, herr⟩ := hkind.mp hkind'
      obtain ⟨conn, hconn⟩ := Option.ne_none_iff_exists'.mp hne
      refine ⟨conn, hactive.trans hconn, ?_⟩
      rw [show namesOf _ conn = namesOf run.heard conn from congrArg (namesOf · conn) hheard]
      exact hpass conn hconn herr

/-- The host does not take the scan on, and nothing comes of it. -/
theorem filtersHold_refused {params : ConnectParams} {rounds : Nat} (hlive : s.live = false)
    (hstarts : ¬ host.starts s.turn = true) : FiltersHold params rounds host s := by
  have hlive' : ¬ ({ s with log := [] } : BridgeState).live = true := Bool.eq_false_iff.mp hlive
  have hidle := executeConnect_idle params rounds host hlive'
  rw [connectAsCentral_apply, if_neg hstarts] at hidle
  have hlog : (s.scanned params host).log = [] := by
    rw [BridgeState.scanned, btLeScanStart_snd]
    rfl
  refine ⟨fun addr names hmem => ?_, fun o ho hkind => ?_⟩
  · rw [hidle] at hmem
    exact absurd (hlog ▸ hmem) List.not_mem_nil
  · rw [hidle] at ho
    obtain rfl := Option.some.inj ho
    exact absurd hkind nofun

/-- The names of the peer a scan stops at are right when they are the step's, read as they
are. -/
theorem passes_initiated {params : ConnectParams} {addr : BtAddr} {names : List (List UInt8)}
    (h : (Hearing.run params host s).initiated = some (addr, names)) :
    Passes params addr names ↔ ∀ name ∈ params.targetName,
      (name.str = [] ∨ ∃ x ∈ names, x ≠ name.str ∧ readAs x = name.str) → name.str ∈ names := by
  obtain ⟨htarget, hname⟩ := (right_run params host s).initiated addr names h
  refine ⟨fun hpasses name hmem _ => hpasses.2 name hmem, fun htold => ⟨htarget, ?_⟩⟩
  intro name hmem
  rcases hname name hmem with hnil | ⟨x, hx, hread⟩
  · exact htold name hmem (.inl hnil)
  · by_cases heq : x = name.str
    · exact heq ▸ hx
    · exact htold name hmem (.inr ⟨x, hx, heq, hread⟩)

/-- Every peer a connect step creates a connection to or passes with is one it asks for, if
and only if a connection that is up is with a peer of that name, the peer the scan stops at
has the name that it is read as, and a connection that comes up otherwise is with a peer
asked for. -/
theorem filtersHold_iff (params : ConnectParams) (rounds : Nat) (host : Host)
    (s : BridgeState) : FiltersHold params rounds host s ↔ FiltersTold params host s := by
  cases hconn : s.link.activeConn with
  | some conn =>
    have hlive : s.live = true := by simp [BridgeState.live, hconn]
    rw [filtersHold_up hconn]
    refine ⟨fun h => ⟨fun conn' hconn' => ?_, fun hidle => ?_, fun hidle => ?_⟩,
      fun h => h.up conn hconn⟩
    · obtain rfl := Option.some.inj (hconn.symm.trans hconn')
      exact h
    · exact absurd (hlive.symm.trans hidle) nofun
    · exact absurd (hlive.symm.trans hidle) nofun
  | none =>
    have hlive : s.live = false := by simp [BridgeState.live, hconn]
    have hup : ∀ conn, s.link.activeConn = some conn → peerMatches params s = true →
        ∀ name ∈ params.targetName, name.str ∈ namesOf s.heard conn := fun conn hconn' =>
      absurd (hconn.symm.trans hconn') nofun
    by_cases hstarts : host.starts s.turn = true
    · rw [filtersHold_idle hlive hstarts]
      constructor
      · rintro ⟨hscan, hpass⟩
        refine ⟨hup, fun _ _ addr names h => ?_, fun _ _ conn hactive herr _ => ?_⟩
        · exact (passes_initiated h).mp (hscan addr names h)
        · exact hpass conn hactive herr
      · intro h
        have hscan : ∀ addr names,
            (Hearing.run params host s).initiated = some (addr, names) →
              Passes params addr names := fun addr names hinitiated =>
          (passes_initiated hinitiated).mpr (h.stopped hlive hstarts addr names hinitiated)
        refine ⟨hscan, fun conn hactive herr => ?_⟩
        by_cases hown : (Hearing.run params host s).initiated.map Prod.fst = some conn
        · -- The connection the scan was for: its names have been heard since.
          obtain ⟨⟨addr, names⟩, hinitiated, rfl⟩ := Option.map_eq_some_iff.mp hown
          have hpasses := hscan addr names hinitiated
          have hknown := (right_run params host s).known addr names hinitiated
          exact ⟨hpasses.1, fun name hmem => hknown (hpasses.2 name hmem)⟩
        · exact h.foreign hlive hstarts conn hactive herr hown
    · refine ⟨fun _ => ⟨hup, fun _ h => absurd h hstarts, fun _ h => absurd h hstarts⟩, fun _ => ?_⟩
      exact filtersHold_refused hlive hstarts

/-- A name, and one that is longer than the census has room for. -/
def sampleName : CharArray (dbmMaxLocalNameLen + 1) := .copy (.replicate 26 0x61)

/-- A name one byte longer than is kept of it. -/
def longName : BtData := ⟨btDataNameComplete, .ofList (.replicate 27 0x61)⟩

/-- A peer that advertises it. -/
def airLongName : Host := .scripted
  [(1, [.advertised samplePeer btGapAdvTypeAdvInd [longName], .connected samplePeer 0])]

/-- A peer with a longer name is connected to, and one that is connected passes with no name
at all. -/
theorem not_filtersHold_sample :
    ¬ FiltersHold ⟨none, some sampleName⟩ 1 airLongName .initial ∧
      ¬ FiltersHold ⟨none, some sampleName⟩ 1 (.scripted [])
        (executeConnect .central ⟨none, none⟩ 1 (.scripted [(1, sampleConnect)]) .initial).2 := by
  constructor
  · intro hold
    have hmem : .initiated samplePeer [longName.data.items] ∈
        (executeConnect .central ⟨none, some sampleName⟩ 1 airLongName .initial).2.log := by
      decide +kernel
    have hname := (hold.initiated samplePeer [longName.data.items] hmem).2 sampleName rfl
    exact absurd hname (by decide)
  · have hconn : (executeConnect .central ⟨none, none⟩ 1 (.scripted [(1, sampleConnect)])
        .initial).2.link.activeConn = some samplePeer := by
      decide +kernel
    have hheard : (executeConnect .central ⟨none, none⟩ 1 (.scripted [(1, sampleConnect)])
        .initial).2.heard = [] := by
      decide +kernel
    intro hold
    have hname := (filtersHold_up hconn).mp hold rfl sampleName rfl
    rw [hheard] at hname
    exact absurd hname List.not_mem_nil

end DevBench.Bridge
