import DevBench.Bridge.SettledRuns
import DevBench.Core.Machine

/-!
# A reset is a hard one

Whatever was done before, a bridge that has been reset and has neither a connection nor a
scan left goes on as one that was just booted. Only the reason of the last lost link is
kept: it is told when the host refuses a call for want of a connection.
-/

namespace DevBench.Bridge

open DevBench.Core DevBench.Core.Program DevBench.Core.Agreement DevBench.Eap DevBench.Bench
  DevBench.Wire

variable {host : Host} {s : BridgeState}

/-! ## Between two commands -/

/-- Without a connection the host keeps nothing for the bridge, and no protocol runs. -/
def BridgeState.Between (s : BridgeState) : Prop :=
  (s.link.activeConn = none → s.armed = [] ∧ s.pending = none) ∧ s.protocol.subscribed = []

/-- A condition that stays true when what it is about is given up. -/
abbrev Calming (holds : Rest → Prop) : Prop := ∀ {r r' : Rest}, r.Calmer r' → holds r → holds r'

/-- A run beside itself. -/
abbrev itself {holds : Rest → Prop} (calm : Calming holds) (unread : Prop) : Scope :=
  ⟨holds, calm, unread, [], []⟩

/-- A bridge is alike itself, where it is idle without a connection. -/
theorem Alike.refl {holds : Rest → Prop} {calm : Calming holds} {unread : Prop} {E : Set Aspect}
    (hidle : s.link.activeConn = none → s.armed = [] ∧ s.pending = none) (hrest : holds s.rest)
    (hunread : unread → s.protocol.subscribed = []) :
    Alike (itself calm unread) E host s host s where
  sync := rfl
  log := ⟨s.log.map Mark.unnamed, (List.append_nil _).symm, (List.append_nil _).symm⟩
  same p _ := by
    cases p with
    | scan => exact ⟨rfl, rfl, rfl, ⟨rfl, rfl, fun _ _ => rfl⟩⟩
    | ccc | found => exact ⟨rfl, rfl⟩
    | _ => rfl
  reason := rfl
  activeConn := rfl
  pendingConn := rfl
  advertising := rfl
  scanning := rfl
  scan _ := ⟨rfl, rfl, rfl, ⟨rfl, rfl, fun _ _ => rfl⟩⟩
  streaming := rfl
  subscribed := rfl
  subscribeHandle := rfl
  subscribeValue := rfl
  cacheValid := rfl
  cache _ := rfl
  table _ := rfl
  discovering _ := rfl
  count := rfl
  windowOpen := rfl
  charIndex _ _ := rfl
  reads := rfl
  queue _ := rfl
  pending := rfl
  armed := rfl
  idle := hidle
  rest := hrest
  unread := hunread

/-- What runs in lockstep with itself keeps what is said of one side. -/
theorem keeps_itself {α : Type} {A : Set Aspect} {m : Act α} {holds : Rest → Prop}
    (calm : Calming holds) (h : (twins (itself calm True)).Needs A m) :
    Keeps (fun s => s.Between ∧ holds s.rest) m :=
  (h.inStep subset_rfl).diagonal
    (fun _ _ hs => Alike.refl hs.1.1 hs.2 fun _ => hs.1.2)
    fun _ _ _ halike => ⟨⟨halike.idle, halike.unread trivial⟩, halike.rest⟩

/-- Anything may be. -/
theorem calming_true : Calming fun _ => True := fun _ _ => trivial

/-- A program that needs nothing keeps the bridge between two actions. -/
theorem keeps_between {α : Type} {A : Set Aspect} {m : Act α}
    (h : (twins (itself calming_true True)).Needs A m) : Keeps BridgeState.Between m :=
  (keeps_itself calming_true h).conseq (fun _ hs => ⟨hs, trivial⟩) fun _ _ hs => hs.1

/-- It leaves it idle without a connection, whatever it does to the subscriptions. -/
theorem triple_idle {α : Type} {A : Set Aspect} {m : Act α}
    (h : (twins (itself calming_true False)).Needs A m) :
    Triple BridgeState.Between m fun _ s =>
      s.link.activeConn = none → s.armed = [] ∧ s.pending = none :=
  (h.inStep subset_rfl).diagonal
    (fun _ _ hs => Alike.refl hs.1 trivial False.elim) fun _ _ _ halike => halike.idle

/-- What says nothing of a command that has not come to its end. -/
def EndsUnsubscribed {α : Type} (o : Option α) (s : BridgeState) : Prop :=
  o.isSome = true → s.protocol.subscribed = []

/-- The end of a protocol run leaves no subscription recorded. -/
theorem unread_protocolUnsubscribeAll (defn : ProtocolDef) {pre : BridgeState → Prop} :
    Triple pre (protocolUnsubscribeAll defn) fun _ s => s.protocol.subscribed = [] :=
  fun _ _ _ => rfl

/-- A protocol run that comes to its end has ended its subscriptions. -/
theorem endsUnsubscribed_runMachine (defn : ProtocolDef) (entryState : UInt8)
    (deadline rounds : Nat) {pre : BridgeState → Prop} :
    Triple pre (runMachine defn entryState deadline rounds) EndsUnsubscribed := by
  rw [runMachine]
  split
  · exact triple_pure fun _ _ hsome => by cases hsome
  · refine triple_any.bind fun result => ?_
    cases result with
    | none => exact triple_pure fun _ _ hsome => by cases hsome
    | some result =>
      exact (unread_protocolUnsubscribeAll defn).bind fun _ => triple_pure fun _ hnil _ => hnil

/-- So does the action, where it comes to an outcome. -/
theorem endsUnsubscribed_executeRunProtocol (defn : ProtocolDef) (entryState : UInt8)
    (deadline rounds : Nat) :
    Triple BridgeState.Between (executeRunProtocol defn entryState deadline rounds)
      EndsUnsubscribed := by
  have hpure {o : Option BridgeOutcome} :
      Triple BridgeState.Between (pure o : Act _) EndsUnsubscribed :=
    triple_pure fun _ hs _ => hs.2
  refine triple_get fun s => Triple.weaken ?_ fun _ => And.right
  refine triple_ite (fun _ => hpure) fun _ => triple_ite (fun _ => hpure) fun _ => ?_
  have hresolve : Keeps BridgeState.Between (protocolResolveSources defn) :=
    keeps_between (settles_protocolResolveSources (A := {.captured}) rfl defn).forget
  refine Triple.bind hresolve fun resolved => triple_ite (fun _ => hpure) fun _ => ?_
  refine triple_any.bind fun _ => triple_any.bind fun subscribed =>
    triple_ite (fun _ => ?_) fun _ => endsUnsubscribed_runMachine defn entryState deadline rounds
  exact (unread_protocolUnsubscribeAll defn).bind fun _ => triple_pure fun _ hnil _ => hnil

/-- The level of the outcome is asked for behind it. -/
theorem keeps_read_stampLevel (outcome : BridgeOutcome) :
    Keeps (fun s : BridgeState => s.protocol.subscribed = []) (stampLevel outcome) :=
  keeps_get.bind fun _ => keeps_ite
    (fun _ => Keeps.bind (fun _ _ hs => hs) fun _ => keeps_pure _) fun _ => keeps_pure _

/-- A step that comes to an outcome leaves the bridge between two actions. -/
theorem between_bleBridgeExecute (action : BridgeAction) (timeoutMs : UInt32) (rounds : Nat) :
    Triple BridgeState.Between (bleBridgeExecute action timeoutMs rounds) fun o s =>
      o.isSome = true → s.Between := by
  by_cases hrun : ∃ defn entryState, action = .runProtocol defn entryState
  · obtain ⟨defn, entryState, rfl⟩ := hrun
    have hidle := triple_idle (needs_bleBridgeExecute (A := ∅) (fun _ => trivial)
      (.runProtocol defn entryState) False.elim timeoutMs rounds)
    have hread : Triple BridgeState.Between
        (bleBridgeExecute (.runProtocol defn entryState) timeoutMs rounds) EndsUnsubscribed := by
      refine Triple.bind (q := fun _ => BridgeState.Between) (fun _ _ hs => hs) fun now => ?_
      refine Triple.bind (q := fun _ => BridgeState.Between) (fun _ _ hs => hs) fun _ => ?_
      refine Triple.bind (q := fun _ => BridgeState.Between) (fun _ _ hs => hs) fun _ => ?_
      refine Triple.bind (q := fun _ => BridgeState.Between) (fun _ _ hs => hs) fun _ => ?_
      refine (endsUnsubscribed_executeRunProtocol defn entryState _ rounds).bind fun outcome => ?_
      cases outcome with
      | none => exact triple_pure fun _ _ hsome => by cases hsome
      | some outcome =>
        exact ((keeps_read_stampLevel outcome).map some).conseq (fun _ hends => hends rfl)
          fun _ _ hnil _ => hnil
    intro host s hs hsome
    exact ⟨hidle host s hs, hread host s hs hsome⟩
  · have hkeeps := keeps_between (needs_bleBridgeExecute (A := ∅) (fun _ => trivial) action
      (fun _ defn entryState haction => hrun ⟨defn, entryState, haction⟩) timeoutMs rounds)
    exact hkeeps.strengthen fun _ _ hs _ => hs

/-- What the host does needs nothing. -/
theorem needs_idle {c : Scope} {A : Set Aspect} : (twins c).Needs A (do
    let events ← during
    happenings events : Act Unit) :=
  Settles.then (needs_of_inStep fun _ _ => inStep_during) fun events =>
    needs_of_inStep fun _ _ => inStep_happenings events

/-- A command that comes to its end leaves no protocol running. -/
theorem between_act (command : Command) (rounds : Nat) :
    Triple BridgeState.Between (command.act rounds) fun o s => o.isSome = true → s.Between := by
  have hquiet {m : Act Unit} (h : (twins (itself calming_true True)).Needs ∅ m) :
      Triple BridgeState.Between (some <$> m) fun _ s => s.Between := (keeps_between h).map some
  cases command with
  | execute action timeoutMs =>
    refine (between_bleBridgeExecute action timeoutMs rounds).bind fun o =>
      triple_pure fun _ hs hsome => hs (by rwa [Option.isSome_map] at hsome)
  | reset => exact (hquiet needs_bleBridgeReset).strengthen fun _ _ hs _ => hs
  | clearBonds => exact (hquiet needs_bleBridgeClearBonds).strengthen fun _ _ hs _ => hs
  | idle => exact (hquiet needs_idle).strengthen fun _ _ hs _ => hs

/-- So it is between two actions after any number of them. -/
theorem between_of_reaches (h : Reaches BridgeState.next (fun _ _ => True) .initial s) :
    s.Between := by
  refine h.invariant BridgeState.Between ⟨fun _ => ⟨rfl, rfl⟩, rfl⟩ fun s s' t hs _ hstep => ?_
  obtain ⟨o, ho, rfl⟩ := Option.map_eq_some_iff.mp hstep
  exact between_act t.command t.rounds t.host s hs (Option.isSome_of_mem ho)

/-! ## The reset -/

/-- Neither a connection nor a scan is left. -/
def BridgeState.Disengaged (s : BridgeState) : Prop :=
  s.link.activeConn = none ∧ s.link.pendingConn = none ∧ s.scanning = false

/-- The bridge as it is booted, with what it keeps of the last link that was lost. -/
def BridgeState.booted (reason : UInt8) : BridgeState :=
  { BridgeState.initial with link.linkLostReason := reason }

/-- Neither advertising nor streaming. -/
def BridgeState.Silent (s : BridgeState) : Prop :=
  s.link.advertising = false ∧ s.exchange.streaming = false

/-- And without a subscription of its own. -/
def BridgeState.Unsubscribed (s : BridgeState) : Prop :=
  s.Silent ∧ s.exchange.subscribed = false ∧ s.exchange.subscribeHandle = 0 ∧
    s.exchange.subscribeValue = 0

/-- Nothing is left of it but perhaps the cache. -/
structure Rest.Ended (r : Rest) : Prop where
  advertising : r.advertising = false
  streaming : r.streaming = false
  subscribed : r.subscribed = false
  windowOpen : r.windowOpen = false
  subscribeHandle : r.subscribeHandle = 0
  subscribeValue : r.subscribeValue = 0
  count : r.count = 0

/-- Nothing is left of it. -/
def Rest.Bare (r : Rest) : Prop := r.Ended ∧ r.valid = false

/-- What has ended stays so. -/
theorem calming_ended : Calming Rest.Ended := fun hcalm h => {
  advertising := hcalm.advertising.elim (·.trans h.advertising) id
  streaming := hcalm.streaming.elim (·.trans h.streaming) id
  subscribed := hcalm.subscribed.elim (·.trans h.subscribed) id
  windowOpen := hcalm.windowOpen.elim (·.trans h.windowOpen) id
  subscribeHandle := hcalm.subscribeHandle.elim (·.trans h.subscribeHandle) id
  subscribeValue := hcalm.subscribeValue.elim (·.trans h.subscribeValue) id
  count := hcalm.count.elim (·.trans h.count) id }

/-- What is bare stays so. -/
theorem calming_bare : Calming Rest.Bare := fun hcalm h =>
  ⟨calming_ended hcalm h.1, hcalm.valid.elim (·.trans h.2) id⟩

/-- In silence the reset ends all there is. -/
theorem triple_resetSubscriptions :
    Triple BridgeState.Silent resetSubscriptions fun _ s => s.rest.Ended := by
  have hcall {inv : BridgeState → Prop} (hlog : ∀ s m, inv s → inv (s.push m))
      (hturn : ∀ s, inv s → inv { s with turn := s.turn + 1 }) :
      Keeps inv unsubscribeExchange :=
    (keeps_gattCall_of hlog hturn _).bind fun _ => keeps_pure ()
  have hslot (slot : Nat) : Keeps BridgeState.Unsubscribed (unsubscribeSlot slot) :=
    (keeps_gattCall_of (fun _ _ hs => hs) (fun _ hs => hs) _).bind fun _ _ _ hs => hs
  refine triple_get fun s => Triple.weaken ?_ fun _ => And.right
  refine Triple.bind (q := fun _ => BridgeState.Silent)
    (keeps_when fun _ => hcall (fun _ _ hs => hs) fun _ hs => hs) fun _ => ?_
  refine Triple.bind (q := fun _ => BridgeState.Unsubscribed)
    (triple_modify fun _ hs => ⟨hs, rfl, rfl, rfl⟩) fun _ => ?_
  refine triple_get fun s => Triple.weaken ?_ fun _ => And.right
  refine Triple.bind (q := fun _ => BridgeState.Unsubscribed)
    (keeps_when fun _ => keeps_each fun slot _ => hslot slot) fun _ => ?_
  refine Triple.bind (q := fun _ (s : BridgeState) => s.rest.Ended) (triple_modify fun s hs => ?_)
    fun _ => keeps_modify fun _ hs => hs
  obtain ⟨⟨hadvertising, hstreaming⟩, hsubscribed, hhandle, hvalue⟩ := hs
  exact ⟨hadvertising, hstreaming, hsubscribed, rfl, hhandle, hvalue, rfl⟩

/-- A reset leaves the bridge bare. -/
theorem triple_bleBridgeReset :
    Triple BridgeState.Between bleBridgeReset fun _ s => s.Between ∧ s.rest.Bare := by
  have hsubscriptions : Triple (fun s => s.Between ∧ s.Silent) resetSubscriptions
      fun _ s => s.Between ∧ s.rest.Ended :=
    triple_and (keeps_between (A := ∅) needs_resetSubscriptions) triple_resetSubscriptions
  have hlink : Keeps (fun s => s.Between ∧ s.rest.Ended) resetLink :=
    keeps_itself (A := ∅) calming_ended needs_resetLink
  have hbonds : Keeps (fun s => s.Between ∧ s.rest.Bare) bleBridgeClearBonds :=
    keeps_itself (A := ∅) calming_bare needs_bleBridgeClearBonds
  refine Triple.bind (keeps_between (A := ∅) needs_btLeScanStop) fun _ => ?_
  refine Triple.bind (keeps_between (A := ∅) needs_ignored) fun _ => ?_
  refine Triple.bind (keeps_between (A := ∅) (needs_releasePendingConn true)) fun _ => ?_
  refine Triple.bind (q := fun _ s => s.Between ∧ s.Silent)
    (triple_modify fun _ hs => ⟨hs, rfl, rfl⟩) fun _ => ?_
  refine Triple.bind hsubscriptions fun _ => Triple.bind hlink fun _ => ?_
  refine Triple.bind (q := fun _ (s : BridgeState) => s.Between ∧ s.rest.Bare)
    (triple_modify fun _ hs => ?_) fun _ => Triple.bind
      (q := fun _ (s : BridgeState) => s.Between ∧ s.rest.Bare) (fun _ _ hs => hs) fun _ => hbonds
  exact ⟨hs.1, calming_ended (by constructor <;> first | exact .inl rfl | exact .inr rfl) hs.2, rfl⟩

/-- A bare bridge with nothing on the air is as good as booted. -/
theorem alike_booted (host : Host) (hbetween : s.Between) (hbare : s.rest.Bare)
    (hdisengaged : s.Disengaged) :
    Alike ⟨fun _ => True, calming_true, False, s.log.map Mark.unnamed, []⟩ ∅ host s
      (host.ahead s.turn) (.booted s.link.linkLostReason) := by
  obtain ⟨hconn, hpending, hscanning⟩ := hdisengaged
  obtain ⟨hended, hinvalid⟩ := hbare
  obtain ⟨hadvertising, hstreaming, hsubscribed, hopen, hhandle, hvalue, hcount⟩ := hended
  obtain ⟨harmed, hprocedure⟩ := hbetween.1 hconn
  have hread := hbetween.2
  exact {
    sync := (Host.ahead_ahead host s.turn 0).symm
    log := ⟨[], rfl, rfl⟩
    same := fun _ => False.elim
    reason := rfl
    activeConn := hconn
    pendingConn := hpending
    advertising := hadvertising
    scanning := hscanning
    scan := fun h => absurd (hscanning.symm.trans h) Bool.false_ne_true
    streaming := hstreaming
    subscribed := hsubscribed
    subscribeHandle := hhandle
    subscribeValue := hvalue
    cacheValid := hinvalid
    cache := fun h => absurd (hinvalid.symm.trans h) Bool.false_ne_true
    table := fun hlooks => by
      rcases hlooks with h | h | h | h
      · exact absurd harmed h
      · exact absurd (hopen.symm.trans h) Bool.false_ne_true
      · rw [hprocedure] at h; cases h
      · rw [hprocedure] at h; cases h
    discovering := fun h => by rw [hprocedure] at h; cases h
    count := hcount
    windowOpen := hopen
    charIndex := fun i hi => absurd (hcount ▸ hi : i < 0) (Nat.not_lt_zero i)
    reads := hread
    queue := fun h => absurd hread h
    pending := hprocedure
    armed := harmed
    idle := hbetween.1
    rest := trivial
    unread := False.elim }

/-! ## What is called afterwards -/

/-- What a command tells its caller; only an action tells anything. -/
def Command.tell (rounds : Nat) : Command → Act (Option BridgeOutcome)
  | execute action timeoutMs => bleBridgeExecute action timeoutMs rounds
  | reset => do
    bleBridgeReset
    pure none
  | clearBonds => do
    bleBridgeClearBonds
    pure none
  | idle => do
    let events ← during
    happenings events
    pure none

/-- Commands one after the other, with what they tell. -/
def session (rounds : Nat) : List Command → Act (List (Option BridgeOutcome))
  | [] => pure []
  | command :: commands => do
    let told ← command.tell rounds
    let rest ← session rounds commands
    pure (told :: rest)

/-- So with any list of commands. -/
theorem needs_session {c : Scope} {A : Set Aspect} (hc : ∀ r, c.holds r) (hread : ¬ c.unread)
    (rounds : Nat) (commands : List Command) : (twins c).Needs A (session rounds commands) := by
  induction commands with
  | nil => exact needs_pure []
  | cons command commands ih =>
    have htell : (twins c).Needs A (command.tell rounds) := by
      cases command with
      | execute action timeoutMs =>
        exact needs_bleBridgeExecute hc action (fun h => absurd h hread) timeoutMs rounds
      | reset => exact needs_bleBridgeReset.then fun _ => needs_pure none
      | clearBonds => exact needs_bleBridgeClearBonds.then fun _ => needs_pure none
      | idle =>
        exact Settles.then (needs_of_inStep fun _ _ => inStep_during) fun events =>
          Settles.then (needs_of_inStep fun _ _ => inStep_happenings events) fun _ =>
            needs_pure none
    exact htell.then fun told => ih.then fun rest => needs_pure _

/-- Behind a reset that leaves neither a connection nor a scan, whatever was done before it,
the bridge tells for whatever is called next what a booted one tells, and does the same in the
same order, as long as the host goes on the same. -/
theorem session_after_reset (h : Reaches BridgeState.next (fun _ _ => True) .initial s)
    (host : Host) (hdisengaged : (bleBridgeReset host s).2.Disengaged) (rounds : Nat)
    (commands : List Command) :
    let s' := (bleBridgeReset host s).2
    let old := session rounds commands host s'
    let new := session rounds commands (host.ahead s'.turn) (.booted s'.link.linkLostReason)
    old.1 = new.1 ∧
      old.2.log.map Mark.unnamed = new.2.log.map Mark.unnamed ++ s'.log.map Mark.unnamed := by
  intro s' old new
  obtain ⟨hbetween, hbare⟩ := triple_bleBridgeReset host s (between_of_reaches h)
  have halike := alike_booted host hbetween hbare hdisengaged
  obtain ⟨hsame, hend⟩ := (needs_session (A := ∅) (fun _ => trivial) id rounds commands).inStep
    subset_rfl _ _ _ _ halike
  obtain ⟨marks, hold, hnew⟩ := hend.log
  refine ⟨hsame, hold.trans ?_⟩
  rw [hnew, List.append_nil]

/-- The peer is connected to and a window opened over its one characteristic; the peer goes
while the bridge is reset, and comes back. -/
def awayAndBack : Host := .scripted
  [(1, sampleConnect), (6, sampleService), (8, sampleCharacteristic), (10, [.cccAnswer 0]),
    (16, [.disconnected samplePeer 0x16]), (19, sampleConnect), (24, sampleService),
    (26, sampleCharacteristic)]

/-- A bridge reset in the middle of a window connects and discovers as a booted one. -/
theorem session_after_reset_window : ∃ s : BridgeState, s.monitor.windowOpen = true ∧
    (let s' := (bleBridgeReset awayAndBack s).2
      let commands : List Command :=
        [.execute (.connect .central none none) 1000, .execute .gattDiscover 1000]
      (session 1 commands awayAndBack s').1 =
        (session 1 commands (awayAndBack.ahead s'.turn) (.booted s'.link.linkLostReason)).1) := by
  have hplay : ((play BridgeState.next (fun _ _ => True) .initial
      [⟨.execute (.connect .central none none) 1000, awayAndBack, 1⟩,
        ⟨.execute .gattMonitorStart 1000, awayAndBack, 1⟩]).any fun s =>
      decide (s.monitor.windowOpen = true ∧
        (bleBridgeReset awayAndBack s).2.link.activeConn = none ∧
        (bleBridgeReset awayAndBack s).2.link.pendingConn = none ∧
        (bleBridgeReset awayAndBack s).2.scanning = false)) = true := by
    decide +kernel
  obtain ⟨s, hs, hends⟩ := (Option.any_eq_true _ _).mp hplay
  obtain ⟨hopen, hdisengaged⟩ := of_decide_eq_true hends
  exact ⟨s, hopen,
    (session_after_reset (reaches_of_play .start hs) awayAndBack hdisengaged 1 _).1⟩

/-- The reason of the lost link is told again where the host wants a connection it has. -/
theorem reason_outlives_reset : ∃ s : BridgeState,
    Reaches BridgeState.next (fun _ _ => True) .initial s ∧
      (bleBridgeReset awayAndBack s).2.Disengaged ∧
      (let s' := (bleBridgeReset awayAndBack s).2
        let host := { awayAndBack with answer := fun turn => if turn = 23 then enotconn else 0 }
        let commands : List Command :=
          [.execute (.connect .central none none) 1000,
            .execute (.dataExchange (.replicate 16 0) (.replicate 16 0) .read) 1000]
        (session 1 commands host s').1 ≠
          (session 1 commands (host.ahead s'.turn) .initial).1) := by
  have hplay : ((play BridgeState.next (fun _ _ => True) .initial
      [⟨.execute (.connect .central none none) 1000, awayAndBack, 1⟩,
        ⟨.execute .gattMonitorStart 1000, awayAndBack, 1⟩]).any fun s =>
      decide (((bleBridgeReset awayAndBack s).2.link.activeConn = none ∧
        (bleBridgeReset awayAndBack s).2.link.pendingConn = none ∧
        (bleBridgeReset awayAndBack s).2.scanning = false) ∧
        (let s' := (bleBridgeReset awayAndBack s).2
          let host := { awayAndBack with answer := fun turn => if turn = 23 then enotconn else 0 }
          let commands : List Command :=
            [.execute (.connect .central none none) 1000,
              .execute (.dataExchange (.replicate 16 0) (.replicate 16 0) .read) 1000]
          (session 1 commands host s').1 ≠
            (session 1 commands (host.ahead s'.turn) .initial).1))) = true := by
    decide +kernel
  obtain ⟨s, hs, hends⟩ := (Option.any_eq_true _ _).mp hplay
  obtain ⟨hdisengaged, htold⟩ := of_decide_eq_true hends
  exact ⟨s, reaches_of_play .start hs, hdisengaged, htold⟩

end DevBench.Bridge
