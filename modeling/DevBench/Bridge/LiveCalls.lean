import DevBench.Bridge.Frames
import DevBench.Bridge.Tables

/-!
# GATT calls and the link

An action looks at the link once, at its head, and most waits are followed by another look.
Some are not: an unsubscribe, a further subscription or the end of a window comes behind
them whatever has become of the link. Where each of these ends with a connection, every GATT
call is made with one.
-/

namespace DevBench.Bridge

open DevBench.Core DevBench.Core.Program DevBench.Eap DevBench.Bench DevBench.Wire

/-- Behind the wait, which its semaphore ended or not, comes a GATT call before the link is
looked at. -/
def Site.Unchecked (taken : Bool) : Site → Prop
  | clearing => taken = true
  | monitorCcc another => another = true
  | capture held => 0 < held
  | protocolCcc held => taken = true ∨ 0 < held
  | protocolWrite held => 0 < held
  | protocolQueue calls => calls = true
  | _ => False

instance (taken : Bool) (site : Site) : Decidable (site.Unchecked taken) := by
  cases site <;> unfold Site.Unchecked <;> infer_instance

/-- An unchecked wait ends with a connection. -/
def Mark.Kept : Mark → Prop
  | waited site taken live => site.Unchecked taken → live = true
  | _ => True

instance : DecidablePred Mark.Kept
  | .waited site taken live => inferInstanceAs (Decidable (site.Unchecked taken → live = true))
  | .gatt .. | .initiated .. | .advertiser .. | .transcript _ | .delivered .. | .sample _
  | .dropped _ | .recounted _ | .zeroed .. | .missed _ => isTrue trivial

/-- In a run whose waits have all been kept so far every call had a connection, and there is
one where it is needed. -/
def LiveWhere (needed : Monitor → List (UInt8 × Uuid) → Prop) : BridgeState → Prop :=
  Provided Mark.Kept fun s =>
    (∀ m ∈ s.log, m.Live) ∧ (needed s.monitor s.protocol.subscribed → s.live = true)

/-- There is a connection. -/
abbrev Linked : BridgeState → Prop := LiveWhere fun _ _ => True

/-- There may be none. -/
abbrev LiveSoFar : BridgeState → Prop := LiveWhere fun _ _ => False

variable {needed needed' : Monitor → List (UInt8 × Uuid) → Prop} {s : BridgeState}

/-- A connection that is needed in more cases is there in fewer. -/
theorem LiveWhere.mono (h : LiveWhere needed s)
    (hle : needed' s.monitor s.protocol.subscribed → needed s.monitor s.protocol.subscribed) :
    LiveWhere needed' s := h.change rfl fun hs => ⟨hs.1, fun h => hs.2 (hle h)⟩

/-- Whatever it is needed for, the calls so far had one. -/
theorem LiveWhere.soFar (h : LiveWhere needed s) : LiveSoFar s := h.mono False.elim

/-- Where there is a connection it may be needed always. -/
theorem LiveWhere.linked (h : LiveWhere needed s) (hlive : s.live = true) : Linked s :=
  h.change rfl fun hs => ⟨hs.1, fun _ => hlive⟩

/-- What is always there is there where it is needed. -/
theorem LiveWhere.of_linked (h : Linked s) : LiveWhere needed s := h.mono fun _ => trivial

/-- A mark of a call that has a connection, or of no call, changes nothing. -/
theorem LiveWhere.push {m : Mark} (h : LiveWhere needed s) (hm : m.Live) :
    LiveWhere needed (s.push m) :=
  Provided.push h fun _ hs => ⟨List.forall_mem_cons.mpr ⟨hm, hs.1⟩, hs.2⟩

/-- Behind a wait there is a connection where the wait was unchecked. -/
theorem LiveWhere.waited {site : Site} {taken : Bool} (h : LiveSoFar s) :
    LiveWhere (fun _ _ => site.Unchecked taken) (s.push (.waited site taken s.live)) :=
  Provided.push h fun hm hs => ⟨List.forall_mem_cons.mpr ⟨trivial, hs.1⟩, hm⟩

/-- Only the monitor, the subscriptions of a protocol run, the connection and the log matter. -/
theorem ofCore_liveWhere : OfCore (LiveWhere needed) where
  same := by
    intro s s' hcore hs
    simp only [BridgeState.core, Prod.mk.injEq] at hcore
    obtain ⟨hmonitor, -, hsubscribed, hconn, hlog⟩ := hcore
    refine hs.change hlog fun hs => ?_
    rw [hlog, hmonitor, hsubscribed, BridgeState.live, hconn]
    exact hs
  quiet := by
    intro s m hm hs
    cases m <;> first | exact hs.push trivial | exact hm.elim

/-- A connection may come and go as long as none is needed. -/
theorem keptWithoutCalls_liveSoFar : KeptWithoutCalls LiveSoFar where
  toOfCore := ofCore_liveWhere
  idle _ _ hs := (LiveWhere.waited hs).soFar
  up _ _ hs := hs.change rfl fun hs => ⟨hs.1, False.elim⟩
  down hs := hs.change rfl fun hs => ⟨hs.1, False.elim⟩
  delivered _ _ _ hs := LiveWhere.push (hs.push trivial) trivial

/-- While `link_lost` is clear there is a connection. -/
abbrev Watched (s : BridgeState) : Prop := LiveWhere (fun _ _ => s.link.linkLost = false) s

/-- A connection that goes leaves its mark, so one is there while there is no mark. -/
theorem keptByHost_watched : KeptByHost Watched where
  other := by
    intro s s' hview hs
    simp only [BridgeState.view, Prod.mk.injEq] at hview
    have hs' := ofCore_liveWhere.same hview.1 hs
    rwa [Watched, hview.2.1]
  turn hs := hs
  ccc hs := hs
  quiet hm hs := ofCore_liveWhere.quiet hm.quiet hs
  up _ _ hs := hs.change rfl fun hs => ⟨hs.1, fun _ => rfl⟩
  lost {s} conn reason hs := by
    have hlog : (s.lose conn reason).log = s.log := by
      unfold BridgeState.lose BridgeState.drop
      split <;> rfl
    exact hs.change hlog fun hs => ⟨hlog ▸ hs.1, fun h => absurd h (by simp [BridgeState.lose])⟩
  done hs := hs
  found {s table entry} _ hs := LiveWhere.push (s := { s with table := table }) hs trivial
  arrived _ hs := hs
  delivered _ _ _ hs := LiveWhere.push (hs.push trivial) trivial

/-! ## Waits and calls -/

/-- Behind a wait a connection is needed only where the code does not look for one. -/
theorem triple_wait {sem : Sem} {site : Site} :
    Triple LiveSoFar (wait sem site) fun taken => LiveWhere fun _ _ => site.Unchecked taken :=
  keptWithoutCalls_liveSoFar.keptByHost.wait
    (fun s _ hs => LiveWhere.waited (s := s.take sem) hs) fun _ hs => LiveWhere.waited hs

/-- Where nothing follows none is needed. -/
theorem keeps_liveSoFar_wait {sem : Sem} {site : Site} : Keeps LiveSoFar (wait sem site) :=
  triple_wait.strengthen fun _ _ hs => hs.soFar

/-- Needed for either of two reasons. -/
theorem LiveWhere.or {p q : Prop} (h : LiveWhere (fun _ _ => p) s)
    (h' : LiveWhere (fun _ _ => q) s) : LiveWhere (fun _ _ => p ∨ q) s := fun hok =>
  ⟨(h hok).1, fun hpq => hpq.elim (h hok).2 (h' hok).2⟩

/-- Behind a wait that began with a connection there is one, too, while `link_lost` is
clear. -/
theorem triple_wait_linked {sem : Sem} {site : Site} :
    Triple Linked (wait sem site) fun taken s =>
      LiveWhere (fun _ _ => site.Unchecked taken ∨ s.link.linkLost = false) s := by
  have hwatched : Triple Watched (wait sem site) fun _ => Watched :=
    keptByHost_watched.wait (fun s _ hs => LiveWhere.push (s := s.take sem) hs trivial) fun _ hs =>
      LiveWhere.push hs trivial
  refine (triple_and triple_wait hwatched).conseq (fun s hs => ?_) fun _ _ hs => hs.1.or hs.2
  exact ⟨hs.soFar, hs.of_linked⟩

/-- A call on a connection leaves it there: only a wait can lose it. -/
theorem keeps_gattCall (call : GattCall) : Keeps Linked (gattCall call) := by
  refine triple_get fun s => Triple.bind (q := fun _ => Linked) ?_ fun _ => ?_
  · rintro host _ ⟨rfl, hs⟩
    exact Provided.push hs fun _ hs =>
      ⟨List.forall_mem_cons.mpr ⟨hs.2 trivial, hs.1⟩, hs.2⟩
  · exact keeps_ite (fun _ => ofCore_liveWhere.answer) fun _ => keeps_pure _

/-- So does one whose procedure is outstanding behind it. -/
theorem keeps_request (call : GattCall) (procedure : Procedure) :
    Keeps Linked (request call procedure) :=
  (keeps_gattCall call).bind fun _ =>
    Keeps.bind (keeps_when fun _ => ofCore_liveWhere.modify fun _ => rfl) fun _ => keeps_pure _

/-- A program that needs a connection may follow where one is needed anyway. -/
theorem triple_of_linked {α : Type} {m : Act α} {post : α → BridgeState → Prop}
    (h : Triple Linked m post) (hneeded : ∀ m subscribed, needed m subscribed) :
    Triple (LiveWhere needed) m post := h.weaken fun _ hs => hs.mono fun _ => hneeded _ _

/-- One that needs none may follow anything. -/
theorem triple_of_liveSoFar {α : Type} {m : Act α} {post : α → BridgeState → Prop}
    (h : Triple LiveSoFar m post) : Triple (LiveWhere needed) m post :=
  h.weaken fun _ hs => hs.soFar

/-- The look at the link at the head of an action. -/
theorem triple_checked {α : Type} {m n : Act α} {post : α → BridgeState → Prop}
    (hm : Triple LiveSoFar m post) (hn : Triple Linked n post) :
    Triple LiveSoFar (get >>= fun s : BridgeState => if ¬ s.live then m else n) post := by
  refine triple_get fun s => triple_ite (fun _ => hm.weaken fun _ hs => hs.2) fun hlive => ?_
  refine hn.weaken ?_
  rintro _ ⟨rfl, hs⟩
  exact hs.linked (Classical.not_not.mp hlive)

/-! ## Discovery -/

/-- An outcome that is a success leaves a connection. -/
abbrev Passed (o : BridgeOutcome) : BridgeState → Prop := LiveWhere fun _ _ => o.kind = .pass

/-- A discovery that reports no error has looked for the connection. -/
theorem triple_runDiscovery (procedure : Procedure) :
    Triple Linked (runDiscovery procedure) fun err => LiveWhere fun _ _ => err = 0 := by
  have hp : OfCore Linked := ofCore_liveWhere
  refine Triple.bind (hp.modify fun _ => rfl) fun _ => Triple.bind (hp.clear _) fun _ => ?_
  refine Triple.bind (keeps_request _ _) fun err => triple_ite (fun _ => ?_) fun _ => ?_
  · exact triple_pure fun s hs => hs.of_linked
  refine triple_wait_linked.bind fun taken => triple_ite (fun _ => ?_) fun _ => ?_
  · refine Triple.bind (q := fun _ => LiveSoFar) ?_ fun _ => ?_
    · exact Triple.weaken ofCore_liveWhere.abandon fun s hs => hs.soFar
    · exact triple_pure fun s hs => hs.mono fun h => absurd h (by decide)
  · refine triple_get fun s => triple_ite (fun _ => triple_pure fun s hs => ?_) fun hup => ?_
    · exact hs.2.mono fun h => absurd h (by decide)
    · refine triple_pure ?_
      rintro _ ⟨rfl, hs⟩
      exact hs.mono fun _ => .inr (Bool.eq_false_of_not_eq_true hup)

/-- One that failed is no success. -/
theorem triple_discoveryFailed (what : String) (err : Int) :
    Triple LiveSoFar (discoveryFailed what err) Passed := by
  refine triple_ite (fun _ => ?_) fun _ => triple_ite (fun _ => ?_) fun _ => ?_
  · exact triple_pure fun s hs => hs.mono nofun
  · exact fun host s hs => hs.mono nofun
  · exact triple_pure fun s hs => hs.mono nofun

/-- A pass in front of which there was a connection leaves it there. -/
theorem triple_outcomePass : Triple Linked outcomePass Passed := fun _ _ hs => hs.of_linked

/-- A discovery that came to its end leaves the connection to what follows. -/
theorem triple_discovered (procedure : Procedure) (what : String) (missing : BridgeOutcome)
    {absent : BridgeState → Prop} [DecidablePred absent] {next : BridgeState → Act BridgeOutcome}
    (hnext : ∀ s, Triple Linked (next s) Passed) :
    Triple Linked (do
      let err ← runDiscovery procedure
      let s ← get
      if err ≠ 0 then discoveryFailed what err
      else if absent s then pure missing else next s) Passed := by
  refine (triple_runDiscovery _).bind fun err => Triple.bind keeps_get fun s => ?_
  refine triple_ite (fun _ => ?_) fun herr => ?_
  · exact triple_of_liveSoFar (triple_discoveryFailed _ _)
  · refine triple_of_linked ?_ fun _ _ => Classical.not_not.mp herr
    exact triple_ite (fun _ => triple_pure fun s hs => hs.of_linked) fun _ => hnext s

/-- The second discovery follows a first that found the connection there. -/
theorem triple_resolveCharacteristic (serviceUuid characteristicUuid : Uuid) :
    Triple Linked (resolveCharacteristic serviceUuid characteristicUuid) Passed := by
  have hp : OfCore Linked := ofCore_liveWhere
  refine Triple.bind keeps_get fun s => Triple.bind (hp.modify fun _ => rfl) fun _ => ?_
  refine triple_discovered _ _ _ fun s => ?_
  exact Triple.bind (hp.modify fun _ => rfl) fun _ => triple_outcomePass

/-- The same handles may be resolved already. -/
theorem triple_resolveHandles (serviceUuid characteristicUuid : Uuid) :
    Triple Linked (resolveHandles serviceUuid characteristicUuid) Passed := by
  have hp : OfCore Linked := ofCore_liveWhere
  refine Triple.bind keeps_get fun s => triple_ite (fun _ => triple_outcomePass) fun _ => ?_
  refine Triple.bind (hp.modify fun _ => rfl) fun _ => ?_
  exact triple_discovered _ _ _ fun _ => triple_resolveCharacteristic _ _

/-- A step that did not fail, or not quite, leaves a connection. -/
abbrev Went (failed : Option BridgeOutcome) : BridgeState → Prop :=
  LiveWhere fun _ _ => ∀ o ∈ failed, o.kind = .pass

/-- A walk that goes on has looked for the connection. -/
theorem triple_walk_linked (procedure : Procedure) (ofWhat during : String) :
    Triple Linked (walk procedure ofWhat during) Went := by
  have hfailed {o : BridgeOutcome} (h : o.kind ≠ .pass) :
      ¬ ∀ o' ∈ some o, o'.kind = .pass := fun hall => h (hall o rfl)
  refine Triple.bind (ofCore_liveWhere.clear _) fun _ => ?_
  refine Triple.bind (keeps_request _ _) fun err => ?_
  refine triple_ite (fun _ => triple_pure fun s hs => hs.of_linked) fun _ => ?_
  refine triple_wait_linked.bind fun taken => triple_get fun s => ?_
  refine triple_ite (fun _ => ?_) fun _ => triple_ite (fun _ => ?_) fun hup => ?_
  · refine Triple.bind (q := fun _ => LiveSoFar) ?_ fun _ => ?_
    · exact Triple.weaken ofCore_liveWhere.abandon fun s hs => hs.2.soFar
    · exact triple_pure fun s hs => hs.mono (hfailed nofun)
  · exact fun host s hs => hs.2.mono fun h => absurd h (hfailed nofun)
  · refine triple_pure ?_
    rintro _ ⟨rfl, hs⟩
    exact hs.mono fun _ => .inr (Bool.eq_false_of_not_eq_true hup)

/-- So the next walk finds one. -/
theorem triple_walkServices_linked : ∀ left i, Triple Linked (walkServices left i) Went
  | 0, _ => triple_pure fun _ hs => hs.of_linked
  | left + 1, i => by
    refine Triple.bind (ofCore_liveWhere.modify fun _ => rfl) fun _ => ?_
    refine (triple_walk_linked _ _ _).bind fun failed => ?_
    cases failed with
    | some outcome => exact triple_pure fun s hs => hs
    | none => exact triple_of_linked (triple_walkServices_linked left (i + 1)) fun _ _ => nofun

/-- A discovery that passes has found it there to the end. -/
theorem triple_runGattDiscovery_linked : Triple Linked runGattDiscovery Passed := by
  have hp : OfCore Linked := ofCore_liveWhere
  have hwent {o : BridgeOutcome} : Triple (Went (some o)) (pure o : Act BridgeOutcome) Passed :=
    triple_pure fun s hs => hs.mono fun h _ ho => Option.some.inj ho ▸ h
  refine Triple.bind (hp.transcriptEmit _ _ _ _ _ _) fun _ => ?_
  refine Triple.bind (hp.modify fun _ => rfl) fun _ => Triple.bind (hp.modify fun _ => rfl)
    fun _ => ?_
  refine (triple_walk_linked _ _ _).bind fun failed => ?_
  cases failed with
  | some outcome => exact hwent
  | none =>
    refine triple_of_linked ?_ fun _ _ => nofun
    refine Triple.bind keeps_get fun s => (triple_walkServices_linked _ _).bind fun failed => ?_
    cases failed with
    | some outcome => exact hwent
    | none => exact triple_of_linked triple_outcomePass fun _ _ => nofun

/-- The action looks for a connection before it begins. -/
theorem keeps_executeGattDiscover : Keeps LiveSoFar executeGattDiscover := by
  refine triple_checked (keeps_pure _) (triple_runGattDiscovery_linked.bind fun o => ?_)
  exact triple_ite (fun _ => triple_pure fun s hs => hs.soFar) fun _ host s hs => hs.soFar

/-! ## Operations on one characteristic -/

/-- A request that is made, waited for and answered leaves the connection watched. -/
theorem triple_requested (kind : UInt8) (payload : List UInt8) (call : GattCall)
    (procedure : Procedure) (site : Site) (what failed : String) (failure : Int → BridgeOutcome)
    {success : Act BridgeOutcome} (hsuccess : Keeps LiveSoFar success) :
    Triple Linked (do
      armRequest
      emitCached bleGattDirOut kind 0 payload
      let err ← request call procedure
      if err ≠ 0 then
        emitCached bleGattDirLocal bleGattEvtError 0 (ascii failed)
        pure (failure err)
      else
        let taken ← wait .gatt site
        answered what taken success) fun _ => LiveSoFar := by
  have hp : OfCore Linked := ofCore_liveWhere
  have hq : OfCore LiveSoFar := ofCore_liveWhere
  refine Triple.bind hp.armRequest fun _ => Triple.bind (hp.emitCached _ _ _ _) fun _ => ?_
  refine Triple.bind (keeps_request _ _) fun err => triple_of_liveSoFar ?_
  refine keeps_ite (fun _ => ?_) fun _ => ?_
  · exact (hq.emitCached _ _ _ _).bind fun _ => keeps_pure _
  · exact keeps_liveSoFar_wait.bind fun taken => hq.answered _ taken hsuccess

/-- A read waits last, and nothing follows. -/
theorem triple_executeRead (valueHandle : UInt16) :
    Triple Linked (executeRead valueHandle) fun _ => LiveSoFar := by
  have hq : OfCore LiveSoFar := ofCore_liveWhere
  refine triple_requested _ _ _ _ _ _ _ _ ?_
  exact keeps_get.bind fun _ => (hq.emitCached _ _ _ _).bind fun _ => OfCore.outcomePass

/-- So does a write. -/
theorem triple_executeWrite (valueHandle : UInt16) (payload : List UInt8) :
    Triple Linked (executeWrite valueHandle payload) fun _ => LiveSoFar := by
  have hq : OfCore LiveSoFar := ofCore_liveWhere
  refine triple_requested _ _ _ _ _ _ _ _ ?_
  exact (hq.emitCached _ _ _ _).bind fun _ => OfCore.outcomePass

/-- A subscription makes one call and waits. -/
theorem triple_subscribeExchange (valueHandle cccValue : UInt16) :
    Triple Linked (subscribeExchange valueHandle cccValue) fun _ => LiveSoFar := by
  have hp : OfCore Linked := ofCore_liveWhere
  refine Triple.bind (hp.modify fun _ => rfl) fun _ => Triple.bind hp.armCcc fun _ => ?_
  refine Triple.bind (keeps_gattCall _) fun err => triple_of_liveSoFar ?_
  refine keeps_ite (fun _ => keeps_pure _) fun _ => ?_
  refine Keeps.bind (keeps_ite (fun _ => keeps_liveSoFar_wait) fun _ => keeps_pure _) fun _ => ?_
  refine keeps_get.bind fun s => keeps_ite (fun _ => keeps_pure _) fun _ => ?_
  refine keeps_ite (fun _ => keeps_pure _) fun _ => keeps_ite (fun _ => keeps_pure _) fun _ => ?_
  exact Keeps.bind (ofCore_liveWhere.modify fun _ => rfl) fun _ => OfCore.outcomePass

/-- The end of an earlier subscription is waited for without another look. -/
theorem triple_clearExchange :
    Triple Linked clearExchange fun out => LiveWhere fun _ _ => out = true := by
  have hp : OfCore Linked := ofCore_liveWhere
  refine Triple.bind keeps_get fun s => triple_ite (fun _ => ?_) fun _ => ?_
  · exact triple_pure fun s hs => hs.of_linked
  refine Triple.bind hp.armCcc fun _ => Triple.bind (hp.modify fun _ => rfl) fun _ => ?_
  refine Triple.bind (keeps_gattCall _) fun err => triple_ite (fun _ => ?_) fun _ => ?_
  · exact triple_of_liveSoFar triple_wait
  · exact triple_pure fun s hs => hs.of_linked

/-- Behind the end of an earlier one it is assumed that the connection is still there. -/
theorem triple_ensureSubscribed (valueHandle cccValue : UInt16) :
    Triple Linked (ensureSubscribed valueHandle cccValue) fun _ => LiveSoFar := by
  refine Triple.bind keeps_get fun s => triple_ite (fun _ => ?_) fun _ => ?_
  · exact fun host s hs => hs.soFar
  refine triple_clearExchange.bind fun out => triple_ite (fun hout => ?_) fun _ => ?_
  · exact triple_of_linked (triple_subscribeExchange _ _) fun _ _ => hout
  · exact triple_pure fun s hs => hs.soFar

/-- What follows a subscription makes no calls. -/
theorem triple_subscribedThen (valueHandle cccValue : UInt16) {next : Act BridgeOutcome}
    (hnext : Keeps LiveSoFar next) :
    Triple Linked (subscribedThen valueHandle cccValue next) fun _ => LiveSoFar :=
  (triple_ensureSubscribed _ _).bind fun _ => keeps_ite (fun _ => keeps_pure _) fun _ => hnext

/-- Waiting for a notification makes none. -/
theorem keeps_awaitNotification : Keeps LiveSoFar awaitNotification := by
  refine keeps_liveSoFar_wait.bind fun _ => keeps_get.bind fun s => ?_
  refine keeps_ite (fun _ => keeps_pure _) fun _ => ?_
  exact keeps_ite (fun _ => OfCore.outcomeDisconnected _) fun _ => OfCore.outcomePass

/-- Nor does the window of a stream. -/
theorem keeps_captureStream : Keeps LiveSoFar captureStream := by
  have hq : OfCore LiveSoFar := ofCore_liveWhere
  refine hq.captureReset.bind fun _ => Keeps.bind (hq.modify fun _ => rfl) fun _ => ?_
  refine (hq.clear _).bind fun _ => Keeps.bind (hq.modify fun _ => rfl) fun _ => ?_
  refine keeps_liveSoFar_wait.bind fun _ => Keeps.bind (hq.modify fun _ => rfl) fun _ => ?_
  exact keeps_ite (fun _ => OfCore.outcomeDisconnected _) fun _ => OfCore.outcomePass

/-- The action looks for a connection before it resolves its handles, and these leave one. -/
theorem keeps_executeDataExchange (serviceUuid characteristicUuid : Uuid)
    (operation : GattOperation) :
    Keeps LiveSoFar (executeDataExchange serviceUuid characteristicUuid operation) := by
  refine triple_checked (keeps_pure _) ((triple_resolveHandles _ _).bind fun resolved => ?_)
  refine triple_ite (fun _ => triple_pure fun s hs => hs.soFar) fun hpass => ?_
  refine triple_of_linked ?_ fun _ _ => Classical.not_not.mp hpass
  refine Triple.bind keeps_get fun s => ?_
  cases operation with
  | read => exact triple_executeRead _
  | write payload => exact triple_executeWrite _ _
  | notify _ => exact triple_subscribedThen _ _ keeps_awaitNotification
  | indicate _ => exact triple_subscribedThen _ _ keeps_awaitNotification
  | subscribe => exact triple_ensureSubscribed _ _
  | streamCapture => exact triple_subscribedThen _ _ keeps_captureStream

/-! ## Protocol runs -/

/-- An outcome that is a success leaves a connection, and so do the subscriptions that are
held. -/
abbrev Holding (passed : Prop) : BridgeState → Prop :=
  LiveWhere fun _ subscribed => passed ∨ subscribed ≠ []

/-- What a protocol run has recorded is changed by that run alone. -/
theorem keptWithoutCalls_subscribed (l : List (UInt8 × Uuid)) :
    KeptWithoutCalls fun s => s.protocol.subscribed = l where
  same hcore hs := (congrArg (fun core => core.2.2.1) hcore).trans hs
  quiet _ hs := hs
  idle _ _ hs := hs
  up _ _ hs := hs
  down hs := hs
  delivered _ _ _ hs := hs

/-- What is recorded does not change in a wait. -/
theorem keeps_subscribed_wait {l : List (UInt8 × Uuid)} {sem : Sem} {site : Site} :
    Keeps (fun s => s.protocol.subscribed = l) (wait sem site) :=
  (keptWithoutCalls_subscribed l).wait fun _ hs => hs

/-- A call leaves what a protocol run has recorded. -/
theorem keeps_subscribed_gattCall {l : List (UInt8 × Uuid)} (call : GattCall) :
    Keeps (fun s => s.protocol.subscribed = l) (gattCall call) :=
  keeps_get.bind fun _ => Keeps.bind (keeps_modify fun _ hs => hs) fun _ =>
    keeps_ite (fun _ _ _ hs => hs) fun _ => keeps_pure _

/-- A list that is not empty has a length. -/
theorem ne_nil_of_length {l l' : List (UInt8 × Uuid)} (h : l = l') : l ≠ [] → 0 < l'.length :=
  fun hne => List.length_pos_iff.mpr (h ▸ hne)

/-- A source is recorded where there is a connection. -/
theorem keeps_recordSource (source : Source) (i : Nat) : Keeps Linked (recordSource source i) :=
  (ofCore_liveWhere.transcriptEmit _ _ _ _ _ _).bind fun _ => keeps_modify fun _ hs =>
    hs.change rfl fun hs => hs

/-- Behind the CCC write of one source the subscriptions to those before it are held. -/
theorem triple_subscribeSource (source : Source) (i : Nat) :
    Triple Linked (subscribeSource source i) fun failed =>
      Holding (∀ o ∈ failed, o.kind = .pass) := by
  refine triple_get fun s => triple_ite (fun _ => ?_) fun _ => ?_
  · exact triple_pure fun s hs => hs.2.of_linked
  let held := s.protocol.subscribed
  have harm : Triple (fun s' => s' = s ∧ Linked s') armCcc fun _ s' =>
      Linked s' ∧ s'.protocol.subscribed = held := by
    rintro host _ ⟨rfl, hs⟩
    exact ⟨ofCore_liveWhere.armCcc host _ hs, rfl⟩
  refine harm.bind fun _ => ?_
  refine Triple.bind (triple_and (keeps_gattCall _) (keeps_subscribed_gattCall _)) fun err => ?_
  refine triple_ite (fun _ => triple_pure fun s hs => hs.1.of_linked) fun _ => ?_
  have hwait : Triple (fun s => Linked s ∧ s.protocol.subscribed = held)
      (waitIf (err = 0) .ccc (.protocolCcc held.length)) fun taken => Holding (taken = true) := by
    refine triple_ite (fun _ => ?_) fun _ => triple_pure fun s hs => hs.1.of_linked
    refine (triple_and triple_wait keeps_subscribed_wait).conseq (fun s hs => ⟨hs.1.soFar, hs.2⟩) ?_
    exact fun taken s hs => hs.1.mono fun h => h.imp id (ne_nil_of_length hs.2)
  refine hwait.bind fun taken => Triple.bind keeps_get fun s => triple_ite (fun _ => ?_)
    fun htaken => ?_
  · exact triple_pure fun s hs => hs.mono fun h => .inr (h.resolve_left fun h => nomatch h _ rfl)
  refine triple_of_linked ?_ fun _ _ => .inl (Classical.not_not.mp htaken)
  refine triple_ite (fun _ => triple_pure fun s hs => hs.of_linked) fun _ => ?_
  refine triple_ite (fun _ => triple_pure fun s hs => hs.of_linked) fun _ => ?_
  exact Triple.bind (keeps_recordSource source i) fun _ => triple_pure fun s hs => hs.of_linked

/-- A source that fails leaves the ones before it recorded. -/
theorem triple_subscribeEach (defn : ProtocolDef) : ∀ sources,
    Triple Linked (subscribeEach defn sources) fun o => Holding (o.kind = .pass)
  | [] => fun host s hs => hs.of_linked
  | (source, i) :: sources => by
    have hone : Triple Linked (subscribeIfRead defn source i) fun failed =>
        Holding (∀ o ∈ failed, o.kind = .pass) :=
      triple_ite (fun _ => triple_subscribeSource source i) fun _ =>
        triple_pure fun s hs => hs.of_linked
    refine hone.bind fun failed => ?_
    cases failed with
    | some outcome =>
      refine triple_pure fun s hs => hs.mono fun h => h.imp (fun h o ho => ?_) id
      exact Option.some.inj ho ▸ h
    | none => exact triple_of_linked (triple_subscribeEach defn sources) fun _ _ => .inl nofun

/-- Recording starts over in front of the first. -/
theorem triple_protocolSubscribeSources (defn : ProtocolDef) :
    Triple Linked (protocolSubscribeSources defn) fun o => Holding (o.kind = .pass) := by
  refine Triple.bind (q := fun _ => Linked) ?_ fun _ => triple_subscribeEach defn _
  exact triple_modify fun s hs => hs.change rfl fun hs => hs

/-- Each subscription recorded is ended by a call, with no wait between them. -/
theorem triple_protocolUnsubscribeAll (defn : ProtocolDef) :
    Triple (Holding False) (protocolUnsubscribeAll defn) fun _ => LiveSoFar := by
  refine Triple.bind (q := fun s' s => Holding False s ∧ s' = s) ?_ fun s => ?_
  · exact fun host s hs => ⟨hs, rfl⟩
  refine Triple.bind (q := fun _ => LiveSoFar) ?_ fun _ => ?_
  · by_cases hnil : s.protocol.subscribed = []
    · rw [hnil]
      exact triple_pure fun s hs => hs.1.soFar
    · refine (Triple.weaken (keeps_each fun x _ => ?_) fun s' hs => ?_).strengthen
        fun _ s (hs : Linked s) =>
        hs.soFar
      · exact (keeps_gattCall _).bind fun _ => ofCore_liveWhere.emitSource _ _ _ _ _
      · obtain ⟨hs, rfl⟩ := hs
        exact hs.mono fun _ => .inr hnil
  · exact triple_modify fun s hs => hs.change rfl fun hs => ⟨hs.1, False.elim⟩

/-- A write that passed has looked for the connection. -/
theorem triple_writeAcknowledged (handle : UInt16) (payload : List UInt8) :
    Triple Linked (writeAcknowledged handle payload) fun o => Holding (o.kind = .pass) := by
  have hp : OfCore Linked := ofCore_liveWhere
  refine Triple.bind (hp.modify fun _ => rfl) fun _ => Triple.bind (hp.clear _) fun _ => ?_
  refine Triple.bind (keeps_request _ _) fun err => ?_
  refine triple_ite (fun _ => triple_pure fun s hs => hs.of_linked) fun _ => triple_get fun s => ?_
  let held := s.protocol.subscribed
  have hwait : Triple (fun s' => s' = s ∧ Linked s')
      (wait .gatt (.protocolWrite held.length)) fun _ s => Holding (s.link.linkLost = false) s := by
    refine (triple_and triple_wait_linked (keeps_subscribed_wait (l := held))).conseq ?_ ?_
    · rintro _ ⟨rfl, hs⟩
      exact ⟨hs, rfl⟩
    · exact fun _ s hs => hs.1.mono fun h => h.elim .inr fun h => .inl (ne_nil_of_length hs.2 h)
  refine hwait.bind fun taken => triple_get fun s => triple_ite (fun _ => ?_) fun _ => ?_
  · refine Triple.bind (q := fun _ => Holding False) ?_ fun _ => ?_
    · refine Triple.weaken ofCore_liveWhere.abandon fun s hs => ?_
      exact hs.2.mono fun h => h.imp False.elim id
    · exact triple_pure fun s hs => hs.mono fun h => h.imp nofun id
  refine triple_ite (fun _ host s hs => hs.2.mono fun h => h.imp nofun id) fun hup => ?_
  refine Triple.weaken (show Triple Linked _ _ from triple_ite (fun _ => ?_) fun _ => ?_) ?_
  · exact triple_pure fun s hs => hs.of_linked
  · exact fun host s hs => hs.of_linked
  · rintro _ ⟨rfl, hs⟩
    exact hs.mono fun _ => .inl (Bool.eq_false_of_not_eq_true hup)

/-- A write to a source that does not exist makes no call. -/
theorem triple_protocolWriteOut (defn : ProtocolDef) (source : UInt8) (withResponse : Bool)
    (payload : List UInt8) :
    Triple (Holding (source.toNat < defn.sources.items.length))
      (protocolWriteOut defn source withResponse payload) fun o => Holding (o.kind = .pass) := by
  refine triple_ite (fun _ => triple_pure fun s hs => ?_) fun hlt => ?_
  · exact hs.mono fun h => h.imp nofun id
  refine triple_of_linked ?_ fun _ _ => .inl (Nat.lt_of_not_le hlt)
  refine Triple.bind (ofCore_liveWhere.emitSource _ _ _ _ _) fun _ => ?_
  refine Triple.bind keeps_get fun s => ?_
  refine triple_ite (fun _ => ?_) fun _ => triple_writeAcknowledged _ _
  refine Triple.bind (keeps_gattCall _) fun err => ?_
  exact triple_ite (fun _ => triple_pure fun s hs => hs.of_linked) fun _ host s hs => hs.of_linked

/-- The step has a connection if it has the bridge make GATT calls. -/
abbrev Stepping (defn : ProtocolDef) (step : EapStep) : BridgeState → Prop :=
  LiveWhere fun _ subscribed => stepCalls defn.sources.items.length subscribed.length step = true

/-- Behind the wait for the next event a connection is needed where the machine's step makes
calls. -/
theorem triple_nextStep (defn : ProtocolDef) (deadline : Nat) (run : EapRun) :
    Triple LiveSoFar (nextStep defn deadline run) fun next => Stepping defn next.2 := by
  refine Triple.bind keptWithoutCalls_liveSoFar.takeNote fun arrived => ?_
  refine Triple.bind (ofCore_liveWhere.feed defn deadline run arrived) fun next => triple_get
    fun s => ?_
  refine Triple.bind (q := fun _ => Stepping defn next.2) ?_ fun _ => triple_pure fun _ => id
  rintro host _ ⟨rfl, hs⟩
  exact LiveWhere.waited hs

/-- At the end of a run one is needed for the subscriptions that are held. -/
theorem triple_protocolLoop (defn : ProtocolDef) (deadline : Nat) : ∀ rounds run step,
    Triple (Stepping defn step) (protocolLoop defn deadline rounds run step) fun result =>
      LiveWhere fun _ subscribed => result.isSome ∧ subscribed ≠ []
  | 0, _, _ => triple_pure fun s hs => hs.mono nofun
  | _ + 1, _, .done _ _ => fun host s hs =>
    hs.mono fun h => decide_eq_true (List.length_pos_iff.mpr h.2)
  | rounds + 1, run, .wait _ =>
    triple_of_liveSoFar ((triple_nextStep defn deadline run).bind fun next =>
      triple_protocolLoop defn deadline rounds next.1 next.2)
  | rounds + 1, run, .write source withResponse payload deadline' => by
    have hcalls {s : BridgeState}
        (hs : Stepping defn (.write source withResponse payload deadline') s) :
        Holding (source.toNat < defn.sources.items.length) s :=
      hs.mono fun h => by simpa [stepCalls, List.length_pos_iff] using h
    refine Triple.bind ((triple_protocolWriteOut defn source withResponse payload).weaken
      fun _ => hcalls) fun written => ?_
    refine triple_ite (fun _ => triple_pure fun s hs => hs.mono fun h => .inr h.2) fun _ => ?_
    exact triple_of_liveSoFar ((triple_nextStep defn deadline run).bind fun next =>
      triple_protocolLoop defn deadline rounds next.1 next.2)

/-- They are ended behind it, and nothing follows. -/
theorem triple_runMachine (defn : ProtocolDef) (entryState : UInt8) (deadline rounds : Nat) :
    Triple Linked (runMachine defn entryState deadline rounds) fun _ => LiveSoFar := by
  rw [runMachine]
  split
  · exact triple_pure fun s hs => hs.soFar
  · refine ((triple_protocolLoop defn deadline rounds _ _).weaken fun s hs => hs.of_linked).bind ?_
    intro result
    cases result with
    | none => exact triple_pure fun s hs => hs.soFar
    | some result =>
      refine Triple.bind ((triple_protocolUnsubscribeAll defn).weaken fun s hs => ?_) fun _ =>
        keeps_pure _
      exact hs.mono fun h => ⟨rfl, h.resolve_left id⟩

/-- The action looks for a connection before it resolves its sources. -/
theorem keeps_executeRunProtocol (defn : ProtocolDef) (entryState : UInt8)
    (deadline rounds : Nat) :
    Keeps LiveSoFar (executeRunProtocol defn entryState deadline rounds) := by
  have hp : OfCore Linked := ofCore_liveWhere
  have hresolve : Triple Linked (protocolResolveSources defn) Passed := by
    refine triple_runGattDiscovery_linked.bind fun o =>
      triple_ite (fun _ => triple_pure fun _ => id) ?_
    intro hpass
    refine triple_of_linked ?_ fun _ _ => Classical.not_not.mp hpass
    refine Triple.bind (hp.modify fun _ => rfl) fun _ => ?_
    exact Triple.strengthen (hp.resolveEach _) fun _ s hs => hs.of_linked
  refine triple_checked (keeps_pure _) ?_
  refine triple_ite (fun _ => triple_pure fun s hs => hs.soFar) fun _ => hresolve.bind fun o => ?_
  refine triple_ite (fun _ => triple_pure fun s hs => hs.soFar) fun hpass => ?_
  refine triple_of_linked ?_ fun _ _ => Classical.not_not.mp hpass
  refine Triple.bind (hp.modify fun _ => rfl) fun _ => ?_
  refine (triple_protocolSubscribeSources defn).bind fun o => triple_ite (fun hfailed => ?_)
    fun hpass => ?_
  · refine Triple.bind ((triple_protocolUnsubscribeAll defn).weaken fun s hs => ?_) fun _ =>
      keeps_pure _
    exact hs.mono fun h => h.imp False.elim id
  · exact triple_of_linked (triple_runMachine defn entryState deadline rounds) fun _ _ =>
      .inl (Classical.not_not.mp hpass)

end DevBench.Bridge
