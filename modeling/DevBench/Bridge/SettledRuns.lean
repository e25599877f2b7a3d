import DevBench.Bridge.Settled
import DevBench.Bridge.Execute

/-!
# What the longer actions settle

Monitor windows, protocol runs, the remaining actions and the entry points, run on two
sides that are alike.
-/

namespace DevBench.Bridge

open DevBench.Core DevBench.Core.Program DevBench.Core.Agreement DevBench.Eap DevBench.Bench
  DevBench.Wire

variable {c : Scope} {E A : Set Aspect} {host host' : Host} {s t : BridgeState}

/-! ## Monitor windows -/

/-- The slot is recorded with the flat index of the table. -/
theorem needs_recordSlot (hc : ∀ r, c.holds r) (htable : .table ∈ A) (place : Nat × Nat) :
    (twins c).Needs A (recordSlot place) := by
  refine needs_of_inStep fun E hE => inStep_of_modify fun host s host' t h => ?_
  have hsame : s.table = t.table := h.same .table (hE htable)
  refine { h with
    same := fun p hp => by cases p <;> exact h.same _ hp
    count := congrArg (· + 1) h.count
    charIndex := fun i hi => ?_
    rest := hc _ }
  simp only [Vector.getElem?_setIfInBounds, hsame, ← h.count]
  split
  · rfl
  · next hne => exact h.charIndex i (by simp only at hi; omega)

/-- A characteristic is subscribed to behind a CCC write that was prepared. -/
theorem needs_subscribeCharacteristic (hc : ∀ r, c.holds r) (htable : .table ∈ A)
    (place : Nat × Nat) (service : FoundService) (found : FoundCharacteristic) (another : Bool) :
    (twins c).Needs A (subscribeCharacteristic place service found another) := by
  have hemit {B} (direction kind : UInt8) (payload : List UInt8) : (twins c).Needs B
      (transcriptEmit direction kind (some service.uuid) (some found.info.uuid) 0 payload) :=
    needs_transcriptEmit _ _ _ _ _ _
  refine settles_get (fun {E host s host' t} _ h => ?_) fun s => settles_ite (fun _ => hemit _ _ _)
    fun _ => (needs_note _).then fun _ => settles_armCcc.bind fun _ => ?_
  · have harmed (slot : Nat) : s.isArmed slot = t.isArmed slot := by
      rw [BridgeState.isArmed, BridgeState.isArmed, h.armed]
    dsimp only
    rw [h.count, harmed]
  refine (needs_subscribeSlot (.inl htable) _ _ _ _).then fun err =>
    settles_ite (fun _ => hemit _ _ _) fun _ => ?_
  refine (needs_waitIf (fun _ => by simp) _).then fun taken => settles_ite (fun _ => ?_) fun _ => ?_
  · exact (needs_abandonSlot _).then fun _ => hemit _ _ _
  · exact (hemit _ _ _).then fun _ => needs_recordSlot hc (.inl htable) _

/-- A place of the table is looked at. -/
theorem needs_visit (hc : ∀ r, c.holds r) (htable : .table ∈ A) (targets : List GattTarget)
    (checks : TargetChecks) (place : Nat × Nat) (another : Bool) :
    (twins c).Needs A (visit targets checks place another) := by
  refine settles_get (fun {E host s host' t} hE h => ?_) fun s => ?_
  · have hsame : s.table = t.table := h.same .table (hE htable)
    rw [hsame]
  cases s.table.at place with
  | none => exact needs_pure _
  | some found =>
    obtain ⟨service, found⟩ := found
    dsimp only
    split
    · exact needs_pure _
    · exact (needs_when fun _ => needs_subscribeCharacteristic hc htable _ _ _ _).then fun _ =>
        needs_pure _

/-- So are all of them, one after the other. -/
theorem needs_visitAll (hc : ∀ r, c.holds r) (htable : .table ∈ A) (targets : List GattTarget)
    (places : List (Nat × Nat)) (checks : TargetChecks) :
    (twins c).Needs A (visitAll targets checks places) := by
  induction places generalizing checks with
  | nil => exact needs_pure _
  | cons place places ih =>
    refine settles_get (fun {E host s host' t} hE h => ?_) fun s =>
      (needs_visit hc htable _ _ _ _).then fun checks => ih checks
    have hsame : s.table = t.table := h.same .table (hE htable)
    rw [hsame]

/-- No subscription counts on either side. -/
theorem needs_uncount :
    (twins c).Needs A (modify fun s => { s with monitor.count := 0 } : Act Unit) :=
  needs_of_inStep fun _ _ => inStep_of_modify fun _ _ _ _ h => { h with
    same := fun p hp => by cases p <;> exact h.same _ hp
    count := rfl
    charIndex := fun i hi => absurd hi (Nat.not_lt_zero i)
    rest := c.calm (by constructor <;> first | exact .inl rfl | exact .inr rfl) h.rest }

/-- The monitor's subscriptions begin with a discovery, so a pass leaves a table that is the
same. -/
theorem settles_monitorSubscribeMatching (hc : ∀ r, c.holds r) (hcaptured : .captured ∈ A)
    (targets : Targets) :
    (twins c).Settles A (monitorSubscribeMatching targets) (onPass .table) := by
  refine settles_get (fun _ h => by rw [h.live]) fun s =>
    settles_ite (fun _ => settles_failed (outcomeFail_kind _)) fun _ => ?_
  refine (settles_runGattDiscovery hcaptured).bind fun discovered =>
    settles_ite (fun hfailed => settles_failed hfailed) fun _ => ?_
  refine settles_get (fun {E host s host' t} hE h => ?_) fun s => (needs_note _).then fun _ =>
    needs_uncount.then fun _ => (needs_visitAll hc (.inr rfl) _ _ _).then fun checks => ?_
  · have hsame : s.table = t.table := h.same .table (hE (.inr rfl))
    rw [hsame, h.armed]
  split
  · refine settles_get (fun _ h => by rw [h.armed]) fun _ => (needs_note _).then fun _ => ?_
    exact settles_failed (outcomeFail_kind _)
  · exact settles_passed (.inr rfl) (.inl hcaptured)

/-- A call changes the log and the turn alone. -/
theorem keeps_gattCall_of {inv : BridgeState → Prop} (hlog : ∀ s m, inv s → inv (s.push m))
    (hturn : ∀ s, inv s → inv { s with turn := s.turn + 1 }) (call : GattCall) :
    Keeps inv (gattCall call) := by
  intro host s hs
  by_cases hlive : s.live = true
  · rw [gattCall_live hlive]
    exact hturn _ (hlog _ _ hs)
  · rw [gattCall_lost hlive]
    exact hlog _ _ hs

/-- A slot that counts is unsubscribed under the same names. -/
theorem inStep_unsubscribeCounted (htable : .table ∈ E) {n slot : Nat} (hslot : slot < n) :
    InStep (fun host s host' t => s.monitor.count = n ∧ Alike c E host s host' t)
      (unsubscribeCounted slot) := by
  have hrest (uuids : Option Label) :
      InStep (fun host s host' t => s.monitor.count = n ∧ Alike c E host s host' t) (do
        unsubscribeSlot slot
        transcriptEmit bleGattDirOut bleGattEvtUnsubscribed (uuids.map Prod.fst)
          (uuids.map Prod.snd) 0 [] : Act Unit) := by
    have hkeeps : Keeps (fun s : BridgeState => s.monitor.count = n) (do
        unsubscribeSlot slot
        transcriptEmit bleGattDirOut bleGattEvtUnsubscribed (uuids.map Prod.fst)
          (uuids.map Prod.snd) 0 [] : Act Unit) :=
      Keeps.bind ((keeps_gattCall_of (fun _ _ hs => hs) (fun _ hs => hs) _).bind fun _ _ _ hs => hs)
        fun _ _ _ hs => hs
    refine Lockstep.beside ?_ hkeeps
    exact Needs.inStep ((needs_unsubscribeSlot slot).then fun _ =>
      needs_transcriptEmit _ _ _ _ _ _) subset_rfl
  refine lockstep_get (fun host s host' t h => ?_) fun s =>
    Lockstep.given (hrest _)
  have hsame : s.table = t.table := h.2.same .table htable
  have hcell : s.monitor.charIndex[slot]? = t.monitor.charIndex[slot]? :=
    h.2.charIndex slot (h.1 ▸ hslot)
  have hindex : s.monitor.charIndex.getD slot 0 = t.monitor.charIndex.getD slot 0 := by
    simp only [Vector.getD, Array.getD_eq_getD_getElem?, Vector.getElem?_toArray, hcell]
  rw [hsame, hindex]

/-- Every slot that was recorded is ended with its labels. -/
theorem needs_monitorUnsubscribeAll (htable : .table ∈ A) :
    (twins c).Needs A monitorUnsubscribeAll := by
  refine needs_of_inStep fun E hE => lockstep_get (fun _ _ _ _ h => by rw [h.count]) fun s => ?_
  have heach : InStep
      (fun host s' host' t => s'.monitor.count = s.monitor.count ∧ Alike c E host s' host' t)
      (each unsubscribeCounted (List.range s.monitor.count)) :=
    inStep_each fun slot hslot =>
      inStep_unsubscribeCounted (hE htable) (List.mem_range.mp hslot)
  refine Lockstep.bind (q := fun _ => Alike c E) (heach.conseq ?_ fun _ _ _ _ _ => And.right)
    fun _ => needs_uncount.inStep subset_rfl
  rintro host s' host' t ⟨rfl, h⟩
  exact ⟨rfl, h⟩

/-- The result of a monitor reports the table. -/
theorem needs_monitorResult (htable : .table ∈ A) (hcaptured : .captured ∈ A) :
    (twins c).Needs A monitorResult :=
  (needs_outcomePass hcaptured).then fun _ => needs_withServices htable _

/-- A window subscribes, waits and ends what it has subscribed to. -/
theorem needs_executeGattMonitorWindow (hc : ∀ r, c.holds r) (hcaptured : .captured ∈ A)
    (targets : Targets) : (twins c).Needs A (executeGattMonitorWindow targets) := by
  refine (settles_monitorSubscribeMatching hc hcaptured targets).bind fun subscribed =>
    settles_ite (fun _ => needs_pure _) fun hpass => ?_
  have htable {B C : Set Aspect} : .table ∈ A ∪ onPass .table subscribed ∪ B ∪ C :=
    .inl (.inl (.inr ⟨rfl, not_not.mp hpass⟩))
  refine settles_unlost.bind fun _ => (settles_clear .disconn).bind fun _ => ?_
  refine settles_get (fun _ h => by rw [h.count]) fun s => (needs_wait (by simp) _).then
    fun dropped => ?_
  refine (needs_monitorUnsubscribeAll htable).then fun _ => ?_
  exact settles_ite (fun _ => needs_outcomeDisconnected _) fun _ =>
    needs_monitorResult htable (.inl (.inl (.inl hcaptured)))

/-- The window is open or closed on both sides; open, it looks at the table. -/
theorem needs_setWindow (hc : ∀ r, c.holds r) (isOpen : Bool)
    (htable : isOpen = true → .table ∈ A) :
    (twins c).Needs A (modify fun s => { s with monitor.windowOpen := isOpen } : Act Unit) :=
  needs_of_inStep fun _ hE => inStep_of_modify fun _ s _ _ h => { h with
    same := fun p hp => by cases p <;> exact h.same _ hp
    table := fun hlooks => by
      rcases hlooks with harmed | hopen | hpending
      · exact h.table (.inl harmed)
      · exact h.same .table (hE (htable hopen))
      · exact h.table (.inr (.inr hpending))
    windowOpen := rfl
    rest := hc _ }

/-- While a window is open the sides agree on the table. -/
theorem settles_window {α : Type} {f : BridgeState → Act α} {L : α → Set Aspect}
    (hsame : ∀ {E host s host' t}, A ⊆ E → Alike c E host s host' t → f s = f t)
    (h : ∀ s, (twins c).Settles (A ∪ {p | p = .table ∧ s.monitor.windowOpen = true}) (f s) L) :
    (twins c).Settles A (get >>= f) L := by
  refine settles_look hsame ?_ h
  rintro E host s host' t _ hs p ⟨rfl, hopen⟩
  exact hs.table (.inr (.inl hopen))

/-- A window that is left open does the first of these. -/
theorem needs_executeGattMonitorWindowStart (hc : ∀ r, c.holds r) (hcaptured : .captured ∈ A)
    (targets : Targets) : (twins c).Needs A (executeGattMonitorWindowStart targets) := by
  refine settles_window (fun _ h => by rw [h.windowOpen]) fun s =>
    (needs_when fun hopen => needs_monitorUnsubscribeAll (.inr ⟨rfl, hopen⟩)).then fun _ => ?_
  refine (settles_monitorSubscribeMatching hc (.inl hcaptured) targets).bind fun subscribed =>
    settles_ite (fun _ => ?_) fun hpass => ?_
  · exact (needs_setWindow hc false nofun).then fun _ => needs_pure _
  · exact (needs_setWindow hc true fun _ => .inr ⟨rfl, not_not.mp hpass⟩).then fun _ =>
      needs_monitorResult (.inr ⟨rfl, not_not.mp hpass⟩) (.inl (.inl hcaptured))

/-- Closing one looks at the table only where a window is open, and there the two have the same. -/
theorem needs_executeGattMonitorStop (hc : ∀ r, c.holds r) (hcaptured : .captured ∈ A) :
    (twins c).Needs A executeGattMonitorStop := by
  refine settles_window (fun _ h => by rw [h.windowOpen]) fun s =>
    settles_ite (fun _ => needs_outcomePass (.inl hcaptured)) fun hopen => ?_
  have htable : .table ∈ A ∪ {p | p = .table ∧ s.monitor.windowOpen = true} :=
    .inr ⟨rfl, not_not.mp hopen⟩
  exact (needs_monitorUnsubscribeAll htable).then fun _ =>
    (needs_setWindow hc false nofun).then fun _ => needs_monitorResult htable (.inl hcaptured)

/-! ## Protocol runs -/

/-- The sources of a protocol are looked up in the table. -/
theorem needs_resolveEach (htable : .table ∈ A) (hcaptured : .captured ∈ A)
    (sources : List (Source × Nat)) : (twins c).Needs A (resolveEach sources) := by
  induction sources with
  | nil => exact needs_outcomePass hcaptured
  | cons source sources ih =>
    obtain ⟨source, i⟩ := source
    refine settles_get (fun {E host s host' t} hE h => ?_) fun s => ?_
    · have hsame : s.table = t.table := h.same .table (hE htable)
      rw [hsame]
    split
    · exact needs_pure _
    · next found _ =>
      refine Settles.then (needs_of_inStep fun E _ => inStep_of_modify fun host s host' t h =>
        { h with same := fun p hp => ?_ }) fun _ => ih
      have hsame := h.same p hp
      cases p with
      | sources => exact congrArg (· ++ [found]) hsame
      | _ => exact hsame

/-- Behind a discovery, so a pass leaves the same handles on both sides. -/
theorem settles_protocolResolveSources (hcaptured : .captured ∈ A) (defn : ProtocolDef) :
    (twins c).Settles A (protocolResolveSources defn) (onPass .sources) := by
  refine (settles_runGattDiscovery hcaptured).bind fun discovered =>
    settles_ite (fun hfailed => settles_failed hfailed) fun _ => ?_
  refine Settles.bind (L := fun _ => {.sources}) (settles_modify ?_ ?_) fun _ =>
    (needs_resolveEach (.inl (.inr rfl)) (.inl (.inl hcaptured)) _).conseq ?_
  · exact fun _ h => { h with same := fun p hp => by cases p <;> first | exact h.same _ hp | rfl }
  · rintro E host s host' t _ _ p rfl
    rfl
  · rintro o p ⟨rfl, -⟩
    exact .inl (.inr rfl)

/-- A source that was subscribed to is recorded. -/
theorem needs_recordSource (hc : ¬ c.unread) (hqueue : .queue ∈ A) (source : Source) (i : Nat) :
    (twins c).Needs A (recordSource source i) := by
  refine (needs_transcriptEmit _ _ _ _ _ _).then fun _ => needs_of_inStep fun E hE =>
    inStep_of_modify fun host s host' t h => ?_
  exact { h with
    same := fun p hp => by cases p <;> exact h.same _ hp
    reads := congrArg (· ++ [(UInt8.ofNat i, source.characteristicUuid)]) h.reads
    queue := fun _ => h.same .queue (hE hqueue)
    unread := fun hunread => absurd hunread hc }

/-- Its handle is one that was resolved. -/
theorem needs_subscribeSource (hc : ¬ c.unread) (hqueue : .queue ∈ A) (hsources : .sources ∈ A)
    (source : Source) (i : Nat) : (twins c).Needs A (subscribeSource source i) := by
  refine settles_get (fun {E host s host' t} hE h => ?_) fun s =>
    settles_ite (fun _ => needs_pure _) fun _ => settles_armCcc.bind fun _ => ?_
  · have hsame : s.protocol.sources = t.protocol.sources := h.same .sources (hE hsources)
    rw [hsame, h.reads]
  refine (needs_gattCall _).then fun err => settles_ite (fun _ => needs_pure _) fun _ => ?_
  refine (needs_waitIf (fun _ => by simp) _).then fun taken =>
    settles_get (fun {E host s host' t} hE h => ?_) fun s => settles_ite (fun _ => needs_pure _)
      fun _ => settles_ite (fun _ => needs_pure _) fun _ => settles_ite (fun _ => needs_pure _)
        fun _ => (needs_recordSource hc (.inl hqueue) _ _).then fun _ => needs_pure _
  have hsame := h.same .ccc (hE (by simp))
  rw [hsame.1, hsame.2]

/-- The sources are subscribed to in order. -/
theorem needs_subscribeEach (hc : ¬ c.unread) (hqueue : .queue ∈ A) (hsources : .sources ∈ A)
    (hcaptured : .captured ∈ A) (defn : ProtocolDef) (sources : List (Source × Nat)) :
    (twins c).Needs A (subscribeEach defn sources) := by
  induction sources with
  | nil => exact needs_outcomePass hcaptured
  | cons source sources ih =>
    obtain ⟨source, i⟩ := source
    have hread : (twins c).Needs A (subscribeIfRead defn source i) :=
      settles_ite (fun _ => needs_subscribeSource hc hqueue hsources source i) fun _ =>
        needs_pure none
    refine hread.then fun failed => ?_
    cases failed with
    | some outcome => exact needs_pure _
    | none => exact ih

/-- No protocol runs on either side. -/
theorem needs_unread :
    (twins c).Needs A (modify fun s => { s with protocol.subscribed := [] } : Act Unit) :=
  needs_of_inStep fun _ _ => inStep_of_modify fun _ _ _ _ h => { h with
    same := fun p hp => by cases p <;> exact h.same _ hp
    reads := rfl
    queue := fun hreads => absurd rfl hreads
    unread := fun _ => rfl }

/-- Every subscription recorded is ended. -/
theorem needs_protocolUnsubscribeAll (defn : ProtocolDef) :
    (twins c).Needs A (protocolUnsubscribeAll defn) := by
  refine settles_get (fun _ h => by rw [h.reads]) fun s => (needs_each fun subscribed _ => ?_).then
    fun _ => needs_unread
  exact (needs_gattCall _).then fun _ => needs_transcriptEmit _ _ _ _ _ _

/-- An acknowledged write resets what it is judged by. -/
theorem needs_writeAcknowledged (hcaptured : .captured ∈ A) (handle : UInt16)
    (payload : List UInt8) : (twins c).Needs A (writeAcknowledged handle payload) := by
  refine Settles.bind (L := fun _ => {.linkLost, .attErr}) (settles_modify ?_ ?_) fun _ =>
    (settles_clear .gatt).bind fun _ => ?_
  · exact fun _ h => { h with same := fun p hp => by cases p <;> first | exact h.same _ hp | rfl }
  · rintro E host s host' t _ _ p (rfl | rfl) <;> rfl
  refine (needs_request _ (Set.empty_subset _)).then fun err => settles_ite (fun _ => needs_pure _)
    fun _ => settles_get (fun _ h => by rw [h.reads]) fun s => ?_
  refine (needs_wait (by simp) _).then fun taken => settles_get (fun {E host s host' t} hE h => ?_)
    fun s => settles_ite (fun _ => needs_abandon.then fun _ => needs_pure _) fun _ => ?_
  · have hlost : s.link.linkLost = t.link.linkLost := h.same .linkLost (hE (by simp))
    rw [hlost, h.same .attErr (hE (by simp))]
  · exact settles_ite (fun _ => needs_outcomeDisconnected _) fun _ =>
      settles_ite (fun _ => needs_pure _) fun _ => needs_outcomePass (.inl (.inl hcaptured))

/-- The entry of a source is labelled by the protocol alone. -/
theorem needs_emitSource (defn : ProtocolDef) (direction kind source : UInt8)
    (payload : List UInt8) : (twins c).Needs A (emitSource defn direction kind source payload) :=
  needs_transcriptEmit _ _ _ _ _ _

/-- A write goes to a handle that was resolved. -/
theorem needs_protocolWriteOut (hsources : .sources ∈ A) (hcaptured : .captured ∈ A)
    (defn : ProtocolDef) (source : UInt8) (withResponse : Bool) (payload : List UInt8) :
    (twins c).Needs A (protocolWriteOut defn source withResponse payload) := by
  refine settles_ite (fun _ => needs_pure _) fun _ => (needs_emitSource _ _ _ _ _).then fun _ =>
    settles_get (fun {E host s host' t} hE h => ?_) fun s => settles_ite (fun _ => ?_) fun _ => ?_
  · have hsame : s.protocol.sources = t.protocol.sources := h.same .sources (hE hsources)
    rw [hsame]
  · exact (needs_gattCall _).then fun _ =>
      settles_ite (fun _ => needs_pure _) fun _ => needs_outcomePass hcaptured
  · exact needs_writeAcknowledged hcaptured _ _

/-- The queue of notes must be the same. -/
theorem needs_takeNote (hqueue : .queue ∈ A) : (twins c).Needs A takeNote := by
  refine Settles.then (needs_of_inStep fun _ _ => inStep_during) fun events => ?_
  refine Settles.then (needs_of_inStep fun _ _ => inStep_happenings events) fun _ => ?_
  refine settles_get (fun {E host s host' t} hE h => ?_) fun s => ?_
  · have hsame : s.protocol.queue = t.protocol.queue := h.same .queue (hE hqueue)
    rw [hsame]
  split
  · exact needs_pure none
  · refine Settles.then (needs_of_inStep fun E _ => inStep_of_modify fun host s host' t h => ?_)
      fun _ => needs_pure _
    exact { h with
      same := fun p hp => by cases p <;> first | exact h.same _ hp | rfl
      queue := fun _ => rfl }

/-- The machine is fed what came, or the time. -/
theorem needs_feed (defn : ProtocolDef) (deadline : Nat) (run : EapRun) (arrived : Option Note) :
    (twins c).Needs A (feed defn deadline run arrived) := by
  cases arrived with
  | some arrived => exact (needs_emitSource _ _ _ _ _).then fun _ => needs_pure _
  | none =>
    exact Settles.then (needs_of_inStep fun _ _ => inStep_uptime) fun now =>
      settles_ite (fun _ => needs_pure _) fun _ => needs_pure _

/-- So the next step of the machine is the same. -/
theorem needs_nextStep (hqueue : .queue ∈ A) (defn : ProtocolDef) (deadline : Nat) (run : EapRun) :
    (twins c).Needs A (nextStep defn deadline run) := by
  refine (needs_takeNote hqueue).then fun arrived => (needs_feed _ _ _ _).then fun next => ?_
  refine settles_get (fun _ h => by rw [h.reads, h.live]) fun s => ?_
  exact (needs_note _).then fun _ => needs_pure next

/-- And with it the whole run. -/
theorem needs_protocolLoop (hqueue : .queue ∈ A) (hsources : .sources ∈ A)
    (hcaptured : .captured ∈ A) (defn : ProtocolDef) (deadline : Nat) :
    ∀ rounds run step, (twins c).Needs A (protocolLoop defn deadline rounds run step)
  | 0, _, _ => needs_pure none
  | rounds + 1, run, step => by
    cases step with
    | done finalState verdict =>
      exact Settles.map ((needs_outcomePass hcaptured).then fun _ => needs_pure _) some
    | wait deadlineMs =>
      exact (needs_nextStep hqueue _ _ _).then fun next =>
        needs_protocolLoop hqueue hsources hcaptured defn deadline rounds next.1 next.2
    | write source withResponse payload deadlineMs =>
      refine (needs_protocolWriteOut hsources hcaptured _ _ _ _).then fun written =>
        settles_ite (fun _ => needs_pure _) fun _ => ?_
      exact (needs_nextStep hqueue _ _ _).then fun next =>
        needs_protocolLoop hqueue hsources hcaptured defn deadline rounds next.1 next.2

/-- A run empties its queue and resolves its sources first. -/
theorem needs_executeRunProtocol (hc : ¬ c.unread) (hcaptured : .captured ∈ A) (defn : ProtocolDef)
    (entryState : UInt8) (deadline rounds : Nat) :
    (twins c).Needs A (executeRunProtocol defn entryState deadline rounds) := by
  refine settles_get (fun _ h => by rw [h.live]) fun s => settles_ite (fun _ => needs_pure _)
    fun _ => ?_
  refine settles_ite (fun _ => needs_pure _) fun _ => ?_
  refine (settles_protocolResolveSources hcaptured defn).bind fun resolved =>
    settles_ite (fun _ => needs_pure _) fun hpass => ?_
  have hsources {B : Set Aspect} : .sources ∈ A ∪ onPass .sources resolved ∪ B :=
    .inl (.inr ⟨rfl, not_not.mp hpass⟩)
  refine Settles.bind (L := fun _ => {.queue}) (settles_modify ?_ ?_) fun _ => ?_
  · exact fun _ h => { h with
      same := fun p hp => by cases p <;> first | exact h.same _ hp | rfl
      queue := fun _ => rfl }
  · rintro E host s host' t _ _ p rfl
    rfl
  have hsubscribe : (twins c).Needs (A ∪ onPass .sources resolved ∪ {.queue})
      (protocolSubscribeSources defn) := needs_unread.then fun _ =>
    needs_subscribeEach hc (.inr rfl) hsources (.inl (.inl hcaptured)) _ _
  refine hsubscribe.then fun subscribed => settles_ite (fun _ => ?_) fun _ => ?_
  · exact (needs_protocolUnsubscribeAll _).then fun _ => needs_pure _
  · rw [runMachine]
    split
    · exact needs_pure none
    · refine (needs_protocolLoop (.inr rfl) hsources (.inl (.inl hcaptured)) _ _ _ _ _).then
        fun result => ?_
      cases result with
      | none => exact needs_pure none
      | some result => exact (needs_protocolUnsubscribeAll _).then fun _ => needs_pure _

/-! ## Security and bonds -/

/-- What the pairing callbacks leave is looked at behind the wait. -/
theorem needs_securityAttempt (hsecurity : .security ∈ A) (hlost : .linkLost ∈ A)
    (hcaptured : .captured ∈ A) (want : Nat) : (twins c).Needs A (securityAttempt want) := by
  have hsettled {B : Set Aspect} (hsecurity : .security ∈ B) (hcaptured : .captured ∈ B)
      (others : Bool) : (twins c).Needs B (securitySettled want others) := by
    refine settles_get (fun {E host s host' t} hE h => ?_) fun s => ?_
    · have hsame : s.security = t.security := h.same .security (hE hsecurity)
      rw [hsame]
    split
    · exact needs_level.then fun _ => needs_pure _
    · refine settles_ite (fun _ => needs_pure _) fun _ => needs_level.then fun _ => ?_
      refine settles_ite (fun _ => needs_pure _) fun _ => settles_ite (fun _ => ?_) fun _ => ?_
      · exact (needs_outcomePass hcaptured).map some
      · exact settles_ite (fun _ => needs_pure _) fun _ => needs_pure _
  refine (settles_clear .sec).bind fun _ => needs_level.then fun _ => settles_ite (fun _ => ?_)
    fun _ => ?_
  · exact (needs_outcomePass (.inl hcaptured)).map some
  refine needs_answer.then fun err => settles_ite (fun _ => needs_pure _) fun _ => ?_
  refine (needs_wait (by simp) _).then fun taken => settles_get (fun {E host s host' t} hE h => ?_)
    fun s => settles_ite (fun _ => (needs_outcomeDisconnected _).map some) fun _ =>
      settles_ite (fun _ => needs_pure _) fun _ => hsettled (.inl hsecurity) (.inl hcaptured) _
  have hsame : s.link.linkLost = t.link.linkLost := h.same .linkLost (hE (.inl hlost))
  rw [hsame]

/-- All of it was reset, but for the mark of a lost link. -/
theorem needs_executeSetSecurity (hlost : .linkLost ∈ A) (hcaptured : .captured ∈ A)
    (wireLevel : UInt8) : (twins c).Needs A (executeSetSecurity wireLevel) := by
  refine settles_get (fun _ h => by rw [h.live]) fun s => settles_ite (fun _ => needs_pure _)
    fun _ => ?_
  split
  · exact needs_pure _
  · next want _ =>
    have hattempt : (twins c).Needs (A ∪ {.security}) (securityAttempt want) :=
      needs_securityAttempt (.inr rfl) (.inl hlost) (.inl hcaptured) want
    refine settles_armSecurity.bind fun _ => hattempt.then fun first => ?_
    cases first with
    | some outcome => exact needs_pure _
    | none =>
      refine hattempt.then fun second => ?_
      cases second with
      | some outcome => exact needs_pure _
      | none => exact needs_level.then fun _ => needs_pure _

/-- A semaphore is cleared where there will be a wait for it. -/
theorem settles_clearIf {p : Prop} [Decidable p] (sem : Sem) :
    (twins c).Settles A (when p (clear sem)) fun _ => {q | q = .given sem ∧ p} :=
  settles_ite (fun _ => (settles_clear sem).conseq fun _ _ hq => .inr hq.1) fun hp =>
    settles_pure fun _ hq => absurd hq.2 hp

/-- Forgetting the handles writes them on both sides. -/
theorem needs_forgetHandles : (twins c).Needs A forgetHandles := by
  refine needs_of_inStep fun E _ => inStep_of_modify fun host s host' t h => { h with
    same := fun p hp => ?_
    subscribed := rfl
    cacheValid := rfl
    cache := fun hvalid => by cases hvalid
    rest := c.calm (by constructor <;> first | exact .inl rfl | exact .inr rfl) h.rest }
  have hsame := h.same p hp
  cases p with
  | cache => exact congrArg (fun cache : HandleCache => { cache with valid := false }) hsame
  | _ => exact hsame

/-- Unbonding waits for a semaphore it has reset. -/
theorem needs_executeUnbond (hcaptured : .captured ∈ A) : (twins c).Needs A executeUnbond := by
  refine settles_get (fun _ h => by rw [h.live]) fun s =>
    (settles_clearIf .disconn).bind fun _ => ?_
  refine needs_answer.then fun err => settles_ite (fun _ => needs_pure _) fun _ => ?_
  refine (needs_waitIf (fun hlive => .inr ⟨rfl, hlive⟩) _).then fun _ => ?_
  exact needs_forgetHandles.then fun _ => needs_outcomePass (.inl hcaptured)

/-- So does the clearing of bonds at the end of a study. -/
theorem needs_bleBridgeClearBonds : (twins c).Needs A bleBridgeClearBonds := by
  refine settles_get (fun _ h => by rw [h.live]) fun s =>
    (settles_clearIf .disconn).bind fun _ => ?_
  refine needs_ignored.then fun _ =>
    (needs_waitIf (fun hlive => .inr ⟨rfl, hlive⟩) _).then fun _ => needs_forgetHandles

/-! ## Entry points -/

/-- Every action needs no more than a captured value, the mark of a lost link and the semaphore of
notifications. -/
theorem needs_dispatchAction (hc : ∀ r, c.holds r) (hcaptured : .captured ∈ A)
    (hlost : .linkLost ∈ A) (hnotify : .given .notify ∈ A) (action : BridgeAction)
    (hread : c.unread → ∀ defn entryState, action ≠ .runProtocol defn entryState)
    (deadline rounds : Nat) : (twins c).Needs A (dispatchAction action deadline rounds) := by
  cases action with
  | advertise localName advIntervalMs =>
    exact (needs_executeAdvertise hc hcaptured localName advIntervalMs).map some
  | connect role target targetName => exact needs_executeConnect hc hcaptured role _ rounds
  | dataExchange serviceUuid characteristicUuid operation =>
    exact (needs_executeDataExchange hc hnotify hlost hcaptured _ _ operation).map some
  | gattDiscover => exact (needs_executeGattDiscover hcaptured).map some
  | gattMonitorAll => exact (needs_executeGattMonitorWindow hc hcaptured none).map some
  | gattMonitorStart => exact (needs_executeGattMonitorWindowStart hc hcaptured none).map some
  | gattMonitorStop => exact (needs_executeGattMonitorStop hc hcaptured).map some
  | setSecurity level => exact (needs_executeSetSecurity hlost hcaptured level).map some
  | bleUnbond => exact (needs_executeUnbond hcaptured).map some
  | monitorSelected targets => exact (needs_executeGattMonitorWindow hc hcaptured _).map some
  | monitorSelectedStart targets =>
    exact (needs_executeGattMonitorWindowStart hc hcaptured _).map some
  | runProtocol defn entryState =>
    exact needs_executeRunProtocol (fun hunread => hread hunread defn entryState rfl) hcaptured
      defn entryState deadline rounds

/-- The level of an outcome is asked of the host. -/
theorem needs_stampLevel (outcome : BridgeOutcome) : (twins c).Needs A (stampLevel outcome) :=
  settles_get (fun _ h => by rw [h.live]) fun _ =>
    settles_ite (fun _ => needs_level.then fun _ => needs_pure _) fun _ => needs_pure _

/-- An action starts with what it looks at. -/
theorem needs_bleBridgeExecute (hc : ∀ r, c.holds r) (action : BridgeAction)
    (hread : c.unread → ∀ defn entryState, action ≠ .runProtocol defn entryState)
    (timeoutMs : UInt32) (rounds : Nat) :
    (twins c).Needs A (bleBridgeExecute action timeoutMs rounds) := by
  refine Settles.then (needs_of_inStep fun _ _ => inStep_uptime) fun now => ?_
  refine settles_captureReset.bind fun _ => settles_unlost.bind fun _ =>
    (settles_clear .notify).bind fun _ => ?_
  refine (needs_dispatchAction hc (by simp) (by simp) (by simp) action hread _ _).then
    fun outcome => ?_
  cases outcome with
  | none => exact needs_pure none
  | some outcome => exact (needs_stampLevel outcome).map some

/-- The reset takes the connection down with a semaphore it has reset. -/
theorem needs_resetLink : (twins c).Needs A resetLink := by
  refine settles_get (fun _ h => by rw [h.live]) fun s => needs_when fun _ => ?_
  refine (settles_clear .disconn).bind fun _ => needs_answer.then fun err => ?_
  exact (needs_waitIf (fun _ => by simp) _).then fun _ => needs_pure ()

/-- It writes what the subscriptions keep. -/
theorem needs_resetSubscriptions : (twins c).Needs A resetSubscriptions := by
  refine settles_get (fun _ h => by rw [h.subscribeHandle, h.live]) fun s =>
    (needs_when fun _ => (needs_gattCall _).then fun _ => needs_pure ()).then fun _ => ?_
  refine Settles.then (needs_of_inStep fun E _ => inStep_of_modify fun host s host' t h => ?_)
    fun _ => settles_get (fun _ h => by rw [h.live, h.count]) fun s =>
      (needs_when fun _ => needs_each fun slot _ => needs_unsubscribeSlot slot).then fun _ => ?_
  · exact { h with
      same := fun p hp => by cases p <;> exact h.same _ hp
      subscribed := rfl
      subscribeHandle := rfl
      subscribeValue := rfl
      rest := c.calm (by constructor <;> first | exact .inl rfl | exact .inr rfl) h.rest }
  refine Settles.then (needs_of_inStep fun E _ => inStep_of_modify fun host s host' t h => ?_)
    fun _ => (settles_setTable _).forget
  exact { h with
    same := fun p hp => by cases p <;> exact h.same _ hp
    table := fun hlooks => by
      rcases hlooks with harmed | hopen | hpending
      · exact h.table (.inl harmed)
      · cases hopen
      · exact h.table (.inr (.inr hpending))
    count := rfl
    windowOpen := rfl
    charIndex := fun i hi => absurd hi (Nat.not_lt_zero i)
    rest := c.calm (by constructor <;> first | exact .inl rfl | exact .inr rfl) h.rest }

/-- The reset behind the subscriptions it ends. -/
def resetRest : Act Unit := do
  resetLink
  modify fun s => { s with exchange.handleCache.valid := false }
  captureReset
  bleBridgeClearBonds

/-- And the rest of the statics. -/
theorem needs_resetRest : (twins c).Needs A resetRest := by
  refine needs_resetLink.then fun _ => Settles.then (needs_of_inStep fun E _ =>
    inStep_of_modify fun host s host' t h => { h with
      same := fun p hp => ?_
      cacheValid := rfl
      cache := fun hvalid => by cases hvalid
      rest := c.calm (by constructor <;> first | exact .inl rfl | exact .inr rfl) h.rest }) fun _ =>
        settles_captureReset.forget.then fun _ => needs_bleBridgeClearBonds
  have hsame := h.same p hp
  cases p with
  | cache => exact congrArg (fun cache : HandleCache => { cache with valid := false }) hsame
  | _ => exact hsame

/-- A reset needs nothing of the state it starts in. -/
theorem needs_bleBridgeReset : (twins c).Needs A bleBridgeReset := by
  refine needs_btLeScanStop.then fun _ => needs_ignored.then fun _ =>
    (needs_releasePendingConn true).then fun _ => Settles.then (needs_of_inStep fun E _ =>
      inStep_of_modify fun host s host' t h => ?_) fun _ =>
        needs_resetSubscriptions.then fun _ => needs_resetRest
  exact { h with
    same := fun p hp => by cases p <;> exact h.same _ hp
    advertising := rfl
    streaming := rfl
    rest := c.calm (by constructor <;> first | exact .inl rfl | exact .inr rfl) h.rest }

end DevBench.Bridge
