import DevBench.Bench.Dispatch
import DevBench.Bridge.HardReset
import DevBench.Bridge.Subscriptions
import DevBench.Core.Rounds

/-!
# The bench as a whole

The dispatch thread over the bridge itself: for each of its calls the bridge does its part
while the host goes on, and what the thread was answered is what the bridge has told. A
study leaves nothing open behind itself, and behind a greeting it meets a booted bridge.
-/

namespace DevBench.Bridge

open DevBench.Core DevBench.Core.Program DevBench.Core.Agreement DevBench.Eap DevBench.Bench
  DevBench.Wire

/-! ## The dispatch thread's calls -/

/-- What the dispatch thread learns from the bridge. -/
inductive Learned where
  /-- What `ble_bridge_execute` returned for the step of an index. -/
  | outcome (index : Nat) (o : Option BridgeOutcome)
  /-- `ble_bridge_monitor_window_open`, where the window is closed. -/
  | closing (isOpen : Bool)
  /-- The same, where the queue is drained. -/
  | draining (isOpen : Bool)
  /-- The queue was found empty. -/
  | drained (isEmpty : Bool)

/-- The thread was answered what it learned. The window is looked at once, before it is
closed or, where it is not open, before the queue is drained. -/
def Learned.fits (answers : Answers) : Learned → Bool
  | outcome index o => decide (o = some (answers.outcome index))
  | closing isOpen => isOpen
  | draining isOpen => answers.monitorWindowOpen || !isOpen
  | drained isEmpty => isEmpty

/-- What may happen before a call. -/
def meanwhile : Act Unit := do
  let events ← during
  happenings events

/-- A round of the wait for the transcript queue to empty. -/
def drainRound : Act (Unit ⊕ Unit) := do
  let used ← queued
  if used > 0 then
    -- the host goes on while the thread sleeps
    meanwhile
    pure (.inr ())
  else pure (.inl ())

/-- The wait, which has no bound of its own. -/
def drainQueue (rounds : Nat) : Act (Option Unit) :=
  Program.rounds (fun _ => drainRound) rounds ()

/-- The bridge's part in a call. -/
def part (rounds : Nat) : Bench.Act → Act (List Learned)
  | .bridgeReset => do
    bleBridgeReset
    pure []
  | .execute index action timeoutMs => do
    let o ← bleBridgeExecute action timeoutMs rounds
    pure [.outcome index o]
  | .closeWindow => do
    let s ← get
    let _ ← bleBridgeExecute .gattMonitorStop 1000 rounds
    pure [.closing s.monitor.windowOpen]
  | .drain => do
    let s ← get
    let emptied ← drainQueue rounds
    pure [.draining s.monitor.windowOpen, .drained emptied.isSome]
  | .clearBonds => do
    bleBridgeClearBonds
    pure []
  | .send _ | .setLevel _ | .setSink | .resetTranscriptDropped | .loadTaps _ | .setTapOpen _ _ _
  | .stampStep _ | .sleep _ => pure []

/-- The host goes on before each call. -/
def serve (rounds : Nat) : List Bench.Act → Act (List Learned)
  | [] => pure []
  | act :: acts => do
    meanwhile
    let learned ← part rounds act
    let rest ← serve rounds acts
    pure (learned ++ rest)

/-- The bridge, and `awaiting_study` of `main`. -/
structure WholeBench where
  bridge : BridgeState
  awaitingStudy : Bool

/-- A message with what is answered while it is handled, and how often a loop of the bridge is
followed at most. -/
structure Turn where
  inbound : Inbound
  rounds : Nat

namespace WholeBench

/-- One turn of the loop of `main`, if it can be answered so. -/
def next (build : Build) (host : Host) (x : WholeBench) (t : Turn) : Option WholeBench :=
  let handled := handle build x.awaitingStudy t.inbound
  let served := serve t.rounds handled.log host x.bridge
  if served.1.all (Learned.fits t.inbound.answers) then some ⟨served.2, handled.value⟩ else none

/-- Nothing is awaited at boot. -/
def boot : WholeBench := ⟨.initial, false⟩

end WholeBench

/-! ## The bridge's own runs -/

/-- The bridge gets there by commands that come to their ends. -/
abbrev BridgeState.Reached (s : BridgeState) : Prop :=
  Reaches BridgeState.next (fun _ _ => True) .initial s

/-- Each part the thread asks of the bridge leads from a reached state to one. -/
theorem reached_act (command : Command) (rounds : Nat) :
    Triple BridgeState.Reached (command.act rounds) fun o s => o.isSome = true → s.Reached := by
  intro host s hs hsome
  obtain ⟨u, hu⟩ := Option.isSome_iff_exists.mp hsome
  exact hs.move (m := ⟨command, host, rounds⟩) trivial (congrArg (Option.map _) hu)

section

variable {answers : Answers} {rounds : Nat} {before mid behind : BridgeState → Prop}

/-- What the calls lead to when they were answered so. -/
def Served (answers : Answers) (rounds : Nat) (before : BridgeState → Prop)
    (acts : List Bench.Act) (behind : BridgeState → Prop) : Prop :=
  Triple before (serve rounds acts) fun learned s =>
    learned.all (Learned.fits answers) = true → behind s

/-- Nothing is asked. -/
theorem served_nil (h : ∀ s, before s → behind s) : Served answers rounds before [] behind :=
  triple_pure fun s hs _ => h s hs

/-- One thing, and what follows; before each the host may act. -/
theorem served_cons {act : Bench.Act} {acts : List Bench.Act} (hidle : Keeps before meanwhile)
    (hact : Triple before (part rounds act) fun learned s =>
      learned.all (Learned.fits answers) = true → mid s)
    (hacts : Served answers rounds mid acts behind) :
    Served answers rounds before (act :: acts) behind := by
  intro host s hs hall
  obtain ⟨hlearned, hrest⟩ := Bool.and_eq_true_iff.mp (List.all_append.symm.trans hall)
  exact hacts host _ (hact host _ (hidle host s hs) hlearned) hrest

/-- What is served in two pieces is served in one. -/
theorem serve_append (acts acts' : List Bench.Act) : serve rounds (acts ++ acts') = (do
    let learned ← serve rounds acts
    let rest ← serve rounds acts'
    pure (learned ++ rest)) := by
  induction acts with
  | nil => rfl
  | cons act acts ih =>
    rw [List.cons_append, serve, serve, ih]
    exact funext fun _ => funext fun _ => Prod.ext (List.append_assoc _ _ _).symm rfl

/-- Calls after other calls. -/
theorem Served.append {acts acts' : List Bench.Act} (h : Served answers rounds before acts mid)
    (h' : Served answers rounds mid acts' behind) :
    Served answers rounds before (acts ++ acts') behind := by
  rw [Served, serve_append]
  intro host s hs hall
  obtain ⟨hlearned, hrest⟩ := Bool.and_eq_true_iff.mp (List.all_append.symm.trans hall)
  exact h' host _ (h host s hs hlearned) hrest

/-- Less may be asked for and more promised. -/
theorem Served.conseq {acts : List Bench.Act} {before' behind' : BridgeState → Prop}
    (h : Served answers rounds before acts behind) (hbefore : ∀ s, before' s → before s)
    (hbehind : ∀ s, behind s → behind' s) : Served answers rounds before' acts behind' :=
  Triple.conseq h hbefore fun _ s hs hall => hbehind s (hs hall)

/-- The wait for the queue keeps what the host keeps meanwhile. -/
theorem keeps_drainQueue {inv : BridgeState → Prop} (hidle : Keeps inv meanwhile) (rounds : Nat) :
    Keeps inv (drainQueue rounds) := by
  refine keeps_rounds (fun _ => ?_) rounds ()
  refine Keeps.bind (fun _ _ hs => hs) fun used => keeps_ite (fun _ => ?_) fun _ => keeps_pure _
  exact hidle.bind fun _ => keeps_pure _

/-- What the host does in between leads to a reached state. -/
theorem reached_meanwhile : Keeps BridgeState.Reached meanwhile := fun host s hs =>
  reached_act .idle 0 host s hs rfl

/-- What the thread calls the bridge for it could have been called for alone. -/
theorem reached_part (act : Bench.Act) :
    Triple BridgeState.Reached (part rounds act) fun learned s =>
      learned.all (Learned.fits answers) = true → s.Reached := by
  cases act with
  | bridgeReset =>
    have hreset : Keeps BridgeState.Reached bleBridgeReset := fun host s hs =>
      reached_act .reset rounds host s hs rfl
    exact Triple.bind hreset fun _ => triple_pure fun _ hs _ => hs
  | execute index action timeoutMs =>
    intro host s hs hall
    obtain ⟨hfits, -⟩ := Bool.and_eq_true_iff.mp hall
    have htold : (bleBridgeExecute action timeoutMs rounds host s).1 =
      some (answers.outcome index) := of_decide_eq_true hfits
    have hends : ((Command.execute action timeoutMs).act rounds host s).1 = some () :=
      congrArg (Option.map _) htold
    exact reached_act (.execute action timeoutMs) rounds host s hs (Option.isSome_of_mem hends)
  | closeWindow =>
    have hstop : Keeps BridgeState.Reached (bleBridgeExecute .gattMonitorStop 1000 rounds) :=
      fun host s hs => reached_act (.execute .gattMonitorStop 1000) rounds host s hs rfl
    refine triple_get fun _ => Triple.weaken ?_ fun _ => And.right
    exact Triple.bind hstop fun _ => triple_pure fun _ hs _ => hs
  | drain =>
    refine triple_get fun _ => Triple.weaken ?_ fun _ => And.right
    exact Triple.bind (keeps_drainQueue reached_meanwhile rounds) fun _ =>
      triple_pure fun _ hs _ => hs
  | clearBonds =>
    have hclear : Keeps BridgeState.Reached bleBridgeClearBonds := fun host s hs =>
      reached_act .clearBonds rounds host s hs rfl
    exact Triple.bind hclear fun _ => triple_pure fun _ hs _ => hs
  | send | setLevel | setSink | resetTranscriptDropped | loadTaps | setTapOpen | stampStep
  | sleep => exact triple_pure fun _ hs _ => hs

/-- So whatever is served leads to one. -/
theorem served_reached (acts : List Bench.Act) :
    Served answers rounds BridgeState.Reached acts BridgeState.Reached := by
  induction acts with
  | nil => exact served_nil fun _ => id
  | cons act acts ih => exact served_cons reached_meanwhile (reached_part act) ih

/-- What the thread does without the bridge. -/
def Aside (act : Bench.Act) : Prop := ∀ rounds, part rounds act = pure []

/-- The calls to the taps do not touch the bridge. -/
theorem aside_tapCalls (dropped : Nat → UInt32) (m : Traced TapCall TapTable) :
    (tapCalls dropped m).Logs Aside := by
  intro act hact
  obtain ⟨call, -, rfl⟩ := List.mem_map.mp hact
  exact fun _ => rfl

/-- Without the bridge only what the host does can change what is left, and it opens nothing. -/
theorem served_aside {acts : List Bench.Act} {holds : Rest → Prop} (calm : Calming holds)
    (h : ∀ act ∈ acts, Aside act) :
    Served answers rounds (fun s => s.Between ∧ holds s.rest) acts
      fun s => s.Between ∧ holds s.rest := by
  induction acts with
  | nil => exact served_nil fun _ => id
  | cons act acts ih =>
    obtain ⟨hact, hacts⟩ := List.forall_mem_cons.mp h
    refine served_cons (keeps_itself (A := ∅) calm needs_idle) ?_ (ih hacts)
    rw [hact]
    exact triple_pure fun _ hs _ => hs

/-! ## What a study leaves -/

/-- No window is open. -/
def Rest.Shut (r : Rest) : Prop := r.windowOpen = false

/-- A closed window stays closed while nothing of the bridge runs. -/
theorem calming_shut : Calming Rest.Shut := fun hcalm h =>
  hcalm.windowOpen.elim (·.trans h) id

/-- And the handles are forgotten. -/
def Rest.Vacated (r : Rest) : Prop := r.Shut ∧ r.valid = false ∧ r.subscribed = false

/-- What is vacated stays so. -/
theorem calming_vacated : Calming Rest.Vacated := fun hcalm h =>
  ⟨calming_shut hcalm h.1, hcalm.valid.elim (·.trans h.2.1) id,
    hcalm.subscribed.elim (·.trans h.2.2) id⟩

/-- What a reset leaves is vacated. -/
theorem Rest.Bare.vacated {r : Rest} (h : r.Bare) : r.Vacated :=
  ⟨h.1.windowOpen, h.2, h.1.subscribed⟩

/-- The stop leaves no window open, whatever it finds. -/
theorem shuts_executeGattMonitorStop :
    Triple BridgeState.Between executeGattMonitorStop fun _ s => s.Between ∧ s.rest.Shut := by
  have hpass : Keeps (fun s => s.Between ∧ s.rest.Shut) outcomePass :=
    keeps_itself calming_shut (needs_outcomePass (A := {.captured}) rfl)
  have hends : Keeps BridgeState.Between monitorUnsubscribeAll :=
    keeps_between (needs_monitorUnsubscribeAll (A := {.table}) rfl)
  have hresult : Keeps (fun s => s.Between ∧ s.rest.Shut) monitorResult :=
    keeps_itself calming_shut (needs_monitorResult (A := {.table, .captured}) (.inl rfl) (.inr rfl))
  refine triple_get fun s => triple_ite (fun hshut => hpass.weaken ?_) fun _ => ?_
  · rintro _ ⟨rfl, hs⟩
    exact ⟨hs, Bool.eq_false_of_not_eq_true hshut⟩
  · refine Triple.bind (hends.weaken fun _ => And.right) fun _ => ?_
    exact Triple.bind (triple_modify fun _ hs => ⟨hs, rfl⟩) fun _ => hresult

/-- The bench's own stop closes the window. -/
theorem part_closeWindow : Triple BridgeState.Between (part rounds .closeWindow)
    fun _ s => s.Between ∧ s.rest.Shut := by
  have hstamp (o : BridgeOutcome) : Keeps (fun s => s.Between ∧ s.rest.Shut) (stampLevel o) :=
    keeps_itself (A := ∅) calming_shut (needs_stampLevel o)
  refine triple_get fun _ => Triple.weaken ?_ fun _ => And.right
  refine Triple.bind (q := fun _ (s : BridgeState) => s.Between ∧ s.rest.Shut) ?_
    fun _ => keeps_pure _
  refine Triple.bind (q := fun _ => BridgeState.Between) (fun _ _ hs => hs) fun now => ?_
  refine Triple.bind (q := fun _ => BridgeState.Between) (fun _ _ hs => hs) fun _ => ?_
  refine Triple.bind (q := fun _ => BridgeState.Between) (fun _ _ hs => hs) fun _ => ?_
  refine Triple.bind (q := fun _ => BridgeState.Between) (fun _ _ hs => hs) fun _ => ?_
  exact shuts_executeGattMonitorStop.bind fun o => (hstamp o).map some

/-- How the window is closed, if it is open. -/
def closing (answers : Answers) : List Bench.Act :=
  if answers.monitorWindowOpen = true then
    .closeWindow :: (sendLogLine (ascii "closed a GATT capture window the study left open")).log
  else []

/-- What follows the bonds' end. -/
def parting (answers : Answers) : Traced Bench.Act Unit := do
  Traced.when (answers.transcriptDropped > 0) <|
    sendLogLine (ascii ("GATT transcript dropped " ++ toString answers.transcriptDropped.toNat ++
      " entries (queue full) -- this capture is NOT exhaustive"))
  Traced.emit (.setLevel devBenchLogBootLevel)

/-- What the end of a study asks, in order: the window, the queue, the taps, the bonds, the
result. -/
theorem log_endStudy (taps : TapTable) : (endStudy answers taps).log =
    closing answers ++ .drain :: ((tapCalls answers.droppedAtEnd taps.closeAllTaps).log ++
      .clearBonds :: (parting answers).log) := by
  rw [closing]
  cases h : answers.monitorWindowOpen <;> simp only [endStudy, parting, h] <;> rfl

/-- The result is sent without the bridge. -/
theorem aside_parting : (parting answers).Logs Aside :=
  Traced.logs_bind.mpr ⟨Traced.logs_when (Traced.logs_emit.mpr fun _ => rfl),
    Traced.logs_emit.mpr fun _ => rfl⟩

/-- The host opens no window. -/
theorem keeps_shut_meanwhile : Keeps (fun s => s.Between ∧ s.rest.Shut) meanwhile :=
  keeps_itself (A := ∅) calming_shut needs_idle

/-- Nor does it while the queue is drained. -/
theorem keeps_shut_drainQueue :
    Keeps (fun s => s.Between ∧ s.rest.Shut) (drainQueue rounds) :=
  keeps_drainQueue keeps_shut_meanwhile rounds

/-- The window is shut where the queue is drained. -/
theorem served_closing : Served answers rounds BridgeState.Between
    (closing answers ++ [.drain]) fun s => s.Between ∧ s.rest.Shut := by
  have hidle : Keeps BridgeState.Between meanwhile := keeps_between (A := ∅) needs_idle
  cases hopen : answers.monitorWindowOpen with
  | true =>
    have hnote : ∀ act ∈ (sendLogLine (ascii
        "closed a GATT capture window the study left open")).log, Aside act :=
      Traced.logs_emit.mpr fun _ => rfl
    have hdrain : Served answers rounds (fun s => s.Between ∧ s.rest.Shut) [.drain]
        fun s => s.Between ∧ s.rest.Shut :=
      served_cons keeps_shut_meanwhile
        (triple_get fun _ => (keeps_shut_drainQueue.weaken fun _ => And.right).bind fun _ =>
          triple_pure fun _ hs _ => hs) (served_nil fun _ => id)
    rw [closing, if_pos hopen]
    exact served_cons hidle (part_closeWindow.strengthen fun _ _ hs _ => hs)
      ((served_aside calming_shut hnote).append hdrain)
  | false =>
    rw [closing, hopen, if_neg Bool.false_ne_true]
    refine served_cons hidle ?_ (served_nil fun _ => id)
    refine triple_get fun s => ?_
    cases hwindow : s.monitor.windowOpen with
    | true =>
      -- the thread was told that it is not open
      refine triple_any.bind fun emptied => triple_pure fun _ _ hall => ?_
      rw [List.all_cons, Learned.fits, hopen] at hall
      exact absurd hall Bool.false_ne_true
    | false =>
      have hdrain : Triple (fun s' => s' = s ∧ s'.Between) (drainQueue rounds)
          fun _ s => s.Between ∧ s.rest.Shut := by
        refine keeps_shut_drainQueue.weaken ?_
        rintro _ ⟨rfl, hs⟩
        exact ⟨hs, hwindow⟩
      exact hdrain.bind fun _ => triple_pure fun _ hs _ => hs

/-- The end of a study leaves nothing open. -/
theorem served_endStudy (taps : TapTable) : Served answers rounds BridgeState.Between
    (endStudy answers taps).log fun s => s.Between ∧ s.rest.Vacated := by
  have hclear : Triple (fun s => s.Between ∧ s.rest.Shut) bleBridgeClearBonds
      fun _ s => s.Between ∧ s.rest.Vacated := by
    have hshut : Keeps (fun s => s.Between ∧ s.rest.Shut) bleBridgeClearBonds :=
      keeps_itself (A := ∅) calming_shut needs_bleBridgeClearBonds
    intro host s hs
    obtain ⟨hbetween, hends⟩ := hshut host s hs
    exact ⟨hbetween, hends, rfl, rfl⟩
  have hbonds : Served answers rounds (fun s => s.Between ∧ s.rest.Shut)
      (.clearBonds :: (parting answers).log) fun s => s.Between ∧ s.rest.Vacated :=
    served_cons (keeps_itself (A := ∅) calming_shut needs_idle)
      (Triple.bind hclear fun _ => triple_pure fun _ hs _ => hs)
      (served_aside calming_vacated aside_parting)
  rw [log_endStudy, List.append_cons]
  exact served_closing.append ((served_aside calming_shut (aside_tapCalls _ _)).append hbonds)

/-- A study ends between two actions, with nothing left open. -/
theorem served_runStudy (study : StudyStart) : Served answers rounds BridgeState.Reached
    (runStudy answers study).log fun s => s.Between ∧ s.rest.Vacated := by
  have hdone (completed : Bool) : (sendStudyDone completed).Logs Aside :=
    Traced.logs_emit.mpr fun _ => rfl
  simp only [runStudy, Traced.log_bind]
  refine (served_reached _).append ((served_reached _).append ?_)
  refine Served.append ((served_endStudy _).conseq (fun _ => between_of_reaches) fun _ => id) ?_
  exact served_aside calming_vacated (hdone _)

/-- What the thread says without having been asked for a study it can run. -/
theorem aside_abortStudy (reason : String) : (abortStudy reason).Logs Aside :=
  Traced.logs_bind.mpr
    ⟨Traced.logs_emit.mpr fun _ => rfl, Traced.logs_emit.mpr fun _ => rfl⟩

/-- `handle_hello` behind the reset. -/
def greeting (build : Build) (answers : Answers) (hello : Hello) : Traced Bench.Act Bool := do
  Traced.emit (.setLevel devBenchLogBootLevel)
  let compatible := hello.schemaVersion == build.ourSchema
  Traced.emit (.send (.helloAck ⟨build.ourSchema, compatible, .copy build.firmwareVersion,
    .copy build.hardwareId⟩))
  Traced.emit .setSink
  sendLogLine answers.diagnostics
  if compatible then pure true
  else do
    sendLogLine (ascii "schema version mismatch, not awaiting a StudyStart")
    pure false

/-- The greeting does not touch the bridge. -/
theorem aside_greeting (build : Build) (hello : Hello) :
    (greeting build answers hello).Logs Aside := by
  have haside {act : Bench.Act} (h : Aside act) : (Traced.emit act).Logs Aside :=
    Traced.logs_emit.mpr h
  refine Traced.logs_bind.mpr ⟨haside fun _ => rfl, Traced.logs_bind.mpr ⟨haside fun _ => rfl,
    Traced.logs_bind.mpr ⟨haside fun _ => rfl, Traced.logs_bind.mpr ⟨haside fun _ => rfl, ?_⟩⟩⟩⟩
  split
  · exact Traced.logs_pure _ _
  · exact Traced.logs_bind.mpr ⟨haside fun _ => rfl, Traced.logs_pure _ _⟩

/-- Behind a greeting the bridge is bare. -/
theorem served_handleHello (build : Build) (hello : Hello) :
    Served answers rounds BridgeState.Between (handleHello build answers hello).log
      fun s => s.Between ∧ s.rest.Bare := by
  have hreset : Triple BridgeState.Between (part rounds .bridgeReset)
      fun _ s => s.Between ∧ s.rest.Bare :=
    triple_bleBridgeReset.bind fun _ => keeps_pure _
  change Served answers rounds _ (.bridgeReset :: (greeting build answers hello).log) _
  exact served_cons (keeps_between (A := ∅) needs_idle) (hreset.strengthen fun _ _ hs _ => hs)
    (served_aside calming_bare (aside_greeting build hello))

/-- A study that is refused leaves the bridge as it was, and one that is run leaves it vacated. -/
theorem served_handleStudyStart (awaitingStudy : Bool) (study : StudyStart) :
    Served answers rounds (fun s => s.Reached ∧ s.rest.Vacated)
      (handleStudyStart awaitingStudy answers study).log fun s => s.Between ∧ s.rest.Vacated := by
  have hquiet {m : Traced Bench.Act Unit} (h : m.Logs Aside) : Served answers rounds
      (fun s => s.Reached ∧ s.rest.Vacated) m.log fun s => s.Between ∧ s.rest.Vacated :=
    (served_aside calming_vacated h).conseq (fun _ hs => ⟨between_of_reaches hs.1, hs.2⟩)
      fun _ => id
  rw [handleStudyStart, dispatchStudy]
  split
  · split
    · exact hquiet (aside_abortStudy _)
    · split
      · exact hquiet (aside_abortStudy _)
      · split
        · exact hquiet (aside_abortStudy _)
        · exact (served_runStudy study).conseq (fun _ => And.left) fun _ => id
  · exact hquiet (Traced.logs_emit.mpr fun _ => rfl)

/-- No message leaves anything open. -/
theorem served_handle (build : Build) (awaitingStudy : Bool) (inbound : Inbound) :
    Served inbound.answers rounds (fun s => s.Reached ∧ s.rest.Vacated)
      (handle build awaitingStudy inbound).log fun s => s.rest.Vacated := by
  rw [handle]
  split
  · exact (served_handleHello build _).conseq (fun _ hs => between_of_reaches hs.1)
      fun _ hs => hs.2.vacated
  · rw [Traced.log_bind, Traced.log_pure, List.append_nil]
    exact (served_handleStudyStart awaitingStudy _).conseq (fun _ => id) fun _ => And.right
  · exact served_nil fun _ => And.right

end

/-! ## Between messages -/

section

variable {build : Build} {host : Host} {x x' : WholeBench}

/-- A turn of the bench is one whose answers are those of the bridge. -/
theorem WholeBench.next_eq_some {t : Turn} : x.next build host t = some x' ↔
    (serve t.rounds (handle build x.awaitingStudy t.inbound).log host x.bridge).1.all
        (Learned.fits t.inbound.answers) = true ∧
      ⟨(serve t.rounds (handle build x.awaitingStudy t.inbound).log host x.bridge).2,
        (handle build x.awaitingStudy t.inbound).value⟩ = x' := by
  simp only [WholeBench.next, Option.ite_none_right_eq_some, Option.some.injEq]

/-- Between two messages the bridge is in a reached state and vacated. -/
theorem reached_and_vacated (h : Reaches (WholeBench.next build host) (fun _ _ => True) .boot x) :
    x.bridge.Reached ∧ x.bridge.rest.Vacated := by
  refine h.invariant (fun x => x.bridge.Reached ∧ x.bridge.rest.Vacated)
    ⟨.start, rfl, rfl, rfl⟩ fun x x' t hx _ hnext => ?_
  obtain ⟨hfits, rfl⟩ := WholeBench.next_eq_some.mp hnext
  exact ⟨served_reached _ host _ hx.1 hfits, served_handle build _ _ host _ hx hfits⟩

/-- Between two messages no window is open, no handle is remembered, neither an exchange nor
a protocol run is subscribed to anything, and as long as the log is orderly the host keeps no
subscription armed. -/
theorem nothing_left_open (h : Reaches (WholeBench.next build host) (fun _ _ => True) .boot x) :
    x.bridge.monitor.windowOpen = false ∧ x.bridge.exchange.handleCache.valid = false ∧
      x.bridge.exchange.subscribed = false ∧ x.bridge.protocol.subscribed = [] ∧
      ((∀ m ∈ x.bridge.log, m.Orderly) → x.bridge.armed = []) := by
  obtain ⟨hreached, hshut, hvalid, hsubscribed⟩ := reached_and_vacated h
  refine ⟨hshut, hvalid, hsubscribed, (between_of_reaches hreached).2, fun horderly => ?_⟩
  have hledger : Ledger (Counted Closed) x.bridge := by
    refine hreached.invariant (Ledger (Counted Closed)) ?_ fun s s' t hs _ hstep => ?_
    · exact fun _ => ⟨⟨nofun, fun _ => rfl⟩, fun h => absurd rfl h, nofun⟩
    · obtain ⟨_, _, rfl⟩ := Option.map_eq_some_iff.mp hstep
      exact keeps_act t.rounds t.command t.host s hs
  exact (hledger horderly).good.2 hshut

/-- A central study whose window nobody closes. -/
def leftOpenStudy : StudyStart where
  steps := .ofList [⟨.copy [], .bleConnect 0 none none, 1000, true, 0⟩,
    ⟨.copy [], .gattMonitorStart, 1000, true, 0⟩]
  stepsCrc := 0
  stepsCrcValid := true
  streams := .empty
  streamsCrc := 0
  streamsCrcValid := true
  hasUnsupportedAction := false
  devBenchLogLevel := 3
  protocols := .empty
  protocolsCrc := 0
  protocolsCrcValid := true

/-- The peer is connected to, has one characteristic that notifies, and goes when the queue is
drained. Behind another greeting it is there again. -/
def leavingPeer : Host := .scripted
  [(14, sampleConnect), (22, sampleService), (24, sampleCharacteristic), (26, [.cccAnswer 0]),
    (34, [.disconnected samplePeer 0x16]), (52, sampleConnect), (60, sampleService),
    (62, sampleCharacteristic), (64, [.cccAnswer 0])]

/-- A build of some version. -/
def sampleBuild : Build := ⟨1, [], []⟩

/-- A hello and its answer. -/
def greetingTurn : Turn := ⟨⟨.hello ⟨1, 0⟩, passingAnswers⟩, 1⟩

/-- Both steps pass, the second one with the peer's one service, and the window is open. -/
def leftOpenTurn : Turn where
  inbound := ⟨.studyStart leftOpenStudy, { passingAnswers with
    monitorWindowOpen := true
    outcome := fun index => { BridgeOutcome.bare .pass with
      gattServices := if index = 1 then
        some [⟨fromBtUuid (.uuid16 0x180d), .ofList [⟨fromBtUuid (.uuid16 0x2a37), 16⟩]⟩]
        else none
      securityLevel := some 0 } }⟩
  rounds := 1

/-- The window that a study left open is closed. -/
theorem nothing_left_open_window : ∃ x : WholeBench,
    play (WholeBench.next sampleBuild leavingPeer) (fun _ _ => True) .boot
      [greetingTurn, leftOpenTurn] = some x ∧
    (x.bridge.monitor.windowOpen = false ∧ x.bridge.exchange.handleCache.valid = false ∧
      x.bridge.exchange.subscribed = false ∧ x.bridge.protocol.subscribed = [] ∧
      ((∀ m ∈ x.bridge.log, m.Orderly) → x.bridge.armed = [])) := by
  have hplay : (play (WholeBench.next sampleBuild leavingPeer) (fun _ _ => True) .boot
      [greetingTurn, leftOpenTurn]).isSome = true := by
    decide +kernel
  obtain ⟨x, hx⟩ := Option.isSome_iff_exists.mp hplay
  exact ⟨x, hx, nothing_left_open (reaches_of_play .start hx)⟩

/-! ## Behind a greeting -/

/-- The queue is not the bridge's: both benches see as much of it. -/
theorem needs_drainQueue {c : Scope} {A : Set Aspect} (rounds : Nat) :
    (twins c).Needs A (drainQueue rounds) := by
  refine needs_rounds (fun _ => ?_) rounds ()
  refine Settles.then (needs_of_inStep fun _ _ => inStep_queued) fun used => ?_
  exact settles_ite (fun _ => Settles.then needs_idle fun _ => needs_pure _) fun _ => needs_pure _

/-- What the thread asks needs nothing of the state, with two benches that rest alike. -/
theorem needs_part {c : Scope} {A : Set Aspect} (hc : ∀ r, c.holds r) (hread : ¬ c.unread)
    (rounds : Nat) (act : Bench.Act) : (twins c).Needs A (part rounds act) := by
  cases act with
  | bridgeReset => exact needs_bleBridgeReset.then fun _ => needs_pure []
  | execute index action timeoutMs =>
    exact (needs_bleBridgeExecute hc action (fun h => absurd h hread) timeoutMs rounds).then
      fun o => needs_pure _
  | closeWindow =>
    refine settles_get (fun _ h => by rw [h.windowOpen]) fun s => ?_
    exact (needs_bleBridgeExecute hc .gattMonitorStop (fun h => absurd h hread) 1000 rounds).then
      fun _ => needs_pure _
  | drain =>
    refine settles_get (fun _ h => by rw [h.windowOpen]) fun s => ?_
    exact (needs_drainQueue rounds).then fun _ => needs_pure _
  | clearBonds => exact needs_bleBridgeClearBonds.then fun _ => needs_pure []
  | send | setLevel | setSink | resetTranscriptDropped | loadTaps | setTapOpen | stampStep
  | sleep => exact needs_pure []

/-- Nor does a list of such things. -/
theorem needs_serve {c : Scope} {A : Set Aspect} (hc : ∀ r, c.holds r) (hread : ¬ c.unread)
    (rounds : Nat) (acts : List Bench.Act) : (twins c).Needs A (serve rounds acts) := by
  induction acts with
  | nil => exact needs_pure []
  | cons act acts ih =>
    exact Settles.then needs_idle fun _ => (needs_part hc hread rounds act).then fun learned =>
      ih.then fun rest => needs_pure _

/-- Two benches, each in front of its own host, are alike. -/
def WholeBench.Alike (c : Scope) (host host' : Host) (x y : WholeBench) : Prop :=
  Bridge.Alike c ∅ host x.bridge host' y.bridge ∧ x.awaitingStudy = y.awaitingStudy

/-- Alike benches take the same turns. -/
theorem next_rel {c : Scope} {host' : Host} (hc : ∀ r, c.holds r) (hread : ¬ c.unread)
    {x y : WholeBench} (t : Turn) (h : x.Alike c host host' y) :
    Option.Rel (WholeBench.Alike c host host') (x.next build host t) (y.next build host' t) := by
  obtain ⟨halike, hawaiting⟩ := h
  obtain ⟨htold, hends⟩ := (needs_serve (A := ∅) hc hread t.rounds
    (handle build x.awaitingStudy t.inbound).log).inStep subset_rfl _ _ _ _ halike
  simp only [WholeBench.next]
  rw [← hawaiting, ← htold]
  split
  · exact .some ⟨hends, rfl⟩
  · exact .none

/-- What the bridge has logged, but for the names peers have advertised. -/
def WholeBench.logged (x : WholeBench) : List Mark := x.bridge.log.map Mark.unnamed

/-- Behind a greeting that leaves neither a connection nor a scan, whatever was run before it,
the bench can be answered whatever comes next exactly as one whose bridge was just booted and
that waits for a study as the greeting has it, but for the reason of the last lost link, which
stays; its bridge then does the same in the same order, as long as the host goes on the same. -/
theorem greeted_as_booted (h : Reaches (WholeBench.next build host) (fun _ _ => True) .boot x)
    {hello : Hello} {answers : Answers} {rounds : Nat}
    (hgreeted : x.next build host ⟨⟨.hello hello, answers⟩, rounds⟩ = some x')
    (hdisengaged : x'.bridge.Disengaged) (turns : List Turn) :
    (play (WholeBench.next build host) (fun _ _ => True) x' turns).map WholeBench.logged =
      (play (WholeBench.next build (host.ahead x'.bridge.turn)) (fun _ _ => True)
        ⟨.booted x'.bridge.link.linkLostReason, x'.awaitingStudy⟩ turns).map
          fun y => y.logged ++ x'.logged := by
  obtain ⟨hfits, hends⟩ := WholeBench.next_eq_some.mp hgreeted
  have hbare : x'.bridge.Between ∧ x'.bridge.rest.Bare := by
    have hserved : Served answers rounds BridgeState.Between
        (handle build x.awaitingStudy ⟨.hello hello, answers⟩).log
        fun s => s.Between ∧ s.rest.Bare := served_handleHello build hello
    have hbetween := between_of_reaches (reached_and_vacated h).1
    rw [← hends]
    exact hserved host x.bridge hbetween hfits
  obtain ⟨c, hc, hread, hbefore, hbefore', halike⟩ : ∃ c : Scope, (∀ r, c.holds r) ∧ ¬ c.unread ∧
      c.before = x'.logged ∧ c.before' = [] ∧
      WholeBench.Alike c host (host.ahead x'.bridge.turn) x'
        ⟨.booted x'.bridge.link.linkLostReason, x'.awaitingStudy⟩ :=
    ⟨_, fun _ => trivial, id, rfl, rfl, alike_booted host hbare.1 hbare.2 hdisengaged, rfl⟩
  refine map_eq_of_rel (play_rel (fun _ _ t => next_rel hc hread t) halike turns) fun y y' hy => ?_
  obtain ⟨marks, hold, hnew⟩ := hy.1.log
  rw [WholeBench.logged, WholeBench.logged, hold, hnew, hbefore, hbefore', List.append_nil]

/-- Greeted again, the bench can run the same study once more with the same answers. -/
theorem greeted_as_booted_again : ∃ x x' : WholeBench,
    play (WholeBench.next sampleBuild leavingPeer) (fun _ _ => True) .boot
      [greetingTurn, leftOpenTurn] = some x ∧
    x.next sampleBuild leavingPeer greetingTurn = some x' ∧
    (play (WholeBench.next sampleBuild leavingPeer) (fun _ _ => True) x'
      [leftOpenTurn]).isSome = true ∧
    (play (WholeBench.next sampleBuild leavingPeer) (fun _ _ => True) x'
        [leftOpenTurn]).map WholeBench.logged =
      (play (WholeBench.next sampleBuild (leavingPeer.ahead x'.bridge.turn)) (fun _ _ => True)
        ⟨.booted x'.bridge.link.linkLostReason, x'.awaitingStudy⟩ [leftOpenTurn]).map
          fun y => y.logged ++ x'.logged := by
  have hplay : ((play (WholeBench.next sampleBuild leavingPeer) (fun _ _ => True) .boot
      [greetingTurn, leftOpenTurn]).any fun x =>
        (x.next sampleBuild leavingPeer greetingTurn).any fun x' =>
          decide ((x'.bridge.link.activeConn = none ∧ x'.bridge.link.pendingConn = none ∧
            x'.bridge.scanning = false) ∧
          (play (WholeBench.next sampleBuild leavingPeer) (fun _ _ => True) x'
            [leftOpenTurn]).isSome = true)) = true := by
    decide +kernel
  obtain ⟨x, hx, hgreeted⟩ := (Option.any_eq_true _ _).mp hplay
  obtain ⟨x', hx', hends⟩ := (Option.any_eq_true _ _).mp hgreeted
  obtain ⟨hdisengaged, hagain⟩ := of_decide_eq_true hends
  exact ⟨x, x', hx, hx', hagain, greeted_as_booted (reaches_of_play .start hx) hx' hdisengaged _⟩

end

end DevBench.Bridge
