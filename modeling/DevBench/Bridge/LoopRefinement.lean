import DevBench.Bridge.ProtocolRounds
import DevBench.Bridge.Deadlines

/-!
# The host program and the clocked loop

The loop of `execute_run_protocol` stands twice in the model: as part of the bridge's program,
where the host says what time it is and what comes while the program waits, and with a clock
of its own, where time is one of the moves. Every run of the program in which the kernel waits
as long as it is told to is one of the clocked loop, with the same end.
-/

namespace DevBench.Bridge

open DevBench.Core DevBench.Core.Program DevBench.Eap DevBench.Bench DevBench.Wire

/-! ## Moves of the clocked loop -/

namespace Loop

variable {deadline due : Nat} {l : Loop}

/-- The machine is done, and so is the loop. -/
theorem proceed_done {finalState : List UInt8} {verdict : RunOutcome} (hphase : l.phase = .top)
    (hstep : l.step = .done finalState verdict) : l.proceed deadline = some { l with
      phase := .finished (protocolOutcomeInto (outcomeOf verdict) finalState verdict) } := by
  simp only [proceed, hphase, hstep]

/-- It goes to wait. -/
theorem proceed_wait {deadlineMs : Option UInt32} (hphase : l.phase = .top)
    (hstep : l.step = .wait deadlineMs) :
    l.proceed deadline = some { l with phase := .arming } := by
  simp only [proceed, hphase, hstep]

/-- It writes. -/
theorem proceed_write {source : UInt8} {withResponse : Bool} {payload : List UInt8}
    {deadlineMs : Option UInt32} (hphase : l.phase = .top)
    (hstep : l.step = .write source withResponse payload deadlineMs) :
    l.proceed deadline = some { l with phase := .writing } := by
  simp only [proceed, hphase, hstep]

/-- The write it is in comes to its end. -/
theorem advance_writeEnds {source : UInt8} {withResponse : Bool} {payload : List UInt8}
    {deadlineMs : Option UInt32} (hphase : l.phase = .writing)
    (hstep : l.step = .write source withResponse payload deadlineMs) (link : WriteResult) :
    l.advance deadline (.writeEnds link) = l.writeEnds deadline source withResponse link := by
  simp only [advance, hphase, hstep]

/-- It turns the deadline of the state into an instant. -/
theorem proceed_arm (hphase : l.phase = .arming) : l.proceed deadline =
    some { l with phase := .waiting (protocolStateDeadline l.step l.clock deadline) } := by
  simp only [proceed, hphase]

/-- It takes a note. -/
theorem proceed_take {note : Note} {queue : List Note} (hphase : l.phase = .waiting due)
    (hqueue : l.queue = note :: queue) : l.proceed deadline =
      some ({ l with queue := queue }.onEvent (.notify note.source note.payload.items)) := by
  simp only [proceed, hphase, hqueue]

/-- It gives the wait up. -/
theorem proceed_giveUp (hphase : l.phase = .waiting due) (hqueue : l.queue = [])
    (hdue : due ≤ l.clock) : l.proceed deadline = some { l with phase := .expired } := by
  simp only [proceed, hphase, hqueue, if_pos hdue]

/-- It tells a timeout from the step's deadline. -/
theorem proceed_expired (hphase : l.phase = .expired) : l.proceed deadline =
    some (if deadline ≤ l.clock then l.abandon else l.onEvent .timeout) := by
  simp only [proceed, hphase]

end Loop

/-! ## What the kernel promises -/

section

variable (host : Host) (defn : ProtocolDef) (deadline : Nat)

/-- A `k_msgq_get` that found nothing lasted until the instant it was given. -/
def WaitsOut (step : EapStep) (s : BridgeState) : Prop :=
  (takeNote host s).1 = none →
    protocolStateDeadline step (host.uptime s.turn) deadline ≤
      host.uptime (takeNote host s).2.turn

/-- So does a round, and a response is missed only when the step's deadline is over. -/
def RoundWaitsOut (x : EapRun × EapStep) (s : BridgeState) : Prop :=
  match x.2 with
  | .done .. => True
  | .wait _ => WaitsOut host deadline x.2 s
  | .write source withResponse payload _ =>
    let written := protocolWriteOut defn source withResponse payload host s
    (written.1.kind = .timedOut → deadline ≤ host.uptime written.2.turn) ∧
      (written.1.kind = .pass → WaitsOut host deadline x.2 written.2)

end

/-! ## Side by side -/

variable {host : Host} {deadline before : Nat} {first : Loop}

/-- The clocked loop comes from `first` and has the program's notes, has dropped as many since,
and its clock is not ahead. -/
structure Shows (host : Host) (deadline : Nat) (first : Loop) (before : Nat) (l : Loop)
    (s : BridgeState) : Prop where
  reached : Reaches (Loop.advance deadline) (fun _ _ => True) first l
  queue : l.queue = s.protocol.queue
  dropped : before + l.notificationsDropped = s.protocol.notificationsDropped
  clock : l.clock ≤ host.uptime s.turn

/-- It has come to a phase with a machine and its step. -/
def Abreast (host : Host) (deadline : Nat) (first : Loop) (before : Nat) (x : EapRun × EapStep)
    (phase : Phase) (s : BridgeState) : Prop :=
  ∃ l, Shows host deadline first before l s ∧ l.run = x.1 ∧ l.step = x.2 ∧ l.phase = phase

/-- It has come to its end, which is that of the program. -/
def Concluded (host : Host) (deadline : Nat) (first : Loop) (before : Nat) (o : BridgeOutcome)
    (s : BridgeState) : Prop :=
  ∃ l result, Shows host deadline first before l s ∧ l.phase = .finished result ∧
    result.kind = o.kind ∧ result.protocol = o.protocol

namespace Shows

variable {l l' : Loop} {s s' : BridgeState}

/-- The program has moved where the loop does not look. -/
theorem same (h : Shows host deadline first before l s) (hturn : s'.turn = s.turn)
    (hqueue : s'.protocol.queue = s.protocol.queue)
    (hdropped : s'.protocol.notificationsDropped = s.protocol.notificationsDropped) :
    Shows host deadline first before l s' :=
  ⟨h.reached, h.queue.trans hqueue.symm, h.dropped.trans hdropped.symm, hturn ▸ h.clock⟩

/-- The clock is put to the time it is. -/
theorem catchUp (h : Shows host deadline first before l s) :
    Shows host deadline first before { l with clock := host.uptime s.turn } s := by
  refine ⟨h.reached.move (m := .tick (host.uptime s.turn - l.clock)) trivial ?_, h.queue,
    h.dropped, Nat.le_refl _⟩
  rw [Loop.advance, Nat.add_sub_cancel' h.clock]

/-- The loop goes on, and leaves notes and clock alone. -/
theorem proceed (h : Shows host deadline first before l s)
    (hmove : l.proceed deadline = some l') (hqueue : l'.queue = l.queue)
    (hdropped : l'.notificationsDropped = l.notificationsDropped) (hclock : l'.clock = l.clock) :
    Shows host deadline first before l' s :=
  ⟨h.reached.move (m := .proceed) trivial hmove, hqueue.trans h.queue,
    hdropped ▸ h.dropped, hclock ▸ h.clock⟩

/-- A note arrives at both. -/
theorem arrive (h : Shows host deadline first before l s) (note : Note) :
    ∃ l', Shows host deadline first before l' (s.arrive note) ∧ l'.run = l.run ∧
      l'.step = l.step ∧ l'.phase = l.phase := by
  by_cases hroom : s.protocol.queue.length < protocolNotifyQueueSlots
  · rw [BridgeState.arrive_queued note hroom]
    refine ⟨{ l with queue := l.queue ++ [note] }, ⟨h.reached.move (m := .arrive note) trivial ?_,
      congrArg (· ++ [note]) h.queue, h.dropped, h.clock⟩, rfl, rfl, rfl⟩
    rw [Loop.advance, h.queue, if_pos hroom]
  · rw [BridgeState.arrive_dropped note hroom]
    refine ⟨{ l with notificationsDropped := l.notificationsDropped + 1 },
      ⟨h.reached.move (m := .arrive note) trivial ?_, h.queue, congrArg (· + 1) h.dropped,
        h.clock⟩, rfl, rfl, rfl⟩
    rw [Loop.advance, h.queue, if_neg hroom]

end Shows

/-- Turns and arrivals keep the two abreast. -/
theorem ofNotes_abreast (htime : Monotone host.uptime) (x : EapRun × EapStep) (phase : Phase) :
    OfNotes (Abreast host deadline first before x phase) where
  same := by
    rintro s s' ⟨l, h, hx⟩ hturn hqueue hdropped
    exact ⟨l, h.same hturn hqueue hdropped, hx⟩
  turn := by
    rintro s ⟨l, h, hx⟩
    exact ⟨l, ⟨h.reached, h.queue, h.dropped, h.clock.trans (htime (Nat.le_succ _))⟩, hx⟩
  arrived := by
    rintro s note ⟨l, h, hrun, hstep, hphase⟩
    obtain ⟨l', h', hrun', hstep', hphase'⟩ := h.arrive note
    exact ⟨l', h', hrun'.trans hrun, hstep'.trans hstep, hphase'.trans hphase⟩

/-! ## Waiting -/

/-- What `takeNote` finds, behind what happens while it waits. -/
theorem takeNote_cases (host : Host) (s : BridgeState) :
    ∃ s', (happenings (host.during s.turn) host { s with turn := s.turn + 1 }).2 = s' ∧
      ((s'.protocol.queue = [] ∧ takeNote host s = (none, s')) ∨
        ∃ note queue, s'.protocol.queue = note :: queue ∧
          takeNote host s = (some note, { s' with protocol.queue := queue })) := by
  refine ⟨_, rfl, ?_⟩
  generalize hbehind : (happenings (host.during s.turn) host { s with turn := s.turn + 1 }).2 = s'
  have hevents : during host s = (host.during s.turn, { s with turn := s.turn + 1 }) := rfl
  cases hqueue : s'.protocol.queue with
  | nil =>
    refine .inl ⟨rfl, ?_⟩
    simp only [takeNote, bind_apply, Program.get, hevents, hbehind, hqueue]
    rfl
  | cons note queue =>
    refine .inr ⟨note, queue, rfl, ?_⟩
    simp only [takeNote, bind_apply, Program.get, hevents, hbehind, hqueue]
    rfl

/-- Behind the wait the loop has fed its machine the note, or found nothing. -/
theorem abreast_takeNote (htime : Monotone host.uptime) {x : EapRun × EapStep}
    {s : BridgeState} (h : Abreast host deadline first before x .arming s)
    (hkept : WaitsOut host deadline x.2 s) :
    ∀ arrived s', takeNote host s = (arrived, s') →
      match arrived with
      | none => Abreast host deadline first before x .expired s'
      | some note => Abreast host deadline first before
          (eapRunOnEvent x.1 (.notify note.source note.payload.items)).value .top s' := by
  obtain ⟨l, hl, hrun, hstep, hphase⟩ := h
  let due := protocolStateDeadline x.2 (host.uptime s.turn) deadline
  have hwaiting : Abreast host deadline first before x (.waiting due) s := by
    refine ⟨_, hl.catchUp.proceed (Loop.proceed_arm hphase) rfl rfl rfl, hrun, hstep, ?_⟩
    rw [hstep]
  have hnotes : OfNotes (Abreast host deadline first before x (.waiting due)) :=
    ofNotes_abreast htime x _
  have hhappened := hnotes.keptByHost.happenings (host.during s.turn) host _ (hnotes.turn hwaiting)
  obtain ⟨s₁, hbehind, hfound⟩ := takeNote_cases host s
  rw [hbehind] at hhappened
  obtain ⟨l', hl', hrun', hstep', hphase'⟩ := hhappened
  intro arrived s' htaken
  rcases hfound with ⟨hempty, htake⟩ | ⟨note, queue, hnote, htake⟩
  · obtain ⟨rfl, rfl⟩ := Prod.mk.inj (htake.symm.trans htaken)
    have hdue := hkept (congrArg Prod.fst htake)
    rw [htake] at hdue
    exact ⟨_, hl'.catchUp.proceed (Loop.proceed_giveUp hphase' (hl'.queue.trans hempty) hdue)
      rfl rfl rfl, hrun', hstep', rfl⟩
  · obtain ⟨rfl, rfl⟩ := Prod.mk.inj (htake.symm.trans htaken)
    have hmove := @Loop.proceed_take deadline _ _ _ _ hphase' (hl'.queue.trans hnote)
    have hreached : Reaches (Loop.advance deadline) _ first _ :=
      hl'.reached.move (m := .proceed) trivial hmove
    refine ⟨_, ⟨hreached, rfl, hl'.dropped, hl'.clock⟩, ?_, ?_, rfl⟩
    · exact congrArg (fun run => (eapRunOnEvent run _).value.1) hrun'
    · exact congrArg (fun run => (eapRunOnEvent run _).value.2) hrun'

/-- The next round begins abreast, with a machine of the same protocol. -/
def AtTopWith (host : Host) (defn : ProtocolDef) (deadline : Nat) (first : Loop) (before : Nat)
    (x : EapRun × EapStep) (s : BridgeState) : Prop :=
  Abreast host deadline first before x .top s ∧ x.1.defn = defn

/-- Where nothing came the clock decides between a timeout and the end. -/
theorem feed_none (defn : ProtocolDef) (deadline : Nat) (run : EapRun) (host : Host)
    (s : BridgeState) : feed defn deadline run none host s =
      (if deadline ≤ host.uptime s.turn then (eapRunAbandon run).value
        else (eapRunOnEvent run .timeout).value, s) := by
  have hfeed : feed defn deadline run none host s =
      (if deadline ≤ host.uptime s.turn then pure (eapRunAbandon run).value
        else pure (eapRunOnEvent run .timeout).value : Act (EapRun × EapStep)) host s := rfl
  rw [hfeed]
  split
  · rfl
  · rfl

/-- Behind the wait the machine is fed what came, or its timeout, or is given up. -/
theorem atTopWith_nextStep (htime : Monotone host.uptime) {defn : ProtocolDef}
    {x : EapRun × EapStep} {s : BridgeState} (h : Abreast host deadline first before x .arming s)
    (hdefn : x.1.defn = defn) (hkept : WaitsOut host deadline x.2 s) :
    AtTopWith host defn deadline first before (nextStep defn deadline x.1 host s).1
      (nextStep defn deadline x.1 host s).2 := by
  have hfound := abreast_takeNote htime h hkept
  rcases htake : takeNote host s with ⟨arrived, s'⟩
  specialize hfound arrived s' htake
  have hfed : AtTopWith host defn deadline first before (feed defn deadline x.1 arrived host s').1
      (feed defn deadline x.1 arrived host s').2 := by
    cases arrived with
    | some note =>
      exact ⟨(ofNotes_abreast htime _ _).same hfound rfl rfl rfl,
        (defn_eapRunOnEvent x.1 _).trans hdefn⟩
    | none =>
      obtain ⟨l, hl, hrun, hstep, hphase⟩ := hfound
      have hmove := @Loop.proceed_expired deadline { l with clock := host.uptime s'.turn } hphase
      rw [feed_none]
      by_cases hlate : deadline ≤ host.uptime s'.turn
      · rw [if_pos hlate] at hmove ⊢
        exact ⟨⟨_, hl.catchUp.proceed hmove rfl rfl rfl,
          congrArg (fun run => (eapRunAbandon run).value.1) hrun,
          congrArg (fun run => (eapRunAbandon run).value.2) hrun, rfl⟩, hdefn⟩
      · rw [if_neg hlate] at hmove ⊢
        exact ⟨⟨_, hl.catchUp.proceed hmove rfl rfl rfl,
          congrArg (fun run => (eapRunOnEvent run .timeout).value.1) hrun,
          congrArg (fun run => (eapRunOnEvent run .timeout).value.2) hrun, rfl⟩,
          (defn_eapRunOnEvent x.1 _).trans hdefn⟩
  rw [nextStep, bind_apply, htake]
  exact ⟨(ofNotes_abreast htime _ _).same hfed.1 rfl rfl rfl, hfed.2⟩

/-! ## Writing -/

/-- The outcome a result of a write stands for. -/
def WriteResult.kind : WriteResult → OutcomeKind
  | pass => .pass
  | fail reason => .fail (.copy reason)
  | timedOut => .timedOut

/-- A write ends as one on the link may, and times out only where a response is waited for. -/
theorem triple_protocolWriteOut_result (defn : ProtocolDef) (source : UInt8)
    (withResponse : Bool) (payload : List UInt8) :
    Triple (fun _ => True) (protocolWriteOut defn source withResponse payload) fun o _ =>
      ∃ link, o.kind = (protocolWrite defn source link).kind ∧
        (protocolWrite defn source link = .timedOut → withResponse = true) := by
  refine triple_ite (fun hsource => ?_) fun hsource => ?_
  · refine triple_pure fun _ _ => ⟨.pass, ?_, ?_⟩
    · rw [protocolWrite, if_pos hsource]
      rfl
    · rw [protocolWrite, if_pos hsource]
      exact fun h => absurd h (by simp)
  · have hlink (link : WriteResult) : protocolWrite defn source link = link := if_neg hsource
    simp only [hlink]
    have hfails (text : String) {pre : BridgeState → Prop} :
        Triple pre (pure (outcomeFail text) : Act BridgeOutcome) fun o _ =>
          ∃ link : WriteResult, o.kind = link.kind ∧ (link = .timedOut → withResponse = true) :=
      triple_pure fun _ _ => ⟨.fail text.toUTF8.toList, rfl, fun h => absurd h (by simp)⟩
    have hpasses {pre : BridgeState → Prop} : Triple pre outcomePass fun o _ =>
        ∃ link : WriteResult, o.kind = link.kind ∧ (link = .timedOut → withResponse = true) :=
      fun _ _ _ => ⟨.pass, rfl, fun h => absurd h (by simp)⟩
    refine triple_any.bind fun _ => triple_get fun s => ?_
    refine triple_ite (fun _ => ?_) fun hresponse => ?_
    · exact triple_any.bind fun err => triple_ite (fun _ => hfails _) fun _ => hpasses
    · have htimedOut {pre : BridgeState → Prop} :
          Triple pre (pure outcomeTimedOut : Act BridgeOutcome) fun o _ =>
            ∃ link : WriteResult, o.kind = link.kind ∧ (link = .timedOut → withResponse = true) :=
        triple_pure fun _ _ => ⟨.timedOut, rfl, fun _ => by simpa using hresponse⟩
      refine triple_any.bind fun _ => triple_any.bind fun _ => triple_any.bind fun err => ?_
      refine triple_ite (fun _ => hfails _) fun _ => triple_get fun s => ?_
      refine triple_any.bind fun taken => triple_get fun s => triple_ite (fun _ => ?_) fun _ => ?_
      · exact triple_any.bind fun _ => htimedOut
      refine triple_ite (fun _ => ?_) fun _ => triple_ite (fun _ => hfails _) fun _ => hpasses
      exact fun _ _ _ => ⟨.fail _, rfl, fun h => absurd h (by simp)⟩

/-- Behind a write the loop goes on to wait, or has come to its end with the write's. -/
theorem abreast_written (htime : Monotone host.uptime) {defn : ProtocolDef} {run : EapRun}
    {source : UInt8} {withResponse : Bool} {payload : List UInt8} {deadlineMs : Option UInt32}
    {s s' : BridgeState} {o : BridgeOutcome} (hdefn : run.defn = defn)
    (h : Abreast host deadline first before (run, .write source withResponse payload deadlineMs)
      .writing s)
    (hwritten : protocolWriteOut defn source withResponse payload host s = (o, s'))
    (hlate : o.kind = .timedOut → deadline ≤ host.uptime s'.turn) :
    (o.kind = .pass ∧ Abreast host deadline first before
        (run, .write source withResponse payload deadlineMs) .arming s') ∨
      (o.kind ≠ .pass ∧
        Concluded host deadline first before (writeFailedOutcome run o) s') := by
  have hkept := (ofNotes_abreast htime _ _).protocolWriteOut defn source withResponse payload
    host s h
  obtain ⟨link, hkind, hresponse⟩ :=
    triple_protocolWriteOut_result defn source withResponse payload host s trivial
  rw [hwritten] at hkept hkind
  obtain ⟨l, hl, hrun, hstep, hphase⟩ := hkept
  have hmove := @Loop.advance_writeEnds deadline { l with clock := host.uptime s'.turn } _ _ _ _
    hphase hstep link
  have hends : protocolWrite l.run.defn source link = protocolWrite defn source link := by
    rw [hrun, hdefn]
  rw [Loop.writeEnds, hends] at hmove
  have hconcluded (kind : OutcomeKind) (hkind : o.kind = kind)
      (hmove : Loop.advance deadline { l with clock := host.uptime s'.turn } (.writeEnds link) =
        some ({ l with clock := host.uptime s'.turn }.failWrite kind)) :
      Concluded host deadline first before (writeFailedOutcome run o) s' := by
    refine ⟨_, _, ⟨hl.catchUp.reached.move trivial hmove, hl.queue, hl.dropped, Nat.le_refl _⟩,
      rfl, hkind.symm, ?_⟩
    change (protocolOutcomeInto kind l.run.currentState.value.name.str (.fail [])).protocol = _
    rw [hrun]
    rfl
  cases hresult : protocolWrite defn source link with
  | pass =>
    rw [hresult] at hmove hkind
    exact .inl ⟨hkind, _, ⟨hl.catchUp.reached.move trivial hmove, hl.queue, hl.dropped,
      Nat.le_refl _⟩, hrun, hstep, rfl⟩
  | fail reason =>
    rw [hresult] at hmove hkind
    exact .inr ⟨fun hpass => absurd (hkind.symm.trans hpass) (by simp [WriteResult.kind]),
      hconcluded _ hkind hmove⟩
  | timedOut =>
    have hwaited : deadline ≤ host.uptime s'.turn ∧ withResponse = true := by
      rw [hresult] at hkind
      exact ⟨hlate hkind, hresponse hresult⟩
    rw [hresult] at hmove hkind
    exact .inr ⟨fun hpass => absurd (hkind.symm.trans hpass) (by simp [WriteResult.kind]),
      hconcluded _ hkind (hmove.trans (if_pos hwaited))⟩

/-! ## The loop -/

/-- A machine that is done gives its verdict. -/
theorem doneOutcome_spec (finalState : List UInt8) (verdict : RunOutcome) (host : Host)
    (s : BridgeState) :
    (doneOutcome finalState verdict host s).1.kind = outcomeOf verdict ∧
      (doneOutcome finalState verdict host s).1.protocol =
        (protocolOutcomeInto (outcomeOf verdict) finalState verdict).protocol ∧
      (doneOutcome finalState verdict host s).2 = s := by
  cases verdict with
  | pass => exact ⟨rfl, rfl, rfl⟩
  | fail reason => exact ⟨rfl, rfl, rfl⟩
  | timedOut => exact ⟨rfl, rfl, rfl⟩

/-- What a round comes to behind its write. -/
theorem protocolRound_write {defn : ProtocolDef} {run : EapRun} {source : UInt8}
    {withResponse : Bool} {payload : List UInt8} {deadlineMs : Option UInt32}
    {s s' : BridgeState} {o : BridgeOutcome}
    (hwritten : protocolWriteOut defn source withResponse payload host s = (o, s')) :
    protocolRound defn deadline (run, .write source withResponse payload deadlineMs) host s =
      if o.kind ≠ .pass then (.inl (writeFailedOutcome run o), s')
      else
        (.inr (nextStep defn deadline run host s').1, (nextStep defn deadline run host s').2) := by
  simp only [protocolRound, bind_apply, hwritten]
  split
  · rfl
  · rfl

/-- A round that the clocked loop is abreast of at its start it is abreast of at its end. -/
theorem leads_protocolRound_abreast (htime : Monotone host.uptime) (defn : ProtocolDef)
    (x : EapRun × EapStep) :
    Leads host (fun s => AtTopWith host defn deadline first before x s ∧
        RoundWaitsOut host defn deadline x s) (protocolRound defn deadline x)
      (Sum.elim (Concluded host deadline first before)
        (AtTopWith host defn deadline first before)) := by
  rintro s ⟨⟨⟨l, hl, hrun, hstep, hphase⟩, hdefn⟩, hkept⟩
  obtain ⟨run, step⟩ := x
  cases step with
  | done finalState verdict =>
    obtain ⟨hkind, hprotocol, hsame⟩ := doneOutcome_spec finalState verdict host s
    change Concluded host deadline first before (doneOutcome finalState verdict host s).1
      (doneOutcome finalState verdict host s).2
    rw [hsame]
    exact ⟨_, _, hl.proceed (Loop.proceed_done hphase hstep) rfl rfl rfl, rfl, hkind.symm,
      hprotocol.symm⟩
  | wait deadlineMs =>
    exact atTopWith_nextStep htime
      ⟨_, hl.proceed (Loop.proceed_wait hphase hstep) rfl rfl rfl, hrun, hstep, rfl⟩ hdefn hkept
  | write source withResponse payload deadlineMs =>
    have hwriting : Abreast host deadline first before
        (run, .write source withResponse payload deadlineMs) .writing s :=
      ⟨_, hl.proceed (Loop.proceed_write hphase hstep) rfl rfl rfl, hrun, hstep, rfl⟩
    rcases hwritten : protocolWriteOut defn source withResponse payload host s with ⟨o, s'⟩
    simp only [RoundWaitsOut, hwritten] at hkept
    rw [protocolRound_write hwritten]
    rcases abreast_written htime hdefn hwriting hwritten hkept.1 with ⟨hpass, h⟩ | ⟨hfailed, h⟩
    · rw [if_neg (not_not_intro hpass)]
      have hwaits := hkept.2 hpass
      have hnext := atTopWith_nextStep htime h hdefn hwaits
      exact hnext
    · rw [if_pos hfailed]
      exact h

/-- The clocked loop starts with what the program has. -/
theorem shows_start {defn : ProtocolDef} {entryState : UInt8} {s : BridgeState}
    (hstart : Loop.start defn entryState (host.uptime s.turn) s.protocol.queue = some first) :
    Shows host deadline first s.protocol.notificationsDropped first s ∧ first.phase = .top ∧
      first.run.defn = defn := by
  obtain ⟨run, hrun, rfl⟩ := Option.map_eq_some_iff.mp hstart
  obtain ⟨-, hrun⟩ := Option.ite_none_left_eq_some.mp hrun
  obtain rfl := Option.some.inj hrun
  exact ⟨⟨.start, rfl, rfl, Nat.le_refl _⟩, rfl, (onEntered_spec _).1⟩

/-- Where the kernel waits as long as it is told to, the loop of the program that has come to an
outcome has gone the way of the clocked one, started with the same notes at the same time: it
ends with the same kind of outcome, the same report on the protocol and the same notes, and has
dropped as many. -/
theorem reaches_of_protocolLoop (htime : Monotone host.uptime) {defn : ProtocolDef}
    {entryState : UInt8} {s s' : BridgeState} {rounds : Nat} {result : BridgeOutcome}
    (hstart : Loop.start defn entryState (host.uptime s.turn) s.protocol.queue = some first)
    (hkept : EachRound (protocolRound defn deadline) host (RoundWaitsOut host defn deadline) rounds
      (first.run, first.step) s)
    (h : protocolLoop defn deadline rounds first.run first.step host s = (some result, s')) :
    ∃ l last, Reaches (Loop.advance deadline) (fun _ _ => True) first l ∧
      l.phase = .finished last ∧ last.kind = result.kind ∧ last.protocol = result.protocol ∧
      l.queue = s'.protocol.queue ∧ s.protocol.notificationsDropped + l.notificationsDropped =
        s'.protocol.notificationsDropped ∧ l.clock ≤ host.uptime s'.turn := by
  obtain ⟨hl, hphase, hdefn⟩ : Shows host deadline first _ first s ∧ _ := shows_start hstart
  rw [protocolLoop_eq] at h
  obtain ⟨l, last, hl, hphase, hkind, hprotocol⟩ :=
    rounds_induction (leads_protocolRound_abreast htime defn) hkept
      ⟨⟨first, hl, rfl, rfl, hphase⟩, hdefn⟩ h
  exact ⟨l, last, hl.reached, hphase, hkind, hprotocol, hl.queue, hl.dropped, hl.clock⟩

end DevBench.Bridge
