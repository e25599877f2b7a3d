import DevBench.Bench.Bridge

/-!
# Running a protocol against the clock

The loop of `execute_run_protocol` (`ble_bridge_real.c`) behind the subscriptions: the
interpreter's instructions are carried out one after the other while the clock goes on
and notifications arrive in the bridge's own queue. Time is a move here; the bridge's program
has the same loop with a host that says what time it is (`protocolLoop`), and goes the way of
this one (`reaches_of_protocolLoop`).
-/

namespace DevBench.Bridge

open DevBench.Core DevBench.Eap DevBench.Bench DevBench.Wire

/-- `BLE_MAX_TRANSCRIPT_PAYLOAD_LEN`. -/
abbrev bleMaxTranscriptPayloadLen : Nat := 244

/-- `PROTOCOL_NOTIFY_QUEUE_SLOTS`. -/
abbrev protocolNotifyQueueSlots : Nat := 4

/-- `struct protocol_notification`. -/
structure Note where
  source : UInt8
  payload : Slots UInt8 bleMaxTranscriptPayloadLen
  deriving DecidableEq, Repr

/-- What becomes of a write on the link. -/
inductive WriteResult where
  | pass
  | fail (reason : List UInt8)
  /-- The response did not come before the step's deadline. -/
  | timedOut
  deriving DecidableEq, Repr

/-- A call of the interpreter from the loop. -/
inductive Call where
  | onEvent (ev : Event)
  | abandon
  deriving DecidableEq, Repr

/-- Where the loop is. -/
inductive Phase where
  /-- At the head of the loop. -/
  | top
  /-- In `protocol_write`. -/
  | writing
  /-- About to turn the deadline of the state into an instant. -/
  | arming
  /-- In `k_msgq_get` until an instant. -/
  | waiting (due : Nat)
  /-- Behind a `k_msgq_get` that found nothing. -/
  | expired
  | finished (result : BridgeOutcome)
  deriving DecidableEq, Repr

/-- The loop with the clock, in milliseconds, and the queue of arrived notifications.
The last two fields are not the program's: they record what happened when. -/
structure Loop where
  run : EapRun
  step : EapStep
  phase : Phase
  queue : List Note
  notificationsDropped : Nat
  clock : Nat
  /-- When the current state was last entered, or entered again. -/
  enteredAt : Nat
  /-- The last call of the interpreter from the loop, and when it was made. -/
  lastCall : Option (Call × Nat)
  deriving DecidableEq, Repr

/-- What can happen next. -/
inductive Move where
  | tick (ms : Nat)
  | arrive (note : Note)
  /-- The write under way comes to its end. -/
  | writeEnds (result : WriteResult)
  /-- The loop goes on. -/
  | proceed
  deriving DecidableEq, Repr

/-- `protocol_state_deadline`, called at an instant. -/
def protocolStateDeadline (step : EapStep) (clock stepDeadline : Nat) : Nat :=
  match step with
  | .write _ _ _ (some deadlineMs) | .wait (some deadlineMs) =>
    if clock + deadlineMs.toNat < stepDeadline then clock + deadlineMs.toNat else stepDeadline
  | _ => stepDeadline

/-- `protocol_write`: a source that does not exist fails it before anything is sent. -/
def protocolWrite (defn : ProtocolDef) (source : UInt8) (link : WriteResult) : WriteResult :=
  if source.toNat ≥ defn.sources.items.length then
    .fail s!"protocol write names source {source.toNat}, which does not exist".toUTF8.toList
  else link

/-- The step's outcome for a verdict of the interpreter. -/
def outcomeOf : RunOutcome → OutcomeKind
  | .pass => .pass
  | .fail reason => .fail (.copy reason)
  | .timedOut => .timedOut

/-- `protocol_outcome_into`, for a run that is over. -/
def protocolOutcomeInto (kind : OutcomeKind) (finalState : List UInt8) (verdict : RunOutcome) :
    BridgeOutcome :=
  { BridgeOutcome.bare kind with protocol := some ⟨.copy finalState, (outcomeOf verdict).reported⟩ }

/-- An event makes the machine enter a state: it takes a transition, or retries. -/
def reenters (run : EapRun) (ev : Event) : Bool :=
  (run.target ev).isSome ||
    match ev with
    | .notify .. => false
    | .timeout =>
      match run.currentState.value.kind with
      | .active _ _ (some _) => true
      | _ => false

namespace Loop

/-- The machine is given an event. -/
def onEvent (s : Loop) (ev : Event) : Loop :=
  { s with
    run := (eapRunOnEvent s.run ev).value.1
    step := (eapRunOnEvent s.run ev).value.2
    phase := .top
    enteredAt := if reenters s.run ev then s.clock else s.enteredAt
    lastCall := some (.onEvent ev, s.clock) }

/-- The machine is given up because the step's time is over. -/
def abandon (s : Loop) : Loop :=
  { s with
    run := (eapRunAbandon s.run).value.1
    step := (eapRunAbandon s.run).value.2
    phase := .top
    lastCall := some (.abandon, s.clock) }

/-- The machine is given up because a write failed; the step ends with that. The verdict
is a failure without a reason of its own. -/
def failWrite (s : Loop) (kind : OutcomeKind) : Loop :=
  { s.abandon with
    phase := .finished (protocolOutcomeInto kind s.run.currentState.value.name.str (.fail [])) }

variable (deadline : Nat)

/-- A write ends, in the state the machine was in. A response can only be missed when the
step's deadline is over, and only where one is expected. -/
def writeEnds (s : Loop) (source : UInt8) (withResponse : Bool) (link : WriteResult) :
    Option Loop :=
  match protocolWrite s.run.defn source link with
  | .pass => some { s with phase := .arming }
  | .fail reason => some (s.failWrite (.fail (.copy reason)))
  | .timedOut =>
    if deadline ≤ s.clock ∧ withResponse = true then some (s.failWrite .timedOut) else none

/-- The loop goes on by itself. -/
def proceed (s : Loop) : Option Loop :=
  match s.phase with
  | .top =>
    match s.step with
    | .done finalState verdict =>
      some { s with
        phase := .finished (protocolOutcomeInto (outcomeOf verdict) finalState verdict) }
    | .write .. => some { s with phase := .writing }
    | .wait _ => some { s with phase := .arming }
  | .arming => some { s with phase := .waiting (protocolStateDeadline s.step s.clock deadline) }
  | .waiting due =>
    match s.queue with
    | note :: queue =>
      some ({ s with queue := queue }.onEvent (.notify note.source note.payload.items))
    | [] => if due ≤ s.clock then some { s with phase := .expired } else none
  | .expired => some (if deadline ≤ s.clock then s.abandon else s.onEvent .timeout)
  | .writing => none
  | .finished _ => none

/-- One move: time passes, a notification arrives, a write ends or the loop goes on. -/
def advance (s : Loop) : Move → Option Loop
  | .tick ms => some { s with clock := s.clock + ms }
  | .arrive note =>
    if s.queue.length < protocolNotifyQueueSlots then some { s with queue := s.queue ++ [note] }
    else some { s with notificationsDropped := s.notificationsDropped + 1 }
  | .writeEnds link =>
    match s.phase with
    | .writing =>
      match s.step with
      | .write source withResponse _ _ => s.writeEnds deadline source withResponse link
      | _ => none
    | _ => none
  | .proceed => s.proceed deadline

/-- What a move can do: one case for each way the loop gets from a phase to another. -/
inductive Steps (s : Loop) : Move → Loop → Prop
  | tick (ms : Nat) : Steps s (.tick ms) { s with clock := s.clock + ms }
  | queue (note : Note) : Steps s (.arrive note) { s with queue := s.queue ++ [note] }
  | drop (note : Note) :
    Steps s (.arrive note) { s with notificationsDropped := s.notificationsDropped + 1 }
  | written {source : UInt8} {withResponse : Bool} {payload : List UInt8}
    {deadlineMs : Option UInt32} {link : WriteResult} (hphase : s.phase = .writing)
    (hstep : s.step = .write source withResponse payload deadlineMs)
    (hwrite : protocolWrite s.run.defn source link = .pass) :
    Steps s (.writeEnds link) { s with phase := .arming }
  | writeFailed {source : UInt8} {withResponse : Bool} {payload : List UInt8}
    {deadlineMs : Option UInt32} {link : WriteResult} {reason : List UInt8}
    (hphase : s.phase = .writing) (hstep : s.step = .write source withResponse payload deadlineMs)
    (hwrite : protocolWrite s.run.defn source link = .fail reason) :
    Steps s (.writeEnds link) (s.failWrite (.fail (.copy reason)))
  | writeTimedOut {source : UInt8} {withResponse : Bool} {payload : List UInt8}
    {deadlineMs : Option UInt32} {link : WriteResult} (hphase : s.phase = .writing)
    (hstep : s.step = .write source withResponse payload deadlineMs)
    (hwrite : protocolWrite s.run.defn source link = .timedOut) (hclock : deadline ≤ s.clock) :
    Steps s (.writeEnds link) (s.failWrite .timedOut)
  | finish {finalState : List UInt8} {verdict : RunOutcome} (hphase : s.phase = .top)
    (hstep : s.step = .done finalState verdict) :
    Steps s .proceed { s with
      phase := .finished (protocolOutcomeInto (outcomeOf verdict) finalState verdict) }
  | write {source : UInt8} {withResponse : Bool} {payload : List UInt8}
    {deadlineMs : Option UInt32} (hphase : s.phase = .top)
    (hstep : s.step = .write source withResponse payload deadlineMs) :
    Steps s .proceed { s with phase := .writing }
  | wait {deadlineMs : Option UInt32} (hphase : s.phase = .top)
    (hstep : s.step = .wait deadlineMs) :
    Steps s .proceed { s with phase := .arming }
  | arm (hphase : s.phase = .arming) :
    Steps s .proceed { s with phase := .waiting (protocolStateDeadline s.step s.clock deadline) }
  | take {due : Nat} {note : Note} {queue : List Note} (hphase : s.phase = .waiting due)
    (hqueue : s.queue = note :: queue) :
    Steps s .proceed ({ s with queue := queue }.onEvent (.notify note.source note.payload.items))
  | giveUp {due : Nat} (hphase : s.phase = .waiting due) (hqueue : s.queue = []) :
    Steps s .proceed { s with phase := .expired }
  | abandon (hphase : s.phase = .expired) (hclock : deadline ≤ s.clock) :
    Steps s .proceed s.abandon
  | timeout (hphase : s.phase = .expired) (hclock : s.clock < deadline) :
    Steps s .proceed (s.onEvent .timeout)

/-- A move does one of these. -/
theorem steps_of_advance {s s' : Loop} {m : Move} (h : s.advance deadline m = some s') :
    s.Steps deadline m s' := by
  cases m with
  | tick ms =>
    obtain rfl := Option.some.inj h
    exact .tick ms
  | arrive note =>
    rw [advance] at h
    split at h
    · obtain rfl := Option.some.inj h
      exact .queue note
    · obtain rfl := Option.some.inj h
      exact .drop note
  | writeEnds link =>
    simp only [advance] at h
    split at h
    · next hphase =>
      split at h
      · next source withResponse payload deadlineMs hstep =>
        rw [writeEnds] at h
        split at h
        · next hwrite =>
          obtain rfl := Option.some.inj h
          exact .written hphase hstep hwrite
        · next reason hwrite =>
          obtain rfl := Option.some.inj h
          exact .writeFailed hphase hstep hwrite
        · next hwrite =>
          obtain ⟨⟨hclock, _⟩, hsome⟩ := Option.ite_none_right_eq_some.mp h
          obtain rfl := Option.some.inj hsome
          exact .writeTimedOut hphase hstep hwrite hclock
      · exact absurd h (by simp)
    · exact absurd h (by simp)
  | proceed =>
    simp only [advance, proceed] at h
    split at h
    · next hphase =>
      split at h
      · next finalState verdict hstep =>
        obtain rfl := Option.some.inj h
        exact .finish hphase hstep
      · next hstep =>
        obtain rfl := Option.some.inj h
        exact .write hphase hstep
      · next hstep =>
        obtain rfl := Option.some.inj h
        exact .wait hphase hstep
    · next hphase =>
      obtain rfl := Option.some.inj h
      exact .arm hphase
    · next due hphase =>
      split at h
      · next hqueue =>
        obtain rfl := Option.some.inj h
        exact .take hphase hqueue
      · next hqueue =>
        obtain ⟨_, hsome⟩ := Option.ite_none_right_eq_some.mp h
        obtain rfl := Option.some.inj hsome
        exact .giveUp hphase hqueue
    · next hphase =>
      obtain rfl := Option.some.inj h
      split
      · next hclock => exact .abandon hphase hclock
      · next hclock => exact .timeout hphase (Nat.lt_of_not_le hclock)
    · exact absurd h (by simp)
    · exact absurd h (by simp)

/-- The loop is entered with a machine that was started and entered. -/
def start (defn : ProtocolDef) (entryState : UInt8) (clock : Nat) (queue : List Note) :
    Option Loop :=
  (eapRunStart defn entryState).map fun run =>
    { run := (eapRunEnter run).value.1
      step := (eapRunEnter run).value.2
      phase := .top
      queue := queue
      notificationsDropped := 0
      clock := clock
      enteredAt := clock
      lastCall := none }

end Loop

end DevBench.Bridge
