import DevBench.Bench.Bridge
import DevBench.Bench.Taps

/-!
# Dispatching messages

`dispatch_study`, `handle_hello` and the loop of `main`: what the bench does for each
message it receives, as the list of its calls in order. What it is told in return (the
outcome of a step, a drop counter at the moment it is read) is arbitrary.
-/

namespace DevBench.Bench

open DevBench.Core DevBench.Core.Traced DevBench.Wire

/-- `DEV_BENCH_LOG_BOOT_LEVEL`. -/
abbrev devBenchLogBootLevel : UInt8 := 2

/-- What the build is: the schema its library speaks and the texts it identifies with. -/
structure Build where
  ourSchema : UInt32
  firmwareVersion : List UInt8
  hardwareId : List UInt8

/-- What the rest of the bench answers while one message is handled. -/
structure Answers where
  /-- The line of `send_reset_diagnostics`. -/
  diagnostics : List UInt8
  /-- The level `dev_bench_log_set_level` reaches. -/
  reachedLevel : UInt8
  /-- What `ble_bridge_execute` returns for the step of an index. -/
  outcome : Nat → BridgeOutcome
  /-- A tap's drop counter before the steps, at a step, and at the end. -/
  droppedAtStart : Nat → UInt32
  droppedAtStep : Nat → Nat → UInt32
  droppedAtEnd : Nat → UInt32
  monitorWindowOpen : Bool
  transcriptDropped : UInt32

/-- A bench whose bridge passes every step. -/
def passingAnswers : Answers where
  diagnostics := []
  reachedLevel := 3
  outcome := fun _ => .bare .pass
  droppedAtStart := fun _ => 0
  droppedAtStep := fun _ _ => 0
  droppedAtEnd := fun _ => 0
  monitorWindowOpen := false
  transcriptDropped := 0

/-- One call of the dispatch thread. -/
inductive Act where
  | send (m : Message)
  | bridgeReset
  | setLevel (level : UInt8)
  | setSink
  | resetTranscriptDropped
  | loadTaps (streams : List StreamTap)
  /-- `set_tap_open`, which sends the opening or the closing of the tap. -/
  | setTapOpen (tap : Nat) (isOpen : Bool) (dropped : UInt32)
  | stampStep (index : Nat)
  | sleep (ms : UInt32)
  /-- `ble_bridge_execute` of a step of the study. -/
  | execute (index : Nat) (action : BridgeAction) (timeoutMs : UInt32)
  /-- `ble_bridge_execute` of the bench's own `ACTION_GATT_MONITOR_STOP`. -/
  | closeWindow
  /-- The wait for the transcript queue to empty. -/
  | drain
  | clearBonds

/-- `send_log_line`. -/
def sendLogLine (text : List UInt8) : Traced Act Unit :=
  emit (.send (.logLine (.copy text)))

/-- `send_study_done`. -/
def sendStudyDone (completed : Bool) : Traced Act Unit := emit (.send (.studyDone completed))

/-- `send_step_result`. -/
def sendStepResult (index : Nat) (step : Step) (o : BridgeOutcome) : Traced Act Unit :=
  emit (.send (.stepResult (stepResultOf (.ofNat index) step.name o)))

/-- The calls of `set_tap_open`, each with the counter read before it closes a tap. -/
def tapCalls (dropped : Nat → UInt32) (m : Traced TapCall TapTable) : Traced Act TapTable :=
  ⟨m.value, m.log.map fun call =>
    .setTapOpen call.index call.isOpen (if call.isOpen then 0 else dropped call.index)⟩

/-- The loop over the steps from index `i` on: whether it ran to its end, and the taps. -/
def dispatchSteps (answers : Answers) (study : StudyStart) :
    Nat → List Step → TapTable → Traced Act (Bool × TapTable)
  | _, [], taps => pure (true, taps)
  | i, step :: steps, taps =>
    match stepFault study step with
    | some reason => do
      sendStepResult i step (.bare (.fail (.copy reason)))
      pure (false, taps)
    | none => do
      emit (.stampStep i)
      let taps ← tapCalls (answers.droppedAtStep i) (taps.syncTapsForStep i)
      when (step.delayBeforeMs > 0) <| emit (.sleep step.delayBeforeMs)
      emit (.execute i (stepToAction study step) step.timeoutMs)
      sendStepResult i step (answers.outcome i)
      if (answers.outcome i).kind ≠ .pass ∧ step.continueOnFail = false then pure (false, taps)
      else dispatchSteps answers study (i + 1) steps taps

/-- The calls for a step that passes its check, its result included. -/
def stepActs (answers : Answers) (study : StudyStart) (i : Nat) (step : Step) (taps : TapTable) :
    List Act :=
  (emit (.stampStep i)).log ++
    (tapCalls (answers.droppedAtStep i) (taps.syncTapsForStep i)).log ++
    (when (step.delayBeforeMs > 0) <| emit (.sleep step.delayBeforeMs)).log ++
    (emit (.execute i (stepToAction study step) step.timeoutMs)).log ++
    (sendStepResult i step (answers.outcome i)).log

section

variable {answers : Answers} {study : StudyStart} {i : Nat} {step : Step}

/-- A step that fails its check ends the loop. -/
theorem dispatchSteps_fault {reason : List UInt8} (h : stepFault study step = some reason)
    (steps : List Step) (taps : TapTable) : dispatchSteps answers study i (step :: steps) taps =
      ⟨(false, taps), (sendStepResult i step (.bare (.fail (.copy reason)))).log⟩ := by
  simp only [dispatchSteps, h]
  rfl

/-- A step that passes its check and stops the study by its outcome ends the loop behind it. -/
theorem dispatchSteps_stop (h : stepFault study step = none)
    (hends : (answers.outcome i).kind ≠ .pass ∧ step.continueOnFail = false)
    (steps : List Step) (taps : TapTable) : dispatchSteps answers study i (step :: steps) taps =
      ⟨(false, (taps.syncTapsForStep i).value), stepActs answers study i step taps⟩ := by
  have hlog : (dispatchSteps answers study i (step :: steps) taps).log =
      stepActs answers study i step taps := by
    simp only [dispatchSteps, h, if_pos hends, log_bind, log_pure, List.append_nil, stepActs,
      List.append_assoc]
  have hvalue : (dispatchSteps answers study i (step :: steps) taps).value =
      (false, (taps.syncTapsForStep i).value) := by
    simp only [dispatchSteps, h, if_pos hends]
    rfl
  rw [← hlog, ← hvalue]

/-- Any other step is followed by the rest of the loop. -/
theorem dispatchSteps_next (h : stepFault study step = none)
    (hgoes : ¬ ((answers.outcome i).kind ≠ .pass ∧ step.continueOnFail = false))
    (steps : List Step) (taps : TapTable) :
    dispatchSteps answers study i (step :: steps) taps =
      ⟨(dispatchSteps answers study (i + 1) steps (taps.syncTapsForStep i).value).value,
        stepActs answers study i step taps ++
          (dispatchSteps answers study (i + 1) steps (taps.syncTapsForStep i).value).log⟩ := by
  have hlog : (dispatchSteps answers study i (step :: steps) taps).log =
      stepActs answers study i step taps ++
        (dispatchSteps answers study (i + 1) steps (taps.syncTapsForStep i).value).log := by
    simp only [dispatchSteps, h, if_neg hgoes, log_bind, stepActs, List.append_assoc]
    rfl
  have hvalue : (dispatchSteps answers study i (step :: steps) taps).value =
      (dispatchSteps answers study (i + 1) steps (taps.syncTapsForStep i).value).value := by
    simp only [dispatchSteps, h, if_neg hgoes]
    rfl
  rw [← hlog, ← hvalue]

end

/-- `dispatch_study` from its guards to its loop: the level and the taps of the study. -/
def beginStudy (answers : Answers) (study : StudyStart) : Traced Act TapTable := do
  emit (.setLevel study.devBenchLogLevel)
  when (answers.reachedLevel ≠ study.devBenchLogLevel) <|
    sendLogLine (ascii ("study asked for log level " ++ toString study.devBenchLogLevel.toNat ++
      "; this build only reaches " ++ toString answers.reachedLevel.toNat))
  emit .resetTranscriptDropped
  emit (.loadTaps study.streams.items)
  tapCalls answers.droppedAtStart ((loadStudyTaps study.streams.items).syncTapsForStep 0)

/-- `dispatch_study` from its loop to its verdict. -/
def endStudy (answers : Answers) (taps : TapTable) : Traced Act Unit := do
  when (answers.monitorWindowOpen = true) do
    emit .closeWindow
    sendLogLine (ascii "closed a GATT capture window the study left open")
  emit .drain
  let _ ← tapCalls answers.droppedAtEnd taps.closeAllTaps
  emit .clearBonds
  when (answers.transcriptDropped > 0) <|
    sendLogLine (ascii ("GATT transcript dropped " ++ toString answers.transcriptDropped.toNat ++
      " entries (queue full) -- this capture is NOT exhaustive"))
  emit (.setLevel devBenchLogBootLevel)

/-- `dispatch_study` behind its guards. -/
def runStudy (answers : Answers) (study : StudyStart) : Traced Act Unit := do
  let taps ← beginStudy answers study
  let (completed, taps) ← dispatchSteps answers study 0 study.steps.items taps
  endStudy answers taps
  sendStudyDone completed

/-- A study that fails a guard. -/
def abortStudy (reason : String) : Traced Act Unit := do
  sendLogLine (ascii reason)
  sendStudyDone false

/-- `dispatch_study`: three checks, each with the text it aborts with, and the run behind them. -/
def dispatchStudy (answers : Answers) (study : StudyStart) : Traced Act Unit :=
  if study.hasUnsupportedAction then
    abortStudy ("StudyStart contains a step whose action this firmware doesn't " ++
      "recognize; aborting without running any step")
  else if study.stepsCrcValid = false then
    abortStudy "StudyStart steps_crc mismatch; aborting without running any step"
  else if study.streamsCrcValid = false then
    abortStudy "StudyStart streams_crc mismatch; aborting without running any step"
  else runStudy answers study

/-- Whether the bench now waits for a study. -/
def handleHello (build : Build) (answers : Answers) (hello : Hello) : Traced Act Bool := do
  emit .bridgeReset
  emit (.setLevel devBenchLogBootLevel)
  let compatible := hello.schemaVersion == build.ourSchema
  emit (.send (.helloAck ⟨build.ourSchema, compatible, .copy build.firmwareVersion,
    .copy build.hardwareId⟩))
  emit .setSink
  sendLogLine answers.diagnostics
  if compatible then pure true
  else do
    sendLogLine (ascii "schema version mismatch, not awaiting a StudyStart")
    pure false

/-- A received message with what is answered while it is handled. -/
structure Inbound where
  message : Message
  answers : Answers

/-- A study nobody greeted for is not looked at. -/
def handleStudyStart (awaitingStudy : Bool) (answers : Answers) (study : StudyStart) :
    Traced Act Unit :=
  if awaitingStudy then dispatchStudy answers study
  else sendLogLine (ascii "StudyStart received without a preceding Hello handshake; ignoring")

/-- One turn of the loop of `main`, from and to the value of `awaiting_study`. -/
def handle (build : Build) (awaitingStudy : Bool) (inbound : Inbound) : Traced Act Bool :=
  match inbound.message with
  | .hello hello => handleHello build inbound.answers hello
  | .studyStart study => do
    handleStudyStart awaitingStudy inbound.answers study
    pure false
  | _ => pure awaitingStudy

/-- The loop of `main` over the messages received. -/
def mainLoop (build : Build) : Bool → List Inbound → Traced Act Bool
  | awaitingStudy, [] => pure awaitingStudy
  | awaitingStudy, inbound :: rest => do
    let awaitingStudy ← handle build awaitingStudy inbound
    mainLoop build awaitingStudy rest

end DevBench.Bench
