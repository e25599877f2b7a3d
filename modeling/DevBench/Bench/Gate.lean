import DevBench.Bench.Dispatch
import Mathlib.Data.List.Induction

/-!
# The gate in front of a study

A study runs a step only behind a compatible greeting and the guards of
`dispatch_study`. The guards consult two of the three seals: a study whose protocols
arrived corrupt runs like any other.
-/

namespace DevBench.Bench

open DevBench.Core DevBench.Core.Traced DevBench.Core.Reader DevBench.Wire

/-! ## Reading a list of calls -/

/-- A step of a study is handed to the bridge. -/
def Act.isExecute : Act → Bool
  | execute .. => true
  | _ => false

/-- The verdict a `StudyDone` carries. -/
def Act.verdict : Act → Option Bool
  | send (.studyDone completed) => some completed
  | _ => none

/-- Neither a step nor a verdict. -/
def Act.Quiet (act : Act) : Prop := act.isExecute = false ∧ act.verdict = none

/-- Some step of a study is handed to the bridge. -/
def RunsStep (acts : List Act) : Prop := ∃ act ∈ acts, act.isExecute = true

/-- The verdicts sent, in order. -/
def verdicts (acts : List Act) : List Bool := acts.filterMap Act.verdict

/-- A step is run in one part or the other. -/
theorem runsStep_append {xs ys : List Act} :
    RunsStep (xs ++ ys) ↔ RunsStep xs ∨ RunsStep ys := by
  simp only [RunsStep, List.mem_append, or_and_right, exists_or]

/-- The verdicts come one part after the other. -/
theorem verdicts_append (xs ys : List Act) : verdicts (xs ++ ys) = verdicts xs ++ verdicts ys :=
  List.filterMap_append

section

variable {α : Type} {m : Traced Act α}

/-- What is quiet runs no step. -/
theorem not_runsStep_of_quiet (h : m.Logs Act.Quiet) : ¬ RunsStep m.log := by
  rintro ⟨act, hact, hexec⟩
  exact absurd hexec (by rw [(h act hact).1]; exact Bool.false_ne_true)

/-- Where nothing is a verdict there is none. -/
theorem verdicts_of_logs (h : m.Logs fun act => act.verdict = none) : verdicts m.log = [] :=
  List.filterMap_eq_nil_iff.mpr h

/-- What is quiet gives none. -/
theorem verdicts_of_quiet (h : m.Logs Act.Quiet) : verdicts m.log = [] :=
  verdicts_of_logs fun act hact => (h act hact).2

end

/-- One act that is neither. -/
theorem quiet_emit {act : Act} (hexec : act.isExecute = false) (hverdict : act.verdict = none) :
    (emit act).Logs Act.Quiet :=
  logs_emit.mpr ⟨hexec, hverdict⟩

/-- A line of the log. -/
theorem quiet_sendLogLine (text : List UInt8) : (sendLogLine text).Logs Act.Quiet :=
  quiet_emit rfl rfl

/-- The calls to the taps. -/
theorem quiet_tapCalls (dropped : Nat → UInt32) (m : Traced TapCall TapTable) :
    (tapCalls dropped m).Logs Act.Quiet := by
  intro act hact
  obtain ⟨call, _, rfl⟩ := List.mem_map.mp hact
  exact ⟨rfl, rfl⟩

/-! ## One study -/

section

variable (answers : Answers) (study : StudyStart)

/-- What precedes the first step. -/
theorem quiet_beginStudy : (beginStudy answers study).Logs Act.Quiet :=
  logs_bind.mpr ⟨quiet_emit rfl rfl, logs_bind.mpr ⟨logs_when (quiet_sendLogLine _),
    logs_bind.mpr ⟨quiet_emit rfl rfl, logs_bind.mpr ⟨quiet_emit rfl rfl, quiet_tapCalls _ _⟩⟩⟩⟩

/-- And what follows the last, but for the verdict. -/
theorem quiet_endStudy (taps : TapTable) : (endStudy answers taps).Logs Act.Quiet := by
  have hwindow : (do
      emit .closeWindow
      sendLogLine (ascii "closed a GATT capture window the study left open")
      : Traced Act Unit).Logs Act.Quiet :=
    logs_bind.mpr ⟨quiet_emit rfl rfl, quiet_sendLogLine _⟩
  refine logs_bind.mpr ⟨logs_when hwindow, logs_bind.mpr ⟨quiet_emit rfl rfl, logs_bind.mpr
    ⟨quiet_tapCalls _ _, logs_bind.mpr ⟨quiet_emit rfl rfl, ?_⟩⟩⟩⟩
  exact logs_bind.mpr ⟨logs_when (quiet_sendLogLine _), quiet_emit rfl rfl⟩

/-- The steps loop sends no verdict. -/
theorem verdicts_dispatchSteps : ∀ (steps : List Step) (i : Nat) (taps : TapTable),
    (dispatchSteps answers study i steps taps).Logs fun act => act.verdict = none
  | [], _, _ => logs_pure _ _
  | step :: steps, i, taps => by
    have htaps : (tapCalls (answers.droppedAtStep i) (taps.syncTapsForStep i)).Logs
        fun act => act.verdict = none := fun act hact => (quiet_tapCalls _ _ act hact).2
    simp only [dispatchSteps]
    split
    · exact logs_bind.mpr ⟨logs_emit.mpr rfl, logs_pure _ _⟩
    · refine logs_bind.mpr ⟨logs_emit.mpr rfl, logs_bind.mpr ⟨htaps, logs_bind.mpr
        ⟨logs_when (logs_emit.mpr rfl), logs_bind.mpr ⟨logs_emit.mpr rfl, logs_bind.mpr
          ⟨logs_emit.mpr rfl, ?_⟩⟩⟩⟩⟩
      split
      · exact logs_pure _ _
      · exact verdicts_dispatchSteps steps (i + 1) _

/-- The first step of the study fails its check. -/
def FailsFirst : Prop := ∃ step ∈ study.steps.items.head?, stepFault study step ≠ none

/-- The steps loop runs nothing and fails exactly when the first step fails its check. -/
theorem dispatchSteps_failsFirst (taps : TapTable) :
    ¬ RunsStep (dispatchSteps answers study 0 study.steps.items taps).log ∧
        (dispatchSteps answers study 0 study.steps.items taps).value.1 = false ↔
      FailsFirst study := by
  rw [FailsFirst]
  cases study.steps.items with
  | nil => simp [dispatchSteps]
  | cons step rest =>
    simp only [dispatchSteps, List.head?_cons, Option.mem_some_iff, exists_eq_left']
    cases hfault : stepFault study step with
    | some reason =>
      have hquiet : (sendStepResult 0 step (.bare (.fail (.copy reason)))).Logs Act.Quiet :=
        quiet_emit rfl rfl
      simpa using not_runsStep_of_quiet hquiet
    | none =>
      have hrun : ∃ act ∈ (dispatchSteps answers study 0 (step :: rest) taps).log,
          act.isExecute = true := by
        refine ⟨.execute 0 (stepToAction study step) step.timeoutMs, ?_, rfl⟩
        simp [dispatchSteps, hfault]
      simp only [dispatchSteps, hfault] at hrun
      exact iff_of_false (fun h => h.1 hrun) (fun h => h rfl)

/-- Behind the guards a study runs the steps the loop runs, and sends its verdict. -/
theorem runStudy_spec : ∃ taps,
    (RunsStep (runStudy answers study).log ↔
      RunsStep (dispatchSteps answers study 0 study.steps.items taps).log) ∧
    verdicts (runStudy answers study).log =
      [(dispatchSteps answers study 0 study.steps.items taps).value.1] := by
  refine ⟨(beginStudy answers study).value, ?_⟩
  have hbegin := quiet_beginStudy answers study
  have hend := quiet_endStudy answers
    (dispatchSteps answers study 0 study.steps.items (beginStudy answers study).value).value.2
  have hdone : ¬ RunsStep (sendStudyDone (dispatchSteps answers study 0 study.steps.items
      (beginStudy answers study).value).value.1).log :=
    fun ⟨act, hact, hexec⟩ => by
      rw [List.mem_singleton.mp hact] at hexec
      exact absurd hexec Bool.false_ne_true
  constructor
  · simp only [runStudy, log_bind, runsStep_append, not_runsStep_of_quiet hbegin,
      not_runsStep_of_quiet hend, hdone, false_or, or_false]
  · simp only [runStudy, log_bind, verdicts_append, verdicts_of_quiet hbegin,
      verdicts_of_quiet hend, verdicts_of_logs (verdicts_dispatchSteps answers study _ _ _),
      List.nil_append]
    rfl

/-- The verdict of a study is the last of its calls. -/
theorem runStudy_ends : ∃ earlier, (runStudy answers study).log = earlier ++
    [.send (.studyDone (dispatchSteps answers study 0 study.steps.items
      (beginStudy answers study).value).value.1)] ∧ verdicts earlier = [] := by
  refine ⟨(beginStudy answers study).log ++ ((dispatchSteps answers study 0 study.steps.items
    (beginStudy answers study).value).log ++ (endStudy answers (dispatchSteps answers study 0
      study.steps.items (beginStudy answers study).value).value.2).log), ?_, ?_⟩
  · simp only [runStudy, log_bind, List.append_assoc]
    rfl
  · simp only [verdicts_append, verdicts_of_quiet (quiet_beginStudy answers study),
      verdicts_of_quiet (quiet_endStudy answers _),
      verdicts_of_logs (verdicts_dispatchSteps answers study _ _ _), List.append_nil]

/-- What the guards of `dispatch_study` look at. -/
def PassesGuards : Prop :=
  study.hasUnsupportedAction = false ∧ study.stepsCrcValid = true ∧ study.streamsCrcValid = true

/-- A study every part of which is understood and arrived intact. -/
def Intact : Prop := PassesGuards study ∧ study.protocolsCrcValid = true

/-- Steps run only of an intact study; one that is not is answered by a single failed
verdict and nothing of it runs. -/
def Gated (acts : List Act) : Prop :=
  (RunsStep acts → Intact study) ∧ (¬ Intact study → ¬ RunsStep acts ∧ verdicts acts = [false])

/-- A study that passes the guards is run. -/
theorem dispatchStudy_eq_runStudy {study : StudyStart} (h : PassesGuards study) :
    dispatchStudy answers study = runStudy answers study := by
  obtain ⟨hsupported, hsteps, hstreams⟩ := h
  simp only [dispatchStudy, hsupported, hsteps, hstreams, Bool.false_eq_true, Bool.true_eq_false,
    if_false]

/-- A study that is given up runs no step and fails. -/
theorem abortStudy_spec (reason : String) :
    ¬ RunsStep (abortStudy reason).log ∧ verdicts (abortStudy reason).log = [false] := by
  refine ⟨?_, rfl⟩
  rintro ⟨act, hact, hexec⟩
  simp only [abortStudy, sendLogLine, sendStudyDone, log_bind, log_emit, List.cons_append,
    List.nil_append, List.mem_cons, List.not_mem_nil, or_false] at hact
  rcases hact with rfl | rfl <;> exact absurd hexec Bool.false_ne_true

/-- The gate of one study holds unless its third seal alone is broken; then only a check of
the first step can save it. -/
theorem gated_dispatchStudy :
    Gated study (dispatchStudy answers study).log ↔
      (PassesGuards study → study.protocolsCrcValid = true ∨ FailsFirst study) := by
  by_cases hguards : PassesGuards study
  · obtain ⟨taps, hruns, hverdict⟩ := runStudy_spec answers study
    have hfails := dispatchSteps_failsFirst answers study taps
    rw [Gated, dispatchStudy_eq_runStudy answers hguards, hruns, hverdict, Intact]
    simp only [hguards, true_and, true_imp_iff, List.cons.injEq, and_true]
    cases study.protocolsCrcValid with
    | true => simp
    | false =>
      simp only [Bool.false_eq_true, imp_false, not_false_iff, true_imp_iff, hfails, false_or]
      exact ⟨fun h => h.2, fun h => ⟨(hfails.mpr h).1, h⟩⟩
  · have habort : ¬ RunsStep (dispatchStudy answers study).log ∧
        verdicts (dispatchStudy answers study).log = [false] := by
      rw [dispatchStudy]
      split
      · exact abortStudy_spec _
      · next hsupported =>
        split
        · exact abortStudy_spec _
        · next hsteps =>
          split
          · exact abortStudy_spec _
          · next hstreams =>
            exact absurd ⟨Bool.eq_false_iff.mpr hsupported, Bool.eq_true_of_not_eq_false hsteps,
              Bool.eq_true_of_not_eq_false hstreams⟩ hguards
    exact iff_of_true ⟨fun h => absurd h habort.1, fun _ => habort⟩ fun h => absurd h hguards

end

/-! ## Runs of the main loop -/

section

variable (build : Build)

/-- The last greeting or study received is a greeting of the bench's own schema. -/
def Awaits (received : List Message) : Bool :=
  match received.reverse.find? fun m => m matches .hello _ | .studyStart _ with
  | some (.hello hello) => hello.schemaVersion == build.ourSchema
  | _ => false

/-- Only a hello of the right version makes the bench wait for a study, and any study ends that. -/
theorem value_handle (awaitingStudy : Bool) (inbound : Inbound) :
    (handle build awaitingStudy inbound).value =
      match inbound.message with
      | .hello hello => hello.schemaVersion == build.ourSchema
      | .studyStart _ => false
      | _ => awaitingStudy := by
  rw [handle]
  cases inbound.message with
  | hello hello =>
    simp only [handleHello, value_bind]
    cases hello.schemaVersion == build.ourSchema <;> rfl
  | studyStart study => rfl
  | _ => rfl

/-- Messages are handled one after the other. -/
theorem mainLoop_append (xs ys : List Inbound) : ∀ awaitingStudy : Bool,
    (mainLoop build awaitingStudy (xs ++ ys)).value =
        (mainLoop build (mainLoop build awaitingStudy xs).value ys).value ∧
      (mainLoop build awaitingStudy (xs ++ ys)).log =
        (mainLoop build awaitingStudy xs).log ++
          (mainLoop build (mainLoop build awaitingStudy xs).value ys).log := by
  induction xs with
  | nil => exact fun _ => ⟨rfl, rfl⟩
  | cons x xs ih =>
    intro awaitingStudy
    obtain ⟨hvalue, hlog⟩ := ih (handle build awaitingStudy x).value
    simp only [List.cons_append, mainLoop, value_bind, log_bind, hvalue, hlog, List.append_assoc,
      true_and]

/-- The flag of `main` says what was received. -/
theorem value_mainLoop (run : List Inbound) :
    (mainLoop build false run).value = Awaits build (run.map Inbound.message) := by
  induction run using List.reverseRecOn with
  | nil => rfl
  | append_singleton run inbound ih =>
    rw [(mainLoop_append build run [inbound] false).1]
    simp only [mainLoop, value_bind, value_pure, value_handle, ih, Awaits, List.map_append,
      List.map_cons, List.map_nil, List.reverse_append, List.reverse_cons, List.reverse_nil,
      List.nil_append, List.cons_append, List.find?_cons]
    cases inbound.message <;> rfl

/-- The calls made for the message received behind others. -/
def callsFor (received : List Inbound) (inbound : Inbound) : List Act :=
  (handle build (mainLoop build false received).value inbound).log

/-- The calls of a run are those for its messages, one after the other. -/
theorem log_mainLoop_snoc (received : List Inbound) (inbound : Inbound) :
    (mainLoop build false (received ++ [inbound])).log =
      (mainLoop build false received).log ++ callsFor build received inbound := by
  rw [(mainLoop_append build received [inbound] false).2, callsFor]
  simp [mainLoop]

/-- In a run, steps are run only of a study that was awaited and arrived intact; one that was
awaited and did not is answered by a single failed verdict. -/
def GatedRun (run : List Inbound) : Prop :=
  ∀ before inbound after, run = before ++ inbound :: after →
    match inbound.message with
    | .studyStart study =>
      (RunsStep (callsFor build before inbound) →
        Awaits build (before.map Inbound.message) = true ∧ Intact study) ∧
      (Awaits build (before.map Inbound.message) = true → ¬ Intact study →
        ¬ RunsStep (callsFor build before inbound) ∧
          verdicts (callsFor build before inbound) = [false])
    | _ => ¬ RunsStep (callsFor build before inbound)

/-- A hello runs nothing. -/
theorem quiet_handleHello (answers : Answers) (hello : Hello) :
    (handleHello build answers hello).Logs Act.Quiet := by
  refine logs_bind.mpr ⟨quiet_emit rfl rfl, logs_bind.mpr ⟨quiet_emit rfl rfl, logs_bind.mpr
    ⟨quiet_emit rfl rfl, logs_bind.mpr ⟨quiet_emit rfl rfl, logs_bind.mpr
      ⟨quiet_sendLogLine _, ?_⟩⟩⟩⟩⟩
  split
  · exact logs_pure _ _
  · exact logs_bind.mpr ⟨quiet_sendLogLine _, logs_pure _ _⟩

/-- What is done for a study depends on whether it was awaited. -/
theorem callsFor_studyStart (before : List Inbound) (answers : Answers) (study : StudyStart) :
    callsFor build before ⟨.studyStart study, answers⟩ =
      (handleStudyStart (Awaits build (before.map Inbound.message)) answers study).log := by
  rw [callsFor, value_mainLoop]
  simp [handle]

/-- Exactly when a run is gated: every awaited study that passes the guards has its third
seal valid, or a first step that fails its own check. -/
theorem gatedRun_iff (run : List Inbound) :
    GatedRun build run ↔ ∀ before study answers after,
      run = before ++ ⟨.studyStart study, answers⟩ :: after →
      Awaits build (before.map Inbound.message) = true → PassesGuards study →
        study.protocolsCrcValid = true ∨ FailsFirst study := by
  constructor
  · intro h before study answers after hrun hawaits hguards
    have hgated := h before ⟨.studyStart study, answers⟩ after hrun
    simp only [callsFor_studyStart, hawaits, handleStudyStart, if_true, true_and,
      true_imp_iff] at hgated
    exact (gated_dispatchStudy answers study).mp hgated hguards
  · rintro h before ⟨message, answers⟩ after hrun
    cases message with
    | studyStart study =>
      simp only [callsFor_studyStart]
      cases hawaits : Awaits build (before.map Inbound.message) with
      | false =>
        have hline := not_runsStep_of_quiet (quiet_sendLogLine
          (ascii "StudyStart received without a preceding Hello handshake; ignoring"))
        exact ⟨fun hruns => absurd hruns hline, fun hfalse => absurd hfalse Bool.false_ne_true⟩
      | true =>
        have hgated := (gated_dispatchStudy answers study).mpr
          (h before study answers after hrun hawaits)
        exact ⟨fun hruns => ⟨rfl, hgated.1 hruns⟩, fun _ => hgated.2⟩
    | hello hello => exact not_runsStep_of_quiet (quiet_handleHello build answers hello)
    | _ => exact not_runsStep_of_quiet (logs_pure _ (mainLoop build false before).value)

end

/-- Greeted for, a study whose third seal alone is broken is not held back. -/
theorem not_gatedRun_of_brokenSeal (build : Build) {study : StudyStart} (answers : Answers)
    (hguards : PassesGuards study) (hseal : study.protocolsCrcValid = false)
    (hfirst : ¬ FailsFirst study) :
    ¬ GatedRun build
      [⟨.hello ⟨build.ourSchema, 0⟩, answers⟩, ⟨.studyStart study, answers⟩] := by
  intro h
  have hgated := h [⟨.hello ⟨build.ourSchema, 0⟩, answers⟩] _ [] rfl
  have hawaits : Awaits build [.hello ⟨build.ourSchema, 0⟩] = true := by simp [Awaits]
  simp only [callsFor_studyStart, List.map_cons, List.map_nil, hawaits, handleStudyStart, if_true,
    true_and, true_imp_iff] at hgated
  rcases (gated_dispatchStudy answers study).mp hgated hguards with hvalid | hfails
  · exact absurd (hseal.symm.trans hvalid) Bool.false_ne_true
  · exact hfirst hfails

/-- A seal is not part of what makes a study a declared one. -/
theorem declared_reseal {d : StudyDecl} (h : d.Declared) (crc : UInt32) :
    ({ d with protocolsCrc := crc } : StudyDecl).Declared :=
  ⟨h.actions, h.logLevel, h.protocols⟩

/-- The study of `advertiseStudy` with its third seal replaced. -/
def brokenSealStudy : StudyDecl := { advertiseStudy with protocolsCrc := 0 }

/-- Its body on a 32-bit machine. -/
def brokenSealBody : Input :=
  { width32 with
    bytes := pcWriteVarint 6 ++ brokenSealStudy.bytes
    fits := by decide +kernel }

/-- The body is accepted with its third seal found broken. Greeted for, it is run. -/
theorem brokenSealBody_not_gated :
    (decodeBody brokenSealBody 0).value = some (.studyStart brokenSealStudy.kept) ∧
      brokenSealStudy.kept.protocolsCrcValid = false ∧
      ¬ GatedRun ⟨25, [], []⟩ [⟨.hello ⟨25, 0⟩, passingAnswers⟩,
        ⟨.studyStart brokenSealStudy.kept, passingAnswers⟩] := by
  have hdeclared : brokenSealStudy.Declared := declared_reseal advertiseStudy_declared 0
  have hseal : brokenSealStudy.kept.protocolsCrcValid = false := by decide +kernel
  refine ⟨value_decodeBody hdeclared rfl, hseal, not_gatedRun_of_brokenSeal ⟨25, [], []⟩ _
    ⟨rfl, by decide +kernel, by decide +kernel⟩ hseal ?_⟩
  rintro ⟨step, hstep, hfault⟩
  rw [← Option.mem_some_iff.mp hstep] at hfault
  exact hfault rfl

end DevBench.Bench
