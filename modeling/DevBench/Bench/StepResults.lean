import DevBench.Bench.Gate

/-!
# The results of a study

The steps of a study are answered one by one until one of them stops it. Two paths report a
failing step: the outcome of the bridge, which `continue_on_fail` overrides, and the check of
a protocol's indices, which it does not.
-/

namespace DevBench.Bench

open DevBench.Core DevBench.Core.Traced DevBench.Wire

/-- The result an act sends, if it sends one. -/
def Act.result : Act → Option StepResult
  | send (.stepResult r) => some r
  | _ => none

/-- The step an act executes, if it executes one. -/
def Act.executed : Act → Option Nat
  | execute i _ _ => some i
  | _ => none

/-- The step indices of the results sent, in order. -/
def resultIndices (acts : List Act) : List UInt32 :=
  (acts.filterMap Act.result).map StepResult.stepIndex

/-- The steps executed, in order. -/
def executedSteps (acts : List Act) : List Nat := acts.filterMap Act.executed

/-- The results come one part after the other. -/
theorem resultIndices_append (xs ys : List Act) :
    resultIndices (xs ++ ys) = resultIndices xs ++ resultIndices ys := by
  rw [resultIndices, List.filterMap_append, List.map_append, resultIndices, resultIndices]

/-- So do the steps that were executed. -/
theorem executedSteps_append (xs ys : List Act) :
    executedSteps (xs ++ ys) = executedSteps xs ++ executedSteps ys := List.filterMap_append

/-- Neither a result nor a step. -/
def Act.Silent (act : Act) : Prop := act.result = none ∧ act.executed = none

/-- What is silent has no result. -/
theorem resultIndices_of_silent {α : Type} {m : Traced Act α} (h : m.Logs Act.Silent) :
    resultIndices m.log = [] := by
  have hnone : m.log.filterMap Act.result = [] :=
    List.filterMap_eq_nil_iff.mpr fun act hact => (h act hact).1
  rw [resultIndices, hnone, List.map_nil]

/-- And executes nothing. -/
theorem executedSteps_of_silent {α : Type} {m : Traced Act α} (h : m.Logs Act.Silent) :
    executedSteps m.log = [] :=
  List.filterMap_eq_nil_iff.mpr fun act hact => (h act hact).2

/-! ## What is asked of a study -/

section

variable (answers : Answers) (study : StudyStart)

/-- The step of an index does not pass, whichever path finds it out. -/
def Fails (i : Nat) (step : Step) : Prop :=
  stepFault study step ≠ none ∨ (answers.outcome i).kind ≠ .pass

/-- The step of an index fails and asks for the study to end then. -/
def Stops (i : Nat) (step : Step) : Prop :=
  Fails answers study i step ∧ step.continueOnFail = false

instance (i : Nat) (step : Step) : Decidable (Stops answers study i step) := by
  unfold Stops Fails; infer_instance

/-- How many of the steps from index `i` on are attempted: all up to the first that stops the
study, that one included. -/
def attempted : Nat → List Step → Nat
  | _, [] => 0
  | i, step :: steps => if Stops answers study i step then 1 else attempted (i + 1) steps + 1

/-- No step from index `i` on stops the study. -/
def Completes (i : Nat) (steps : List Step) : Prop :=
  ∀ j step, steps[j]? = some step → ¬ Stops answers study (i + j) step

/-- What the loop over the steps from index `i` on owes: a result for each step attempted, in
order, and whether they ran to their end. -/
structure LoopAnswers (i : Nat) (steps : List Step) (loop : Traced Act (Bool × TapTable)) :
    Prop where
  results : resultIndices loop.log =
    (List.range' i (attempted answers study i steps)).map UInt32.ofNat
  executed : ∀ k ∈ executedSteps loop.log, k < i + attempted answers study i steps
  completed : loop.value.1 = true ↔ Completes answers study i steps

/-- What a study owes: results for its steps in order up to the first that stops it, no step
executed behind that one, and last its one verdict, which says whether none did. -/
structure StudyAnswers (acts : List Act) : Prop where
  results : resultIndices acts =
    (List.range (attempted answers study 0 study.steps.items)).map UInt32.ofNat
  executed : ∀ k ∈ executedSteps acts, k < attempted answers study 0 study.steps.items
  verdict : ∃ earlier completed, acts = earlier ++ [.send (.studyDone completed)] ∧
    verdicts earlier = [] ∧
      (completed = true ↔ Completes answers study 0 study.steps.items)

/-- No step from index `i` on that fails its check while it asks to continue is come to: an
earlier one stops the study. -/
def ChecksStop (i : Nat) (steps : List Step) : Prop :=
  ∀ j step, steps[j]? = some step → stepFault study step ≠ none → step.continueOnFail = true →
    ∃ k, k < j ∧ ∃ earlier, steps[k]? = some earlier ∧ Stops answers study (i + k) earlier

variable {answers study} {i : Nat} {step : Step} {steps : List Step}

/-- A study completes when its first step does not stop it and the rest completes. -/
theorem completes_cons : Completes answers study i (step :: steps) ↔
    ¬ Stops answers study i step ∧ Completes answers study (i + 1) steps := by
  constructor
  · intro h
    refine ⟨h 0 step rfl, fun j later hlater => ?_⟩
    have hnext := h (j + 1) later hlater
    rwa [← Nat.add_assoc, Nat.add_right_comm] at hnext
  · rintro ⟨hhead, hrest⟩ j later hlater
    cases j with
    | zero => exact Option.some.inj hlater ▸ hhead
    | succ j =>
      rw [← Nat.add_assoc, Nat.add_right_comm]
      exact hrest j later hlater

/-- A step that stops the study as it should. -/
theorem checksStop_of_stops (h : Stops answers study i step) (hfault : stepFault study step = none ∨
    step.continueOnFail = false) : ChecksStop answers study i (step :: steps) := by
  intro j later hlater hbad hcontinue
  cases j with
  | zero =>
    obtain rfl := Option.some.inj hlater
    rcases hfault with hnone | hstop
    · exact absurd hnone hbad
    · exact absurd (hstop.symm.trans hcontinue) Bool.false_ne_true
  | succ j => exact ⟨0, Nat.succ_pos j, step, rfl, h⟩

/-- One that does not, and the rest. -/
theorem checksStop_cons (hgoes : ¬ Stops answers study i step)
    (hfault : stepFault study step = none) :
    ChecksStop answers study i (step :: steps) ↔ ChecksStop answers study (i + 1) steps := by
  constructor
  · intro h j later hlater hbad hcontinue
    obtain ⟨k, hk, earlier, hearlier, hstops⟩ := h (j + 1) later hlater hbad hcontinue
    cases k with
    | zero => exact absurd (Option.some.inj hearlier ▸ hstops) hgoes
    | succ k =>
      refine ⟨k, Nat.lt_of_succ_lt_succ hk, earlier, hearlier, ?_⟩
      rwa [← Nat.add_assoc, Nat.add_right_comm] at hstops
  · intro h j later hlater hbad hcontinue
    cases j with
    | zero => exact absurd (Option.some.inj hlater ▸ hfault) hbad
    | succ j =>
      obtain ⟨k, hk, earlier, hearlier, hstops⟩ := h j later hlater hbad hcontinue
      refine ⟨k + 1, Nat.succ_lt_succ hk, earlier, hearlier, ?_⟩
      rwa [← Nat.add_assoc, Nat.add_right_comm]

/-! ## The loop over the steps -/

/-- The calls to the taps are silent. -/
theorem silent_tapCalls (dropped : Nat → UInt32) (m : Traced TapCall TapTable) :
    (tapCalls dropped m).Logs Act.Silent := by
  intro act hact
  obtain ⟨call, _, rfl⟩ := List.mem_map.mp hact
  exact ⟨rfl, rfl⟩

/-- An act that is neither a result nor an execution. -/
theorem silent_emit {act : Act} (hresult : act.result = none) (hexecuted : act.executed = none) :
    (emit act).Logs Act.Silent := logs_emit.mpr ⟨hresult, hexecuted⟩

/-- A step that passes its check is executed and answered once. -/
theorem answers_stepActs (answers : Answers) (study : StudyStart) (i : Nat) (step : Step)
    (t : TapTable) : resultIndices (stepActs answers study i step t) = [UInt32.ofNat i] ∧
      executedSteps (stepActs answers study i step t) = [i] := by
  have hstamp : (emit (.stampStep i)).Logs Act.Silent := silent_emit rfl rfl
  have htaps : (tapCalls (answers.droppedAtStep i) (t.syncTapsForStep i)).Logs Act.Silent :=
    silent_tapCalls _ _
  have hsleep : (when (step.delayBeforeMs > 0) <| emit (.sleep step.delayBeforeMs)).Logs
      Act.Silent := logs_when (silent_emit rfl rfl)
  constructor
  · simp only [stepActs, resultIndices_append, resultIndices_of_silent hstamp,
      resultIndices_of_silent htaps, resultIndices_of_silent hsleep, List.nil_append]
    rfl
  · simp only [stepActs, executedSteps_append, executedSteps_of_silent hstamp,
      executedSteps_of_silent htaps, executedSteps_of_silent hsleep, List.nil_append]
    rfl

/-- Where no step is attempted there is none. -/
theorem eq_nil_of_attempted {answers : Answers} {study : StudyStart} {i : Nat} :
    ∀ {steps : List Step}, attempted answers study i steps = 0 → steps = []
  | [], _ => rfl
  | step :: steps, h => by
    rw [attempted] at h
    split at h
    · exact absurd h Nat.one_ne_zero
    · exact absurd h (Nat.succ_ne_zero _)

/-- A step that fails its check ends the loop, as is owed unless it asks to continue. -/
theorem loopAnswers_fault {reason : List UInt8} (hfault : stepFault study step = some reason)
    (t : TapTable) :
    LoopAnswers answers study i (step :: steps)
        (dispatchSteps answers study i (step :: steps) t) ↔
      ChecksStop answers study i (step :: steps) := by
  have hbad : stepFault study step ≠ none := by
    rw [hfault]
    exact Option.some_ne_none _
  rw [dispatchSteps_fault hfault]
  cases hcontinue : step.continueOnFail with
  | false =>
    -- The study stops at the failed check, as it asks for.
    have hstops : Stops answers study i step := ⟨.inl hbad, hcontinue⟩
    refine iff_of_true ⟨?_, fun k hk => absurd hk List.not_mem_nil, ?_⟩
      (checksStop_of_stops hstops (.inr hcontinue))
    · rw [attempted, if_pos hstops]
      rfl
    · exact iff_of_false Bool.false_ne_true fun h => (completes_cons.mp h).1 hstops
  | true =>
    -- The step asks to continue and the study stops nevertheless.
    have hgoes : ¬ Stops answers study i step := fun h =>
      absurd (h.2.symm.trans hcontinue) Bool.false_ne_true
    refine iff_of_false (fun h => ?_) fun h => ?_
    · have hlength := congrArg List.length h.results
      rw [attempted, if_neg hgoes, List.length_map, List.length_range'] at hlength
      obtain rfl := eq_nil_of_attempted (Nat.succ.inj hlength.symm)
      refine absurd (h.completed.mpr (completes_cons.mpr ⟨hgoes, fun _ _ hstep => ?_⟩))
        Bool.false_ne_true
      simp at hstep
    · obtain ⟨k, hk, -⟩ := h 0 step rfl hbad hcontinue
      exact absurd hk (Nat.not_lt_zero k)

/-- A step that is executed and does not pass ends the loop if it does not ask to continue. -/
theorem loopAnswers_stop (hfault : stepFault study step = none)
    (hends : (answers.outcome i).kind ≠ .pass ∧ step.continueOnFail = false) (t : TapTable) :
    LoopAnswers answers study i (step :: steps)
      (dispatchSteps answers study i (step :: steps) t) := by
  obtain ⟨hresults, hexecuted⟩ := answers_stepActs answers study i step t
  have hstops : Stops answers study i step := ⟨.inr hends.1, hends.2⟩
  rw [dispatchSteps_stop hfault hends]
  refine ⟨?_, ?_, ?_⟩
  · rw [hresults, attempted, if_pos hstops]
    rfl
  · rw [hexecuted, attempted, if_pos hstops]
    simp
  · exact iff_of_false Bool.false_ne_true fun h => (completes_cons.mp h).1 hstops

/-- Behind any other step the loop owes what is owed for the steps that are left. -/
theorem loopAnswers_next (hfault : stepFault study step = none)
    (hends : ¬ ((answers.outcome i).kind ≠ .pass ∧ step.continueOnFail = false))
    (hgoes : ¬ Stops answers study i step) (t : TapTable) :
    LoopAnswers answers study i (step :: steps)
        (dispatchSteps answers study i (step :: steps) t) ↔
      LoopAnswers answers study (i + 1) steps
        (dispatchSteps answers study (i + 1) steps (t.syncTapsForStep i).value) := by
  obtain ⟨hresults, hexecuted⟩ := answers_stepActs answers study i step t
  have hrange : (List.range' i (attempted answers study i (step :: steps))).map UInt32.ofNat =
      UInt32.ofNat i :: (List.range' (i + 1) (attempted answers study (i + 1) steps)).map
        UInt32.ofNat := by
    rw [attempted, if_neg hgoes, List.range'_succ, List.map_cons]
  rw [dispatchSteps_next hfault hends]
  constructor
  · rintro ⟨hres, hexec, hdone⟩
    rw [resultIndices_append, hresults, hrange, List.singleton_append] at hres
    refine ⟨List.tail_eq_of_cons_eq hres, fun k hk => ?_, ?_⟩
    · have hlt := hexec k (by rw [executedSteps_append]; exact List.mem_append_right _ hk)
      rw [attempted, if_neg hgoes] at hlt
      omega
    · rw [hdone, completes_cons]
      exact and_iff_right hgoes
  · rintro ⟨hres, hexec, hdone⟩
    refine ⟨?_, fun k hk => ?_, ?_⟩
    · rw [resultIndices_append, hresults, hrange, hres, List.singleton_append]
    · rw [executedSteps_append, hexecuted] at hk
      rw [attempted, if_neg hgoes]
      rcases List.mem_append.mp hk with hk | hk
      · have heq := List.mem_singleton.mp hk
        omega
      · have hlt := hexec k hk
        omega
    · rw [hdone, completes_cons]
      exact (and_iff_right hgoes).symm

/-- Exactly when the loop answers as it owes: it never comes to a step that fails its check
while it asks to continue. -/
theorem loopAnswers_dispatchSteps (answers : Answers) (study : StudyStart) :
    ∀ (steps : List Step) (i : Nat) (t : TapTable),
      LoopAnswers answers study i steps (dispatchSteps answers study i steps t) ↔
        ChecksStop answers study i steps
  | [], i, t => iff_of_true
      ⟨rfl, fun _ hk => absurd hk List.not_mem_nil,
        iff_of_true rfl fun _ _ hstep => by simp at hstep⟩
      fun _ _ hstep => by simp at hstep
  | step :: steps, i, t => by
    cases hfault : stepFault study step with
    | some reason => exact loopAnswers_fault hfault t
    | none =>
      by_cases hends : (answers.outcome i).kind ≠ .pass ∧ step.continueOnFail = false
      · exact iff_of_true (loopAnswers_stop hfault hends t)
          (checksStop_of_stops ⟨.inr hends.1, hends.2⟩ (.inl hfault))
      · have hgoes : ¬ Stops answers study i step := fun h =>
          hends ⟨h.1.resolve_left fun hbad => hbad hfault, h.2⟩
        rw [loopAnswers_next hfault hends hgoes, checksStop_cons hgoes hfault]
        exact loopAnswers_dispatchSteps answers study steps (i + 1) _

end

/-! ## A whole study -/

section

variable (answers : Answers) (study : StudyStart)

/-- What precedes the steps is silent. -/
theorem silent_beginStudy : (beginStudy answers study).Logs Act.Silent :=
  logs_bind.mpr ⟨silent_emit rfl rfl, logs_bind.mpr ⟨logs_when (silent_emit rfl rfl),
    logs_bind.mpr ⟨silent_emit rfl rfl, logs_bind.mpr ⟨silent_emit rfl rfl,
      silent_tapCalls _ _⟩⟩⟩⟩

/-- And what follows them. -/
theorem silent_endStudy (taps : TapTable) : (endStudy answers taps).Logs Act.Silent := by
  have hwindow : (do
      emit .closeWindow
      sendLogLine (ascii "closed a GATT capture window the study left open")
      : Traced Act Unit).Logs Act.Silent :=
    logs_bind.mpr ⟨silent_emit rfl rfl, silent_emit rfl rfl⟩
  refine logs_bind.mpr ⟨logs_when hwindow, logs_bind.mpr ⟨silent_emit rfl rfl, logs_bind.mpr
    ⟨silent_tapCalls _ _, logs_bind.mpr ⟨silent_emit rfl rfl, ?_⟩⟩⟩⟩
  exact logs_bind.mpr ⟨logs_when (silent_emit rfl rfl), silent_emit rfl rfl⟩

/-- The results and the steps of a study are those of its loop. -/
theorem indices_runStudy :
    let loop := dispatchSteps answers study 0 study.steps.items (beginStudy answers study).value
    resultIndices (runStudy answers study).log = resultIndices loop.log ∧
      executedSteps (runStudy answers study).log = executedSteps loop.log := by
  have hbegin := silent_beginStudy answers study
  have hend := silent_endStudy answers
    (dispatchSteps answers study 0 study.steps.items (beginStudy answers study).value).value.2
  have hdone : ∀ completed, (sendStudyDone completed).Logs Act.Silent :=
    fun _ => silent_emit rfl rfl
  constructor
  · simp only [runStudy, log_bind, resultIndices_append, resultIndices_of_silent hbegin,
      resultIndices_of_silent hend, resultIndices_of_silent (hdone _), List.nil_append,
      List.append_nil]
  · simp only [runStudy, log_bind, executedSteps_append, executedSteps_of_silent hbegin,
      executedSteps_of_silent hend, executedSteps_of_silent (hdone _), List.nil_append,
      List.append_nil]

/-- Exactly when a study behind the guards is answered as it owes: no step that fails its
check while it asks to continue is come to. -/
theorem studyAnswers_iff (h : PassesGuards study) :
    StudyAnswers answers study (dispatchStudy answers study).log ↔
      ChecksStop answers study 0 study.steps.items := by
  obtain ⟨hresults, hexecuted⟩ := indices_runStudy answers study
  obtain ⟨earlier, hlog, hquiet⟩ := runStudy_ends answers study
  rw [dispatchStudy_eq_runStudy answers h,
    ← loopAnswers_dispatchSteps answers study _ 0 (beginStudy answers study).value]
  constructor
  · rintro ⟨hres, hexec, before, completed, hbefore, -, hdone⟩
    refine ⟨?_, ?_, ?_⟩
    · rw [← hresults, hres, List.range_eq_range']
    · rw [← hexecuted, Nat.zero_add]
      exact hexec
    · have hlast := List.append_inj_right' (hlog.symm.trans hbefore) rfl
      rw [← hdone]
      have hcompleted : Act.send (.studyDone _) = .send (.studyDone completed) :=
        List.head_eq_of_cons_eq hlast
      rw [Message.studyDone.inj (Act.send.inj hcompleted)]
  · rintro ⟨hres, hexec, hdone⟩
    refine ⟨?_, ?_, earlier, _, hlog, hquiet, hdone⟩
    · rw [hresults, hres, List.range_eq_range']
    · rw [hexecuted]
      rwa [Nat.zero_add] at hexec

end

/-- A step that names a protocol the study does not carry, and one behind it. -/
def lostProtocolStudy (continueOnFail : Bool) : StudyStart where
  steps := .ofList [⟨.copy (ascii "run"), .runProtocol 0 0, 1000, continueOnFail, 0⟩,
    ⟨.copy (ascii "unbond"), .bleUnbond, 1000, false, 0⟩] (show 2 ≤ dbmMaxStepsPerStudy by decide)
  stepsCrc := 0
  stepsCrcValid := true
  streams := .empty
  streamsCrc := 0
  streamsCrcValid := true
  hasUnsupportedAction := false
  devBenchLogLevel := 2
  protocols := .empty
  protocolsCrc := 0
  protocolsCrcValid := true

/-- Not asked to continue, the study answers as it owes. -/
theorem lostProtocolStudy_answers : StudyAnswers passingAnswers (lostProtocolStudy false)
    (dispatchStudy passingAnswers (lostProtocolStudy false)).log :=
  (studyAnswers_iff passingAnswers (lostProtocolStudy false) ⟨rfl, rfl, rfl⟩).mpr <| by
    intro j step hstep _ hcontinue
    have hnever : ∀ step ∈ (lostProtocolStudy false).steps.items, step.continueOnFail = false := by
      decide
    exact absurd ((hnever step (List.mem_of_getElem? hstep)).symm.trans hcontinue)
      Bool.false_ne_true

/-- Asked to continue, it stops all the same: the second step is neither run nor answered. -/
theorem lostProtocolStudy_stops : PassesGuards (lostProtocolStudy true) ∧
    resultIndices (dispatchStudy passingAnswers (lostProtocolStudy true)).log = [0] ∧
    ¬ StudyAnswers passingAnswers (lostProtocolStudy true)
      (dispatchStudy passingAnswers (lostProtocolStudy true)).log := by
  have hone : resultIndices (dispatchStudy passingAnswers (lostProtocolStudy true)).log = [0] := by
    decide +kernel
  have htwo : attempted passingAnswers (lostProtocolStudy true) 0
      (lostProtocolStudy true).steps.items = 2 := by decide
  refine ⟨⟨rfl, rfl, rfl⟩, hone, fun h => ?_⟩
  have hlength := congrArg List.length h.results
  rw [hone, htwo] at hlength
  exact absurd hlength (by decide)

end DevBench.Bench
