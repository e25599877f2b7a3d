import DevBench.Bench.Dispatch

/-!
# The tap calls of a study

A tap's scope is one window of step indices, so the calls of `set_tap_open` in a study
never come back to a tap they have closed.
-/

namespace DevBench.Bench

open DevBench.Core DevBench.Core.Traced DevBench.Wire

/-- Behind a window nothing is covered any more. -/
theorem covers_past {tap : StreamTap} {first k later : Nat} (hfirst : covers tap first = true)
    (hle : first ≤ k) (hk : covers tap k = false) (hlater : k ≤ later) :
    covers tap later = false := by
  cases hscope : tap.scope with
  | wholeStudy => simp [covers, hscope] at hk
  | steps scopeFrom scopeTo =>
    simp only [covers, hscope, Bool.and_eq_true, decide_eq_true_eq, Bool.and_eq_false_iff,
      decide_eq_false_iff_not] at hfirst hk ⊢
    omega

/-! ## One alignment -/

namespace TapTable

variable {want : StreamTap → Bool}

/-- Opening a tap declares none. -/
theorem studyTaps_setTapOpen (t : TapTable) (call : TapCall) :
    (t.setTapOpen call).studyTaps = t.studyTaps := by
  rw [setTapOpen, assignTranscript]
  split <;> rfl

/-- It is the one whose flag is set. -/
theorem tapOpen_setTapOpen (t : TapTable) (call : TapCall) :
    (t.setTapOpen call).tapOpen = Function.update t.tapOpen call.index call.isOpen := by
  rw [setTapOpen, assignTranscript]
  split <;> rfl

/-- Nor does setting them all. -/
theorem studyTaps_align : ∀ (taps : List StreamTap) (i : Nat) (t : TapTable),
    (align want i taps t).value.studyTaps = t.studyTaps
  | [], _, _ => rfl
  | tap :: taps, i, t => by
    rw [align]
    split
    · rw [value_bind, studyTaps_align taps, studyTaps_setTapOpen]
    · exact studyTaps_align taps (i + 1) t

/-- A call is for a tap of this node that was not as wanted. -/
theorem mem_log_align : ∀ (taps : List StreamTap) (i : Nat) (t : TapTable),
    ∀ call ∈ (align want i taps t).log, i ≤ call.index ∧
      ∃ tap, taps[call.index - i]? = some tap ∧ isOurs tap = true ∧ call.isOpen = want tap ∧
        t.tapOpen call.index ≠ want tap
  | [], _, _, _, h => absurd h List.not_mem_nil
  | tap :: taps, i, t, call, h => by
    have hrest : ∀ t' : TapTable, (∀ j, i < j → t'.tapOpen j = t.tapOpen j) →
        call ∈ (align want (i + 1) taps t').log → i ≤ call.index ∧
          ∃ tap', (tap :: taps)[call.index - i]? = some tap' ∧ isOurs tap' = true ∧
            call.isOpen = want tap' ∧ t.tapOpen call.index ≠ want tap' := by
      intro t' hsame hcall
      obtain ⟨hle, tap', htap, hours, hopen, hne⟩ := mem_log_align taps (i + 1) t' call hcall
      refine ⟨by omega, tap', ?_, hours, hopen, hsame call.index (by omega) ▸ hne⟩
      rw [show call.index - i = call.index - (i + 1) + 1 by omega, List.getElem?_cons_succ]
      exact htap
    rw [align] at h
    split at h
    · next hdiffers =>
      rw [log_bind, log_emit, List.singleton_append, List.mem_cons] at h
      rcases h with rfl | h
      · exact ⟨Nat.le_refl i, tap, by simp, hdiffers.1, rfl, Ne.symm hdiffers.2⟩
      · refine hrest _ (fun j hj => ?_) h
        rw [tapOpen_setTapOpen, Function.update_of_ne (Nat.ne_of_gt hj)]
    · exact hrest t (fun _ _ => rfl) h

/-- The calls of an alignment go up the table. -/
theorem pairwise_log_align : ∀ (taps : List StreamTap) (i : Nat) (t : TapTable),
    (align want i taps t).log.Pairwise fun a b => a.index < b.index
  | [], _, _ => List.Pairwise.nil
  | tap :: taps, i, t => by
    rw [align]
    split
    · rw [log_bind, log_emit, List.singleton_append]
      refine List.Pairwise.cons (fun call hcall => ?_) (pairwise_log_align taps (i + 1) _)
      exact Nat.lt_of_succ_le (mem_log_align taps (i + 1) _ call hcall).1
    · exact pairwise_log_align taps (i + 1) t

/-- The tap at an index of the part of the table that starts at index `i`. -/
def tapAt (taps : List StreamTap) (i j : Nat) : Option StreamTap :=
  if i ≤ j then taps[j - i]? else none

/-- Behind an alignment a tap of this node is as wanted, and any other as it was. -/
theorem tapOpen_align : ∀ (taps : List StreamTap) (i : Nat) (t : TapTable) (j : Nat),
    (align want i taps t).value.tapOpen j =
      match tapAt taps i j with
      | some tap => if isOurs tap = true then want tap else t.tapOpen j
      | none => t.tapOpen j
  | [], i, t, j => by
    rw [tapAt, List.getElem?_nil, ite_self]
    rfl
  | tap :: taps, i, t, j => by
    have hrest : (align want i (tap :: taps) t).value =
        (align want (i + 1) taps (if isOurs tap = true ∧ want tap ≠ t.tapOpen i then
          t.setTapOpen ⟨i, want tap⟩ else t)).value := by
      rw [align]
      split
      · rfl
      · rfl
    have hset : ∀ j, (if isOurs tap = true ∧ want tap ≠ t.tapOpen i then
        t.setTapOpen ⟨i, want tap⟩ else t).tapOpen j =
          if j = i ∧ isOurs tap = true then want tap else t.tapOpen j := by
      intro j
      split
      · next h =>
        rw [tapOpen_setTapOpen, Function.update_apply]
        simp only [h.1, and_true]
      · next h =>
        split
        · next hj =>
          rw [hj.1]
          exact (not_not.mp fun hne => h ⟨hj.2, Ne.symm hne⟩)
        · rfl
    rw [hrest, tapOpen_align taps (i + 1)]
    simp only [hset]
    rcases Nat.lt_trichotomy j i with hlt | rfl | hgt
    · have hne : j ≠ i := Nat.ne_of_lt hlt
      simp only [tapAt, if_neg (Nat.not_le.mpr hlt), if_neg (show ¬ i + 1 ≤ j by omega), hne,
        false_and, if_false]
    · simp only [tapAt, if_neg (Nat.not_succ_le_self j), Nat.le_refl, if_true, Nat.sub_self,
        List.getElem?_cons_zero, true_and]
    · have hne : j ≠ i := Nat.ne_of_gt hgt
      have hindex : j - i = j - (i + 1) + 1 := by omega
      simp only [tapAt, if_pos (show i + 1 ≤ j by omega), if_pos (Nat.le_of_lt hgt), hindex,
        List.getElem?_cons_succ, hne, false_and, if_false]

/-! ## One step -/

/-- Every open tap was covered by then. -/
def Started (t : TapTable) (stepIndex : Nat) : Prop :=
  ∀ j, t.tapOpen j = true →
    ∃ tap first, t.studyTaps[j]? = some tap ∧ first ≤ stepIndex ∧ covers tap first = true

/-- The tap is closed and its window is behind. -/
def Over (t : TapTable) (stepIndex j : Nat) : Prop :=
  t.tapOpen j = false ∧
    ∀ tap, t.studyTaps[j]? = some tap → ∀ k, stepIndex ≤ k → covers tap k = false

variable {t : TapTable} {i j : Nat}

/-- A call of the step is for a tap of the bench whose flag was wrong. -/
theorem mem_log_sync {call : TapCall} (h : call ∈ (t.syncTapsForStep i).log) :
    ∃ tap, t.studyTaps[call.index]? = some tap ∧ isOurs tap = true ∧
      call.isOpen = covers tap i ∧ t.tapOpen call.index ≠ covers tap i := by
  obtain ⟨_, tap, htap, hrest⟩ := mem_log_align _ _ _ call h
  exact ⟨tap, by rwa [Nat.sub_zero] at htap, hrest⟩

/-- Behind it every such tap is open where its scope covers the step. -/
theorem tapOpen_sync (t : TapTable) (i j : Nat) : (t.syncTapsForStep i).value.tapOpen j =
    match t.studyTaps[j]? with
    | some tap => if isOurs tap = true then covers tap i else t.tapOpen j
    | none => t.tapOpen j := by
  rw [syncTapsForStep, tapOpen_align, tapAt, if_pos (Nat.zero_le j), Nat.sub_zero]

/-- The taps are those of the study throughout. -/
theorem studyTaps_sync (t : TapTable) (i : Nat) :
    (t.syncTapsForStep i).value.studyTaps = t.studyTaps := studyTaps_align _ _ _

/-- From one step to the next. -/
theorem Started.sync (h : t.Started i) : (t.syncTapsForStep i).value.Started (i + 1) := by
  intro j hopen
  rw [studyTaps_sync]
  have hbefore : t.tapOpen j = true →
      ∃ tap first, t.studyTaps[j]? = some tap ∧ first ≤ i + 1 ∧ covers tap first = true := by
    intro hj
    obtain ⟨tap, first, htap, hle, hcovers⟩ := h j hj
    exact ⟨tap, first, htap, Nat.le_succ_of_le hle, hcovers⟩
  rw [tapOpen_sync] at hopen
  cases htap : t.studyTaps[j]? with
  | none =>
    rw [htap] at hopen
    exact htap ▸ hbefore hopen
  | some tap =>
    rw [htap] at hopen
    simp only at hopen
    split at hopen
    · exact ⟨tap, i, rfl, Nat.le_succ i, hopen⟩
    · exact htap ▸ hbefore hopen

/-- The first alignment of a study opens taps only. -/
theorem isOpen_of_mem_log_sync (hclosed : ∀ j, t.tapOpen j = false) {call : TapCall}
    (h : call ∈ (t.syncTapsForStep i).log) : call.isOpen = true := by
  obtain ⟨tap, _, _, hopen, hne⟩ := mem_log_sync h
  rw [hclosed call.index] at hne
  exact hopen.trans (Bool.eq_true_of_not_eq_false hne.symm)

/-- From the first step on. -/
theorem started_sync (hclosed : ∀ j, t.tapOpen j = false) :
    (t.syncTapsForStep i).value.Started i := by
  intro j hopen
  rw [studyTaps_sync]
  rw [tapOpen_sync] at hopen
  cases htap : t.studyTaps[j]? with
  | none =>
    rw [htap, hclosed] at hopen
    exact absurd hopen Bool.false_ne_true
  | some tap =>
    rw [htap] at hopen
    simp only at hopen
    split at hopen
    · exact ⟨tap, i, rfl, Nat.le_refl i, hopen⟩
    · exact absurd (hclosed j ▸ hopen) Bool.false_ne_true

/-- A tap that is over is not called for, and stays over. -/
theorem Over.sync (h : t.Over i j) : (∀ call ∈ (t.syncTapsForStep i).log, call.index ≠ j) ∧
    (t.syncTapsForStep i).value.Over (i + 1) j := by
  refine ⟨?_, ?_, ?_⟩
  · rintro call hcall rfl
    obtain ⟨tap, htap, _, _, hne⟩ := mem_log_sync hcall
    exact hne (h.1.trans (h.2 tap htap i (Nat.le_refl i)).symm)
  · rw [tapOpen_sync]
    cases htap : t.studyTaps[j]? with
    | none => exact h.1
    | some tap =>
      simp only
      split
      · exact h.2 tap htap i (Nat.le_refl i)
      · exact h.1
  · intro tap htap k hk
    rw [studyTaps_sync] at htap
    exact h.2 tap htap k (Nat.le_of_succ_le hk)

/-- A tap that is closed is over. -/
theorem Started.over (h : t.Started i) {call : TapCall}
    (hcall : call ∈ (t.syncTapsForStep i).log) (hclose : call.isOpen = false) :
    (t.syncTapsForStep i).value.Over (i + 1) call.index := by
  obtain ⟨tap, htap, hours, hwant, hne⟩ := mem_log_sync hcall
  have hnot : covers tap i = false := hwant.symm.trans hclose
  have hopen : t.tapOpen call.index = true := by
    rw [hnot] at hne
    exact Bool.eq_true_of_not_eq_false hne
  obtain ⟨tap', first, htap', hle, hcovers⟩ := h call.index hopen
  obtain rfl := Option.some.inj (htap.symm.trans htap')
  refine ⟨?_, ?_⟩
  · rw [tapOpen_sync, htap]
    simp only [hours, if_true, hnot]
  · intro tap' htap' k hk
    rw [studyTaps_sync] at htap'
    obtain rfl := Option.some.inj (htap.symm.trans htap')
    exact covers_past hcovers hle hnot (Nat.le_of_succ_le hk)

/-- Closing all taps calls for the open ones only. -/
theorem mem_log_closeAll {call : TapCall} (h : call ∈ t.closeAllTaps.log) :
    t.tapOpen call.index = true := by
  obtain ⟨_, _, _, _, _, hne⟩ := mem_log_align _ _ _ call h
  exact Bool.eq_true_of_not_eq_false hne

end TapTable

/-! ## A whole study -/

/-- No call comes back to a tap that was closed. -/
def ClosedOnce (calls : List TapCall) : Prop :=
  calls.Pairwise fun a b => a.isOpen = false → b.index ≠ a.index

/-- Calls in ascending order close no tap twice. -/
theorem closedOnce_of_ascending {calls : List TapCall}
    (h : calls.Pairwise fun a b => a.index < b.index) : ClosedOnce calls :=
  h.imp fun {a b} (hlt : a.index < b.index) (_ : a.isOpen = false) => Nat.ne_of_gt hlt

/-- The tap call an act is, if it is one. -/
def Act.tapCall : Act → Option TapCall
  | setTapOpen tap isOpen _ => some ⟨tap, isOpen⟩
  | _ => none

/-- The calls of `set_tap_open`, in order. -/
def callsOf (acts : List Act) : List TapCall := acts.filterMap Act.tapCall

/-- The calls come one part after the other. -/
theorem callsOf_append (xs ys : List Act) : callsOf (xs ++ ys) = callsOf xs ++ callsOf ys :=
  List.filterMap_append

/-- Those of the taps are what is logged. -/
theorem callsOf_tapCalls (dropped : Nat → UInt32) (m : Traced TapCall TapTable) :
    callsOf (tapCalls dropped m).log = m.log := by
  rw [callsOf, tapCalls, List.filterMap_map]
  exact List.filterMap_some

/-- Any other act is none. -/
theorem callsOf_emit (act : Act) (h : act.tapCall = none) : callsOf (emit act).log = [] := by
  rw [log_emit, callsOf, List.filterMap_cons_none h, List.filterMap_nil]

/-- A line of the log makes none. -/
theorem callsOf_sendLogLine (text : List UInt8) : callsOf (sendLogLine text).log = [] := rfl

/-- Nor does what is left out. -/
theorem callsOf_when {c : Prop} [Decidable c] {m : Traced Act Unit} (h : callsOf m.log = []) :
    callsOf (when c m).log = [] := by
  rw [when]
  split
  · exact h
  · rfl

section

variable (answers : Answers) (study : StudyStart)

/-- A step either does not touch the taps and ends the loop, or brings them in line with
itself and then ends the loop or leaves them to the steps behind it. -/
theorem callsOf_dispatchSteps_cons (i : Nat) (step : Step) (steps : List Step) (t : TapTable) :
    (callsOf (dispatchSteps answers study i (step :: steps) t).log = [] ∧
      (dispatchSteps answers study i (step :: steps) t).value.2 = t) ∨
    (callsOf (dispatchSteps answers study i (step :: steps) t).log = (t.syncTapsForStep i).log ∧
      (dispatchSteps answers study i (step :: steps) t).value.2 = (t.syncTapsForStep i).value) ∨
    (callsOf (dispatchSteps answers study i (step :: steps) t).log = (t.syncTapsForStep i).log ++
        callsOf (dispatchSteps answers study (i + 1) steps (t.syncTapsForStep i).value).log ∧
      (dispatchSteps answers study i (step :: steps) t).value.2 =
        (dispatchSteps answers study (i + 1) steps (t.syncTapsForStep i).value).value.2) := by
  have hacts : callsOf (stepActs answers study i step t) = (t.syncTapsForStep i).log := by
    have hsleep : callsOf (when (step.delayBeforeMs > 0) <|
        emit (.sleep step.delayBeforeMs)).log = [] := callsOf_when (callsOf_emit _ rfl)
    simp only [stepActs, callsOf_append, callsOf_tapCalls, hsleep, callsOf_emit (.stampStep i) rfl,
      callsOf_emit (.execute i _ step.timeoutMs) rfl, sendStepResult, callsOf_emit (.send _) rfl,
      List.nil_append, List.append_nil]
  cases hfault : stepFault study step with
  | some reason =>
    rw [dispatchSteps_fault hfault]
    exact .inl ⟨rfl, rfl⟩
  | none =>
    by_cases hends : (answers.outcome i).kind ≠ .pass ∧ step.continueOnFail = false
    · rw [dispatchSteps_stop hfault hends]
      exact .inr (.inl ⟨hacts, rfl⟩)
    · rw [dispatchSteps_next hfault hends]
      exact .inr (.inr ⟨by rw [callsOf_append, hacts], rfl⟩)

/-- The loop does not come back to a tap that is over. -/
theorem over_dispatchSteps {j : Nat} : ∀ (steps : List Step) {i : Nat} {t : TapTable},
    t.Over i j →
      (∀ call ∈ callsOf (dispatchSteps answers study i steps t).log, call.index ≠ j) ∧
      (dispatchSteps answers study i steps t).value.2.tapOpen j = false
  | [], _, _, h => ⟨nofun, h.1⟩
  | step :: steps, i, t, h => by
    obtain ⟨hcalls, hover⟩ := h.sync
    rcases callsOf_dispatchSteps_cons answers study i step steps t with
      ⟨hlog, hvalue⟩ | ⟨hlog, hvalue⟩ | ⟨hlog, hvalue⟩
    · rw [hlog, hvalue]
      exact ⟨nofun, h.1⟩
    · rw [hlog, hvalue]
      exact ⟨hcalls, hover.1⟩
    · obtain ⟨hrest, hopen⟩ := over_dispatchSteps steps hover
      rw [hlog, hvalue]
      refine ⟨fun call hcall => ?_, hopen⟩
      rcases List.mem_append.mp hcall with hcall | hcall
      · exact hcalls call hcall
      · exact hrest call hcall

/-- The loop closes a tap at most once, and leaves it closed. -/
theorem closedOnce_dispatchSteps : ∀ (steps : List Step) {i : Nat} {t : TapTable}, t.Started i →
    ClosedOnce (callsOf (dispatchSteps answers study i steps t).log) ∧
      ∀ call ∈ callsOf (dispatchSteps answers study i steps t).log, call.isOpen = false →
        (dispatchSteps answers study i steps t).value.2.tapOpen call.index = false
  | [], _, _, _ => ⟨List.Pairwise.nil, nofun⟩
  | step :: steps, i, t, h => by
    have hsync : ClosedOnce (t.syncTapsForStep i).log :=
      closedOnce_of_ascending (TapTable.pairwise_log_align _ _ _)
    rcases callsOf_dispatchSteps_cons answers study i step steps t with
      ⟨hlog, hvalue⟩ | ⟨hlog, hvalue⟩ | ⟨hlog, hvalue⟩
    · rw [hlog]
      exact ⟨List.Pairwise.nil, nofun⟩
    · rw [hlog, hvalue]
      exact ⟨hsync, fun call hcall hclose => (h.over hcall hclose).1⟩
    · obtain ⟨hrest, hclosed⟩ := closedOnce_dispatchSteps steps h.sync
      rw [hlog, hvalue]
      refine ⟨List.pairwise_append.mpr ⟨hsync, hrest, ?_⟩, ?_⟩
      · intro a ha b hb hclose
        exact (over_dispatchSteps answers study steps (h.over ha hclose)).1 b hb
      · intro call hcall hclose
        rcases List.mem_append.mp hcall with hcall | hcall
        · exact (over_dispatchSteps answers study steps (h.over hcall hclose)).2
        · exact hclosed call hcall hclose

end

/-- What a study calls for: its first alignment, its loop and the closing at its end. -/
theorem callsOf_runStudy (answers : Answers) (study : StudyStart) :
    callsOf (runStudy answers study).log =
      ((loadStudyTaps study.streams.items).syncTapsForStep 0).log ++
        (callsOf (dispatchSteps answers study 0 study.steps.items
            ((loadStudyTaps study.streams.items).syncTapsForStep 0).value).log ++
          (dispatchSteps answers study 0 study.steps.items ((loadStudyTaps
            study.streams.items).syncTapsForStep 0).value).value.2.closeAllTaps.log) := by
  have hbegin : callsOf (beginStudy answers study).log =
      ((loadStudyTaps study.streams.items).syncTapsForStep 0).log := by
    simp only [beginStudy, log_bind, callsOf_append, callsOf_tapCalls,
      callsOf_when (callsOf_sendLogLine _), callsOf_emit (.setLevel _) rfl,
      callsOf_emit .resetTranscriptDropped rfl,
      callsOf_emit (.loadTaps _) rfl, List.nil_append]
  have hend : ∀ taps : TapTable, callsOf (endStudy answers taps).log = taps.closeAllTaps.log := by
    intro taps
    have hclose : callsOf (do
        emit Act.closeWindow
        sendLogLine (ascii "closed a GATT capture window the study left open")).log = [] := rfl
    simp only [endStudy, log_bind, callsOf_append, callsOf_tapCalls, callsOf_when hclose,
      callsOf_when (callsOf_sendLogLine _), callsOf_emit .drain rfl, callsOf_emit .clearBonds rfl,
      callsOf_emit (.setLevel _) rfl, List.nil_append, List.append_nil]
  rw [runStudy, log_bind, log_bind, log_bind, callsOf_append, callsOf_append, callsOf_append,
    hbegin, hend]
  exact congrArg _ (congrArg _ (List.append_nil _))

/-- A study never comes back to a tap it has closed. -/
theorem closedOnce_runStudy (answers : Answers) (study : StudyStart) :
    ClosedOnce (callsOf (runStudy answers study).log) := by
  have hloaded : ∀ j, (loadStudyTaps study.streams.items).tapOpen j = false := fun _ => rfl
  obtain ⟨hsteps, hclosed⟩ := closedOnce_dispatchSteps answers study study.steps.items
    (TapTable.started_sync (i := 0) hloaded)
  rw [callsOf_runStudy]
  refine List.pairwise_append.mpr
    ⟨closedOnce_of_ascending (TapTable.pairwise_log_align _ _ _),
      List.pairwise_append.mpr
        ⟨hsteps, closedOnce_of_ascending (TapTable.pairwise_log_align _ _ _), ?_⟩, ?_⟩
  · rintro a ha b hb hclose heq
    have hopen := TapTable.mem_log_closeAll hb
    rw [heq, hclosed a ha hclose] at hopen
    exact absurd hopen Bool.false_ne_true
  · intro a ha b _ hclose
    rw [TapTable.isOpen_of_mem_log_sync hloaded ha] at hclose
    exact absurd hclose Bool.false_ne_true.symm

end DevBench.Bench
