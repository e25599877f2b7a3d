import DevBench.Bench.Gate
import DevBench.Bench.TapCalls

/-!
# The windows of taps

While a step of a study is executed the open taps are those whose scope covers it, and
over the whole study a tap is opened and closed once or not at all.
-/

namespace DevBench.Bench

open DevBench.Core DevBench.Core.Traced DevBench.Wire

/-! ## The open taps along a list of calls -/

/-- What one call makes of `tap_open[]`. -/
def Act.assign (tapOpen : Nat → Bool) : Act → Nat → Bool
  | loadTaps _ => fun _ => false
  | setTapOpen tap isOpen _ => Function.update tapOpen tap isOpen
  | _ => tapOpen

/-- `tap_open[]` behind a list of calls. -/
def openAfter (tapOpen : Nat → Bool) (acts : List Act) : Nat → Bool := acts.foldl Act.assign tapOpen

/-- The tap is one of this node whose scope covers the step. -/
def Covered (taps : List StreamTap) (stepIndex j : Nat) : Prop :=
  ∃ tap, taps[j]? = some tap ∧ isOurs tap = true ∧ covers tap stepIndex = true

/-- Exactly the covered taps are open when a step is executed. -/
def InWindow (taps : List StreamTap) : (Nat → Bool) → List Act → Prop
  | _, [] => True
  | tapOpen, act :: acts =>
    (∀ i action timeoutMs, act = .execute i action timeoutMs →
      ∀ j, tapOpen j = true ↔ Covered taps i j) ∧ InWindow taps (act.assign tapOpen) acts

theorem openAfter_append (tapOpen : Nat → Bool) (xs ys : List Act) :
    openAfter tapOpen (xs ++ ys) = openAfter (openAfter tapOpen xs) ys := List.foldl_append

section

variable {taps : List StreamTap}

theorem inWindow_append : ∀ {xs ys : List Act} {tapOpen : Nat → Bool},
    InWindow taps tapOpen (xs ++ ys) ↔
      InWindow taps tapOpen xs ∧ InWindow taps (openAfter tapOpen xs) ys
  | [], _, _ => (true_and _).symm ▸ Iff.rfl
  | x :: xs, ys, tapOpen => by
    rw [List.cons_append, InWindow, InWindow, inWindow_append, and_assoc]
    rfl

/-- The open taps at a call of the list. -/
theorem InWindow.at_execute {acts before after : List Act} {tapOpen : Nat → Bool} {i : Nat}
    {action : BridgeAction} {timeoutMs : UInt32} (h : InWindow taps tapOpen acts)
    (hacts : acts = before ++ .execute i action timeoutMs :: after) (j : Nat) :
    openAfter tapOpen before j = true ↔ Covered taps i j := by
  rw [hacts, inWindow_append] at h
  exact h.2.1 i action timeoutMs rfl j

/-- Calls that execute nothing are in any window. -/
theorem inWindow_of_not_execute : ∀ {acts : List Act} {tapOpen : Nat → Bool},
    (∀ act ∈ acts, act.isExecute = false) → InWindow taps tapOpen acts
  | [], _, _ => trivial
  | act :: acts, _, h =>
    ⟨fun i action timeoutMs hact => by
        have hexec := h act List.mem_cons_self
        rw [hact] at hexec
        exact absurd hexec Bool.false_ne_true.symm,
      inWindow_of_not_execute fun act hact => h act (List.mem_cons_of_mem _ hact)⟩

theorem inWindow_of_quiet {α : Type} {m : Traced Act α} {tapOpen : Nat → Bool}
    (h : m.Logs Act.Quiet) : InWindow taps tapOpen m.log :=
  inWindow_of_not_execute fun act hact => (h act hact).1

end

/-- `tap_open[]` behind the calls of `set_tap_open`. -/
def replay (tapOpen : Nat → Bool) (calls : List TapCall) : Nat → Bool :=
  calls.foldl (fun t call => Function.update t call.index call.isOpen) tapOpen

theorem replay_append (tapOpen : Nat → Bool) (xs ys : List TapCall) :
    replay tapOpen (xs ++ ys) = replay (replay tapOpen xs) ys := List.foldl_append

/-- Between two loads of taps only the calls of `set_tap_open` count. -/
theorem openAfter_eq_replay : ∀ {acts : List Act} (tapOpen : Nat → Bool),
    (∀ act ∈ acts, ∀ streams, act ≠ .loadTaps streams) →
      openAfter tapOpen acts = replay tapOpen (callsOf acts)
  | [], _, _ => rfl
  | act :: acts, tapOpen, h => by
    have hrest : ∀ t, openAfter t acts = replay t (callsOf acts) := fun t =>
      openAfter_eq_replay t fun act hact => h act (List.mem_cons_of_mem _ hact)
    rw [openAfter, List.foldl_cons]
    cases act with
    | loadTaps streams => exact absurd rfl (h _ List.mem_cons_self streams)
    | setTapOpen tap isOpen dropped => exact hrest _
    | _ => exact hrest _

/-! ## One alignment -/

namespace TapTable

variable {want : StreamTap → Bool}

/-- The calls of an alignment say which taps are open behind it. -/
theorem replay_log_align : ∀ (taps : List StreamTap) (i : Nat) (t : TapTable),
    replay t.tapOpen (align want i taps t).log = (align want i taps t).value.tapOpen
  | [], _, _ => rfl
  | tap :: taps, i, t => by
    rw [align]
    split
    · rw [log_bind, log_emit, List.singleton_append, value_bind, ← replay_log_align taps (i + 1),
        tapOpen_setTapOpen]
      rfl
    · exact replay_log_align taps (i + 1) t

/-- No tap is open but those of this node. -/
def OnlyOurs (t : TapTable) : Prop :=
  ∀ j, t.tapOpen j = true → ∃ tap, t.studyTaps[j]? = some tap ∧ isOurs tap = true

variable {t : TapTable}

theorem OnlyOurs.sync (h : t.OnlyOurs) (i : Nat) : (t.syncTapsForStep i).value.OnlyOurs := by
  intro j hopen
  rw [studyTaps_sync]
  rw [tapOpen_sync] at hopen
  cases htap : t.studyTaps[j]? with
  | none =>
    rw [htap] at hopen
    exact htap ▸ h j hopen
  | some tap =>
    rw [htap] at hopen
    simp only at hopen
    split at hopen
    · next hours => exact ⟨tap, rfl, hours⟩
    · exact htap ▸ h j hopen

/-- Behind the alignment for a step the open taps are the covered ones. -/
theorem OnlyOurs.covered_sync (h : t.OnlyOurs) (i j : Nat) :
    (t.syncTapsForStep i).value.tapOpen j = true ↔ Covered t.studyTaps i j := by
  rw [tapOpen_sync, Covered]
  cases htap : t.studyTaps[j]? with
  | none =>
    simp only [reduceCtorEq, false_and, exists_false, iff_false]
    intro hopen
    obtain ⟨tap, hsome, _⟩ := h j hopen
    exact absurd (htap.symm.trans hsome) (Option.some_ne_none tap).symm
  | some tap =>
    simp only [Option.some.injEq, exists_eq_left']
    by_cases hours : isOurs tap = true
    · simp only [hours, if_true, true_and]
    · simp only [hours, false_and, iff_false, Bool.false_eq_true, if_false]
      intro hopen
      obtain ⟨tap', hsome, hours'⟩ := h j hopen
      rw [htap] at hsome
      exact hours (Option.some.inj hsome ▸ hours')

end TapTable

/-! ## The loop over the steps -/

section

variable (answers : Answers) (study : StudyStart)

theorem ne_loadTaps_of_tapCalls {dropped : Nat → UInt32} {m : Traced TapCall TapTable} :
    ∀ act ∈ (tapCalls dropped m).log, ∀ streams, act ≠ .loadTaps streams := by
  intro act hact streams hload
  obtain ⟨call, _, rfl⟩ := List.mem_map.mp hact
  exact Act.noConfusion hload

/-- The calls of an alignment leave open what its table says. -/
theorem openAfter_tapCalls (dropped : Nat → UInt32) (want : StreamTap → Bool) (i : Nat)
    (taps : List StreamTap) (t : TapTable) :
    openAfter t.tapOpen (tapCalls dropped (t.align want i taps)).log =
      (t.align want i taps).value.tapOpen := by
  rw [openAfter_eq_replay _ ne_loadTaps_of_tapCalls, callsOf_tapCalls, TapTable.replay_log_align]

/-- A call that neither loads, opens nor closes taps, made on a condition. -/
theorem openAfter_when (tapOpen : Nat → Bool) {c : Prop} [Decidable c] {act : Act}
    (h : act.assign tapOpen = tapOpen) : openAfter tapOpen (when c (emit act)).log = tapOpen := by
  rw [when]
  split
  · exact h
  · rfl

/-- A step is executed with the covered taps open, which it leaves open. -/
theorem inWindow_stepActs {t : TapTable} (h : t.OnlyOurs) (i : Nat) (step : Step) :
    InWindow t.studyTaps t.tapOpen (stepActs answers study i step t) ∧
      openAfter t.tapOpen (stepActs answers study i step t) =
        (t.syncTapsForStep i).value.tapOpen := by
  have hstamp : openAfter t.tapOpen (emit (.stampStep i)).log = t.tapOpen := rfl
  have hsync : openAfter t.tapOpen (tapCalls (answers.droppedAtStep i)
      (t.syncTapsForStep i)).log = (t.syncTapsForStep i).value.tapOpen :=
    openAfter_tapCalls _ _ _ _ _
  have hsleep : openAfter (t.syncTapsForStep i).value.tapOpen (when (step.delayBeforeMs > 0) <|
      emit (.sleep step.delayBeforeMs)).log = (t.syncTapsForStep i).value.tapOpen :=
    openAfter_when _ rfl
  simp only [stepActs, openAfter_append, inWindow_append, hstamp, hsync, hsleep]
  refine ⟨⟨⟨⟨⟨⟨?_, trivial⟩, inWindow_of_quiet (quiet_tapCalls _ _)⟩,
    inWindow_of_quiet (logs_when (quiet_emit rfl rfl))⟩, ⟨?_, trivial⟩⟩, ⟨?_, trivial⟩⟩, rfl⟩
  · intro _ _ _ hact
    cases hact
  · intro k action timeoutMs hact j
    obtain ⟨rfl, -, -⟩ := Act.execute.inj hact
    exact h.covered_sync i j
  · intro _ _ _ hact
    cases hact

/-- Steps are executed with the covered taps open, and the loop leaves open what its table says. -/
theorem inWindow_dispatchSteps : ∀ (steps : List Step) (i : Nat) {t : TapTable}, t.OnlyOurs →
    InWindow t.studyTaps t.tapOpen (dispatchSteps answers study i steps t).log ∧
    (dispatchSteps answers study i steps t).value.2.studyTaps = t.studyTaps
  | [], _, _, _ => ⟨trivial, rfl⟩
  | step :: steps, i, t, h => by
    obtain ⟨hstep, hopen⟩ := inWindow_stepActs answers study h i step
    cases hfault : stepFault study step with
    | some reason =>
      rw [dispatchSteps_fault hfault]
      refine ⟨⟨?_, trivial⟩, rfl⟩
      intro _ _ _ hact
      cases hact
    | none =>
      by_cases hends : (answers.outcome i).kind ≠ .pass ∧ step.continueOnFail = false
      · rw [dispatchSteps_stop hfault hends]
        exact ⟨hstep, TapTable.studyTaps_sync t i⟩
      · obtain ⟨hwindow, htaps⟩ := inWindow_dispatchSteps steps (i + 1) (h.sync i)
        rw [TapTable.studyTaps_sync] at hwindow htaps
        rw [dispatchSteps_next hfault hends, inWindow_append, hopen]
        exact ⟨⟨hstep, hwindow⟩, htaps⟩

end

/-! ## One opening, one closing -/

/-- Every call changes its tap. -/
def Alternates : (Nat → Bool) → List TapCall → Prop
  | _, [] => True
  | tapOpen, call :: calls => tapOpen call.index ≠ call.isOpen ∧
      Alternates (Function.update tapOpen call.index call.isOpen) calls

theorem alternates_append : ∀ {xs ys : List TapCall} {tapOpen : Nat → Bool},
    Alternates tapOpen (xs ++ ys) ↔ Alternates tapOpen xs ∧ Alternates (replay tapOpen xs) ys
  | [], _, _ => (true_and _).symm ▸ Iff.rfl
  | x :: xs, ys, tapOpen => by
    rw [List.cons_append, Alternates, Alternates, alternates_append, and_assoc]
    rfl

theorem TapTable.alternates_align {want : StreamTap → Bool} :
    ∀ (taps : List StreamTap) (i : Nat) (t : TapTable),
      Alternates t.tapOpen (align want i taps t).log
  | [], _, _ => trivial
  | tap :: taps, i, t => by
    rw [align]
    split
    · next hdiffers =>
      have hrest : Alternates (t.setTapOpen ⟨i, want tap⟩).tapOpen
          (align want (i + 1) taps (t.setTapOpen ⟨i, want tap⟩)).log := alternates_align taps _ _
      rw [tapOpen_setTapOpen] at hrest
      exact ⟨Ne.symm hdiffers.2, hrest⟩
    · exact alternates_align taps (i + 1) t

section

variable {calls : List TapCall} {tapOpen : Nat → Bool} {j : Nat}

/-- An open tap that ends closed is closed once. -/
theorem calls_of_open : ∀ {calls : List TapCall} {tapOpen : Nat → Bool},
    Alternates tapOpen calls → ClosedOnce calls → tapOpen j = true →
      replay tapOpen calls j = false →
      (calls.filter fun call => call.index = j) = [⟨j, false⟩]
  | [], _, _, _, hopen, hend => absurd (hopen.symm.trans hend) Bool.false_ne_true.symm
  | call :: calls, tapOpen, halt, honce, hopen, hend => by
    obtain ⟨hbehind, hrest⟩ := List.pairwise_cons.mp honce
    by_cases hj : call.index = j
    · subst hj
      have hclose : call.isOpen = false := by
        have hne := halt.1
        rw [hopen] at hne
        exact (Bool.eq_false_of_not_eq_true hne.symm)
      have hnone : (calls.filter fun c => c.index = call.index) = [] :=
        List.filter_eq_nil_iff.mpr fun c hc heq => hbehind c hc hclose (of_decide_eq_true heq)
      rw [List.filter_cons_of_pos (by simp), hnone, ← hclose]
    · rw [List.filter_cons_of_neg (by simpa using hj)]
      refine calls_of_open halt.2 hrest ?_ hend
      rw [Function.update_of_ne (Ne.symm hj)]
      exact hopen

/-- A closed tap that ends closed is opened and closed once or not called for. -/
theorem calls_of_closed : ∀ {calls : List TapCall} {tapOpen : Nat → Bool},
    Alternates tapOpen calls → ClosedOnce calls → tapOpen j = false →
      replay tapOpen calls j = false →
        (calls.filter fun call => call.index = j) = [] ∨
        (calls.filter fun call => call.index = j) = [⟨j, true⟩, ⟨j, false⟩]
  | [], _, _, _, _, _ => .inl rfl
  | call :: calls, tapOpen, halt, honce, hclosed, hend => by
    obtain ⟨_, hrest⟩ := List.pairwise_cons.mp honce
    by_cases hj : call.index = j
    · subst hj
      have hopen : call.isOpen = true := by
        have hne := halt.1
        rw [hclosed] at hne
        exact Bool.eq_true_of_not_eq_false hne.symm
      have hbehind := calls_of_open (j := call.index) halt.2 hrest
        (by rw [Function.update_self, hopen]) hend
      rw [List.filter_cons_of_pos (by simp), hbehind, ← hopen]
      exact .inr rfl
    · rw [List.filter_cons_of_neg (by simpa using hj)]
      refine calls_of_closed halt.2 hrest ?_ hend
      rw [Function.update_of_ne (Ne.symm hj)]
      exact hclosed

end

/-! ## A whole study -/

section

variable (answers : Answers) (study : StudyStart)

/-- Each call of the loop changes its tap, and they end in the table the loop ends in. -/
theorem alternates_dispatchSteps : ∀ (steps : List Step) (i : Nat) {t : TapTable}, t.OnlyOurs →
    Alternates t.tapOpen (callsOf (dispatchSteps answers study i steps t).log) ∧
    replay t.tapOpen (callsOf (dispatchSteps answers study i steps t).log) =
      (dispatchSteps answers study i steps t).value.2.tapOpen ∧
    (dispatchSteps answers study i steps t).value.2.OnlyOurs
  | [], _, _, h => ⟨trivial, rfl, h⟩
  | step :: steps, i, t, h => by
    have hsync : Alternates t.tapOpen (t.syncTapsForStep i).log :=
      TapTable.alternates_align _ _ _
    have hreplay : replay t.tapOpen (t.syncTapsForStep i).log =
        (t.syncTapsForStep i).value.tapOpen := TapTable.replay_log_align _ _ _
    rcases callsOf_dispatchSteps_cons answers study i step steps t with
      ⟨hlog, hvalue⟩ | ⟨hlog, hvalue⟩ | ⟨hlog, hvalue⟩
    · rw [hlog, hvalue]
      exact ⟨trivial, rfl, h⟩
    · rw [hlog, hvalue]
      exact ⟨hsync, hreplay, h.sync i⟩
    · obtain ⟨halt, hend, hours⟩ := alternates_dispatchSteps steps (i + 1) (h.sync i)
      rw [hlog, hvalue, alternates_append, replay_append, hreplay]
      exact ⟨⟨hsync, halt⟩, hend, hours⟩

theorem onlyOurs_loadStudyTaps (streams : List StreamTap) : (loadStudyTaps streams).OnlyOurs :=
  fun _ hopen => absurd hopen Bool.false_ne_true

/-- No tap is open behind the closing of all. -/
theorem tapOpen_closeAllTaps {t : TapTable} (h : t.OnlyOurs) (j : Nat) :
    t.closeAllTaps.value.tapOpen j = false := by
  rw [TapTable.closeAllTaps, TapTable.tapOpen_align, TapTable.tapAt, if_pos (Nat.zero_le j),
    Nat.sub_zero]
  have hours := h j
  cases htap : t.studyTaps[j]? with
  | none => simpa [htap] using hours
  | some tap =>
    simp only [htap, Option.some.injEq, exists_eq_left'] at hours ⊢
    split
    · rfl
    · next hnot => exact Bool.eq_false_iff.mpr fun hopen => hnot (hours hopen)

/-- The calls of a study change their taps, and leave none open. -/
theorem alternates_runStudy :
    Alternates (fun _ => false) (callsOf (runStudy answers study).log) ∧
      ∀ j, replay (fun _ => false) (callsOf (runStudy answers study).log) j = false := by
  have hloaded := onlyOurs_loadStudyTaps study.streams.items
  have hreplay : replay (fun _ => false)
      ((loadStudyTaps study.streams.items).syncTapsForStep 0).log =
        ((loadStudyTaps study.streams.items).syncTapsForStep 0).value.tapOpen :=
    TapTable.replay_log_align _ _ (loadStudyTaps study.streams.items)
  obtain ⟨halt, hend, hours⟩ := alternates_dispatchSteps answers study study.steps.items 0
    (hloaded.sync 0)
  rw [callsOf_runStudy]
  simp only [alternates_append, replay_append, hreplay, hend]
  refine ⟨⟨TapTable.alternates_align _ _ (loadStudyTaps study.streams.items), halt,
    TapTable.alternates_align _ _ _⟩, fun j => ?_⟩
  rw [TapTable.closeAllTaps, TapTable.replay_log_align]
  exact tapOpen_closeAllTaps hours j

/-- The calls for one tap in a study. -/
theorem calls_runStudy (j : Nat) :
    ((callsOf (runStudy answers study).log).filter fun call => call.index = j) = [] ∨
    ((callsOf (runStudy answers study).log).filter fun call => call.index = j) =
      [⟨j, true⟩, ⟨j, false⟩] := by
  obtain ⟨halt, hend⟩ := alternates_runStudy answers study
  exact calls_of_closed halt (closedOnce_runStudy answers study) rfl (hend j)

/-- Only taps of this node are called for. -/
theorem ours_of_mem_dispatchSteps : ∀ (steps : List Step) (i : Nat) (t : TapTable),
    ∀ call ∈ callsOf (dispatchSteps answers study i steps t).log,
      ∃ tap, t.studyTaps[call.index]? = some tap ∧ isOurs tap = true
  | [], _, _, _, hcall => absurd hcall List.not_mem_nil
  | step :: steps, i, t, call, hcall => by
    have hsync : call ∈ (t.syncTapsForStep i).log →
        ∃ tap, t.studyTaps[call.index]? = some tap ∧ isOurs tap = true := by
      intro hmem
      obtain ⟨tap, htap, hours, _⟩ := TapTable.mem_log_sync hmem
      exact ⟨tap, htap, hours⟩
    rcases callsOf_dispatchSteps_cons answers study i step steps t with
      ⟨hlog, _⟩ | ⟨hlog, _⟩ | ⟨hlog, _⟩
    · rw [hlog] at hcall
      exact absurd hcall List.not_mem_nil
    · exact hsync (hlog ▸ hcall)
    · rw [hlog] at hcall
      rcases List.mem_append.mp hcall with hmem | hmem
      · exact hsync hmem
      · have hrest := ours_of_mem_dispatchSteps steps (i + 1) (t.syncTapsForStep i).value call hmem
        rwa [TapTable.studyTaps_sync] at hrest

theorem ours_of_mem_runStudy {call : TapCall}
    (hcall : call ∈ callsOf (runStudy answers study).log) :
    ∃ tap, study.streams.items[call.index]? = some tap ∧ isOurs tap = true := by
  rw [callsOf_runStudy] at hcall
  have hsync := TapTable.studyTaps_sync (loadStudyTaps study.streams.items) 0
  obtain ⟨-, htaps⟩ := inWindow_dispatchSteps answers study study.steps.items 0
    ((onlyOurs_loadStudyTaps study.streams.items).sync 0)
  rcases List.mem_append.mp hcall with hmem | hmem
  · obtain ⟨tap, htap, hours, _⟩ := TapTable.mem_log_sync hmem
    exact ⟨tap, htap, hours⟩
  · rcases List.mem_append.mp hmem with hmem | hmem
    · have hloop := ours_of_mem_dispatchSteps answers study study.steps.items 0 _ call hmem
      rwa [hsync] at hloop
    · obtain ⟨_, tap, htap, hours, _⟩ := TapTable.mem_log_align _ _ _ call hmem
      rw [htaps, hsync, Nat.sub_zero] at htap
      exact ⟨tap, htap, hours⟩

/-- Whatever was open before it, a study executes its steps in their windows. -/
theorem inWindow_runStudy (left : Nat → Bool) :
    InWindow study.streams.items left (runStudy answers study).log := by
  have hloaded := onlyOurs_loadStudyTaps study.streams.items
  have hbegin : openAfter left (beginStudy answers study).log =
      ((loadStudyTaps study.streams.items).syncTapsForStep 0).value.tapOpen := by
    simp only [beginStudy, log_bind, openAfter_append]
    exact openAfter_tapCalls _ _ _ _ (loadStudyTaps study.streams.items)
  obtain ⟨hwindow, -⟩ := inWindow_dispatchSteps answers study study.steps.items 0
    (hloaded.sync 0)
  rw [TapTable.studyTaps_sync] at hwindow
  rw [runStudy, log_bind, log_bind, log_bind]
  simp only [inWindow_append, hbegin]
  refine ⟨inWindow_of_quiet (quiet_beginStudy answers study), hwindow,
    inWindow_of_quiet (quiet_endStudy answers _), ⟨?_, trivial⟩⟩
  intro _ _ _ hact
  cases hact

/-- The taps in the calls of a study, `left` being open before. -/
structure Windowed (left : Nat → Bool) (taps : List StreamTap) (acts : List Act) : Prop where
  /-- While a step is executed the open taps are those of this node whose scope covers it. -/
  executed : ∀ {before i action timeoutMs after},
    acts = before ++ .execute i action timeoutMs :: after →
      ∀ j, openAfter left before j = true ↔ Covered taps i j
  /-- A tap is opened once and closed once behind that, if it is one of this node; or else it
  is neither opened nor closed. -/
  calls : ∀ j, ((callsOf acts).filter fun call => call.index = j) = [] ∨
    ((callsOf acts).filter fun call => call.index = j) = [⟨j, true⟩, ⟨j, false⟩] ∧
      ∃ tap, taps[j]? = some tap ∧ isOurs tap = true
  /-- The one verdict comes last. -/
  verdict : ∃ earlier completed, acts = earlier ++ [.send (.studyDone completed)] ∧
    verdicts earlier = []

/-- Behind the guards, and whatever becomes of its steps, a study keeps to its windows. -/
theorem windowed_dispatchStudy (h : PassesGuards study) (left : Nat → Bool) :
    Windowed left study.streams.items (dispatchStudy answers study).log := by
  rw [dispatchStudy_eq_runStudy answers h]
  refine ⟨fun hacts => (inWindow_runStudy answers study left).at_execute hacts, fun j => ?_, ?_⟩
  · refine (calls_runStudy answers study j).imp_right fun hcalls => ⟨hcalls, ?_⟩
    have hmem : ⟨j, true⟩ ∈ (callsOf (runStudy answers study).log).filter
        fun call => call.index = j := by
      rw [hcalls]
      exact List.mem_cons_self
    exact ours_of_mem_runStudy answers study (List.mem_filter.mp hmem).1
  · obtain ⟨earlier, hlog, hquiet⟩ := runStudy_ends answers study
    exact ⟨earlier, _, hlog, hquiet⟩

end

/-- Two steps, and a tap of each kind of window: the whole study, an empty one, one past the end,
one that is not this node's, and the second step alone. -/
def windowsStudy : StudyStart where
  steps := .ofList [⟨.copy [], .bleConnect 0 none none, 1000, true, 0⟩,
    ⟨.copy [], .gattDiscover, 1000, true, 20⟩]
  stepsCrc := 0
  stepsCrcValid := true
  streams := .ofList [⟨1, .gattTranscript, .wholeStudy, Vector.replicate 16 0⟩,
    ⟨2, .gattNotify, .steps 1 0, Vector.replicate 16 0⟩,
    ⟨3, .gattNotify, .steps 0 9, Vector.replicate 16 0⟩,
    ⟨4, .signal, .wholeStudy, Vector.replicate 16 0⟩,
    ⟨5, .gattNotify, .steps 1 1, Vector.replicate 16 0⟩]
  streamsCrc := 0
  streamsCrcValid := true
  hasUnsupportedAction := false
  devBenchLogLevel := 3
  protocols := .empty
  protocolsCrc := 0
  protocolsCrcValid := true

/-- Both steps are executed in their windows. -/
theorem windowed_windowsStudy :
    Windowed (fun _ => true) windowsStudy.streams.items
      (dispatchStudy passingAnswers windowsStudy).log ∧
    callsOf (dispatchStudy passingAnswers windowsStudy).log =
      [⟨0, true⟩, ⟨2, true⟩, ⟨4, true⟩, ⟨0, false⟩, ⟨2, false⟩, ⟨4, false⟩] ∧
    (dispatchStudy passingAnswers windowsStudy).log.countP Act.isExecute = 2 :=
  ⟨windowed_dispatchStudy passingAnswers windowsStudy ⟨rfl, rfl, rfl⟩ _, by decide +kernel,
    by decide +kernel⟩

end DevBench.Bench
