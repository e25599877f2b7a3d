import DevBench.Bridge.ClockedLoop
import DevBench.Core.Machine

/-!
# The two deadlines of a protocol run

A state's timeout is turned into an instant again on every wait, so an event that does
not enter the state again postpones it. The step's own deadline is looked at only
behind a wait that found nothing, so a notification in the queue is fed past it.
-/

namespace DevBench.Bridge

open DevBench.Core DevBench.Core.Traced DevBench.Eap DevBench.Bench DevBench.Wire

/-! ## The timeout an instruction carries -/

/-- The timeout the current state declares. -/
def timeoutArm (run : EapRun) : Option TimeoutArm :=
  match run.currentState.value.kind with
  | .active _ _ onTimeout => onTimeout
  | .terminal _ => none

/-- The instruction ends the run, or carries the timeout of the state. -/
def Fits (run : EapRun) : EapStep → Prop
  | .write _ _ _ deadlineMs => deadlineMs = deadlineOf (timeoutArm run)
  | .wait deadlineMs => deadlineMs = deadlineOf (timeoutArm run)
  | .done .. => True

/-- A run in the same state declares the same timeout. -/
theorem timeoutArm_congr {run run' : EapRun} (hdefn : run'.defn = run.defn)
    (hstate : run'.state = run.state) : timeoutArm run' = timeoutArm run := by
  simp only [timeoutArm, EapRun.currentState, value_bind, value_pure, hdefn, hstate]

theorem fits_setOutcome (run run' : EapRun) (outcome : RunOutcome) :
    Fits run (setOutcome run' outcome).value := trivial

theorem fits_onEntered (run : EapRun) :
    Fits (onEntered run).value.1 (onEntered run).value.2 := by
  simp only [onEntered, value_bind]
  split
  · exact trivial
  · exact trivial
  · next hkind => simp only [value_pure, Fits, timeoutArm, hkind]
  · next write _ _ hkind =>
    simp only [value_bind]
    split
    · exact trivial
    · simp only [value_pure, Fits, timeoutArm, hkind]

theorem fits_onEvent (run : EapRun) (ev : Event) :
    Fits (eapRunOnEvent run ev).value.1 (eapRunOnEvent run ev).value.2 := by
  cases hfinished : run.finished with
  | true => simp only [eapRunOnEvent, hfinished, if_true, value_bind, value_pure, fits_setOutcome]
  | false =>
    simp only [eapRunOnEvent, hfinished, Bool.false_eq_true, if_false, value_bind]
    cases hkind : run.currentState.value.kind with
    | terminal outcome => exact fits_onEntered run
    | active write arms timeout =>
      cases ev with
      | timeout =>
        simp only [onTimeout, value_bind, hkind]
        cases timeout with
        | none => simp only [value_pure, Fits, timeoutArm, hkind, deadlineOf, Option.map_none]
        | some arm =>
          simp only
          split
          · exact fits_onEntered _
          · exact fits_onEntered _
      | notify source payload =>
        obtain ⟨_, hdefn, hstate⟩ := logs_notifyTarget run arms.items source payload
        simp only [onNotify, value_bind, hkind]
        cases (notifyTarget run arms.items source payload).value.2 with
        | none =>
          simp only [value_pure, Fits, timeoutArm_congr hdefn hstate]
          simp only [timeoutArm, hkind]
        | some target => exact fits_onEntered _

/-! ## The timeout of a state -/

namespace Loop

variable (deadline : Nat) {s s' : Loop}

/-- While the loop waits in a state with a timeout, it waits until the timeout is over since
the state was entered, or until the step's deadline. -/
def TimeoutKept (s : Loop) : Prop :=
  ∀ due, s.phase = .waiting due → ∀ arm ∈ timeoutArm s.run,
    due = min (s.enteredAt + arm.afterMs.toNat) deadline

/-- When the loop goes on to wait in a state with a timeout, no time has passed since the
state was entered, or the step's deadline comes first. -/
def OnTime (s : Loop) (m : Move) : Prop :=
  m = .proceed → s.phase = .arming → ∀ arm ∈ timeoutArm s.run,
    s.clock = s.enteredAt ∨ deadline ≤ s.enteredAt + arm.afterMs.toNat

instance (s : Loop) (m : Move) : Decidable (OnTime deadline s m) :=
  inferInstanceAs (Decidable (m = .proceed → s.phase = .arming → ∀ _ ∈ _, _))

/-- What every move keeps, whatever it does to the timeout. -/
structure Sound (s : Loop) : Prop where
  fits : Fits s.run s.step
  arming : s.phase = .arming → ∀ finalState verdict, s.step ≠ .done finalState verdict
  entered : s.enteredAt ≤ s.clock

variable {deadline}

/-- A move keeps the instruction fitting the state. -/
theorem Sound.steps {m : Move} (h : s.Sound) (hs : s.Steps deadline m s') : s'.Sound := by
  have hevent : ∀ (t : Loop) (ev : Event), t.Sound → (t.onEvent ev).Sound := by
    intro t ev ht
    refine ⟨fits_onEvent t.run ev, nofun, ?_⟩
    simp only [onEvent]
    split
    · exact Nat.le_refl _
    · exact ht.entered
  cases hs with
  | tick ms => exact ⟨h.fits, h.arming, Nat.le_trans h.entered (Nat.le_add_right _ _)⟩
  | queue note => exact ⟨h.fits, h.arming, h.entered⟩
  | drop note => exact ⟨h.fits, h.arming, h.entered⟩
  | written hphase hstep hwrite =>
    exact ⟨h.fits, fun _ _ _ hdone => by simp [hstep] at hdone, h.entered⟩
  | writeFailed hphase hstep hwrite =>
    exact ⟨trivial, nofun, h.entered⟩
  | writeTimedOut hphase hstep hwrite hclock =>
    exact ⟨trivial, nofun, h.entered⟩
  | finish hphase hstep => exact ⟨h.fits, nofun, h.entered⟩
  | write hphase hstep => exact ⟨h.fits, nofun, h.entered⟩
  | wait hphase hstep => exact ⟨h.fits, fun _ _ _ hdone => by simp [hstep] at hdone, h.entered⟩
  | arm hphase => exact ⟨h.fits, nofun, h.entered⟩
  | take hphase hqueue => exact hevent _ _ ⟨h.fits, h.arming, h.entered⟩
  | giveUp hphase hqueue => exact ⟨h.fits, nofun, h.entered⟩
  | abandon hphase hclock => exact ⟨trivial, nofun, h.entered⟩
  | timeout hphase hclock => exact hevent _ _ h

/-- Armed for a state with a timeout, the wait ends when it should exactly when no time has
passed since the state was entered, or the step's deadline comes first. -/
theorem Sound.arm_iff (h : s.Sound) (hphase : s.phase = .arming) {arm : TimeoutArm}
    (harm : arm ∈ timeoutArm s.run) :
    protocolStateDeadline s.step s.clock deadline =
        min (s.enteredAt + arm.afterMs.toNat) deadline ↔
      s.clock = s.enteredAt ∨ deadline ≤ s.enteredAt + arm.afterMs.toNat := by
  have hfits := h.fits
  have hentered := h.entered
  have hcarried : deadlineOf (timeoutArm s.run) = some arm.afterMs := by
    rw [Option.mem_def.mp harm, deadlineOf, Option.map_some]
  have hdue : protocolStateDeadline s.step s.clock deadline =
      min (s.clock + arm.afterMs.toNat) deadline := by
    cases hstep : s.step with
    | done finalState verdict => exact absurd hstep (h.arming hphase finalState verdict)
    | write source withResponse payload deadlineMs =>
      rw [hstep] at hfits
      obtain rfl := hfits.trans hcarried
      simp only [protocolStateDeadline]
      split <;> omega
    | wait deadlineMs =>
      rw [hstep] at hfits
      obtain rfl := hfits.trans hcarried
      simp only [protocolStateDeadline]
      split <;> omega
  rw [hdue]
  omega

/-- A move keeps the timeout exactly when it is made on time. -/
theorem Sound.timeoutKept_iff {m : Move} (h : s.Sound) (hkept : TimeoutKept deadline s)
    (hs : s.Steps deadline m s') : TimeoutKept deadline s' ↔ OnTime deadline s m := by
  have hother : m ≠ .proceed → OnTime deadline s m := fun hm hproceed => absurd hproceed hm
  have helsewhere : s.phase ≠ .arming → OnTime deadline s m := fun hp _ harming =>
    absurd harming hp
  cases hs with
  | tick ms => exact iff_of_true hkept (hother nofun)
  | queue note => exact iff_of_true hkept (hother nofun)
  | drop note => exact iff_of_true hkept (hother nofun)
  | written hphase hstep hwrite => exact iff_of_true nofun (hother nofun)
  | writeFailed hphase hstep hwrite => exact iff_of_true nofun (hother nofun)
  | writeTimedOut hphase hstep hwrite hclock => exact iff_of_true nofun (hother nofun)
  | finish hphase hstep => exact iff_of_true nofun (helsewhere (hphase ▸ nofun))
  | write hphase hstep => exact iff_of_true nofun (helsewhere (hphase ▸ nofun))
  | wait hphase hstep => exact iff_of_true nofun (helsewhere (hphase ▸ nofun))
  | take hphase hqueue => exact iff_of_true nofun (helsewhere (hphase ▸ nofun))
  | giveUp hphase hqueue => exact iff_of_true nofun (helsewhere (hphase ▸ nofun))
  | abandon hphase hclock => exact iff_of_true nofun (helsewhere (hphase ▸ nofun))
  | timeout hphase hclock => exact iff_of_true nofun (helsewhere (hphase ▸ nofun))
  | arm hphase =>
    constructor
    · intro h' _ _ arm harm
      exact (h.arm_iff hphase harm).mp (h' _ rfl arm harm)
    · rintro h' due hdue arm harm
      obtain rfl := Phase.waiting.inj hdue
      exact (h.arm_iff hphase harm).mpr (h' rfl hphase arm harm)

/-- The loop starts sound, not waiting for anything. -/
theorem sound_start {defn : ProtocolDef} {entryState : UInt8} {clock : Nat} {queue : List Note}
    (h : Loop.start defn entryState clock queue = some s) : s.Sound ∧ TimeoutKept deadline s := by
  obtain ⟨run, _, rfl⟩ := Option.map_eq_some_iff.mp h
  exact ⟨⟨fits_onEntered _, nofun, Nat.le_refl _⟩, nofun⟩

/-- As long as every move is made on time, every wait in a state with a timeout ends when the
timeout is over since the state was entered, or at the step's deadline; the first move that is
not made on time moves the end of the wait it begins. -/
theorem timeoutKept_of_onTime {defn : ProtocolDef} {entryState : UInt8} {clock : Nat}
    {queue : List Note} {first : Loop}
    (hfirst : Loop.start defn entryState clock queue = some first)
    (h : Reaches (advance deadline) (OnTime deadline) first s) :
    TimeoutKept deadline s ∧ ∀ m s', s.advance deadline m = some s' →
      (TimeoutKept deadline s' ↔ OnTime deadline s m) := by
  have hinv : s.Sound ∧ TimeoutKept deadline s :=
    h.invariant (fun s => s.Sound ∧ TimeoutKept deadline s) (sound_start hfirst)
      fun _ _ _ ⟨hsound, hkept⟩ hok hstep => ⟨hsound.steps (steps_of_advance deadline hstep),
        (hsound.timeoutKept_iff hkept (steps_of_advance deadline hstep)).mpr hok⟩
  exact ⟨hinv.2, fun m s' hstep =>
    hinv.1.timeoutKept_iff hinv.2 (steps_of_advance deadline hstep)⟩

/-- A state that gives up after 100 ms of silence, and takes no frame for an answer. -/
def watchdogProtocol : ProtocolDef where
  sources := .empty
  frames := .empty
  sessionInitial := .empty
  states := .ofList [⟨.copy (ascii "listening"), .active none .empty (some ⟨100, 0, 1⟩)⟩,
    ⟨.copy (ascii "stalled"), .terminal .fail⟩]

/-- A frame that arrives after 60 ms and is ignored puts the end of the wait off to 160 ms. -/
theorem watchdog_postponed : ∃ first s,
    Loop.start watchdogProtocol 0 0 [] = some first ∧
    Reaches (advance 1000) (fun _ _ => True) first s ∧ s.enteredAt = 0 ∧
    s.phase = .waiting 160 ∧ ¬ TimeoutKept 1000 s := by
  refine ⟨_, _, rfl, reaches_of_play .start (show play (advance 1000) _ _ [.proceed, .proceed,
    .tick 60, .arrive ⟨0, .empty⟩, .proceed, .proceed, .proceed] = some _ from rfl), rfl, rfl,
    fun h => ?_⟩
  exact absurd (h 160 rfl ⟨100, 0, 1⟩ rfl) (by decide)

/-- Without a frame the wait ends 100 ms after the state was entered. -/
theorem watchdog_kept : ∃ first s,
    Loop.start watchdogProtocol 0 0 [] = some first ∧ s.phase = .waiting 100 ∧
    TimeoutKept 1000 s := by
  refine ⟨_, _, rfl, ?_, (timeoutKept_of_onTime
    (show Loop.start watchdogProtocol 0 0 [] = some _ from rfl)
    (reaches_of_play .start (show play (advance 1000) (OnTime 1000) _
      [.proceed, .proceed, .tick 60] = some _ from rfl))).1⟩
  rfl

/-! ## The deadline of the step -/

/-- A call of the interpreter at or after the step's deadline gives the run up, and the step
ends timed out. -/
def DeadlineKept (deadline : Nat) (s : Loop) : Prop :=
  ∀ call time, s.lastCall = some (call, time) → deadline ≤ time →
    call = .abandon ∧ ∀ result, s.phase = .finished result → result.kind = .timedOut

/-- The loop is in `k_msgq_get`. -/
def waits (s : Loop) : Bool := s.phase matches .waiting _

/-- What becomes of the write under way on the link makes it fail, and not for want of time. -/
def writeFails (s : Loop) (link : WriteResult) : Bool :=
  match s.step with
  | .write source .. =>
    match protocolWrite s.run.defn source link with
    | .fail _ => true
    | _ => false
  | _ => false

/-- When the step's deadline is over, the loop finds no notification where it waits for one,
and no write that ends then fails but by timing out. -/
def InTime (deadline : Nat) (s : Loop) : Move → Prop
  | .proceed => deadline ≤ s.clock → s.waits = true → s.queue = []
  | .writeEnds link => deadline ≤ s.clock → s.writeFails link = false
  | _ => True

instance (deadline : Nat) (s : Loop) : DecidablePred (InTime deadline s)
  | .proceed => inferInstanceAs (Decidable (_ ≤ _ → _ = _ → _ = _))
  | .writeEnds _ => inferInstanceAs (Decidable (_ ≤ _ → _ = _))
  | .tick _ => instDecidableTrue
  | .arrive _ => instDecidableTrue

/-- A run given up past the deadline is over, or about to be. -/
def GivenUp (deadline : Nat) (s : Loop) : Prop :=
  ∀ call time, s.lastCall = some (call, time) → deadline ≤ time → call = .abandon ∧
    ((s.phase = .top ∧ ∃ finalState, s.step = .done finalState .timedOut) ∨
      ∃ result, s.phase = .finished result ∧ result.kind = .timedOut)

theorem GivenUp.deadlineKept (h : GivenUp deadline s) : DeadlineKept deadline s := by
  intro call time hcall htime
  obtain ⟨habandon, ⟨htop, _⟩ | ⟨result, hfinished, hkind⟩⟩ := h call time hcall htime
  · exact ⟨habandon, fun result hfinished => by simp [htop] at hfinished⟩
  · refine ⟨habandon, fun result' hfinished' => ?_⟩
    rw [hfinished] at hfinished'
    exact Phase.finished.inj hfinished' ▸ hkind

theorem givenUp_of_lt (h : ∀ call time, s.lastCall = some (call, time) → time < deadline) :
    GivenUp deadline s :=
  fun call time hcall htime => absurd (h call time hcall) (Nat.not_lt.mpr htime)

/-- Where a run given up past the deadline is not, no call was made past it. -/
theorem GivenUp.lt (h : GivenUp deadline s)
    (htop : s.phase = .top → ∀ finalState verdict, s.step ≠ .done finalState verdict)
    (hfinished : ∀ result, s.phase ≠ .finished result) :
    ∀ call time, s.lastCall = some (call, time) → time < deadline := by
  intro call time hcall
  refine Nat.lt_of_not_le fun htime => ?_
  obtain ⟨_, ⟨hphase, finalState, hstep⟩ | ⟨result, hphase, _⟩⟩ := h call time hcall htime
  · exact htop hphase finalState _ hstep
  · exact hfinished result hphase

/-- A move in time leaves a run given up past the deadline on its way out. -/
theorem GivenUp.steps {m : Move} (h : GivenUp deadline s) (hok : InTime deadline s m)
    (hs : s.Steps deadline m s') : GivenUp deadline s' := by
  have hlater : ∀ phase, s.phase = phase → phase ≠ .top → (∀ result, phase ≠ .finished result) →
      ∀ call time, s.lastCall = some (call, time) → time < deadline := by
    rintro phase rfl htop hfinished
    exact h.lt (fun hphase => absurd hphase htop) hfinished
  cases hs with
  | tick ms => exact h
  | queue note => exact h
  | drop note => exact h
  | written hphase hstep hwrite => exact givenUp_of_lt (hlater _ hphase nofun nofun)
  | writeFailed hphase hstep hwrite =>
    refine givenUp_of_lt ?_
    rintro call time hcall
    obtain ⟨rfl, rfl⟩ := Prod.mk.inj (Option.some.inj hcall)
    refine Nat.lt_of_not_le fun htime => ?_
    have hnot := hok htime
    simp [writeFails, hstep, hwrite] at hnot
  | writeTimedOut hphase hstep hwrite hclock =>
    rintro call time hcall _
    obtain ⟨rfl, rfl⟩ := Prod.mk.inj (Option.some.inj hcall)
    exact ⟨rfl, .inr ⟨_, rfl, rfl⟩⟩
  | finish hphase hstep =>
    intro call time hcall htime
    obtain ⟨habandon, ⟨_, finalState, hdone⟩ | ⟨result, hfinished, _⟩⟩ := h call time hcall htime
    · obtain ⟨rfl, rfl⟩ := EapStep.done.inj (hstep.symm.trans hdone)
      exact ⟨habandon, .inr ⟨_, rfl, rfl⟩⟩
    · simp [hphase] at hfinished
  | write hphase hstep =>
    exact givenUp_of_lt (h.lt (fun _ _ _ hdone => by simp [hstep] at hdone) (by simp [hphase]))
  | wait hphase hstep =>
    exact givenUp_of_lt (h.lt (fun _ _ _ hdone => by simp [hstep] at hdone) (by simp [hphase]))
  | arm hphase => exact givenUp_of_lt (hlater _ hphase nofun nofun)
  | take hphase hqueue =>
    refine givenUp_of_lt ?_
    rintro call time hcall
    obtain ⟨rfl, rfl⟩ := Prod.mk.inj (Option.some.inj hcall)
    refine Nat.lt_of_not_le fun htime => ?_
    have hempty := hok htime (by rw [waits, hphase])
    simp [hqueue] at hempty
  | giveUp hphase hqueue => exact givenUp_of_lt (hlater _ hphase nofun nofun)
  | abandon hphase hclock =>
    rintro call time hcall _
    obtain ⟨rfl, rfl⟩ := Prod.mk.inj (Option.some.inj hcall)
    exact ⟨rfl, .inl ⟨rfl, _, rfl⟩⟩
  | timeout hphase hclock =>
    refine givenUp_of_lt ?_
    rintro call time hcall
    obtain ⟨rfl, rfl⟩ := Prod.mk.inj (Option.some.inj hcall)
    exact hclock

/-- A move that keeps the deadline was made in time. -/
theorem inTime_of_deadlineKept {m : Move} (hs : s.Steps deadline m s')
    (h : DeadlineKept deadline s') : InTime deadline s m := by
  cases hs with
  | tick ms => exact trivial
  | queue note => exact trivial
  | drop note => exact trivial
  | written hphase hstep hwrite => exact fun _ => by simp [writeFails, hstep, hwrite]
  | writeFailed hphase hstep hwrite =>
    exact fun hclock => absurd ((h _ _ rfl hclock).2 _ rfl) nofun
  | writeTimedOut hphase hstep hwrite _ => exact fun _ => by simp [writeFails, hstep, hwrite]
  | take hphase hqueue => exact fun hclock => absurd (h _ _ rfl hclock).1 nofun
  | giveUp hphase hqueue => exact fun _ _ => hqueue
  | finish hphase | write hphase | wait hphase | arm hphase | abandon hphase | timeout hphase =>
    exact fun _ hwaits => by simp [waits, hphase] at hwaits

/-- As long as every move is made in time, the interpreter is not given an event at or after
the step's deadline and the step ends timed out once it is given up there; the first move that
is not made in time breaks that. -/
theorem deadlineKept_of_inTime {defn : ProtocolDef} {entryState : UInt8} {clock : Nat}
    {queue : List Note} {first : Loop}
    (hfirst : Loop.start defn entryState clock queue = some first)
    (h : Reaches (advance deadline) (InTime deadline) first s) :
    DeadlineKept deadline s ∧ ∀ m s', s.advance deadline m = some s' →
      (DeadlineKept deadline s' ↔ InTime deadline s m) := by
  have hstart : GivenUp deadline first := by
    obtain ⟨run, _, rfl⟩ := Option.map_eq_some_iff.mp hfirst
    exact givenUp_of_lt nofun
  have hinv : GivenUp deadline s :=
    h.invariant (GivenUp deadline) hstart
      fun _ _ _ hgiven hok hstep => hgiven.steps hok (steps_of_advance deadline hstep)
  refine ⟨hinv.deadlineKept, fun m s' hstep => ?_⟩
  have hs := steps_of_advance deadline hstep
  exact ⟨inTime_of_deadlineKept hs, fun hok => (hinv.steps hok hs).deadlineKept⟩

/-- Two frames arrive at 49 ms, and the second is taken when the deadline of 50 ms is over. -/
theorem watchdog_fed_late : watchdogProtocol.Closed ∧ ∃ first s,
    Loop.start watchdogProtocol 0 0 [] = some first ∧
    Reaches (advance 50) (fun _ _ => True) first s ∧
    s.lastCall = some (.onEvent (.notify 0 []), 50) ∧ ¬ DeadlineKept 50 s := by
  refine ⟨by decide, _, _, rfl, reaches_of_play .start (show play (advance 50) _ _ [.proceed,
    .proceed, .tick 49, .arrive ⟨0, .empty⟩, .arrive ⟨0, .empty⟩, .proceed, .tick 1, .proceed,
    .proceed, .proceed] = some _ from rfl), rfl, fun h => ?_⟩
  exact absurd (h _ _ rfl (by decide)).1 nofun

/-- With nothing in the queue the run is given up. -/
theorem watchdog_given_up : ∃ first s,
    Loop.start watchdogProtocol 0 0 [] = some first ∧ s.lastCall = some (.abandon, 50) ∧
    DeadlineKept 50 s := by
  refine ⟨_, _, rfl, ?_, (deadlineKept_of_inTime
    (show Loop.start watchdogProtocol 0 0 [] = some _ from rfl)
    (reaches_of_play .start (show play (advance 50) (InTime 50) _
      [.proceed, .proceed, .tick 50, .proceed, .proceed] = some _ from rfl))).1⟩
  rfl

end Loop

end DevBench.Bridge
