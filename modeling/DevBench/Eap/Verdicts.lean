import DevBench.Eap.Subscripts
import Mathlib.Algebra.GroupWithZero.Nat

/-!
# Verdicts

What a run that is over says of it. A terminal state that is entered says what it declares,
a write that cannot be encoded fails, an abandoned run has timed out. An event that comes
after the end is answered with a pass whatever the end was, so that the verdicts of a run
stand only while none comes behind an end that is no declared pass.
-/

namespace DevBench.Eap

open DevBench.Core DevBench.Core.Traced

variable {run : EapRun}

/-! ## Writes -/

/-- A field that has no value, or a type that is never written, or more bytes than there is
room for. -/
def Write.Unencodable (w : Write) (run : EapRun) : Prop :=
  (∃ f ∈ w.fields.items, (evalOperand f.value run none []).value = none ∨
    scalarIsInteger f.ty = false) ∨
  maxWritePayloadLen < (w.fields.items.map fun f => scalarWidth f.ty).sum

/-- A type without a width is no integer. -/
theorem scalarIsInteger_of_width {ty : UInt8} (h : scalarWidth ty = 0) :
    scalarIsInteger ty = false := by
  have hall : ∀ n : Fin 256, scalarWidth (UInt8.ofNat n.1) = 0 →
      scalarIsInteger (UInt8.ofNat n.1) = false := by decide +kernel
  have hty := hall ⟨ty.toNat, ty.toNat_lt⟩
  rw [UInt8.ofNat_toNat] at hty
  exact hty h

/-- A scalar that is written takes its width. -/
theorem scalarWriteI64_cases (ty : UInt8) (value : Int64) (outCap : Nat) :
    (scalarWriteI64 ty value outCap = none ∧
      (scalarIsInteger ty = false ∨ outCap < scalarWidth ty)) ∨
    ∃ bytes, scalarWriteI64 ty value outCap = some bytes ∧ bytes.length = scalarWidth ty := by
  simp only [scalarWriteI64]
  split
  · next h =>
    refine .inl ⟨rfl, ?_⟩
    rcases h with hzero | hinteger | hroom
    · exact .inl (scalarIsInteger_of_width hzero)
    · exact .inl (Bool.eq_false_iff.mpr hinteger)
    · exact .inr hroom
  · exact .inr ⟨_, rfl, by rw [List.length_map, List.length_range]⟩

/-- A write fails at a field that has no value, or does not fit. -/
theorem encodeFields_eq_none {run : EapRun} {frame : Option Frame} {payload : List UInt8}
    {outCap : Nat} : ∀ {fields : List WriteField} {out : List UInt8},
    (encodeFields run frame payload outCap fields out).value = none →
      (∃ f ∈ fields, (evalOperand f.value run frame payload).value = none ∨
        scalarIsInteger f.ty = false) ∨
      outCap < out.length + (fields.map fun f => scalarWidth f.ty).sum
  | [], out, h => absurd h (by simp [encodeFields])
  | f :: fields, out, h => by
    simp only [encodeFields, value_bind] at h
    cases hvalue : (evalOperand f.value run frame payload).value with
    | none => exact .inl ⟨f, List.mem_cons_self, .inl hvalue⟩
    | some v =>
      rw [hvalue] at h
      rcases scalarWriteI64_cases f.ty v (outCap - out.length) with
        ⟨-, hinteger | hroom⟩ | ⟨bytes, hbytes, hlen⟩
      · exact .inl ⟨f, List.mem_cons_self, .inr hinteger⟩
      · refine .inr ?_
        rw [List.map_cons, List.sum_cons]
        omega
      · simp only [hbytes] at h
        rcases encodeFields_eq_none h with ⟨g, hg, hnone⟩ | hroom
        · exact .inl ⟨g, List.mem_cons_of_mem f hg, hnone⟩
        · refine .inr ?_
          rw [List.length_append, hlen] at hroom
          rw [List.map_cons, List.sum_cons]
          omega

/-- The flag that ends a run is nothing an operand depends on. -/
theorem evalOperand_finished (op : Operand) (run : EapRun) (frame : Option Frame)
    (payload : List UInt8) :
    evalOperand op { run with finished := true } frame payload =
      evalOperand op run frame payload := by
  cases op <;> rfl

/-! ## One call -/

/-- The state a run is in. -/
def EapRun.At (run : EapRun) (state : State) : Prop :=
  run.defn.states.items[run.state.toNat]? = some state

/-- The current state is the one it is at. -/
theorem EapRun.At.currentState {state : State} (h : run.At state) :
    run.currentState.value = state := by
  have hget : run.defn.states.items.getD run.state.toNat EapRun.zeroState = state := by
    rw [List.getD_eq_getElem?_getD, h]
    rfl
  exact hget

/-- In range it is at its current state. -/
theorem EapRun.StateInRange.at (h : run.StateInRange) : run.At run.currentState.value := by
  have hget := List.getElem?_eq_getElem h
  rw [EapRun.At, hget]
  exact congrArg some (List.getD_eq_getElem _ _ h).symm

/-- The verdict is the one the state declares, or its write cannot be encoded. -/
def RunOutcome.Declared (run : EapRun) (state : State) : RunOutcome → Prop
  | pass => state.kind = .terminal .pass
  | fail _ => state.kind = .terminal .fail ∨
      ∃ w arms timeout, state.kind = .active (some w) arms timeout ∧ w.Unencodable run
  | timedOut => False

/-- A step that ends the run names the state the run is in, and says what it declares. -/
def Judged (run : EapRun) (step : EapStep) : Prop :=
  ∀ finalState outcome, step = .done finalState outcome → run.finished = true ∧
    ∃ state, run.At state ∧ finalState = state.name.str ∧ outcome.Declared run state

/-- A wait is no verdict. -/
theorem judged_wait (deadline : Option UInt32) : Judged run (.wait deadline) := by
  intro f o hstep
  cases hstep

/-- Nor is a write. -/
theorem judged_write (source : UInt8) (withResponse : Bool) (payload : List UInt8)
    (deadline : Option UInt32) : Judged run (.write source withResponse payload deadline) := by
  intro f o hstep
  cases hstep

/-- Entering a state ends the run as the state says, or does not end it. -/
theorem judged_onEntered (h : run.StateInRange) :
    Judged (onEntered run).value.1 (onEntered run).value.2 := by
  have hat := h.at
  simp only [onEntered, value_bind]
  generalize run.currentState.value = state at hat ⊢
  have hset : ∀ outcome : RunOutcome, outcome.Declared { run with finished := true } state →
      Judged { run with finished := true }
        (setOutcome { run with finished := true } outcome).value := by
    rintro outcome hdeclared f o hstep
    have hat' : EapRun.At { run with finished := true } state := hat
    simp only [setOutcome, value_bind, value_pure, hat'.currentState, EapStep.done.injEq] at hstep
    obtain ⟨rfl, rfl⟩ := hstep
    exact ⟨rfl, state, hat', rfl, hdeclared⟩
  cases hkind : state.kind with
  | terminal outcome =>
    cases outcome with
    | pass => exact hset _ hkind
    | fail => exact hset _ (.inl hkind)
  | active onEnter arms timeout =>
    cases onEnter with
    | none => exact judged_wait _
    | some write =>
      simp only [value_bind]
      cases hwrite : (encodeWrite write run none [] maxWritePayloadLen).value with
      | some payload => exact judged_write _ _ _ _
      | none =>
        refine hset _ (.inr ⟨write, arms, timeout, hkind, ?_⟩)
        have hnone := encodeFields_eq_none hwrite
        simp only [List.length_nil, Nat.zero_add] at hnone
        simpa only [Write.Unencodable, evalOperand_finished] using hnone

/-- The machine goes to a state that was decoded. -/
theorem judged_gotoState {target : UInt8} (h : (gotoState run target).value.1.StateInRange) :
    Judged (gotoState run target).value.1 (gotoState run target).value.2 := by
  refine judged_onEntered (?_ : target.toNat < run.statesLen)
  obtain ⟨hdefn, hstate, -⟩ := gotoState_spec run target
  rw [EapRun.StateInRange, EapRun.statesLen, hdefn, hstate] at h
  exact h

/-- A timeout ends a run as the state it leads to says. -/
theorem judged_onTimeout (h : run.StateInRange) (hafter : (onTimeout run).value.1.StateInRange) :
    Judged (onTimeout run).value.1 (onTimeout run).value.2 := by
  simp only [onTimeout, value_bind] at hafter ⊢
  split
  · next arm hkind =>
    simp only [hkind] at hafter
    split
    · exact judged_onEntered h
    · next hretry =>
      rw [if_neg hretry] at hafter
      exact judged_gotoState hafter
  · exact judged_wait _

/-- So does a notification. -/
theorem judged_onNotify {source : UInt8} {payload : List UInt8}
    (hafter : (onNotify run source payload).value.1.StateInRange) :
    Judged (onNotify run source payload).value.1 (onNotify run source payload).value.2 := by
  simp only [onNotify, value_bind] at hafter ⊢
  split
  · next arms timeout hkind =>
    simp only [hkind, value_bind] at hafter
    simp only [value_bind]
    generalize (notifyTarget run arms.items source payload).value = r at hafter ⊢
    obtain ⟨run', target⟩ := r
    cases target with
    | none => exact judged_wait _
    | some target => exact judged_gotoState hafter
  · exact judged_wait _

/-- An event of a run that goes on. -/
theorem judged_onEvent (h : run.StateInRange) (hfinished : run.finished = false) {ev : Event}
    (hafter : (eapRunOnEvent run ev).value.1.StateInRange) :
    Judged (eapRunOnEvent run ev).value.1 (eapRunOnEvent run ev).value.2 := by
  simp only [eapRunOnEvent, hfinished, Bool.false_eq_true, if_false, value_bind] at hafter ⊢
  split
  · exact judged_onEntered h
  · next hkind =>
    simp only [hkind] at hafter
    cases ev with
    | timeout => exact judged_onTimeout h hafter
    | notify source payload => exact judged_onNotify hafter

/-- An event of a run that is over. -/
theorem onEvent_finished (hfinished : run.finished = true) (ev : Event) :
    (eapRunOnEvent run ev).value = (run, .done run.currentState.value.name.str .pass) := by
  simp only [eapRunOnEvent, hfinished, if_true, setOutcome, value_bind, value_pure]

/-! ## Histories -/

/-- A call into a run that was started. -/
inductive Call where
  | enter
  | event (ev : Event)
  | abandon
  deriving DecidableEq, Repr

/-- The call into the interpreter. -/
def Call.make (run : EapRun) : Call → Interp (EapRun × EapStep)
  | enter => eapRunEnter run
  | event ev => eapRunOnEvent run ev
  | abandon => eapRunAbandon run

/-- A call, the run before and behind it, and the step it returned. -/
structure Returned where
  call : Call
  before : EapRun
  after : EapRun
  step : EapStep
  deriving DecidableEq, Repr

/-- What each call returned, from the first on. -/
def history : EapRun → List Call → List Returned
  | _, [] => []
  | run, call :: calls =>
    ⟨call, run, (call.make run).value.1, (call.make run).value.2⟩ ::
      history (call.make run).value.1 calls

/-- The verdict of a step is the one of the current state, which it names. -/
def Returned.Sound (r : Returned) : Prop :=
  ∀ finalState outcome, r.step = .done finalState outcome →
    ∃ state, r.after.At state ∧ finalState = state.name.str ∧
      (outcome.Declared r.after state ∨ outcome = .timedOut ∧ r.call = .abandon)

/-- `enum eap_outcome_tag`. -/
def RunOutcome.tag : RunOutcome → Nat
  | pass => 0
  | fail _ => 1
  | timedOut => 2

/-- Once a step has ended the run, a later event returns one that ends it the same way. -/
def Returned.Stands (earlier later : Returned) : Prop :=
  ∀ finalState outcome, earlier.step = .done finalState outcome → ∀ ev, later.call = .event ev →
    ∃ outcome', later.step = .done finalState outcome' ∧ outcome'.tag = outcome.tag

/-- The verdicts of a history are sound, and stand. -/
def VerdictsHold (h : List Returned) : Prop := (∀ r ∈ h, r.Sound) ∧ h.Pairwise Returned.Stands

/-- An event that comes behind the end finds the run in a state that declares a pass. -/
def Returned.InTime (r : Returned) : Prop :=
  ∀ ev, r.call = .event ev → r.before.finished = true →
    ∃ state, r.before.At state ∧ state.kind = .terminal .pass

/-- And none comes behind an abandonment. -/
def Returned.Final (earlier later : Returned) : Prop :=
  earlier.call = .abandon → ∀ ev, later.call ≠ .event ev

/-- Events come before the end of a run, or behind a declared pass. -/
def EventsInTime (h : List Returned) : Prop := (∀ r ∈ h, r.InTime) ∧ h.Pairwise Returned.Final

/-- The run stays in a decoded state of its protocol. -/
theorem make_inRange (hclosed : run.defn.Closed) (h : run.StateInRange) (call : Call) :
    (call.make run).value.1.defn = run.defn ∧ (call.make run).value.1.StateInRange := by
  cases call with
  | enter =>
    obtain ⟨hdefn, hstate, -⟩ := onEntered_spec { run with retries := 0 }
    refine ⟨hdefn, ?_⟩
    change (onEntered { run with retries := 0 }).value.1.StateInRange
    rw [EapRun.StateInRange, EapRun.statesLen, hdefn, hstate]
    exact h
  | abandon => exact ⟨rfl, h⟩
  | event ev =>
    change (eapRunOnEvent run ev).value.1.defn = run.defn ∧
      (eapRunOnEvent run ev).value.1.StateInRange
    rcases eapRunOnEvent_cases h ev with
      ⟨-, hdefn, hstate, -⟩ | ⟨target, htarget, hdefn, hstate, -⟩
    · rw [EapRun.StateInRange, EapRun.statesLen, hdefn, hstate]
      exact ⟨rfl, h⟩
    · rw [EapRun.StateInRange, EapRun.statesLen, hdefn, hstate]
      exact ⟨rfl, EapRun.target_lt hclosed h ev target htarget⟩

/-- A run that is over stays over, in the state it is in. -/
theorem make_finished (hfinished : run.finished = true) (call : Call) :
    (call.make run).value.1.finished = true ∧ (call.make run).value.1.state = run.state := by
  cases call with
  | abandon => exact ⟨rfl, rfl⟩
  | event ev =>
    change (eapRunOnEvent run ev).value.1.finished = true ∧
      (eapRunOnEvent run ev).value.1.state = run.state
    rw [onEvent_finished hfinished]
    exact ⟨hfinished, rfl⟩
  | enter =>
    refine ⟨?_, (onEntered_spec { run with retries := 0 }).2.1⟩
    change (onEntered { run with retries := 0 }).value.1.finished = true
    simp only [onEntered, value_bind]
    split
    · rfl
    · rfl
    · exact hfinished
    · simp only [value_bind]
      split
      · rfl
      · exact hfinished

/-- What a call returned, if it ended the run. -/
theorem returned_done (hclosed : run.defn.Closed) (h : run.StateInRange) (call : Call)
    {finalState : List UInt8} {outcome : RunOutcome}
    (hstep : (call.make run).value.2 = .done finalState outcome) :
    (call.make run).value.1.finished = true ∧
      ∃ state, (call.make run).value.1.At state ∧ finalState = state.name.str ∧
        (outcome.Declared (call.make run).value.1 state ∨
          outcome = .timedOut ∧ call = .abandon ∨
          outcome = .pass ∧ (∃ ev, call = .event ev) ∧ run.finished = true) := by
  have hafter := (make_inRange hclosed h call).2
  have hjudged : Judged (call.make run).value.1 (call.make run).value.2 →
      (call.make run).value.1.finished = true ∧
        ∃ state, (call.make run).value.1.At state ∧ finalState = state.name.str ∧
          (outcome.Declared (call.make run).value.1 state ∨
            outcome = .timedOut ∧ call = .abandon ∨
            outcome = .pass ∧ (∃ ev, call = .event ev) ∧ run.finished = true) := fun hjudged => by
    obtain ⟨hfinished, state, hat, hname, hdeclared⟩ := hjudged _ _ hstep
    exact ⟨hfinished, state, hat, hname, .inl hdeclared⟩
  cases call with
  | enter => exact hjudged (judged_onEntered h)
  | abandon =>
    obtain ⟨rfl, rfl⟩ := EapStep.done.injEq .. ▸ hstep
    exact ⟨rfl, _, h.at, rfl, .inr (.inl ⟨rfl, rfl⟩)⟩
  | event ev =>
    by_cases hfinished : run.finished = true
    · have hmake : ((Call.event ev).make run).value = _ := onEvent_finished hfinished ev
      rw [hmake] at hstep ⊢
      obtain ⟨rfl, rfl⟩ := EapStep.done.injEq .. ▸ hstep
      exact ⟨hfinished, _, h.at, rfl, .inr (.inr ⟨rfl, ⟨ev, rfl⟩, hfinished⟩)⟩
    · exact hjudged (judged_onEvent h (Bool.eq_false_iff.mpr hfinished) hafter)

/-- Behind the end every call finds the run over, in the same state. -/
theorem history_finished : ∀ {calls : List Call} {run : EapRun}, run.defn.Closed →
    run.StateInRange → run.finished = true → ∀ r ∈ history run calls,
      r.before.finished = true ∧ r.before.state = run.state ∧ r.before.defn = run.defn
  | [], _, _, _, _, r, hr => absurd hr List.not_mem_nil
  | call :: calls, run, hclosed, h, hfinished, r, hr => by
    rcases List.mem_cons.mp hr with rfl | hr
    · exact ⟨hfinished, rfl, rfl⟩
    · obtain ⟨hdefn, hrange⟩ := make_inRange hclosed h call
      obtain ⟨hover, hstate⟩ := make_finished hfinished call
      obtain ⟨hbefore, hplace, hsame⟩ := history_finished (hdefn ▸ hclosed) hrange hover r hr
      exact ⟨hbefore, hplace.trans hstate, hsame.trans hdefn⟩

/-- Each step is what its call returned. -/
theorem mem_history_step : ∀ {calls : List Call} {run : EapRun}, ∀ r ∈ history run calls,
    r.step = (r.call.make r.before).value.2
  | [], _, r, hr => absurd hr List.not_mem_nil
  | call :: calls, run, r, hr => by
    rcases List.mem_cons.mp hr with rfl | hr
    · rfl
    · exact mem_history_step r hr

/-- A call that comes in time returns a sound verdict, and only such a one does. -/
theorem sound_iff_inTime (hclosed : run.defn.Closed) (h : run.StateInRange) (call : Call) :
    Returned.Sound ⟨call, run, (call.make run).value.1, (call.make run).value.2⟩ ↔
      Returned.InTime ⟨call, run, (call.make run).value.1, (call.make run).value.2⟩ := by
  constructor
  · intro hsound ev hcall hfinished
    obtain rfl : call = .event ev := hcall
    have hdone := congrArg Prod.snd (onEvent_finished hfinished ev)
    obtain ⟨state, hat, -, hpass | htimed⟩ := hsound _ _ hdone
    · refine ⟨state, ?_, hpass⟩
      change (eapRunOnEvent run ev).value.1.At state at hat
      rw [onEvent_finished hfinished] at hat
      exact hat
    · exact absurd htimed.1 nofun
  · intro hintime finalState outcome hstep
    obtain ⟨-, state, hat, hname, hdeclared | htimed | ⟨rfl, ⟨ev, rfl⟩, hfinished⟩⟩ :=
      returned_done hclosed h call hstep
    · exact ⟨state, hat, hname, .inl hdeclared⟩
    · exact ⟨state, hat, hname, .inr htimed⟩
    · obtain ⟨state', hat', hkind⟩ := hintime ev rfl hfinished
      change (eapRunOnEvent run ev).value.1.At state at hat
      rw [onEvent_finished hfinished] at hat
      obtain rfl := Option.some.inj (hat.symm.trans hat')
      refine ⟨state, ?_, hname, .inl hkind⟩
      change (eapRunOnEvent run ev).value.1.At state
      rw [onEvent_finished hfinished]
      exact hat

/-- A call that ends the run stands if it is no abandonment followed by an event. -/
theorem stands_iff_final (hclosed : run.defn.Closed) (h : run.StateInRange) (call : Call)
    {calls : List Call} {later : Returned}
    (hmem : later ∈ history (call.make run).value.1 calls) (hintime : later.InTime) :
    Returned.Stands ⟨call, run, (call.make run).value.1, (call.make run).value.2⟩ later ↔
      Returned.Final ⟨call, run, (call.make run).value.1, (call.make run).value.2⟩ later := by
  obtain ⟨hdefn, hrange⟩ := make_inRange hclosed h call
  have hbehind := fun hover : (call.make run).value.1.finished = true =>
    history_finished (hdefn ▸ hclosed) hrange hover later hmem
  have hanswer : ∀ ev, later.call = .event ev → later.before.finished = true →
      later.step = .done later.before.currentState.value.name.str .pass := fun ev hcall hover => by
    rw [mem_history_step later hmem, hcall]
    exact congrArg Prod.snd (onEvent_finished hover ev)
  constructor
  · intro hstands habandon ev hcall
    obtain rfl : call = .abandon := habandon
    obtain ⟨outcome', hstep, htag⟩ := hstands _ _ rfl ev hcall
    obtain ⟨hover, -, -⟩ := hbehind rfl
    obtain ⟨-, rfl⟩ := EapStep.done.injEq .. ▸ (hanswer ev hcall hover).symm.trans hstep
    exact absurd htag nofun
  · intro hfinal finalState outcome hstep ev hcall
    obtain ⟨hover, state, hat, rfl, hverdict⟩ := returned_done hclosed h call hstep
    obtain ⟨hfinished, hplace, hsame⟩ := hbehind hover
    obtain ⟨state', hat', hkind⟩ := hintime ev hcall hfinished
    have hstate : state' = state := by
      rw [EapRun.At, hplace, hsame] at hat'
      exact Option.some.inj (hat'.symm.trans hat)
    subst hstate
    refine ⟨.pass, hat'.currentState ▸ hanswer ev hcall hfinished, ?_⟩
    rcases hverdict with hdeclared | ⟨-, habandon⟩ | ⟨rfl, -, -⟩
    · cases outcome with
      | pass => rfl
      | fail reason =>
        rcases hdeclared with hfail | ⟨w, arms, timeout, hactive, -⟩
        · exact absurd (hkind.symm.trans hfail) nofun
        · exact absurd (hkind.symm.trans hactive) nofun
      | timedOut => exact hdeclared.elim
    · exact absurd hcall (hfinal habandon ev)
    · rfl

/-- Every verdict is sound exactly when every call is in time. -/
theorem sound_iff_inTime_history : ∀ (calls : List Call) {run : EapRun}, run.defn.Closed →
    run.StateInRange →
    ((∀ r ∈ history run calls, r.Sound) ↔ ∀ r ∈ history run calls, r.InTime)
  | [], _, _, _ => by simp [history]
  | call :: calls, run, hclosed, h => by
    obtain ⟨hdefn, hrange⟩ := make_inRange hclosed h call
    rw [history, List.forall_mem_cons, List.forall_mem_cons, sound_iff_inTime hclosed h call,
      sound_iff_inTime_history calls (hdefn ▸ hclosed) hrange]

/-- Verdicts stand exactly when nothing is called behind them. -/
theorem stands_iff_final_history : ∀ (calls : List Call) {run : EapRun}, run.defn.Closed →
    run.StateInRange → (∀ r ∈ history run calls, r.InTime) →
    ((history run calls).Pairwise Returned.Stands ↔ (history run calls).Pairwise Returned.Final)
  | [], _, _, _, _ => by simp [history]
  | call :: calls, run, hclosed, h, hintime => by
    obtain ⟨hdefn, hrange⟩ := make_inRange hclosed h call
    obtain ⟨-, hrest⟩ := List.forall_mem_cons.mp hintime
    rw [history, List.pairwise_cons, List.pairwise_cons,
      stands_iff_final_history calls (hdefn ▸ hclosed) hrange hrest]
    refine and_congr_left fun _ => forall₂_congr fun later hmem => ?_
    exact stands_iff_final hclosed h call hmem (hrest later hmem)

/-- The verdicts of a run of a closed protocol hold if and only if its events come in time. -/
theorem verdictsHold_iff {defn : ProtocolDef} (hclosed : defn.Closed) {entryState : UInt8}
    {start : EapRun} (hstart : eapRunStart defn entryState = some start) (calls : List Call) :
    VerdictsHold (history start calls) ↔ EventsInTime (history start calls) := by
  obtain ⟨hrange, hrun⟩ := Option.ite_none_left_eq_some.mp hstart
  obtain rfl := Option.some.inj hrun
  have hinit : EapRun.StateInRange ⟨defn, defn.sessionInitial.items, entryState, 0, false⟩ :=
    Nat.lt_of_not_le hrange
  rw [VerdictsHold, EventsInTime, sound_iff_inTime_history calls hclosed hinit]
  refine and_congr_right fun hintime => ?_
  exact stands_iff_final_history calls hclosed hinit hintime

/-- A protocol of one state, which is its end. -/
def endsWith (outcome : TerminalOutcome) : ProtocolDef where
  sources := .empty
  frames := .empty
  sessionInitial := .empty
  states := .clamp [⟨.copy (ascii "end"), .terminal outcome⟩]

/-- A pass stands when an event comes behind it. -/
theorem verdictsHold_pass : ∃ start, eapRunStart (endsWith .pass) 0 = some start ∧
    VerdictsHold (history start [.enter, .event .timeout]) := by
  have hclosed : (endsWith .pass).Closed := by decide
  have hstart : eapRunStart (endsWith .pass) 0 = some ⟨endsWith .pass, [], 0, 0, false⟩ := rfl
  refine ⟨_, hstart, (verdictsHold_iff hclosed hstart [.enter, .event .timeout]).mpr ⟨?_, ?_⟩⟩
  · intro r hr ev _ _
    rcases List.mem_cons.mp hr with rfl | hr
    · exact ⟨_, rfl, rfl⟩
    · obtain rfl := List.mem_singleton.mp hr
      exact ⟨_, rfl, rfl⟩
  · exact .cons (fun _ _ habandon => absurd habandon nofun) (.cons nofun .nil)

/-- A failure does not. -/
theorem not_verdictsHold_fail : ∃ start, eapRunStart (endsWith .fail) 0 = some start ∧
    ¬ VerdictsHold (history start [.enter, .event .timeout]) := by
  refine ⟨_, rfl, fun hold => ?_⟩
  have hstands := (List.pairwise_cons.mp hold.2).1 _ List.mem_cons_self
  obtain ⟨outcome, hstep, htag⟩ := hstands _ _ rfl .timeout rfl
  obtain ⟨-, rfl⟩ := EapStep.done.injEq .. ▸ hstep
  exact absurd htag nofun

end DevBench.Eap
