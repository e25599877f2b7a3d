import DevBench.Eap.Interp

/-!
# Subscripts of the interpreter

Every table but that of the states is subscripted behind a test, so those subscripts
are in range whatever the run does. The current state is subscripted without one: a
run stays in range exactly as long as no event takes a transition to a state that was
not decoded.
-/

namespace DevBench.Eap

open DevBench.Core DevBench.Core.Traced

variable {run : EapRun}

/-! ## Tables subscripted behind a test -/

/-- An element found by its index is a decoded one. -/
private theorem emit_getElem? {α : Type} {xs : List α} {i : Nat} {x : α} (h : xs[i]? = some x)
    (t : Table) : (emit ⟨t, i, xs.length⟩ : Interp Unit).Logs Subscript.InRange :=
  logs_emit.mpr (List.getElem?_eq_some_iff.mp h).1

theorem logs_evalOperand (op : Operand) (run : EapRun) (frame : Option Frame)
    (payload : List UInt8) : (evalOperand op run frame payload).Logs Subscript.InRange := by
  cases op with
  | literal value => exact logs_pure _ _
  | session index =>
    simp only [evalOperand]
    split
    · exact logs_pure _ _
    · next h => exact logs_bind.mpr ⟨logs_emit.mpr (Nat.lt_of_not_le h), logs_pure _ _⟩
  | field index =>
    cases frame with
    | none => exact logs_pure _ _
    | some frame =>
      simp only [evalOperand]
      cases h : frame.fields.items[index.toNat]? with
      | none => exact logs_pure _ _
      | some read =>
        refine logs_bind.mpr ⟨emit_getElem? h .fields, ?_⟩
        split <;> exact logs_pure _ _
  | spanLen index =>
    cases frame with
    | none => exact logs_pure _ _
    | some frame =>
      simp only [evalOperand]
      cases h : frame.spans.items[index.toNat]? with
      | none => exact logs_pure _ _
      | some span =>
        refine logs_bind.mpr ⟨emit_getElem? h .spans, ?_⟩
        split
        · exact logs_pure _ _
        · cases span.len with
          | none => exact logs_pure _ _
          | some len =>
            simp only
            split <;> exact logs_pure _ _

theorem logs_evalExpr (e : Expr) (run : EapRun) (frame : Option Frame) (payload : List UInt8) :
    (evalExpr e run frame payload).Logs Subscript.InRange := by
  cases e with
  | term a => exact logs_evalOperand a run frame payload
  | add a b =>
    refine logs_bind.mpr ⟨logs_evalOperand a run frame payload, ?_⟩
    split
    · exact logs_pure _ _
    · exact logs_bind.mpr ⟨logs_evalOperand b run frame payload, logs_pure _ _⟩

theorem logs_evalCondition (c : Condition) (run : EapRun) (frame : Option Frame)
    (payload : List UInt8) : (evalCondition c run frame payload).Logs Subscript.InRange := by
  refine logs_bind.mpr ⟨logs_evalOperand c.lhs run frame payload, ?_⟩
  split
  · exact logs_pure _ _
  · refine logs_bind.mpr ⟨logs_evalOperand c.rhs run frame payload, ?_⟩
    split <;> exact logs_pure _ _

/-- The loop of `select_frame` over what is left of the table. -/
theorem logs_selectFrameLoop {count : Nat} (source : UInt8) (payload : List UInt8) :
    ∀ (frames : List Frame) (i : Nat), i + frames.length = count →
      (selectFrameLoop count source payload i frames).Logs Subscript.InRange ∧
      ∀ r ∈ (selectFrameLoop count source payload i frames).value, r.1 < count
  | [], i, _ => ⟨logs_pure _ _, by simp [selectFrameLoop]⟩
  | frame :: frames, i, h => by
    rw [List.length_cons] at h
    have hi : i < count := by omega
    have hcount : i + 1 + frames.length = count := by omega
    obtain ⟨hlogs, hvalue⟩ := logs_selectFrameLoop source payload frames (i + 1) hcount
    simp only [selectFrameLoop, logs_bind, value_bind]
    by_cases hm : frame.source = source ∧ frameMatch frame payload = true
    · rw [if_pos hm]
      refine ⟨⟨logs_emit.mpr hi, logs_pure _ _⟩, ?_⟩
      intro r hr
      rw [value_pure, Option.mem_some_iff] at hr
      exact hr ▸ hi
    · rw [if_neg hm]
      exact ⟨⟨logs_emit.mpr hi, hlogs⟩, hvalue⟩

theorem logs_encodeFields (run : EapRun) (frame : Option Frame) (payload : List UInt8)
    (outCap : Nat) : ∀ (fields : List WriteField) (out : List UInt8),
      (encodeFields run frame payload outCap fields out).Logs Subscript.InRange
  | [], _ => logs_pure _ _
  | f :: fields, out => by
    refine logs_bind.mpr ⟨logs_evalOperand f.value run frame payload, ?_⟩
    split
    · exact logs_pure _ _
    · split
      · exact logs_pure _ _
      · exact logs_encodeFields run frame payload outCap fields _

/-- The session variables stored to are declared ones, and the run keeps its place. -/
theorem logs_applyRemembers (frame : Frame) (payload : List UInt8) :
    ∀ (remembers : List Remember) (run : EapRun),
      (applyRemembers frame payload remembers run).Logs Subscript.InRange ∧
      (applyRemembers frame payload remembers run).value.defn = run.defn ∧
      (applyRemembers frame payload remembers run).value.state = run.state
  | [], _ => ⟨logs_pure _ _, rfl, rfl⟩
  | r :: remembers, run => by
    have heval := logs_evalExpr r.value run (some frame) payload
    have hskip := logs_applyRemembers frame payload remembers run
    simp only [applyRemembers, logs_bind, value_bind]
    split
    · exact ⟨⟨heval, hskip.1⟩, hskip.2⟩
    · next v _ =>
      split
      · next h =>
        obtain ⟨hlogs, hplace⟩ := logs_applyRemembers frame payload remembers
          { run with session := run.session.set r.var.toNat v }
        exact ⟨⟨heval, logs_bind.mpr ⟨logs_emit.mpr h, hlogs⟩⟩, hplace⟩
      · exact ⟨⟨heval, hskip.1⟩, hskip.2⟩

theorem logs_firstGuard (run : EapRun) (frame : Frame) (payload : List UInt8) :
    ∀ guards : List GuardedGoto, (firstGuard run frame payload guards).Logs Subscript.InRange
  | [] => logs_pure _ _
  | g :: guards => by
    refine logs_bind.mpr ⟨logs_evalCondition g.cond run (some frame) payload, ?_⟩
    split
    · exact logs_pure _ _
    · exact logs_firstGuard run frame payload guards

/-- Choosing the target of a notification uses no subscript out of range. -/
theorem logs_notifyTarget (run : EapRun) (arms : List EventArm) (source : UInt8)
    (payload : List UInt8) :
    (notifyTarget run arms source payload).Logs Subscript.InRange ∧
    (notifyTarget run arms source payload).value.1.defn = run.defn ∧
    (notifyTarget run arms source payload).value.1.state = run.state := by
  obtain ⟨hselect, hindex⟩ := logs_selectFrameLoop source payload run.defn.frames.items 0
    (Nat.zero_add _)
  simp only [notifyTarget, logs_bind, value_bind, selectFrame]
  split
  · exact ⟨⟨hselect, logs_pure _ _⟩, rfl, rfl⟩
  · next index frame hvalue =>
    split
    · exact ⟨⟨hselect, logs_pure _ _⟩, rfl, rfl⟩
    · next arm _ =>
      obtain ⟨hremember, hplace⟩ := logs_applyRemembers frame payload arm.remember.items run
      have hlt : index < run.defn.frames.items.length := hindex (index, frame) hvalue
      refine ⟨⟨hselect, logs_bind.mpr ⟨logs_emit.mpr hlt, logs_bind.mpr ⟨hremember,
        logs_bind.mpr ⟨logs_firstGuard _ frame payload _, logs_pure _ _⟩⟩⟩⟩, hplace⟩

/-! ## The current state -/

/-- The state a run is in was decoded. -/
def EapRun.StateInRange (run : EapRun) : Prop := run.state.toNat < run.statesLen

instance : DecidablePred EapRun.StateInRange := fun run => Nat.decLt _ run.statesLen

theorem logs_currentState : run.currentState.Logs Subscript.InRange ↔ run.StateInRange := by
  simp only [EapRun.currentState, logs_bind, logs_emit, logs_pure, and_true]
  rfl

theorem logs_setOutcome (outcome : RunOutcome) :
    (setOutcome run outcome).Logs Subscript.InRange ↔ run.StateInRange := by
  simp only [setOutcome, logs_bind, logs_currentState, logs_pure, and_true]

/-- Entering keeps the run in its state, and is in range exactly when the state is. -/
theorem onEntered_spec (run : EapRun) :
    (onEntered run).value.1.defn = run.defn ∧ (onEntered run).value.1.state = run.state ∧
      ((onEntered run).Logs Subscript.InRange ↔ run.StateInRange) := by
  have hfinished : ({ run with finished := true } : EapRun).StateInRange ↔ run.StateInRange :=
    Iff.rfl
  simp only [onEntered, logs_bind, value_bind, logs_currentState]
  split
  · simp only [logs_bind, logs_setOutcome, logs_pure, value_bind, value_pure, hfinished, and_true,
      and_self]
  · simp only [logs_bind, logs_setOutcome, logs_pure, value_bind, value_pure, hfinished, and_true,
      and_self]
  · simp only [logs_pure, value_pure, and_true, and_self]
  · next write _ _ _ =>
    have hwrite := logs_encodeFields run none [] maxWritePayloadLen write.fields.items []
    simp only [logs_bind, value_bind, encodeWrite, hwrite, true_and]
    split
    · simp only [logs_bind, logs_setOutcome, logs_pure, value_bind, value_pure, hfinished,
        and_true, and_self]
    · simp only [logs_pure, value_pure, and_true, and_self]

/-- Going to a state is in range exactly when the state is decoded. -/
theorem gotoState_spec (run : EapRun) (target : UInt8) :
    (gotoState run target).value.1.defn = run.defn ∧
      (gotoState run target).value.1.state = target ∧
      ((gotoState run target).Logs Subscript.InRange ↔ target.toNat < run.statesLen) :=
  onEntered_spec _

/-- The state an event sends the machine to, if it takes a transition at all: a timeout
with no retry left its `goto`, a notification the first guard that holds or else the
`otherwise` of its arm. -/
def EapRun.target (run : EapRun) (ev : Event) : Option UInt8 :=
  if run.finished then none
  else
    match run.currentState.value.kind with
    | .terminal _ => none
    | .active _ arms timeout =>
      match ev with
      | .timeout => timeout.bind fun arm =>
        if run.retries < arm.retry then none else some arm.gotoState
      | .notify source payload => (notifyTarget run arms.items source payload).value.2

/-- A timeout retries in its state or goes to its target. -/
private theorem onTimeout_cases {write : Option Write}
    {arms : Slots EventArm maxEventArmsPerState} {timeout : Option TimeoutArm}
    (h : run.StateInRange) (hkind : run.currentState.value.kind = .active write arms timeout) :
    (((timeout.bind fun arm => if run.retries < arm.retry then none else some arm.gotoState) =
        none ∧
      (onTimeout run).value.1.defn = run.defn ∧ (onTimeout run).value.1.state = run.state ∧
      (onTimeout run).Logs Subscript.InRange)) ∨
    ∃ target, (timeout.bind fun arm =>
        if run.retries < arm.retry then none else some arm.gotoState) = some target ∧
      (onTimeout run).value.1.defn = run.defn ∧ (onTimeout run).value.1.state = target ∧
      ((onTimeout run).Logs Subscript.InRange ↔ target.toNat < run.statesLen) := by
  have hcurrent := logs_currentState.mpr h
  simp only [onTimeout, logs_bind, value_bind, hkind, hcurrent, true_and]
  cases timeout with
  | none => exact .inl ⟨rfl, rfl, rfl, logs_pure _ _⟩
  | some arm =>
    simp only [Option.bind_some]
    by_cases hretry : run.retries < arm.retry
    · obtain ⟨hdefn, hstate, hlogs⟩ := onEntered_spec { run with retries := run.retries + 1 }
      rw [if_pos hretry, if_pos hretry]
      exact .inl ⟨rfl, hdefn, hstate, hlogs.mpr h⟩
    · rw [if_neg hretry, if_neg hretry]
      exact .inr ⟨arm.gotoState, rfl, gotoState_spec run arm.gotoState⟩

/-- A notification is consumed in its state or goes to its target. -/
private theorem onNotify_cases {write : Option Write}
    {arms : Slots EventArm maxEventArmsPerState} {timeout : Option TimeoutArm}
    (h : run.StateInRange) (hkind : run.currentState.value.kind = .active write arms timeout)
    (source : UInt8) (payload : List UInt8) :
    ((notifyTarget run arms.items source payload).value.2 = none ∧
      (onNotify run source payload).value.1.defn = run.defn ∧
      (onNotify run source payload).value.1.state = run.state ∧
      (onNotify run source payload).Logs Subscript.InRange) ∨
    ∃ target, (notifyTarget run arms.items source payload).value.2 = some target ∧
      (onNotify run source payload).value.1.defn = run.defn ∧
      (onNotify run source payload).value.1.state = target ∧
      ((onNotify run source payload).Logs Subscript.InRange ↔ target.toNat < run.statesLen) := by
  have hcurrent := logs_currentState.mpr h
  obtain ⟨hlogs, hdefn, hstate⟩ := logs_notifyTarget run arms.items source payload
  simp only [onNotify, logs_bind, value_bind, hkind, hcurrent, hlogs, true_and]
  cases htarget : (notifyTarget run arms.items source payload).value.2 with
  | none => exact .inl ⟨rfl, hdefn, hstate, logs_pure _ _⟩
  | some target =>
    obtain ⟨hdefn', hstate', hgoto⟩ :=
      gotoState_spec (notifyTarget run arms.items source payload).value.1 target
    refine .inr ⟨target, rfl, hdefn'.trans hdefn, hstate', ?_⟩
    rw [hgoto, EapRun.statesLen, hdefn, EapRun.statesLen]

/-- What an event can do: take no transition, keep the place and stay in range, or go to
its target. -/
theorem eapRunOnEvent_cases (h : run.StateInRange) (ev : Event) :
    (run.target ev = none ∧ (eapRunOnEvent run ev).value.1.defn = run.defn ∧
      (eapRunOnEvent run ev).value.1.state = run.state ∧
      (eapRunOnEvent run ev).Logs Subscript.InRange) ∨
    ∃ target, run.target ev = some target ∧ (eapRunOnEvent run ev).value.1.defn = run.defn ∧
      (eapRunOnEvent run ev).value.1.state = target ∧
      ((eapRunOnEvent run ev).Logs Subscript.InRange ↔ target.toNat < run.statesLen) := by
  have hcurrent := logs_currentState.mpr h
  cases hfinished : run.finished with
  | true =>
    simp only [eapRunOnEvent, EapRun.target, hfinished, if_true, value_bind, value_pure, logs_bind,
      logs_setOutcome, logs_pure]
    exact .inl ⟨trivial, trivial, trivial, h, trivial⟩
  | false =>
    simp only [eapRunOnEvent, EapRun.target, hfinished, Bool.false_eq_true, if_false, logs_bind,
      value_bind, hcurrent, true_and]
    cases hkind : run.currentState.value.kind with
    | terminal outcome =>
      obtain ⟨hdefn, hstate, hlogs⟩ := onEntered_spec run
      cases ev <;> exact .inl ⟨rfl, hdefn, hstate, hlogs.mpr h⟩
    | active write arms timeout =>
      cases ev with
      | timeout => exact onTimeout_cases h hkind
      | notify source payload => exact onNotify_cases h hkind source payload

/-- An event leaves the protocol as it is. -/
theorem defn_eapRunOnEvent (run : EapRun) (ev : Event) :
    (eapRunOnEvent run ev).value.1.defn = run.defn := by
  cases hfinished : run.finished with
  | true => simp only [eapRunOnEvent, hfinished, if_true, value_bind, value_pure]
  | false =>
    simp only [eapRunOnEvent, hfinished, Bool.false_eq_true, if_false, value_bind]
    cases hkind : run.currentState.value.kind with
    | terminal outcome => exact (onEntered_spec run).1
    | active write arms timeout =>
      cases ev with
      | timeout =>
        simp only [onTimeout, value_bind, hkind]
        cases timeout with
        | none => rfl
        | some arm =>
          simp only
          split
          · exact (onEntered_spec _).1
          · exact (gotoState_spec run _).1
      | notify source payload =>
        have hdefn := (logs_notifyTarget run arms.items source payload).2.1
        simp only [onNotify, value_bind, hkind]
        cases (notifyTarget run arms.items source payload).value.2 with
        | none => exact hdefn
        | some target => exact (gotoState_spec _ target).1.trans hdefn

/-! ## Runs -/

/-- The runs after each event of a list. -/
def feed : EapRun → List Event → Interp (List EapRun)
  | _, [] => pure []
  | run, ev :: events => do
    let (run, _) ← eapRunOnEvent run ev
    let rest ← feed run events
    pure (run :: rest)

/-- A whole run: started, entered and fed, with the run after every call. -/
def playRun (defn : ProtocolDef) (entryState : UInt8) (events : List Event) :
    Interp (List EapRun) :=
  match eapRunStart defn entryState with
  | none => pure []
  | some start => do
    let (entered, _) ← eapRunEnter start
    let rest ← feed entered events
    pure (start :: entered :: rest)

/-- Every transition the events make the machine take goes to a decoded state. -/
def TargetsDecoded : EapRun → List Event → Prop
  | _, [] => True
  | run, ev :: events =>
    (∀ target ∈ run.target ev, target.toNat < run.statesLen) ∧
      TargetsDecoded (eapRunOnEvent run ev).value.1 events

instance decidableTargetsDecoded : ∀ (run : EapRun) (events : List Event),
    Decidable (TargetsDecoded run events)
  | _, [] => instDecidableTrue
  | run, ev :: events =>
    have := decidableTargetsDecoded (eapRunOnEvent run ev).value.1 events
    inferInstanceAs (Decidable ((∀ _ ∈ _, _) ∧ TargetsDecoded _ _))

/-- A fed run stays in range exactly as long as its transitions do. -/
theorem feed_inRange_iff : ∀ (events : List Event) {run : EapRun}, run.StateInRange →
    (((∀ r ∈ (feed run events).value, r.StateInRange) ∧
        (feed run events).Logs Subscript.InRange) ↔ TargetsDecoded run events)
  | [], run, _ => by simp [feed, TargetsDecoded, logs_pure]
  | ev :: events, run, h => by
    simp only [feed, TargetsDecoded, value_bind, value_pure, logs_bind, logs_pure, and_true,
      List.forall_mem_cons]
    rcases eapRunOnEvent_cases h ev with
      ⟨ht, hdefn, hstate, hlogs⟩ | ⟨target, ht, hdefn, hstate, hlogs⟩
    · have h' : (eapRunOnEvent run ev).value.1.StateInRange := by
        rw [EapRun.StateInRange, EapRun.statesLen, hdefn, hstate]
        exact h
      simp only [ht, h', hlogs, true_and, ← feed_inRange_iff events h', Option.not_mem_none,
        false_implies, implies_true]
    · have h' : (eapRunOnEvent run ev).value.1.StateInRange ↔ target.toNat < run.statesLen := by
        rw [EapRun.StateInRange, EapRun.statesLen, hdefn, hstate, EapRun.statesLen]
      simp only [ht, Option.mem_some_iff, forall_eq', hlogs, h']
      by_cases hlt : target.toNat < run.statesLen
      · simp only [hlt, true_and, ← feed_inRange_iff events (h'.mpr hlt)]
      · simp only [hlt, false_and]

/-- The same for a whole run, which starts in a decoded state or not at all. -/
theorem playRun_inRange {defn : ProtocolDef} {entryState : UInt8}
    (h : entryState.toNat < defn.states.items.length) (events : List Event) :
    ((∀ r ∈ (playRun defn entryState events).value, r.StateInRange) ∧
        (playRun defn entryState events).Logs Subscript.InRange) ↔
      ∀ start ∈ eapRunStart defn entryState,
        TargetsDecoded (eapRunEnter start).value.1 events := by
  have hstart : eapRunStart defn entryState =
      some ⟨defn, defn.sessionInitial.items, entryState, 0, false⟩ := if_neg (Nat.not_le.mpr h)
  obtain ⟨hdefn, hstate, hlogs⟩ :=
    onEntered_spec ⟨defn, defn.sessionInitial.items, entryState, 0, false⟩
  have hentered : (eapRunEnter
      ⟨defn, defn.sessionInitial.items, entryState, 0, false⟩).value.1.StateInRange := by
    rw [EapRun.StateInRange, EapRun.statesLen, eapRunEnter, hdefn, hstate]
    exact h
  have hinit : EapRun.StateInRange ⟨defn, defn.sessionInitial.items, entryState, 0, false⟩ := h
  simp only [playRun, hstart, value_bind, value_pure, logs_bind, logs_pure, and_true,
    List.forall_mem_cons, Option.mem_some_iff, forall_eq', hinit, hentered, true_and,
    ← feed_inRange_iff events hentered]
  simp only [eapRunEnter, hlogs.mpr hinit, true_and]

/-! ## Closed protocols -/

/-- Every target a state declares was decoded. -/
def StateKind.ClosedBy (count : Nat) : StateKind → Prop
  | active _ arms timeout =>
    (∀ arm ∈ arms.items, (∀ g ∈ arm.guards.items, g.gotoState.toNat < count) ∧
      ∀ target ∈ arm.otherwise, target.toNat < count) ∧
    ∀ arm ∈ timeout, arm.gotoState.toNat < count
  | terminal _ => True

instance (count : Nat) : DecidablePred (StateKind.ClosedBy count)
  | .active _ arms timeout => inferInstanceAs (Decidable ((∀ arm ∈ arms.items,
      (∀ g ∈ arm.guards.items, g.gotoState.toNat < count) ∧
        ∀ target ∈ arm.otherwise, target.toNat < count) ∧
      ∀ arm ∈ timeout, arm.gotoState.toNat < count))
  | .terminal _ => instDecidableTrue

/-- Every target the protocol declares was decoded. -/
def ProtocolDef.Closed (defn : ProtocolDef) : Prop :=
  ∀ s ∈ defn.states.items, s.kind.ClosedBy defn.states.items.length

instance : DecidablePred ProtocolDef.Closed := fun defn =>
  inferInstanceAs (Decidable (∀ s ∈ defn.states.items, s.kind.ClosedBy _))

theorem firstGuard_mem (run : EapRun) (frame : Frame) (payload : List UInt8) :
    ∀ {guards : List GuardedGoto}, ∀ target ∈ (firstGuard run frame payload guards).value,
      ∃ g ∈ guards, g.gotoState = target
  | [], target, h => by simp [firstGuard] at h
  | g :: guards, target, h => by
    simp only [firstGuard, value_bind] at h
    split at h
    · rw [value_pure, Option.mem_some_iff] at h
      exact ⟨g, List.mem_cons_self, h⟩
    · obtain ⟨g', hg', ht⟩ := firstGuard_mem run frame payload target h
      exact ⟨g', List.mem_cons_of_mem _ hg', ht⟩

/-- The target of a notification is declared by an arm of the state. -/
theorem notifyTarget_mem (run : EapRun) (arms : List EventArm) (source : UInt8)
    (payload : List UInt8) : ∀ target ∈ (notifyTarget run arms source payload).value.2,
      ∃ arm ∈ arms, (∃ g ∈ arm.guards.items, g.gotoState = target) ∨ target ∈ arm.otherwise := by
  intro target h
  simp only [notifyTarget, value_bind] at h
  split at h
  · exact absurd h (by simp)
  · next index frame _ =>
    split at h
    · exact absurd h (by simp)
    · next arm harm =>
      have hmem := List.mem_of_find?_eq_some harm
      simp only [value_bind, value_pure] at h
      cases hguard : (firstGuard (applyRemembers frame payload arm.remember.items run).value frame
          payload arm.guards.items).value with
      | some guard =>
        rw [hguard] at h
        exact ⟨arm, hmem, .inl (firstGuard_mem _ frame payload target (hguard.trans h))⟩
      | none =>
        rw [hguard] at h
        exact ⟨arm, hmem, .inr h⟩

/-- A run of a closed protocol takes no transition out of range. -/
theorem EapRun.target_lt (hclosed : run.defn.Closed) (h : run.StateInRange) (ev : Event) :
    ∀ target ∈ run.target ev, target.toNat < run.statesLen := by
  intro target ht
  have hkind := hclosed run.currentState.value (by
    simp only [EapRun.currentState, value_bind, value_pure]
    rw [List.getD_eq_getElem _ _ h]
    exact List.getElem_mem h)
  simp only [EapRun.target] at ht
  split at ht
  · exact absurd ht (by simp)
  · split at ht
    · exact absurd ht (by simp)
    · next write arms timeout hk =>
      rw [hk] at hkind
      cases ev with
      | timeout =>
        obtain ⟨arm, harm, htarget⟩ := Option.bind_eq_some_iff.mp ht
        split at htarget
        · exact absurd htarget (by simp)
        · exact Option.some.inj htarget ▸ hkind.2 arm harm
      | notify source payload =>
        obtain ⟨arm, harm, hg | hother⟩ := notifyTarget_mem run arms.items source payload target ht
        · obtain ⟨g, hg, rfl⟩ := hg
          exact (hkind.1 arm harm).1 g hg
        · exact (hkind.1 arm harm).2 target hother

theorem targetsDecoded_of_closed : ∀ (events : List Event) {run : EapRun}, run.defn.Closed →
    run.StateInRange → TargetsDecoded run events
  | [], _, _, _ => trivial
  | ev :: events, run, hclosed, h => by
    have hlt := EapRun.target_lt hclosed h ev
    refine ⟨hlt, ?_⟩
    rcases eapRunOnEvent_cases h ev with ⟨_, hdefn, hstate, _⟩ | ⟨target, ht, hdefn, hstate, _⟩
    · refine targetsDecoded_of_closed events (hdefn ▸ hclosed) ?_
      rw [EapRun.StateInRange, EapRun.statesLen, hdefn, hstate]
      exact h
    · refine targetsDecoded_of_closed events (hdefn ▸ hclosed) ?_
      rw [EapRun.StateInRange, EapRun.statesLen, hdefn, hstate]
      exact hlt target ht

end DevBench.Eap
