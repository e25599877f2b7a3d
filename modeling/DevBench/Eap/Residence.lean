import DevBench.Eap.Entries

/-!
# Residence and retries

A machine that has entered a state resides there until a transition is taken. A timeout
with retries left enters the state again and spends one, a notification that takes no
transition changes nothing but what its arm remembers, and every transition, one back to
the state itself included, is a fresh entry with all retries left. Writes come of
entries and retries alone.
-/

namespace DevBench.Eap

open DevBench.Core DevBench.Core.Traced

variable {run : EapRun}

/-! ## What is remembered -/

/-- An arm of the state remembers the variable. -/
def Remembered (arms : List EventArm) (v : Nat) : Prop :=
  ∃ arm ∈ arms, ∃ r ∈ arm.remember.items, r.var.toNat = v

/-- The sessions differ at most in what the arms remember. -/
def AgreeBeside (arms : List EventArm) (session session' : List Int64) : Prop :=
  ∀ v, ¬ Remembered arms v → session'.getD v 0 = session.getD v 0

/-- A session agrees with itself. -/
theorem agreeBeside_refl (arms : List EventArm) (session : List Int64) :
    AgreeBeside arms session session := fun _ _ => rfl

/-- Remembering stores to the variables named and touches nothing else of the run. -/
theorem applyRemembers_value (frame : Frame) (payload : List UInt8) (remembers : List Remember)
    (run : EapRun) :
    ∃ session, (applyRemembers frame payload remembers run).value =
        { run with session := session } ∧
      ∀ v, (∀ r ∈ remembers, r.var.toNat ≠ v) → session.getD v 0 = run.session.getD v 0 := by
  induction remembers generalizing run with
  | nil => exact ⟨run.session, rfl, fun _ _ => rfl⟩
  | cons r remembers ih =>
    simp only [applyRemembers, value_bind]
    have hskip : ∃ session, (applyRemembers frame payload remembers run).value =
        { run with session := session } ∧
        ∀ v, (∀ r' ∈ r :: remembers, r'.var.toNat ≠ v) →
          session.getD v 0 = run.session.getD v 0 := by
      obtain ⟨session, hvalue, hsession⟩ := ih run
      exact ⟨session, hvalue, fun v hv => hsession v (List.forall_mem_cons.mp hv).2⟩
    cases (evalExpr r.value run (some frame) payload).value with
    | none => exact hskip
    | some v =>
      simp only
      by_cases hvar : r.var.toNat < run.sessionLen
      · rw [if_pos hvar]
        obtain ⟨session, hvalue, hsession⟩ :=
          ih { run with session := run.session.set r.var.toNat v }
        refine ⟨session, hvalue, ?_⟩
        intro w hw
        obtain ⟨hhead, htail⟩ := List.forall_mem_cons.mp hw
        rw [hsession w htail, List.getD_eq_getElem?_getD, List.getD_eq_getElem?_getD,
          List.getElem?_set_ne hhead]
      · rw [if_neg hvar]
        exact hskip

/-- Looking for a target changes the session alone, beside the variables its arm stores. -/
theorem notifyTarget_value (run : EapRun) (arms : List EventArm) (source : UInt8)
    (payload : List UInt8) :
    ∃ session, (notifyTarget run arms source payload).value.1 = { run with session := session } ∧
      AgreeBeside arms run.session session := by
  simp only [notifyTarget, value_bind]
  split
  · exact ⟨run.session, rfl, agreeBeside_refl _ _⟩
  · next index frame _ =>
    split
    · exact ⟨run.session, rfl, agreeBeside_refl _ _⟩
    · next arm harm =>
      obtain ⟨session, hvalue, hsession⟩ :=
        applyRemembers_value frame payload arm.remember.items run
      simp only [value_bind, value_pure]
      refine ⟨session, hvalue, ?_⟩
      intro v hv
      apply hsession v
      intro r hr hvar
      exact hv ⟨arm, List.mem_of_find?_eq_some harm, r, hr, hvar⟩

/-! ## One event -/

/-- The machine comes to the state anew: what it does there starts without retries. -/
def FreshEntry (run : EapRun) (target : UInt8) (r : EapRun × EapStep) : Prop :=
  r = (eapRunEnter { run with state := target }).value ∧ r.1.state = target ∧ r.1.retries = 0

/-- Entering spends no retry. -/
theorem onEntered_retries (run : EapRun) : (onEntered run).value.1.retries = run.retries := by
  simp only [onEntered, value_bind]
  split
  · rfl
  · rfl
  · rfl
  · simp only [value_bind]
    split <;> rfl

/-- And stores nothing. -/
theorem onEntered_session (run : EapRun) : (onEntered run).value.1.session = run.session := by
  simp only [onEntered, value_bind]
  split
  · rfl
  · rfl
  · rfl
  · simp only [value_bind]
    split <;> rfl

/-- Going to a state enters it with its retries unspent. -/
theorem freshEntry_gotoState (run : EapRun) (target : UInt8) :
    FreshEntry run target (gotoState run target).value :=
  ⟨rfl, (gotoState_spec run target).2.1, onEntered_retries _⟩

section Step

variable {onEnter : Option Write} {arms : Slots EventArm maxEventArmsPerState}
  {timeout : Option TimeoutArm}

/-- In an active state an event is a timeout of it or a notification to it. -/
theorem onEvent_active (hfinished : run.finished = false)
    (hkind : run.currentState.value.kind = .active onEnter arms timeout) (ev : Event) :
    (eapRunOnEvent run ev).value =
      match ev with
      | .timeout => (onTimeout run).value
      | .notify source payload => (onNotify run source payload).value := by
  simp only [eapRunOnEvent, hfinished, Bool.false_eq_true, if_false, value_bind, hkind]
  cases ev <;> rfl

/-- A notification goes where its arm says. -/
theorem target_notify (hfinished : run.finished = false)
    (hkind : run.currentState.value.kind = .active onEnter arms timeout) (source : UInt8)
    (payload : List UInt8) :
    run.target (.notify source payload) =
      (notifyTarget run arms.items source payload).value.2 := by
  simp only [EapRun.target, hfinished, Bool.false_eq_true, if_false, hkind]

/-- A notification that takes no transition is consumed in its state. -/
theorem onEvent_consumed (hfinished : run.finished = false)
    (hkind : run.currentState.value.kind = .active onEnter arms timeout) {source : UInt8}
    {payload : List UInt8} (htarget : run.target (.notify source payload) = none) :
    ∃ session, AgreeBeside arms.items run.session session ∧
      (eapRunOnEvent run (.notify source payload)).value =
        ({ run with session := session }, .wait (deadlineOf timeout)) := by
  obtain ⟨session, hrun, hagree⟩ := notifyTarget_value run arms.items source payload
  rw [target_notify hfinished hkind] at htarget
  refine ⟨session, hagree, ?_⟩
  rw [onEvent_active hfinished hkind]
  simp only [onNotify, value_bind, hkind, htarget, value_pure, hrun]

/-- One that takes a transition enters its target anew. -/
theorem onEvent_taken (hfinished : run.finished = false)
    (hkind : run.currentState.value.kind = .active onEnter arms timeout) {source : UInt8}
    {payload : List UInt8} {target : UInt8}
    (htarget : run.target (.notify source payload) = some target) :
    ∃ session, AgreeBeside arms.items run.session session ∧
      FreshEntry { run with session := session } target
        (eapRunOnEvent run (.notify source payload)).value := by
  obtain ⟨session, hrun, hagree⟩ := notifyTarget_value run arms.items source payload
  rw [target_notify hfinished hkind] at htarget
  refine ⟨session, hagree, ?_⟩
  have hvalue : (eapRunOnEvent run (.notify source payload)).value =
      (gotoState { run with session := session } target).value := by
    rw [onEvent_active hfinished hkind]
    simp only [onNotify, value_bind, hkind, htarget, hrun]
  rw [hvalue]
  exact freshEntry_gotoState _ target

/-- A timeout with retries left enters the state again and spends one. -/
theorem onEvent_retry {arm : TimeoutArm} (hfinished : run.finished = false)
    (hkind : run.currentState.value.kind = .active onEnter arms (some arm))
    (hencodable : ∀ w ∈ onEnter, w.Encodable run.sessionLen) (hleft : run.retries < arm.retry) :
    (eapRunOnEvent run .timeout).value =
      ({ run with retries := run.retries + 1 }, entryStep onEnter (some arm) run.session) := by
  have hentered := onEntered_active { run with retries := run.retries + 1 } hkind hencodable
  rw [onEvent_active hfinished hkind]
  simp only [onTimeout, value_bind, hkind, if_pos hleft]
  exact hentered

/-- One without takes the transition of the timeout. -/
theorem onEvent_exhausted {arm : TimeoutArm} (hfinished : run.finished = false)
    (hkind : run.currentState.value.kind = .active onEnter arms (some arm))
    (hspent : ¬ run.retries < arm.retry) :
    FreshEntry run arm.gotoState (eapRunOnEvent run .timeout).value := by
  have hvalue : (eapRunOnEvent run .timeout).value = (gotoState run arm.gotoState).value := by
    rw [onEvent_active hfinished hkind]
    simp only [onTimeout, value_bind, hkind, if_neg hspent]
  rw [hvalue]
  exact freshEntry_gotoState run arm.gotoState

end Step

/-! ## A residence -/

/-- The run behind a list of events. -/
def EapRun.after (run : EapRun) (evs : List Event) : EapRun :=
  evs.foldl (fun run ev => (eapRunOnEvent run ev).value.1) run

/-- No notification of the list takes a transition when it comes. -/
def Quiet : EapRun → List Event → Prop
  | _, [] => True
  | run, ev :: evs =>
    (ev ≠ .timeout → run.target ev = none) ∧ Quiet (eapRunOnEvent run ev).value.1 evs

/-- An active state with a timeout, and a write that can be encoded if it has one. -/
structure Resident (defn : ProtocolDef) (s : UInt8) (onEnter : Option Write)
    (arms : Slots EventArm maxEventArmsPerState) (arm : TimeoutArm) : Prop where
  kind : ∃ state, defn.states.items[s.toNat]? = some state ∧
    state.kind = .active onEnter arms (some arm)
  encodable : ∀ w ∈ onEnter, w.Encodable defn.sessionInitial.items.length

/-- The run goes on in the state and has spent so many retries. -/
structure Resides (defn : ProtocolDef) (s : UInt8) (spent : Nat) (run : EapRun) : Prop where
  defn : run.defn = defn
  state : run.state = s
  unfinished : run.finished = false
  retries : run.retries.toNat = spent

section Run

variable {defn : ProtocolDef} {s : UInt8} {onEnter : Option Write}
  {arms : Slots EventArm maxEventArmsPerState} {arm : TimeoutArm} {spent : Nat}

/-- The run is in that state. -/
theorem Resident.currentState (h : Resident defn s onEnter arms arm) (hdefn : run.defn = defn)
    (hstate : run.state = s) : run.currentState.value.kind = .active onEnter arms (some arm) := by
  obtain ⟨state, hget, hkind⟩ := h.kind
  have hat : run.At state := by
    rw [EapRun.At, hdefn, hstate]
    exact hget
  rw [hat.currentState, hkind]

/-- What it writes there can be encoded. -/
theorem Resident.encodable_run (h : Resident defn s onEnter arms arm) (hdefn : run.defn = defn) :
    ∀ w ∈ onEnter, w.Encodable run.sessionLen := by
  rw [EapRun.sessionLen, hdefn]
  exact h.encodable

/-- Entering the state begins a residence without a retry spent. -/
theorem Resident.enter (h : Resident defn s onEnter arms arm) (hdefn : run.defn = defn)
    (hstate : run.state = s) (hfinished : run.finished = false) :
    Resides defn s 0 (eapRunEnter run).value.1 ∧
      (eapRunEnter run).value.2 = entryStep onEnter (some arm) run.session := by
  have hentered := onEntered_active { run with retries := 0 }
    (h.currentState hdefn hstate : run.currentState.value.kind = _) (h.encodable_run hdefn)
  rw [eapRunEnter, hentered]
  exact ⟨⟨hdefn, hstate, hfinished, rfl⟩, rfl⟩

/-- Retries are left as long as fewer are spent than declared. -/
theorem Resides.retries_lt_iff (h : Resides defn s spent run) :
    run.retries < arm.retry ↔ spent < arm.retry.toNat := by
  rw [UInt8.lt_iff_toNat_lt, h.retries]

/-- A timeout that is retried. -/
theorem Resides.retry (h : Resides defn s spent run) (hs : Resident defn s onEnter arms arm)
    (hleft : spent < arm.retry.toNat) :
    Resides defn s (spent + 1) (eapRunOnEvent run .timeout).value.1 ∧
      (eapRunOnEvent run .timeout).value =
        ({ run with retries := run.retries + 1 }, entryStep onEnter (some arm) run.session) := by
  have hvalue := onEvent_retry h.unfinished (hs.currentState h.defn h.state)
    (hs.encodable_run h.defn) (h.retries_lt_iff.mpr hleft)
  have hretries : (run.retries + 1).toNat = spent + 1 := by
    have hfits := arm.retry.toNat_lt
    rw [UInt8.toNat_add, h.retries]
    exact Nat.mod_eq_of_lt (show spent + 1 < 256 by omega)
  rw [hvalue]
  exact ⟨⟨h.defn, h.state, h.unfinished, hretries⟩, rfl⟩

/-- Events that take no transition keep the machine where it is, and its timeouts count. -/
theorem Resides.after (h : Resides defn s spent run) (hs : Resident defn s onEnter arms arm)
    {evs : List Event} (hquiet : Quiet run evs)
    (hleft : spent + evs.count .timeout ≤ arm.retry.toNat) :
    Resides defn s (spent + evs.count .timeout) (run.after evs) := by
  induction evs generalizing run spent with
  | nil => exact h
  | cons ev evs ih =>
    obtain ⟨hstays, hquiet⟩ := hquiet
    cases ev with
    | timeout =>
      rw [List.count_cons_self] at hleft ⊢
      have hnext := (h.retry hs (by omega)).1
      rw [Nat.add_comm _ 1, ← Nat.add_assoc] at hleft ⊢
      exact ih hnext hquiet hleft
    | notify source payload =>
      rw [List.count_cons_of_ne (by simp)] at hleft ⊢
      obtain ⟨session, -, hvalue⟩ := onEvent_consumed h.unfinished
        (hs.currentState h.defn h.state) (hstays (by simp))
      have hnext : Resides defn s spent
          (eapRunOnEvent run (.notify source payload)).value.1 := by
        rw [hvalue]
        exact ⟨h.defn, h.state, h.unfinished, h.retries⟩
      exact ih hnext hquiet hleft

end Run

/-! ## Writes -/

/-- The step asks for a write. -/
def EapStep.IsWrite : EapStep → Prop
  | write .. => True
  | _ => False

/-- The state the run is in has a write, and it can be encoded. -/
def EapRun.Writes (run : EapRun) : Prop :=
  ∃ w arms timeout, run.currentState.value.kind = .active (some w) arms timeout ∧
    w.Encodable run.sessionLen

/-- A timeout of a state that has retries left. -/
def EapRun.Retries (run : EapRun) (ev : Event) : Prop :=
  ev = .timeout ∧ run.finished = false ∧ ∃ onEnter arms arm,
    run.currentState.value.kind = .active onEnter arms (some arm) ∧ run.retries < arm.retry

/-- The call enters the state that the run is in behind it, anew or for a retry. -/
def Call.Enters (run : EapRun) : Call → Prop
  | enter => True
  | event ev => run.target ev ≠ none ∨ run.Retries ev
  | abandon => False

/-- Entering stays in the state. -/
theorem currentState_onEntered (run : EapRun) :
    (onEntered run).value.1.currentState.value = run.currentState.value := by
  obtain ⟨hdefn, hstate, -⟩ := onEntered_spec run
  simp only [EapRun.currentState, value_bind, value_pure, hdefn, hstate]

/-- It asks for a write where the state has one that can be encoded. -/
theorem isWrite_onEntered (run : EapRun) :
    (onEntered run).value.2.IsWrite ↔ (onEntered run).value.1.Writes := by
  have hcount : (onEntered run).value.1.sessionLen = run.sessionLen := by
    rw [EapRun.sessionLen, (onEntered_spec run).1, EapRun.sessionLen]
  rw [EapRun.Writes, currentState_onEntered, hcount]
  simp only [onEntered, value_bind]
  cases hkind : run.currentState.value.kind with
  | terminal outcome =>
    cases outcome <;> simp [setOutcome, EapStep.IsWrite]
  | active onEnter arms timeout =>
    cases onEnter with
    | none => simp [EapStep.IsWrite]
    | some w =>
      simp only [value_bind]
      by_cases hw : w.Encodable run.sessionLen
      · have hpayload := encodeWrite_eq_some.mpr ⟨hw, rfl⟩
        simp only [hpayload]
        exact iff_of_true trivial ⟨w, arms, timeout, rfl, hw⟩
      · have hnone := encodeWrite_eq_none.mpr hw
        simp only [hnone]
        refine iff_of_false id ?_
        rintro ⟨w', arms', timeout', hsame, hw'⟩
        cases hsame
        exact hw hw'

/-- An event of a run that is over, or of one in a terminal state, enters no state. -/
theorem not_enters_of_over {run : EapRun} {ev : Event} (htarget : run.target ev = none)
    (hover : run.finished = true ∨ ∃ outcome, run.currentState.value.kind = .terminal outcome) :
    ¬ (Call.event ev).Enters run := by
  rintro (htaken | ⟨-, hgoing, _, _, _, hactive, -⟩)
  · exact htaken htarget
  · rcases hover with hfinished | ⟨outcome, hkind⟩
    · rw [hfinished] at hgoing
      cases hgoing
    · rw [hkind] at hactive
      cases hactive

/-- A timeout of an active state enters one if the state has a timeout arm. -/
theorem onEvent_timeout_enters_or_not {run : EapRun} {onEnter : Option Write}
    {arms : Slots EventArm maxEventArmsPerState} {timeout : Option TimeoutArm}
    (hgoing : run.finished = false)
    (hkind : run.currentState.value.kind = .active onEnter arms timeout) :
    ((Call.event .timeout).Enters run ∧
      ∃ entering, (eapRunOnEvent run .timeout).value = (onEntered entering).value) ∨
    (¬ (Call.event .timeout).Enters run ∧ ¬ (eapRunOnEvent run .timeout).value.2.IsWrite) := by
  rw [onEvent_active hgoing hkind]
  simp only [onTimeout, value_bind, hkind]
  cases timeout with
  | none =>
    have htarget : run.target .timeout = none := by
      simp only [EapRun.target, hgoing, Bool.false_eq_true, if_false, hkind, Option.bind_none]
    refine .inr ⟨?_, id⟩
    rintro (htaken | ⟨-, -, _, _, _, hactive, -⟩)
    · exact htaken htarget
    · rw [hkind] at hactive
      cases hactive
  | some arm =>
    simp only
    by_cases hleft : run.retries < arm.retry
    · rw [if_pos hleft]
      exact .inl ⟨.inr ⟨rfl, hgoing, onEnter, arms, arm, hkind, hleft⟩, _, rfl⟩
    · rw [if_neg hleft]
      refine .inl ⟨.inl ?_, _, rfl⟩
      simp only [EapRun.target, hgoing, Bool.false_eq_true, if_false, hkind,
        Option.bind_some, if_neg hleft]
      exact Option.some_ne_none _

/-- An event enters a state, or it does not and no write is returned. -/
theorem onEvent_enters_or_not (run : EapRun) (ev : Event) :
    ((Call.event ev).Enters run ∧
      ∃ entering, (eapRunOnEvent run ev).value = (onEntered entering).value) ∨
    (¬ (Call.event ev).Enters run ∧ ¬ (eapRunOnEvent run ev).value.2.IsWrite) := by
  by_cases hfinished : run.finished = true
  · have htarget : run.target ev = none := by simp only [EapRun.target, hfinished, if_true]
    refine .inr ⟨not_enters_of_over htarget (.inl hfinished), ?_⟩
    rw [onEvent_finished hfinished]
    exact id
  · have hgoing : run.finished = false := Bool.eq_false_iff.mpr hfinished
    cases hkind : run.currentState.value.kind with
    | terminal outcome =>
      have htarget : run.target ev = none := by
        simp only [EapRun.target, hgoing, Bool.false_eq_true, if_false, hkind]
      refine .inr ⟨not_enters_of_over htarget (.inr ⟨outcome, hkind⟩), ?_⟩
      simp only [eapRunOnEvent, hgoing, Bool.false_eq_true, if_false, value_bind, hkind]
      rw [isWrite_onEntered, EapRun.Writes, currentState_onEntered, hkind]
      rintro ⟨_, _, _, hactive, -⟩
      cases hactive
    | active onEnter arms timeout =>
      cases ev with
      | timeout => exact onEvent_timeout_enters_or_not hgoing hkind
      | notify source payload =>
        cases htarget : run.target (.notify source payload) with
        | none =>
          obtain ⟨session, -, hvalue⟩ := onEvent_consumed hgoing hkind htarget
          refine .inr ⟨?_, ?_⟩
          · rintro (htaken | ⟨hev, -⟩)
            · exact htaken htarget
            · cases hev
          · rw [hvalue]
            exact id
        | some target =>
          obtain ⟨session, -, hvalue, -⟩ := onEvent_taken hgoing hkind htarget
          refine .inl ⟨.inl ?_, _, hvalue⟩
          rw [htarget]
          exact Option.some_ne_none target

/-- A write is returned just when the call enters an active state whose write can be encoded. -/
theorem isWrite_make (run : EapRun) (call : Call) :
    (call.make run).value.2.IsWrite ↔ call.Enters run ∧ (call.make run).value.1.Writes := by
  cases call with
  | enter =>
    rw [and_iff_right (show Call.enter.Enters run from trivial)]
    exact isWrite_onEntered _
  | abandon => exact iff_of_false id fun h => h.1
  | event ev =>
    change (eapRunOnEvent run ev).value.2.IsWrite ↔
      (Call.event ev).Enters run ∧ (eapRunOnEvent run ev).value.1.Writes
    rcases onEvent_enters_or_not run ev with ⟨henters, entering, hvalue⟩ | ⟨hstays, hstep⟩
    · rw [and_iff_right henters, hvalue]
      exact isWrite_onEntered entering
    · exact iff_of_false hstep fun h => hstays h.1

/-! ## The law -/

/-- What may come next to a run that resides in the state with so many retries spent. -/
structure ResidenceLaw (defn : ProtocolDef) (s : UInt8) (onEnter : Option Write)
    (arms : Slots EventArm maxEventArmsPerState) (arm : TimeoutArm) (spent : Nat)
    (run : EapRun) : Prop where
  resides : Resides defn s spent run
  /-- The next retry enters the state again: the same write under the current session. -/
  retry (hleft : spent < arm.retry.toNat) :
    Resides defn s (spent + 1) (eapRunOnEvent run .timeout).value.1 ∧
      (eapRunOnEvent run .timeout).value =
        ({ run with retries := run.retries + 1 }, entryStep onEnter (some arm) run.session)
  /-- The timeout behind the last retry takes the transition. -/
  exhausted (hspent : spent = arm.retry.toNat) :
    FreshEntry run arm.gotoState (eapRunOnEvent run .timeout).value
  /-- A notification that takes none leaves the retries alone, and the write as far as it
  names nothing remembered. -/
  consumed {source : UInt8} {payload : List UInt8}
    (hnone : run.target (.notify source payload) = none) :
    ∃ session, AgreeBeside arms.items run.session session ∧
      (eapRunOnEvent run (.notify source payload)).value =
        ({ run with session := session }, .wait (some arm.afterMs)) ∧
      ((∀ w ∈ onEnter, ∀ f ∈ w.fields.items, ∀ index, f.value = .session index →
          ¬ Remembered arms.items index.toNat) →
        entryStep onEnter (some arm) session = entryStep onEnter (some arm) run.session)
  /-- One that takes a transition makes a fresh entry, and be it to the same state. -/
  taken {source : UInt8} {payload : List UInt8} {target : UInt8}
    (htarget : run.target (.notify source payload) = some target) :
    ∃ session, AgreeBeside arms.items run.session session ∧
      FreshEntry { run with session := session } target
        (eapRunOnEvent run (.notify source payload)).value ∧
      (target = s → Resides defn s 0 (eapRunOnEvent run (.notify source payload)).value.1 ∧
        (eapRunOnEvent run (.notify source payload)).value.2 =
          entryStep onEnter (some arm) session)

section Law

variable {defn : ProtocolDef} {s : UInt8} {onEnter : Option Write}
  {arms : Slots EventArm maxEventArmsPerState} {arm : TimeoutArm} {spent : Nat}

/-- The same write under sessions that agree on what it names. -/
theorem entryStep_congr {session session' : List Int64} (timeout : Option TimeoutArm)
    (h : ∀ w ∈ onEnter, ∀ f ∈ w.fields.items, ∀ index, f.value = .session index →
      session.getD index.toNat 0 = session'.getD index.toNat 0) :
    entryStep onEnter timeout session = entryStep onEnter timeout session' := by
  cases onEnter with
  | none => rfl
  | some w => simp only [entryStep, Write.payload_congr (h w rfl)]

/-- While the machine resides in a state its law is the state's. -/
theorem Resides.law (h : Resides defn s spent run) (hs : Resident defn s onEnter arms arm) :
    ResidenceLaw defn s onEnter arms arm spent run where
  resides := h
  retry := h.retry hs
  exhausted := by
    intro hspent
    apply onEvent_exhausted h.unfinished (hs.currentState h.defn h.state)
    rw [h.retries_lt_iff, hspent]
    exact Nat.lt_irrefl _
  consumed := by
    intro source payload hnone
    obtain ⟨session, hagree, hvalue⟩ :=
      onEvent_consumed h.unfinished (hs.currentState h.defn h.state) hnone
    refine ⟨session, hagree, hvalue, ?_⟩
    intro hnamed
    apply entryStep_congr
    intro w hw f hf index hindex
    exact hagree index.toNat (hnamed w hw f hf index hindex)
  taken := by
    intro source payload target htarget
    obtain ⟨session, hagree, hfresh⟩ :=
      onEvent_taken h.unfinished (hs.currentState h.defn h.state) htarget
    refine ⟨session, hagree, hfresh, ?_⟩
    rintro rfl
    have hentered := hs.enter (show EapRun.defn { run with session := session, state := target } =
      defn from h.defn) rfl h.unfinished
    rw [hfresh.1]
    exact hentered

/-- Between an entry and the next transition the timeouts of a state are its retries, as
many as it declares, and the one behind them takes its transition; and writes are
returned by entries and retries alone. -/
theorem residence_law :
    (∀ {defn : ProtocolDef} {s : UInt8} {onEnter : Option Write}
      {arms : Slots EventArm maxEventArmsPerState} {arm : TimeoutArm},
      Resident defn s onEnter arms arm → ∀ {before : EapRun}, before.defn = defn →
        before.state = s → before.finished = false →
        (eapRunEnter before).value.2 = entryStep onEnter (some arm) before.session ∧
        ∀ evs, Quiet (eapRunEnter before).value.1 evs →
          evs.count .timeout ≤ arm.retry.toNat →
          ResidenceLaw defn s onEnter arms arm (evs.count .timeout)
            ((eapRunEnter before).value.1.after evs)) ∧
    ∀ (run : EapRun) (call : Call),
      (call.make run).value.2.IsWrite ↔ call.Enters run ∧ (call.make run).value.1.Writes := by
  constructor
  · intro defn s onEnter arms arm hs before hdefn hstate hfinished
    obtain ⟨hresides, hstep⟩ := hs.enter hdefn hstate hfinished
    refine ⟨hstep, ?_⟩
    intro evs hquiet hcount
    have hafter := hresides.after hs hquiet (by rwa [Nat.zero_add])
    rw [Nat.zero_add] at hafter
    exact hafter.law hs
  · exact isWrite_make

end Law

/-- Ask, ask again twice, and give up; an answer of the wrong kind is consumed. -/
def askTwice : ProtocolDef where
  sources := .empty
  frames := .ofList [⟨0, none, .empty, .empty⟩]
  sessionInitial := .empty
  states := .ofList [
    ⟨.copy (ascii "asking"), .active (some ⟨0, .ofList [⟨0, .literal 1⟩], true⟩)
      (.ofList [⟨0, .empty, .empty, none⟩]) (some ⟨1500, 2, 1⟩)⟩,
    ⟨.copy (ascii "silent"), .terminal .fail⟩]

/-- Its third timeout ends the asking, whatever was consumed between the others. -/
theorem residence_law_askTwice :
    let run := (eapRunEnter ⟨askTwice, [], 0, 0, false⟩).value.1.after
      [.timeout, .notify 0 [7], .timeout]
    run.state = 0 ∧ FreshEntry run 1 (eapRunOnEvent run .timeout).value := by
  intro run
  have hs : Resident askTwice 0 (some ⟨0, .ofList [⟨0, .literal 1⟩], true⟩)
      (.ofList [⟨0, .empty, .empty, none⟩]) ⟨1500, 2, 1⟩ := by
    refine ⟨⟨_, rfl, rfl⟩, ?_⟩
    intro w hw
    obtain rfl := Option.some.inj hw
    apply Write.encodable_of_standing
    · intro f hf
      rw [List.mem_singleton.mp hf]
      trivial
    · intro f hf
      rw [List.mem_singleton.mp hf]
      rfl
  have hquiet : Quiet (eapRunEnter ⟨askTwice, [], 0, 0, false⟩).value.1
      [.timeout, .notify 0 [7], .timeout] :=
    ⟨fun h => absurd rfl h, fun _ => by decide +kernel, fun h => absurd rfl h, trivial⟩
  have hlaw := (residence_law.1 hs rfl rfl rfl).2 _ hquiet (by decide)
  exact ⟨hlaw.resides.state, hlaw.exhausted rfl⟩

end DevBench.Eap
