import DevBench.Core.Flowchart
import DevBench.Eap.Residence

/-!
# What a protocol means

A protocol is a flowchart: its states are the locations, a notification moves along the
first arm of its frame and a timeout along the retries. An operand that does not
resolve has no value; what depends on it is passed over. The interpreter carries out
exactly this, event by event, and its instructions are read off the moves.
-/

namespace DevBench.Eap

open DevBench.Core DevBench.Core.Traced

/-! ## Meanings -/

/-- The value of an operand under a frame, its payload and the session variables. -/
def Operand.denote (frame : Frame) (payload : List UInt8) (session : List Int64) :
    Operand → Option Int64
  | literal value => some value
  | .session index => session[index.toNat]?
  | field index => do
    let read ← frame.fields.items[index.toNat]?
    if read.offset.toNat ≤ payload.length then
      scalarReadI64 read.ty (payload.drop read.offset.toNat)
    else none
  | spanLen index => do
    let span ← frame.spans.items[index.toNat]?
    if span.offset.toNat ≤ payload.length then
      match span.len with
      | none => some (Int64.ofNat (payload.length - span.offset.toNat))
      | some len =>
        if span.offset.toNat + len.toNat ≤ payload.length then some (Int64.ofNat len.toNat)
        else none
    else none

/-- The value of an expression over a frame and the session. -/
def Expr.denote (frame : Frame) (payload : List UInt8) (session : List Int64) :
    Expr → Option Int64
  | term a => a.denote frame payload session
  | add a b => do
    let a ← a.denote frame payload session
    let b ← b.denote frame payload session
    pure (saturatingAdd a b)

/-- A condition with an operand that has no value does not hold. -/
def Condition.denote (c : Condition) (frame : Frame) (payload : List UInt8)
    (session : List Int64) : Bool :=
  match c.lhs.denote frame payload session, c.rhs.denote frame payload session with
  | some l, some r => c.op.holds l r
  | _, _ => false

/-- What a run carries from event to event beside its state. -/
@[ext] structure Memory where
  session : List Int64
  retries : UInt8
  deriving DecidableEq, Repr

/-- What an assignment does to the memory. -/
def Remember.store (r : Remember) (frame : Frame) (payload : List UInt8) (m : Memory) : Memory :=
  match r.value.denote frame payload m.session with
  | none => m
  | some v => { m with session := m.session.set r.var.toNat v }

/-- The frame a notification carries, and what the state does on it. -/
def ProtocolDef.armOf (defn : ProtocolDef) (arms : List EventArm) (source : UInt8)
    (payload : List UInt8) : Option (Frame × EventArm) := do
  let selected ← defn.frames.items.zipIdx.find? fun selected =>
    selected.1.source = source ∧ frameMatch selected.1 payload
  let arm ← arms.find? fun arm => arm.frame.toNat = selected.2
  pure (selected.1, arm)

/-- A transition: the target is entered with all retries left. -/
def transition (target : UInt8) : Move Memory UInt8 :=
  .store (fun m => { m with retries := 0 }) (.goto target)

/-- The move an arm makes: it stores, then takes the first guard that holds. -/
def EventArm.move (arm : EventArm) (frame : Frame) (payload : List UInt8) : Move Memory UInt8 :=
  .stores (arm.remember.items.map fun r => r.store frame payload)
    (.firstOf (arm.guards.items.map fun g =>
      (fun m => g.cond.denote frame payload m.session, transition g.gotoState))
      (match arm.otherwise with
      | none => .stay
      | some target => transition target))

/-- A timeout enters the state again while it has retries left. -/
def TimeoutArm.move (arm : TimeoutArm) (s : UInt8) : Move Memory UInt8 :=
  .branch (fun m => m.retries < arm.retry)
    (.store (fun m => { m with retries := m.retries + 1 }) (.goto s))
    (transition arm.gotoState)

/-- Behind the decoded states there are states that do nothing, which is a convention of this
meaning: what is said of the interpreter by it is said of closed protocols. -/
def ProtocolDef.kindOf (defn : ProtocolDef) (s : UInt8) : StateKind :=
  (defn.states.items.getD s.toNat EapRun.zeroState).kind

/-- The move of a state at an event. -/
def ProtocolDef.move (defn : ProtocolDef) (s : UInt8) (ev : Event) : Move Memory UInt8 :=
  match defn.kindOf s with
  | .terminal _ => .stay
  | .active _ arms timeout =>
    match ev with
    | .timeout =>
      match timeout with
      | none => .stay
      | some arm => arm.move s
    | .notify source payload =>
      match defn.armOf arms.items source payload with
      | none => .stay
      | some (frame, arm) => arm.move frame payload

instance (count : Nat) : DecidablePred (Operand.Standing count)
  | .literal _ => instDecidableTrue
  | .session index => Nat.decLt index.toNat count
  | .field _ => instDecidableFalse
  | .spanLen _ => instDecidableFalse

instance (count : Nat) : DecidablePred fun w : Write => w.Encodable count := fun w =>
  decidable_of_iff ((∀ f ∈ w.fields.items, f.value.Standing count) ∧
    (∀ f ∈ w.fields.items, scalarIsInteger f.ty = true) ∧
    (w.fields.items.map fun f => scalarWidth f.ty).sum ≤ maxWritePayloadLen)
    ⟨fun ⟨ho, ht, hr⟩ => ⟨ho, ht, hr⟩, fun ⟨ho, ht, hr⟩ => ⟨ho, ht, hr⟩⟩

/-- A run ends in a terminal state, and where a write cannot be encoded. -/
def ProtocolDef.ends (defn : ProtocolDef) (s : UInt8) : Bool :=
  match defn.kindOf s with
  | .terminal _ => true
  | .active none _ _ => false
  | .active (some w) _ _ => !decide (w.Encodable defn.sessionInitial.items.length)

/-- The protocol as a flowchart. -/
def ProtocolDef.flowchart (defn : ProtocolDef) : Flowchart UInt8 Event Memory :=
  ⟨defn.move, fun s _ => defn.ends s⟩

/-- What the run says to do on entering a state. -/
def ProtocolDef.entry (defn : ProtocolDef) (s : UInt8) (session : List Int64) : EapStep :=
  let state := defn.states.items.getD s.toNat EapRun.zeroState
  match state.kind with
  | .terminal .pass => .done state.name.str .pass
  | .terminal .fail => .done state.name.str (.fail (terminalFailReason state))
  | .active onEnter _ timeout =>
    if defn.ends s then
      .done state.name.str (.fail (ascii "protocol write operand did not resolve"))
    else entryStep onEnter timeout session

/-- The timeout a state declares. -/
def StateKind.timeout : StateKind → Option TimeoutArm
  | active _ _ timeout => timeout
  | terminal _ => none

/-- What the run says to do behind an event: what it entered says it, or it waits. -/
def ProtocolDef.instruction (defn : ProtocolDef) (c : Resting UInt8 Memory) (ev : Event) :
    EapStep :=
  match (defn.move c.location ev).run c.store with
  | (_, none) =>
    .wait (match ev with
      | .timeout => none
      | .notify .. => deadlineOf (defn.kindOf c.location).timeout)
  | (m, some s) => defn.entry s m.session

/-- Where a run stands. -/
def EapRun.resting (run : EapRun) : Resting UInt8 Memory :=
  ⟨run.state, ⟨run.session, run.retries⟩, run.finished⟩

/-- A run has all its variables, and does not go on in a state that ends it. -/
structure EapRun.Sound (run : EapRun) : Prop where
  full : run.session.length = run.sessionLen
  ended : run.finished = false → run.defn.ends run.state = false

/-! ## Entries -/

section Entry

variable {defn : ProtocolDef} {s : UInt8} {onEnter : Option Write}
  {arms : Slots EventArm maxEventArmsPerState} {timeout : Option TimeoutArm}

/-- A state that declares a pass ends with one. -/
theorem entry_pass (h : defn.kindOf s = .terminal .pass) (session : List Int64) :
    ∃ name, defn.entry s session = .done name .pass := by
  rw [ProtocolDef.kindOf] at h
  simp only [ProtocolDef.entry, h]
  exact ⟨_, rfl⟩

/-- One that declares a failure fails. -/
theorem entry_fail (h : defn.kindOf s = .terminal .fail) (session : List Int64) :
    ∃ name reason, defn.entry s session = .done name (.fail reason) := by
  rw [ProtocolDef.kindOf] at h
  simp only [ProtocolDef.entry, h]
  exact ⟨_, _, rfl⟩

/-- A write that cannot be encoded fails. -/
theorem entry_refused (h : defn.kindOf s = .active onEnter arms timeout)
    (hends : defn.ends s = true) (session : List Int64) :
    ∃ name reason, defn.entry s session = .done name (.fail reason) := by
  rw [ProtocolDef.kindOf] at h
  simp only [ProtocolDef.entry, h, hends, if_true]
  exact ⟨_, _, rfl⟩

/-- Otherwise the state asks for its first step. -/
theorem entry_active (h : defn.kindOf s = .active onEnter arms timeout)
    (hends : defn.ends s = false) (session : List Int64) :
    defn.entry s session = entryStep onEnter timeout session := by
  rw [ProtocolDef.kindOf] at h
  simp only [ProtocolDef.entry, h, hends, Bool.false_eq_true, if_false]

/-- Only a state that declares a pass is entered with one. -/
theorem kindOf_of_entry_pass {session : List Int64} {name : List UInt8}
    (h : defn.entry s session = .done name .pass) : defn.kindOf s = .terminal .pass := by
  cases hkind : defn.kindOf s with
  | terminal outcome =>
    cases outcome with
    | pass => rfl
    | fail =>
      obtain ⟨name', reason, hentry⟩ := entry_fail hkind session
      simp [hentry] at h
  | active onEnter arms timeout =>
    cases hends : defn.ends s with
    | true =>
      obtain ⟨name', reason, hentry⟩ := entry_refused hkind hends session
      simp [hentry] at h
    | false =>
      rw [entry_active hkind hends] at h
      cases onEnter <;> simp [entryStep] at h

end Entry

/-! ## The interpreter -/

variable {run : EapRun}

section Expressions

variable (hfull : run.session.length = run.sessionLen) (frame : Frame) (payload : List UInt8)
include hfull

/-- The code computes the value of an operand. -/
theorem evalOperand_denote (op : Operand) :
    (evalOperand op run (some frame) payload).value = op.denote frame payload run.session := by
  cases op with
  | literal value => rfl
  | session index =>
    simp only [evalOperand, Operand.denote]
    by_cases h : index.toNat ≥ run.sessionLen
    · rw [if_pos h, value_pure, List.getElem?_eq_none (by omega)]
    · rw [if_neg h, value_bind, value_pure, List.getElem?_eq_getElem (by omega),
        List.getD_eq_getElem]
  | field index =>
    simp only [evalOperand, Operand.denote, Option.bind_eq_bind]
    cases frame.fields.items[index.toNat]? with
    | none => rfl
    | some read =>
      simp only [value_bind, Option.bind_some]
      by_cases h : read.offset.toNat ≤ payload.length
      · rw [if_neg (by omega), if_pos h, value_pure]
      · rw [if_pos (by omega), if_neg h, value_pure]
  | spanLen index =>
    simp only [evalOperand, Operand.denote, Option.bind_eq_bind]
    cases frame.spans.items[index.toNat]? with
    | none => rfl
    | some span =>
      simp only [value_bind, Option.bind_some]
      by_cases h : span.offset.toNat ≤ payload.length
      · rw [if_neg (by omega), if_pos h]
        cases span.len with
        | none => rfl
        | some len =>
          simp only
          by_cases hlen : span.offset.toNat + len.toNat ≤ payload.length
          · rw [if_neg (by omega), if_pos hlen, value_pure]
          · rw [if_pos (by omega), if_neg hlen, value_pure]
      · rw [if_pos (by omega), if_neg h, value_pure]

/-- And of an expression. -/
theorem evalExpr_denote (e : Expr) :
    (evalExpr e run (some frame) payload).value = e.denote frame payload run.session := by
  cases e with
  | term a => exact evalOperand_denote hfull frame payload a
  | add a b =>
    simp only [evalExpr, Expr.denote, value_bind, evalOperand_denote hfull, Option.bind_eq_bind]
    cases a.denote frame payload run.session with
    | none => rfl
    | some v =>
      simp only [value_bind, value_pure, Option.bind_some, evalOperand_denote hfull]
      cases b.denote frame payload run.session <;> rfl

/-- And of a condition. -/
theorem evalCondition_denote (c : Condition) :
    (evalCondition c run (some frame) payload).value = c.denote frame payload run.session := by
  simp only [evalCondition, Condition.denote, value_bind, evalOperand_denote hfull]
  cases c.lhs.denote frame payload run.session with
  | none => rfl
  | some l =>
    simp only [value_bind, evalOperand_denote hfull]
    cases c.rhs.denote frame payload run.session <;> rfl

end Expressions

/-- The run with another memory. -/
def EapRun.withMemory (run : EapRun) (m : Memory) : EapRun :=
  { run with session := m.session, retries := m.retries }

/-- An assignment adds no variable. -/
theorem length_remember_store (r : Remember) (frame : Frame) (payload : List UInt8) (m : Memory) :
    (r.store frame payload m).session.length = m.session.length := by
  rw [Remember.store]
  split
  · rfl
  · exact List.length_set

/-- The memory behind a list of `remember`s. -/
def rememberAll (frame : Frame) (payload : List UInt8) (rs : List Remember) (m : Memory) :
    Memory :=
  (rs.map fun r => r.store frame payload).foldl (fun m f => f m) m

/-- Nor do all of them. -/
theorem length_rememberAll (frame : Frame) (payload : List UInt8) (rs : List Remember)
    (m : Memory) : (rememberAll frame payload rs m).session.length = m.session.length := by
  induction rs generalizing m with
  | nil => rfl
  | cons r rs ih => exact (ih _).trans (length_remember_store r frame payload m)

/-- The code stores what the arm says. -/
theorem applyRemembers_denote (frame : Frame) (payload : List UInt8) (rs : List Remember)
    {run : EapRun} (hfull : run.session.length = run.sessionLen) :
    (applyRemembers frame payload rs run).value =
      run.withMemory (rememberAll frame payload rs ⟨run.session, run.retries⟩) := by
  induction rs generalizing run with
  | nil => rfl
  | cons r rs ih =>
    simp only [applyRemembers, value_bind, evalExpr_denote hfull]
    have hcons : rememberAll frame payload (r :: rs) ⟨run.session, run.retries⟩ =
        rememberAll frame payload rs (r.store frame payload ⟨run.session, run.retries⟩) := rfl
    rw [hcons, Remember.store]
    cases r.value.denote frame payload run.session with
    | none => exact ih hfull
    | some v =>
      simp only
      by_cases hvar : r.var.toNat < run.sessionLen
      · rw [if_pos hvar, value_bind]
        have hset : ({ run with session := run.session.set r.var.toNat v } : EapRun).session.length
            = run.sessionLen := by
          rw [List.length_set, hfull]
        exact ih hset
      · rw [if_neg hvar, List.set_eq_of_length_le (by omega)]
        exact ih hfull

/-- The first guard that holds, or what stands behind the guards. -/
theorem firstGuard_denote (frame : Frame) (payload : List UInt8) (guards : List GuardedGoto)
    (last : Option UInt8) (hfull : run.session.length = run.sessionLen) :
    (Move.firstOf (guards.map fun g : GuardedGoto =>
        (fun m : Memory => g.cond.denote frame payload m.session, transition g.gotoState))
        (match last with
        | none => .stay
        | some target => transition target)).run ⟨run.session, run.retries⟩ =
      match (firstGuard run frame payload guards).value <|> last with
      | none => (⟨run.session, run.retries⟩, none)
      | some target => (⟨run.session, 0⟩, some target) := by
  induction guards with
  | nil => cases last <;> rfl
  | cons g guards ih =>
    simp only [firstGuard, value_bind, evalCondition_denote hfull]
    simp only [List.map_cons, Move.firstOf, List.foldr_cons, Move.run]
    cases g.cond.denote frame payload run.session with
    | true => rfl
    | false => exact ih

/-- The frame selected is the first of the source that matches. -/
theorem selectFrameLoop_value (count : Nat) (source : UInt8) (payload : List UInt8)
    (frames : List Frame) (i : Nat) :
    (selectFrameLoop count source payload i frames).value =
      ((frames.zipIdx i).find? fun selected =>
        selected.1.source = source ∧ frameMatch selected.1 payload).map Prod.swap := by
  induction frames generalizing i with
  | nil => rfl
  | cons frame frames ih =>
    simp only [selectFrameLoop, value_bind, List.zipIdx_cons, List.find?_cons]
    by_cases h : frame.source = source ∧ frameMatch frame payload = true
    · rw [if_pos h, value_pure]
      simp [h]
    · rw [if_neg h, ih]
      simp [h]

/-- The code chooses the target the arm says, with the memory behind its assignments. -/
theorem notifyTarget_denote (hfull : run.session.length = run.sessionLen)
    (arms : List EventArm) (source : UInt8) (payload : List UInt8) :
    (notifyTarget run arms source payload).value =
      match run.defn.armOf arms source payload with
      | none => (run, none)
      | some (frame, arm) =>
        let m := rememberAll frame payload arm.remember.items ⟨run.session, run.retries⟩
        (run.withMemory m,
          (firstGuard (run.withMemory m) frame payload arm.guards.items).value <|>
            arm.otherwise) := by
  simp only [notifyTarget, ProtocolDef.armOf, selectFrame, value_bind, selectFrameLoop_value,
    Option.bind_eq_bind]
  cases run.defn.frames.items.zipIdx.find? fun selected =>
      selected.1.source = source ∧ frameMatch selected.1 payload with
  | none => rfl
  | some selected =>
    obtain ⟨frame, index⟩ := selected
    simp only [Option.map_some, Prod.swap_prod_mk, Option.bind_some]
    cases arms.find? fun arm => arm.frame.toNat = index with
    | none => rfl
    | some arm =>
      simp only [Option.bind_some, Option.pure_def, value_bind, value_pure,
        applyRemembers_denote frame payload arm.remember.items hfull]

/-- Entering a state ends the run or does not, as the protocol says, and says what to do. -/
theorem onEntered_denote (hfinished : run.finished = false) :
    (onEntered run).value = ({ run with finished := run.defn.ends run.state },
      run.defn.entry run.state run.session) := by
  obtain ⟨defn, session, s, retries, finished⟩ := run
  obtain rfl : finished = false := hfinished
  have hcurrent : (EapRun.currentState ⟨defn, session, s, retries, false⟩).value =
      defn.states.items.getD s.toNat EapRun.zeroState := rfl
  cases hkind : (defn.states.items.getD s.toNat EapRun.zeroState).kind with
  | terminal outcome =>
    cases outcome <;>
      simp only [onEntered, setOutcome, ProtocolDef.entry, ProtocolDef.ends, ProtocolDef.kindOf,
        value_bind, value_pure, hcurrent, hkind] <;> rfl
  | active onEnter arms timeout =>
    cases onEnter with
    | none =>
      simp only [onEntered, ProtocolDef.entry, ProtocolDef.ends, ProtocolDef.kindOf, value_bind,
        value_pure, hcurrent, hkind, Bool.false_eq_true, if_false, entryStep]
    | some w =>
      by_cases hw : w.Encodable defn.sessionInitial.items.length
      · have hpayload : (encodeWrite w ⟨defn, session, s, retries, false⟩ none []
            maxWritePayloadLen).value = some (w.payload session) :=
          encodeWrite_eq_some.mpr ⟨hw, rfl⟩
        simp only [onEntered, ProtocolDef.entry, ProtocolDef.ends, ProtocolDef.kindOf, value_bind,
          value_pure, hcurrent, hkind, hpayload, hw, decide_true, Bool.not_true,
          Bool.false_eq_true, if_false, entryStep]
      · have hpayload : (encodeWrite w ⟨defn, session, s, retries, false⟩ none []
            maxWritePayloadLen).value = none := encodeWrite_eq_none.mpr hw
        simp only [onEntered, setOutcome, ProtocolDef.entry, ProtocolDef.ends, ProtocolDef.kindOf,
          value_bind, value_pure, hcurrent, hkind, hpayload, hw, decide_false, Bool.not_false,
          if_true]
        rfl

/-- What an event makes of a run, told as a point of the flowchart and an instruction. -/
structure Follows (run : EapRun) (ev : Event) (r : EapRun × EapStep) : Prop where
  defn : r.1.defn = run.defn
  resting : r.1.resting = run.defn.flowchart.step run.resting ev
  instruction : r.2 = run.defn.instruction run.resting ev
  sound : r.1.Sound

/-- A move that goes to a state is an entry of it. -/
theorem follows_enter {ev : Event} {m : Memory} {s : UInt8} (hfinished : run.finished = false)
    (hmove : (run.defn.move run.state ev).run ⟨run.session, run.retries⟩ = (m, some s))
    (hfull : m.session.length = run.sessionLen) :
    Follows run ev (onEntered { run.withMemory m with state := s }).value := by
  have hentered := @onEntered_denote { run.withMemory m with state := s } hfinished
  rw [hentered]
  refine ⟨rfl, ?_, ?_, hfull, fun h => h⟩
  · simp only [EapRun.resting, Flowchart.step, hfinished, Bool.false_eq_true, if_false,
      ProtocolDef.flowchart, hmove]
    rfl
  · simp only [ProtocolDef.instruction, EapRun.resting, hmove]
    rfl

/-- One that stays leaves the run waiting. -/
theorem follows_stay {ev : Event} {m : Memory} (h : run.Sound) (hfinished : run.finished = false)
    (hmove : (run.defn.move run.state ev).run ⟨run.session, run.retries⟩ = (m, none))
    (hfull : m.session.length = run.sessionLen) {step : EapStep}
    (hstep : step = run.defn.instruction run.resting ev) :
    Follows run ev (run.withMemory m, step) := by
  refine ⟨rfl, ?_, hstep, hfull, h.ended⟩
  simp only [EapRun.resting, Flowchart.step, hfinished, Bool.false_eq_true, if_false,
    ProtocolDef.flowchart, hmove]
  rw [← hfinished]
  rfl

/-- A run that goes on is in an active state. -/
theorem EapRun.Sound.kind (h : run.Sound) (hfinished : run.finished = false) :
    ∃ onEnter arms timeout, run.defn.kindOf run.state = .active onEnter arms timeout := by
  have hends := h.ended hfinished
  rw [ProtocolDef.ends] at hends
  cases hkind : run.defn.kindOf run.state with
  | terminal outcome => simp [hkind] at hends
  | active onEnter arms timeout => exact ⟨onEnter, arms, timeout, rfl⟩

/-- The interpreter takes every event as the flowchart does. -/
theorem eapRunOnEvent_follows (h : run.Sound) (hfinished : run.finished = false) (ev : Event) :
    Follows run ev (eapRunOnEvent run ev).value := by
  obtain ⟨onEnter, arms, timeout, hkind⟩ := h.kind hfinished
  have hcurrent : run.currentState.value.kind = .active onEnter arms timeout := hkind
  rw [onEvent_active hfinished hcurrent]
  cases ev with
  | timeout =>
    simp only [onTimeout, value_bind, hcurrent]
    cases timeout with
    | none =>
      have hmove : (run.defn.move run.state .timeout).run ⟨run.session, run.retries⟩ =
          (⟨run.session, run.retries⟩, none) := by
        simp only [ProtocolDef.move, hkind, Move.run]
      refine follows_stay h hfinished hmove h.full ?_
      simp only [ProtocolDef.instruction, EapRun.resting, hmove]
    | some arm =>
      simp only
      by_cases hleft : run.retries < arm.retry
      · rw [if_pos hleft]
        have hmove : (run.defn.move run.state .timeout).run ⟨run.session, run.retries⟩ =
            (⟨run.session, run.retries + 1⟩, some run.state) := by
          simp only [ProtocolDef.move, hkind, TimeoutArm.move, Move.run, hleft, decide_true,
            if_true]
        exact follows_enter hfinished hmove h.full
      · rw [if_neg hleft]
        have hmove : (run.defn.move run.state .timeout).run ⟨run.session, run.retries⟩ =
            (⟨run.session, 0⟩, some arm.gotoState) := by
          simp only [ProtocolDef.move, hkind, TimeoutArm.move, transition, Move.run, hleft,
            decide_false, Bool.false_eq_true, if_false]
        exact follows_enter hfinished hmove h.full
  | notify source payload =>
    simp only [onNotify, value_bind, hcurrent, notifyTarget_denote h.full]
    cases harm : run.defn.armOf arms.items source payload with
    | none =>
      have hmove : (run.defn.move run.state (.notify source payload)).run
          ⟨run.session, run.retries⟩ = (⟨run.session, run.retries⟩, none) := by
        simp only [ProtocolDef.move, hkind, harm, Move.run]
      refine follows_stay h hfinished hmove h.full ?_
      simp only [ProtocolDef.instruction, EapRun.resting, hmove, hkind, StateKind.timeout]
    | some selected =>
      obtain ⟨frame, arm⟩ := selected
      simp only
      set m := rememberAll frame payload arm.remember.items ⟨run.session, run.retries⟩ with hm
      have hfull : m.session.length = run.sessionLen := by
        rw [hm, length_rememberAll, ← h.full]
      have hguards := @firstGuard_denote (run.withMemory m) frame payload arm.guards.items
        arm.otherwise hfull
      have hmove : (run.defn.move run.state (.notify source payload)).run
          ⟨run.session, run.retries⟩ =
          match (firstGuard (run.withMemory m) frame payload arm.guards.items).value <|>
            arm.otherwise with
          | none => (m, none)
          | some target => (⟨m.session, 0⟩, some target) := by
        simp only [ProtocolDef.move, hkind, harm, EventArm.move, Move.run_stores]
        exact hguards
      cases htarget : (firstGuard (run.withMemory m) frame payload arm.guards.items).value <|>
          arm.otherwise with
      | none =>
        rw [htarget] at hmove
        refine follows_stay h hfinished hmove hfull ?_
        simp only [ProtocolDef.instruction, EapRun.resting, hmove, hkind, StateKind.timeout]
      | some target =>
        rw [htarget] at hmove
        exact follows_enter hfinished hmove hfull

/-! ## Runs -/

/-- A run that has ended stays as it is. -/
theorem resting_onEvent_finished (hfinished : run.finished = true) (ev : Event) :
    (eapRunOnEvent run ev).value.1 = run := by
  simp only [eapRunOnEvent, hfinished, if_true, value_bind, value_pure]

/-- The whole run behind an entry is the run of the flowchart. -/
theorem EapRun.Sound.after (h : run.Sound) (evs : List Event) :
    (run.after evs).Sound ∧ (run.after evs).defn = run.defn ∧
      (run.after evs).resting = run.defn.flowchart.play run.resting evs := by
  induction evs generalizing run with
  | nil => exact ⟨h, rfl, rfl⟩
  | cons ev evs ih =>
    have hcons : run.after (ev :: evs) = (eapRunOnEvent run ev).value.1.after evs := rfl
    rw [hcons, Flowchart.play_cons]
    cases hfinished : run.finished with
    | true =>
      rw [resting_onEvent_finished hfinished,
        Flowchart.step_ended _ (show run.resting.ended = true from hfinished)]
      exact ih h
    | false =>
      have hfollows := eapRunOnEvent_follows h hfinished ev
      obtain ⟨hsound, hdefn, hresting⟩ := ih hfollows.sound
      refine ⟨hsound, hdefn.trans hfollows.defn, ?_⟩
      rw [hresting, hfollows.defn, hfollows.resting]

/-- What a run stands at once it has been started and entered. -/
def ProtocolDef.begin (defn : ProtocolDef) (entryState : UInt8) : Resting UInt8 Memory :=
  defn.flowchart.enter entryState ⟨defn.sessionInitial.items, 0⟩

/-- A run that was started and entered is sound, and rests where the protocol begins. -/
theorem entered_sound {defn : ProtocolDef} {entryState : UInt8} {start : EapRun}
    (hstart : eapRunStart defn entryState = some start) :
    (eapRunEnter start).value.1.Sound ∧ (eapRunEnter start).value.1.defn = defn ∧
      (eapRunEnter start).value.1.resting = defn.begin entryState ∧
      (eapRunEnter start).value.2 = defn.entry entryState defn.sessionInitial.items := by
  rw [eapRunStart] at hstart
  split at hstart
  · exact absurd hstart (by simp)
  · obtain rfl := (Option.some.inj hstart).symm
    rw [eapRunEnter, onEntered_denote rfl]
    exact ⟨⟨rfl, fun h => h⟩, rfl, rfl, rfl⟩

/-- The run that a started run is behind its entry and a list of events. -/
def EapRun.played (start : EapRun) (evs : List Event) : EapRun :=
  (eapRunEnter start).value.1.after evs

section Played

variable {defn : ProtocolDef} {entryState : UInt8} {start : EapRun}
  (hstart : eapRunStart defn entryState = some start) (evs : List Event)
include hstart

/-- What was played rests where the flowchart does. -/
theorem resting_played :
    (start.played evs).resting = defn.flowchart.play (defn.begin entryState) evs := by
  obtain ⟨hsound, hdefn, hbegin, -⟩ := entered_sound hstart
  rw [EapRun.played, (hsound.after evs).2.2, hdefn, hbegin]

/-- It is over when the flowchart is. -/
theorem finished_played :
    (start.played evs).finished = (defn.flowchart.play (defn.begin entryState) evs).ended :=
  congrArg Resting.ended (resting_played hstart evs)

/-- And its next step is the flowchart's. -/
theorem instruction_played (ev : Event) (hgoes : (start.played evs).finished = false) :
    (eapRunOnEvent (start.played evs) ev).value.2 =
      defn.instruction (defn.flowchart.play (defn.begin entryState) evs) ev := by
  obtain ⟨hsound, hdefn, -, -⟩ := entered_sound hstart
  have hafter : (start.played evs).Sound := (hsound.after evs).1
  have hplayed : (start.played evs).defn = defn := (hsound.after evs).2.1.trans hdefn
  rw [(eapRunOnEvent_follows hafter hgoes ev).instruction, ← resting_played hstart evs]
  exact congrArg (fun d : ProtocolDef => d.instruction _ ev) hplayed

end Played

/-- A run is started in a protocol that declares every state it goes to. In any other one the
program takes for a state whatever lies behind the array. -/
structure Starts (defn : ProtocolDef) (entryState : UInt8) (start : EapRun) : Prop where
  closed : defn.Closed
  start : eapRunStart defn entryState = some start

/-- Events leave a run of a closed protocol in a declared state. -/
theorem EapRun.inRange_after : ∀ (evs : List Event) {run : EapRun}, run.defn.Closed →
    run.StateInRange → (run.after evs).StateInRange
  | [], _, _, h => h
  | ev :: evs, run, hclosed, h => by
    obtain ⟨hdefn, hafter⟩ := make_inRange hclosed h (.event ev)
    have hgoes : (eapRunOnEvent run ev).value.1.defn.Closed := hdefn ▸ hclosed
    exact EapRun.inRange_after evs hgoes hafter

/-- So does the whole run: it only ever stands in states that were declared. -/
theorem Starts.inRange_played {defn : ProtocolDef} {entryState : UInt8} {start : EapRun}
    (h : Starts defn entryState start) (evs : List Event) : (start.played evs).StateInRange := by
  obtain ⟨hclosed, hstart⟩ := h
  rw [eapRunStart] at hstart
  split at hstart
  · exact absurd hstart (Option.some_ne_none _).symm
  · next hlt =>
    obtain rfl := (Option.some.inj hstart).symm
    let run : EapRun := ⟨defn, defn.sessionInitial.items, entryState, 0, false⟩
    have hrange : run.StateInRange := Nat.not_le.mp hlt
    obtain ⟨hdefn, hentered⟩ := make_inRange hclosed hrange .enter
    exact EapRun.inRange_after evs (hdefn ▸ hclosed) hentered

/-- A run that has been started and entered does what the protocol means: behind any events
it stands in a declared state, where the flowchart rests, and while it goes on the next event
brings the instruction of the next move. -/
theorem interpreter_carriesOut {defn : ProtocolDef} {entryState : UInt8} {start : EapRun}
    (h : Starts defn entryState start) (evs : List Event) :
    let c := defn.flowchart.play (defn.begin entryState) evs
    (eapRunEnter start).value.2 = defn.entry entryState defn.sessionInitial.items ∧
      (start.played evs).StateInRange ∧ (start.played evs).resting = c ∧
      ∀ ev, c.ended = false →
        (eapRunOnEvent (start.played evs) ev).value.2 = defn.instruction c ev := by
  have hstart := h.start
  refine ⟨(entered_sound hstart).2.2.2, h.inRange_played evs, resting_played hstart evs, ?_⟩
  intro ev hended
  apply instruction_played hstart evs ev
  rwa [finished_played hstart evs]

/-- A peer is asked for a number up to three times, and one above four will do. -/
def pingDef : ProtocolDef where
  sources := .empty
  frames := .ofList [⟨0, none, .ofList [⟨0, 0⟩], .empty⟩]
  sessionInitial := .ofList [0, 7]
  states := .ofList [
    ⟨.copy (ascii "asking"), .active (some ⟨0, .ofList [⟨1, .session 1⟩], false⟩)
      (.ofList [⟨0, .ofList [⟨0, .term (.field 0)⟩],
        .ofList [⟨⟨.session 0, .gt, .literal 4⟩, 1⟩], none⟩])
      (some ⟨100, 2, 2⟩)⟩,
    ⟨.copy (ascii "answered"), .terminal .pass⟩,
    ⟨.copy (ascii "unanswered"), .terminal .fail⟩]

/-- A start of that protocol. -/
def pingStart : EapRun := ⟨pingDef, [0, 7], 0, 0, false⟩

/-- The protocol is closed and starts. -/
theorem starts_ping : Starts pingDef 0 pingStart := ⟨by decide +kernel, rfl⟩

/-- An answer of three is remembered and does not do. -/
theorem interpreter_carriesOut_ping :
    (pingStart.played [.notify 0 [3], .timeout]).resting = ⟨0, ⟨[3, 7], 1⟩, false⟩ := by
  obtain ⟨-, -, hresting, -⟩ := interpreter_carriesOut starts_ping [.notify 0 [3], .timeout]
  rw [hresting]
  rfl

end DevBench.Eap
