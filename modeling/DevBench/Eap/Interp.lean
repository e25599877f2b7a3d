import DevBench.Core.Trace
import DevBench.Eap.Scalar
import Mathlib.Data.List.GetD

/-!
# The protocol interpreter

`eap_interp.c`, function by function: events in, instructions out. Every place where
the source subscripts a table of the protocol is logged with the subscript and the
decoded count. States are the one table it subscripts without a test; behind the
decoded ones the array holds zeroed states.
-/

namespace DevBench.Eap

open DevBench.Core

/-- A table of the protocol. -/
inductive Table where
  | states | frames | fields | spans | session
  deriving DecidableEq, Repr

/-- A subscript into a table that was decoded with `count` elements. -/
structure Subscript where
  table : Table
  index : Nat
  count : Nat
  deriving DecidableEq, Repr

/-- The subscript finds a decoded element. -/
def Subscript.InRange (s : Subscript) : Prop := s.index < s.count

instance : DecidablePred Subscript.InRange := fun s => Nat.decLt s.index s.count

/-- A computation of the interpreter. -/
abbrev Interp (α : Type) : Type := Traced Subscript α

/-- `struct eap_run`, the session variables in declaration order. -/
structure EapRun where
  defn : ProtocolDef
  session : List Int64
  state : UInt8
  /-- Retries already spent in the current state. -/
  retries : UInt8
  finished : Bool
  deriving DecidableEq, Repr

/-- `struct eap_event`. -/
inductive Event where
  | notify (source : UInt8) (payload : List UInt8)
  | timeout
  deriving DecidableEq, Repr

/-- `struct eap_step`'s outcome, with the reason a failure carries. -/
inductive RunOutcome where
  | pass
  | fail (reason : List UInt8)
  | timedOut
  deriving DecidableEq, Repr

/-- `EAP_MAX_WRITE_PAYLOAD_LEN`. -/
abbrev maxWritePayloadLen : Nat := maxWriteFields * 8

/-- `struct eap_step`: a write and a wait carry the timeout of the state, if it declares one. -/
inductive EapStep where
  | write (source : UInt8) (withResponse : Bool) (payload : List UInt8) (deadline : Option UInt32)
  | wait (deadline : Option UInt32)
  | done (finalState : List UInt8) (outcome : RunOutcome)
  deriving DecidableEq, Repr

namespace EapRun

variable (run : EapRun)

/-- The number of states decoded. -/
def statesLen : Nat := run.defn.states.items.length

/-- The number of session variables declared. -/
def sessionLen : Nat := run.defn.sessionInitial.items.length

/-- A state of zero bytes: active, without arms, write or timeout. It stands for what an index
past the decoded states reads, where the code reads whatever lies behind the array: only a
transition to a state that is not declared leads there, and no run of a closed protocol. -/
def zeroState : State := ⟨.empty, .active none .empty none⟩

/-- `states[run->state]`, subscripted without a test; the access noted tells whether it was in
range. -/
def currentState : Interp State := do
  Traced.emit ⟨.states, run.state.toNat, run.statesLen⟩
  pure (run.defn.states.items.getD run.state.toNat zeroState)

end EapRun

/-! ## Expressions -/

/-- An operand that does not resolve has no value. -/
def evalOperand (op : Operand) (run : EapRun) (frame : Option Frame) (payload : List UInt8) :
    Interp (Option Int64) :=
  match op with
  | .literal value => pure (some value)
  | .session index =>
    if index.toNat ≥ run.sessionLen then pure none
    else do
      Traced.emit ⟨.session, index.toNat, run.sessionLen⟩
      pure (some (run.session.getD index.toNat 0))
  | .field index =>
    match frame with
    | none => pure none
    | some frame =>
      match frame.fields.items[index.toNat]? with
      | none => pure none
      | some read => do
        Traced.emit ⟨.fields, index.toNat, frame.fields.items.length⟩
        if read.offset.toNat > payload.length then pure none
        else pure (scalarReadI64 read.ty (payload.drop read.offset.toNat))
  | .spanLen index =>
    match frame with
    | none => pure none
    | some frame =>
      match frame.spans.items[index.toNat]? with
      | none => pure none
      | some span => do
        Traced.emit ⟨.spans, index.toNat, frame.spans.items.length⟩
        if span.offset.toNat > payload.length then pure none
        else
          let available := payload.length - span.offset.toNat
          match span.len with
          | none => pure (some (Int64.ofNat available))
          | some len =>
            if len.toNat > available then pure none else pure (some (Int64.ofNat len.toNat))

/-- `a + b`, saturated at both ends. -/
def saturatingAdd (a b : Int64) : Int64 :=
  if b > 0 ∧ a > Int64.maxValue - b then Int64.maxValue
  else if b < 0 ∧ a < Int64.minValue - b then Int64.minValue
  else a + b

/-- `eval_expr`: a sum has a value when both of its operands have one. -/
def evalExpr (e : Expr) (run : EapRun) (frame : Option Frame) (payload : List UInt8) :
    Interp (Option Int64) :=
  match e with
  | .term a => evalOperand a run frame payload
  | .add a b => do
    let a ← evalOperand a run frame payload
    match a with
    | none => pure none
    | some a => do
      let b ← evalOperand b run frame payload
      pure (b.map (saturatingAdd a))

/-- `switch (c->op)`. -/
def CompareOp.holds (op : CompareOp) (l r : Int64) : Bool :=
  match op with
  | eq => l == r
  | ne => l != r
  | lt => l < r
  | le => l ≤ r
  | gt => l > r
  | ge => l ≥ r

/-- An operand that does not resolve makes the condition false. -/
def evalCondition (c : Condition) (run : EapRun) (frame : Option Frame) (payload : List UInt8) :
    Interp Bool := do
  let l ← evalOperand c.lhs run frame payload
  match l with
  | none => pure false
  | some l => do
    let r ← evalOperand c.rhs run frame payload
    match r with
    | none => pure false
    | some r => pure (c.op.holds l r)

/-! ## Frames and writes -/

/-- A payload too short to contain the match does not match. -/
def frameMatch (f : Frame) (payload : List UInt8) : Bool :=
  match f.select with
  | none => true
  | some select =>
    if select.offset.toNat + select.eq.items.length > payload.length then false
    else (payload.drop select.offset.toNat).take select.eq.items.length == select.eq.items

/-- The loop of `select_frame` from index `i` on. -/
def selectFrameLoop (count : Nat) (source : UInt8) (payload : List UInt8) :
    Nat → List Frame → Interp (Option (Nat × Frame))
  | _, [] => pure none
  | i, frame :: frames => do
    Traced.emit ⟨.frames, i, count⟩
    if frame.source = source ∧ frameMatch frame payload then pure (some (i, frame))
    else selectFrameLoop count source payload (i + 1) frames

/-- The first frame of the source whose match the payload carries. -/
def selectFrame (defn : ProtocolDef) (source : UInt8) (payload : List UInt8) :
    Interp (Option (Nat × Frame)) :=
  selectFrameLoop defn.frames.items.length source payload 0 defn.frames.items

/-- The loop of `encode_write` behind the bytes already assembled. -/
def encodeFields (run : EapRun) (frame : Option Frame) (payload : List UInt8) (outCap : Nat) :
    List WriteField → List UInt8 → Interp (Option (List UInt8))
  | [], out => pure (some out)
  | f :: fields, out => do
    let v ← evalOperand f.value run frame payload
    match v with
    | none => pure none
    | some v =>
      match scalarWriteI64 f.ty v (outCap - out.length) with
      | none => pure none
      | some written => encodeFields run frame payload outCap fields (out ++ written)

/-- `encode_write`. -/
def encodeWrite (w : Write) (run : EapRun) (frame : Option Frame) (payload : List UInt8)
    (outCap : Nat) : Interp (Option (List UInt8)) :=
  encodeFields run frame payload outCap w.fields.items []

/-! ## The machine -/

/-- The instruction that ends a run names the current state. -/
def setOutcome (run : EapRun) (outcome : RunOutcome) : Interp EapStep := do
  let state ← run.currentState
  pure (.done state.name.str outcome)

/-- Cut to what the reason's array holds. -/
def terminalFailReason (state : State) : List UInt8 :=
  (ascii "protocol reached terminal state " ++ state.name.str).take maxFailReasonLen

/-- `wait_step` for the timeout of the state, if it declares one. -/
def deadlineOf (onTimeout : Option TimeoutArm) : Option UInt32 := onTimeout.map TimeoutArm.afterMs

/-- Entering the current state, or entering it again for a retry. -/
def onEntered (run : EapRun) : Interp (EapRun × EapStep) := do
  let state ← run.currentState
  match state.kind with
  | .terminal .pass => do
    let run := { run with finished := true }
    let step ← setOutcome run .pass
    pure (run, step)
  | .terminal .fail => do
    let run := { run with finished := true }
    let step ← setOutcome run (.fail (terminalFailReason state))
    pure (run, step)
  | .active none _ onTimeout => pure (run, .wait (deadlineOf onTimeout))
  | .active (some write) _ onTimeout => do
    let payload ← encodeWrite write run none [] maxWritePayloadLen
    match payload with
    | none => do
      let run := { run with finished := true }
      let step ← setOutcome run (.fail (ascii "protocol write operand did not resolve"))
      pure (run, step)
    | some payload =>
      pure (run, .write write.source write.withResponse payload (deadlineOf onTimeout))

/-- `none` stands for the return value -1. -/
def eapRunStart (defn : ProtocolDef) (entryState : UInt8) : Option EapRun :=
  if entryState.toNat ≥ defn.states.items.length then none
  else some ⟨defn, defn.sessionInitial.items, entryState, 0, false⟩

/-- `eap_run_enter`: the retries start over. -/
def eapRunEnter (run : EapRun) : Interp (EapRun × EapStep) := onEntered { run with retries := 0 }

/-- The machine goes to a state and enters it. -/
def gotoState (run : EapRun) (target : UInt8) : Interp (EapRun × EapStep) :=
  eapRunEnter { run with state := target }

/-- `on_timeout`: a retry while there is one left, then the arm's target. -/
def onTimeout (run : EapRun) : Interp (EapRun × EapStep) := do
  let state ← run.currentState
  match state.kind with
  | .active _ _ (some arm) =>
    if run.retries < arm.retry then onEntered { run with retries := run.retries + 1 }
    else gotoState run arm.gotoState
  | _ => pure (run, .wait none)

/-- The `remember`s of an arm, in declaration order; one that does not resolve, or names
no variable, is passed over. -/
def applyRemembers (frame : Frame) (payload : List UInt8) : List Remember → EapRun → Interp EapRun
  | [], run => pure run
  | r :: remembers, run => do
    let v ← evalExpr r.value run (some frame) payload
    match v with
    | none => applyRemembers frame payload remembers run
    | some v =>
      if r.var.toNat < run.sessionLen then do
        Traced.emit ⟨.session, r.var.toNat, run.sessionLen⟩
        applyRemembers frame payload remembers
          { run with session := run.session.set r.var.toNat v }
      else applyRemembers frame payload remembers run

/-- The target of the first guard that holds. -/
def firstGuard (run : EapRun) (frame : Frame) (payload : List UInt8) :
    List GuardedGoto → Interp (Option UInt8)
  | [] => pure none
  | g :: guards => do
    let holds ← evalCondition g.cond run (some frame) payload
    if holds then pure (some g.gotoState) else firstGuard run frame payload guards

/-- What a notification does to the session, and the state it sends the machine to. -/
def notifyTarget (run : EapRun) (arms : List EventArm) (source : UInt8) (payload : List UInt8) :
    Interp (EapRun × Option UInt8) := do
  let selected ← selectFrame run.defn source payload
  match selected with
  | none => pure (run, none)
  | some (index, frame) =>
    match arms.find? fun arm => arm.frame.toNat = index with
    | none => pure (run, none)
    | some arm => do
      Traced.emit ⟨.frames, index, run.defn.frames.items.length⟩
      let run ← applyRemembers frame payload arm.remember.items run
      let guard ← firstGuard run frame payload arm.guards.items
      pure (run, guard <|> arm.otherwise)

/-- A frame no arm names, and one whose arm takes no transition, leave the machine waiting
in its state without entering it again. -/
def onNotify (run : EapRun) (source : UInt8) (payload : List UInt8) :
    Interp (EapRun × EapStep) := do
  let state ← run.currentState
  match state.kind with
  | .active _ arms onTimeout => do
    let (run, target) ← notifyTarget run arms.items source payload
    match target with
    | none => pure (run, .wait (deadlineOf onTimeout))
    | some target => gotoState run target
  | .terminal _ => pure (run, .wait none)

/-- `eap_run_on_event`. A run that is finished answers every event with a pass. -/
def eapRunOnEvent (run : EapRun) (ev : Event) : Interp (EapRun × EapStep) :=
  if run.finished then do
    let step ← setOutcome run .pass
    pure (run, step)
  else do
    let state ← run.currentState
    match state.kind with
    | .terminal _ => onEntered run
    | .active .. =>
      match ev with
      | .timeout => onTimeout run
      | .notify source payload => onNotify run source payload

/-- The run is over, whatever state it is in. -/
def eapRunAbandon (run : EapRun) : Interp (EapRun × EapStep) := do
  let run := { run with finished := true }
  let step ← setOutcome run .timedOut
  pure (run, step)

end DevBench.Eap
