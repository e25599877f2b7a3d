import DevBench.Pd.System

/-!
# What the bench asks its partner

`pd ask` and the callbacks that answer it, beside the bench of `Pd/System`. The command poses its
question under the lock, has the stack send it and waits on a semaphore; the answer takes the
question back, or else the command does before it returns.
-/

namespace DevBench.Pd

open DevBench.Core

/-- `enum ask_kind`. -/
inductive AskKind where
  | none | status | ppsStatus | battStatus | snkCaps
  deriving DecidableEq, Repr

/-- `asks`, by name. -/
def askOf (arg : Arg) : AskKind :=
  if arg = ascii "status" then .status
  else if arg = ascii "ppsstatus" then .ppsStatus
  else if arg = ascii "battstatus" then .battStatus
  else if arg = ascii "snkcaps" then .snkCaps
  else .none

/-- `ask`, `ask_got` and `ask_sem`, which counts to one. -/
structure Question where
  ask : AskKind
  askGot : Bool
  askSem : Bool
  deriving DecidableEq, Repr

/-! ## The command -/

/-- The pieces of `cmd_ask` behind its checks. -/
inductive AskStep where
  | resetSem (kind : AskKind)
  | pose (kind : AskKind)
  | request (kind : AskKind)
  | notQueued
  | takeSem
  | takeBack
  deriving DecidableEq, Repr

/-- The checks of `cmd_ask`, and what comes after them. -/
def Bench.cmdAsk (b : Bench) (arg : Arg) : Option AskStep :=
  let kind := askOf arg
  if kind = .none then none
  else if b.attached = false then none
  else if kind = .ppsStatus ∧ b.source = true then none
  else if kind = .snkCaps ∧ b.source = false then none
  else some (.resetSem kind)

/-- A piece of `cmd_ask` and the one after it; a wait for the semaphore goes on until the semaphore
is given or the time is up. -/
def Question.advance (q : Question) (env : Env) : AskStep → Option (Question × Option AskStep)
  | .resetSem kind => some ({ q with askSem := false }, some (.pose kind))
  | .pose kind => some ({ q with ask := kind }, some (.request kind))
  | .request _ => some (q, some (if env.ret < 0 then .notQueued else .takeSem))
  | .notQueued => some ({ q with ask := .none }, none)
  | .takeSem =>
    if env.ret < 0 then some (q, some .takeBack)
    else if q.askSem then some ({ q with askSem := false }, some .takeBack)
    else none
  | .takeBack => some ({ q with ask := .none }, none)

/-! ## The answers -/

/-- The callbacks with what the partner sent, or with nothing. -/
inductive Answer where
  | policySetStatus (sent : Bool)
  | policySetPpsStatus (sent : Bool)
  | policySetBatteryStatus (sent : Bool)
  | policySetPortPartnerSnkCap
  deriving DecidableEq, Repr

/-- What the callback answers, and whether something was sent. -/
def Answer.answered : Answer → AskKind × Bool
  | policySetStatus sent => (.status, sent)
  | policySetPpsStatus sent => (.ppsStatus, sent)
  | policySetBatteryStatus sent => (.battStatus, sent)
  | policySetPortPartnerSnkCap => (.snkCaps, true)

/-- The pieces of a callback behind the one that keeps what was sent. -/
inductive TellStep where
  | askAnswered (kind : AskKind) (got : Bool)
  | giveSem
  deriving DecidableEq, Repr

/-- `ask_answered`: the semaphore is given outside the lock. -/
def Question.tell (q : Question) : TellStep → Question × Option TellStep
  | .askAnswered kind got =>
    if q.ask = kind then ({ q with ask := .none, askGot := got }, some .giveSem) else (q, none)
  | .giveSem => ({ q with askSem := true }, none)

/-! ## The bench with its question -/

/-- The bench and its question, with what the two calls about it do next. -/
structure Port where
  sys : System
  question : Question
  /-- What the shell's `pd ask` does next. -/
  asking : Option AskStep
  /-- What the stack's callback does next. -/
  telling : Option TellStep

/-- A move of the bench, or of one of the calls about its question. -/
inductive PortMove where
  | bench (m : Move)
  | cmdAsk (arg : Arg)
  | answer (a : Answer)
  | ask (env : Env)
  | tell

namespace Port

/-- The thread is in a call about the question. -/
def busy (p : Port) : Thread → Bool
  | .shell => p.asking.isSome
  | .stack => p.telling.isSome
  | .work => false

variable (z : Layout) (offerMax : List Word)

/-- One move; the shell and the stack are in one call at a time. -/
def step (p : Port) : PortMove → Option Port
  | .bench m =>
    if p.busy m.thread then none
    else (Pd.step z offerMax p.sys m).map fun sys => { p with sys := sys }
  | .cmdAsk arg =>
    if p.sys.todo .shell = [] ∧ p.asking = none then
      some { p with asking := p.sys.bench.cmdAsk arg }
    else none
  | .answer a =>
    if p.sys.todo .stack = [] ∧ p.telling = none then
      some { p with telling := some (.askAnswered a.answered.1 a.answered.2) }
    else none
  | .ask env => do
    let piece ← p.asking
    let (question, asking) ← p.question.advance env piece
    return { p with question := question, asking := asking }
  | .tell => do
    let piece ← p.telling
    let (question, telling) := p.question.tell piece
    return { p with question := question, telling := telling }

/-- The bench at its start, with no question. -/
def start (offerMax : Slots Word pdoMaxDataObjects) (sinkPdos : List Word) : Port :=
  ⟨Pd.start z offerMax sinkPdos, ⟨.none, false, false⟩, none, none⟩

end Port

/-! ## Whose the question is -/

/-- The pieces of `cmd_ask` at which its question may be posed. -/
def AskStep.posed : AskStep → Bool
  | resetSem _ | pose _ => false
  | _ => true

/-- Only the request of a keep-alive is left to the work thread, and a question is posed only
while its command is under way. -/
structure PortInv (p : Port) : Prop where
  work : ∀ piece ∈ p.sys.todo .work, piece = .requestKeepalive
  question : p.question.ask ≠ .none → ∃ piece ∈ p.asking, piece.posed = true

variable {z : Layout} {offerMax : List Word}

theorem portInv_start (offerMax : Slots Word pdoMaxDataObjects) (sinkPdos : List Word) :
    PortInv (Port.start z offerMax sinkPdos) := ⟨nofun, fun h => absurd rfl h⟩

/-- The work thread's own moves leave it nothing else to do. -/
theorem work_of_step {s s' : System} {m : Move}
    (h : ∀ piece ∈ s.todo .work, piece = .requestKeepalive)
    (hstep : step z offerMax s m = some s') :
    ∀ piece ∈ s'.todo .work, piece = .requestKeepalive := by
  by_cases hwork : m.thread = .work
  · obtain ⟨entry, env, rfl, -, -, htodo⟩ | ⟨thread, env, piece, rest, rfl, hthread, -, htodo⟩ :=
      step_cases hstep
    · cases entry with
      | keepaliveHandler =>
        have hself : s'.todo .work = _ := todo_self htodo
        intro piece hpiece
        rw [hself, Bench.enter] at hpiece
        split at hpiece
        · exact List.mem_singleton.mp hpiece
        · exact absurd hpiece List.not_mem_nil
      | _ => cases hwork
    · obtain rfl : thread = .work := hwork
      rw [hthread] at h
      obtain rfl := h piece List.mem_cons_self
      rw [todo_self htodo]
      exact fun piece hpiece => h piece (List.mem_cons_of_mem _ hpiece)
  · rw [todo_of_step hstep (Ne.symm hwork)]
    exact h

/-- A piece of the command leaves the question posed at most for those that come after it. -/
theorem posed_of_advance {q q' : Question} {env : Env} {piece : AskStep} {asking : Option AskStep}
    (h : q.advance env piece = some (q', asking)) (hposed : q.ask ≠ .none → piece.posed = true) :
    q'.ask ≠ .none → ∃ next ∈ asking, next.posed = true := by
  cases piece with
  | resetSem kind =>
    obtain ⟨rfl, rfl⟩ := Prod.mk.inj (Option.some.inj h)
    exact fun hask => Bool.noConfusion (hposed hask)
  | pose kind =>
    obtain ⟨rfl, rfl⟩ := Prod.mk.inj (Option.some.inj h)
    exact fun _ => ⟨_, rfl, rfl⟩
  | request kind =>
    obtain ⟨rfl, rfl⟩ := Prod.mk.inj (Option.some.inj h)
    refine fun _ => ⟨_, rfl, ?_⟩
    split <;> rfl
  | notQueued | takeBack =>
    obtain ⟨rfl, rfl⟩ := Prod.mk.inj (Option.some.inj h)
    exact fun hask => absurd rfl hask
  | takeSem =>
    simp only [Question.advance] at h
    split_ifs at h
    · obtain ⟨rfl, rfl⟩ := Prod.mk.inj (Option.some.inj h)
      exact fun _ => ⟨_, rfl, rfl⟩
    · obtain ⟨rfl, rfl⟩ := Prod.mk.inj (Option.some.inj h)
      exact fun _ => ⟨_, rfl, rfl⟩

theorem PortInv.step {p p' : Port} {m : PortMove} (h : PortInv p)
    (hstep : p.step z offerMax m = some p') : PortInv p' := by
  cases m with
  | bench m =>
    obtain ⟨-, hstep⟩ := Option.ite_none_left_eq_some.mp hstep
    obtain ⟨sys, hsys, rfl⟩ := Option.map_eq_some_iff.mp hstep
    exact ⟨work_of_step h.work hsys, h.question⟩
  | cmdAsk arg =>
    obtain ⟨⟨-, hidle⟩, hstep⟩ := Option.ite_none_right_eq_some.mp hstep
    obtain rfl := Option.some.inj hstep
    refine ⟨h.work, fun hask => ?_⟩
    obtain ⟨piece, hpiece, -⟩ := h.question hask
    rw [hidle] at hpiece
    cases hpiece
  | answer a =>
    obtain ⟨-, hstep⟩ := Option.ite_none_right_eq_some.mp hstep
    obtain rfl := Option.some.inj hstep
    exact ⟨h.work, h.question⟩
  | ask env =>
    obtain ⟨piece, hasking, hstep⟩ := Option.bind_eq_some_iff.mp hstep
    obtain ⟨⟨question, asking⟩, hadvance, hstep⟩ := Option.bind_eq_some_iff.mp hstep
    obtain rfl := Option.some.inj hstep
    refine ⟨h.work, posed_of_advance hadvance fun hask => ?_⟩
    obtain ⟨piece', hpiece', hposed⟩ := h.question hask
    rw [hasking] at hpiece'
    exact Option.some.inj hpiece' ▸ hposed
  | tell =>
    obtain ⟨piece, -, hstep⟩ := Option.bind_eq_some_iff.mp hstep
    obtain rfl := Option.some.inj hstep
    refine ⟨h.work, fun hask => h.question fun hnone => hask ?_⟩
    cases piece with
    | askAnswered kind got =>
      dsimp only
      split
      · rfl
      · exact hnone
    | giveSem => exact hnone

theorem portInv_of_reaches {offerMax : Slots Word pdoMaxDataObjects} {sinkPdos : List Word}
    {p : Port} (h : Reaches (Port.step z offerMax.items) (fun _ _ => True)
      (Port.start z offerMax sinkPdos) p) : PortInv p :=
  h.invariant PortInv (portInv_start offerMax sinkPdos) fun _ _ _ hp _ hstep => hp.step hstep

end DevBench.Pd
