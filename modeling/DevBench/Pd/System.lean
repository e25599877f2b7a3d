import DevBench.Core.Machine
import DevBench.Pd.Bench
import Mathlib.Logic.Function.Basic

/-!
# The bench under its stack

The callbacks of the USB-C stack, the commands of the shell and the keep-alive work item run on
three threads. A thread is in one call at a time; between two pieces of its call the others
come to theirs, in any order.
-/

namespace DevBench.Pd

open DevBench.Core

namespace Bench

variable (z : Layout) (offerMax : List Word) (b : Bench) (env : Env)

/-- `policy_notify` to the end of its first piece. -/
def policyNotify : Notify → Bench × List Rest
  | .powerRoleIsSource => (b.roleSet true, [.contractEnd])
  | .powerRoleIsSink => (b.roleSet false, [])
  | .transitionPs => (b.transitionPs env.now, [])
  | .powerChange0A0 => (b, if b.swapping env then [.powerGone, .contractEnd] else [.detach])
  | .msgRejectedReceived =>
    let (answered, b) := b.swapAnsweredLocked .rejected
    (if answered then b else { b with rejects := b.rejects + 1 }, [])
  | .msgNotSupportedReceived => ((b.swapAnsweredLocked .notSupported).2, [])
  | .protocolError => (b.swapFailedLocked env.now, [])
  | .senderResponseTimeout =>
    (if b.awaiting = .pr ∧ b.prsPending = true then
      { b with prsPending := false, prsResult := .noResponse, swapUntil := 0 } else b, [])
  | .dataRoleIsUfp => (b.dataRole false, [])
  | .dataRoleIsDfp => (b.dataRole true, [])
  | .snkTransitionToDefault => (b.swapFailedLocked env.now, [.contractEnd])
  | .hardResetReceived => (b.srcHardReset env.now, [])
  | .other => (b, [])

/-- `policy_wait_notify`. -/
def policyWaitNotify : WaitNotify → Bench
  | .dataRoleSwap => { b with drsPending := false, drsResult := .wait }
  | .powerRoleSwap =>
    { (if b.prsPending then { b with prsPending := false, prsResult := .wait } else b) with
      swapUntil := 0 }
  | .sinkRequest => { b with waits := b.waits + 1 }
  | .other => b

/-- A choice from the shell, if its arguments are numbers. -/
def choose : Except ShellError Want → Bench × List Rest
  | .ok w => b.wantSet z w
  | .error _ => (b, [])

/-- The first piece of a call, and what comes after it. -/
def enter : Entry → Bench × List Rest
  | .policySetSrcCap pdos => (b.policySetSrcCap pdos, [])
  | .policyGetRdo => ((b.policyGetRdo z).2, [])
  | .policyGetSrcCaps => (b.policyGetSrcCaps, [])
  | .policyCheckSinkRequest request => ((b.policyCheckSinkRequest z request).2, [])
  | .policyNotify notify => b.policyNotify env notify
  | .policyWaitNotify wait => (b.policyWaitNotify wait, [])
  | .prSwapCheck =>
    (b, if b.prAnswer = .accept ∧ (b.source = true ∨ env.supplyOk = true) then [.prSwapAccept]
      else [])
  | .policySrcDis => (b, if b.attached && b.source then [.srcDisCheck] else [])
  | .keepaliveHandler =>
    (b.keepaliveHandler z, if b.keepsAlive z then [.requestKeepalive] else [])
  | .cmdReq pos ma => b.choose z (cmdReq pos ma)
  | .cmdPps pos mv ma => b.choose z (cmdPps pos mv ma)
  | .cmdMax => b.wantSet z ⟨.max, 0, 0, 0⟩
  | .cmdKeepalive arg =>
    (if arg = ascii "on" then { b with keepaliveOff := false }
      else if arg = ascii "off" then { b with keepaliveOff := true }
      else b, [])
  | .cmdDrswap => ({ b with drsPending := true, awaiting := .dr }, [.requestDrSwap])
  | .cmdPrswap =>
    if b.attached then
      ({ b with prsPending := true, awaiting := .pr, swapUntil := env.now + swapWindowMs },
        [.requestPrSwap])
    else (b, [])
  | .cmdDr arg =>
    match drAnswerOf arg with
    | some answer => (b.drAnswerSet z answer, [.drOffer answer])
    | none => (b, [])
  | .cmdPr arg =>
    match prAnswerOf arg with
    | some answer => ({ b with prAnswer := answer }, [])
    | none => (b, [])
  | .cmdAnswer arg =>
    match reqAnswerOf arg with
    | some answer => ({ b with reqAnswer := answer }, [])
    | none => (b, [])
  | .cmdSrccaps args => b.cmdSrccaps z offerMax args

/-- A later piece of a call, and what comes after it. -/
def resume : Rest → Bench × List Rest
  | .contractEnd => (b.contractEnd, [])
  | .detach => (b.detach, [.contractEnd])
  | .srcDisCheck => (b, if b.swapping env then [] else [.detach])
  | .powerGone => (b, [])
  | .requestKeepalive | .requestSink | .requestSrcCaps | .requestDrSwap => (b, [])
  | .requestPrSwap => (b, if env.ret < 0 then [.prSwapNotQueued] else [])
  | .prSwapNotQueued => ({ b with prsPending := false, swapUntil := 0 }, [])
  | .prSwapAccept => ({ b with partnerSwap := true, swapUntil := env.now + swapWindowMs }, [])
  | .drOffer answer => (b.drOffer z answer, [])

end Bench

/-- The bench once `main` has set it up. -/
def boot (z : Layout) (offerMax : Slots Word pdoMaxDataObjects) (sinkPdos : List Word) : Bench :=
  (({ snkCaps := sinkPdos
      srcCaps := ⟨Vector.replicate _ 0, 0, by decide⟩
      want := ⟨.max, 0, 0, 0⟩
      sentRdo := 0, sentPdo := 0
      contract := false, contractRdo := 0, contractPdo := 0
      refresh := false, keepaliveOff := false
      rejects := 0, waits := 0
      drAnswer := .accept, dfp := false
      drsPending := false, drsResult := .none
      attached := false, source := false
      prsPending := false, prsResult := .none
      awaiting := .none, swapUntil := 0, partnerSwap := false
      offer := offerMax
      reqAnswer := .valid, prAnswer := .accept
      requests := 0, lastAnswer := none
      reqRdo := 0, reqPdo := 0
      srcContract := false, srcRdo := 0, srcPdo := 0
      psAt := 0
      sentCaps := .empty } : Bench).drAnswerSet z .accept).drOffer z .accept

/-- The bench with what its threads still have to do. -/
structure System where
  bench : Bench
  todo : Thread → List Rest

/-- A call is entered, or a thread goes on with its own. -/
inductive Move where
  | enter (entry : Entry) (env : Env)
  | resume (thread : Thread) (env : Env)

variable (z : Layout) (offerMax : List Word)

/-- A call comes in on a thread that is in none, or a thread goes on with its own. -/
def step (s : System) : Move → Option System
  | .enter entry env =>
    match s.todo entry.thread with
    | [] =>
      let (b, rest) := s.bench.enter z offerMax env entry
      some ⟨b, Function.update s.todo entry.thread rest⟩
    | _ => none
  | .resume thread env =>
    match s.todo thread with
    | [] => none
    | piece :: rest =>
      let (b, more) := s.bench.resume z env piece
      some ⟨b, Function.update s.todo thread (more ++ rest)⟩

/-- The bench at its start, no call under way. -/
def start (offerMax : Slots Word pdoMaxDataObjects) (sinkPdos : List Word) : System :=
  ⟨boot z offerMax sinkPdos, fun _ => []⟩

/-- The `source-pdos` of the dual-role shield: 5 V at 3 A. -/
def shieldPdos : Slots Word pdoMaxDataObjects := .ofList [0x2001912c#32]

/-- A clock at its start, a partner and a supply that are there, and a stack that takes every
request. -/
def quiet : Env := ⟨0, true, true, 0⟩

variable {z offerMax}

/-- A move does the first piece of a call or the next one of a call under way. -/
theorem step_cases {s s' : System} {m : Move} (h : step z offerMax s m = some s') :
    (∃ entry env, m = .enter entry env ∧ s.todo entry.thread = [] ∧
      s'.bench = (s.bench.enter z offerMax env entry).1 ∧
      s'.todo = Function.update s.todo entry.thread (s.bench.enter z offerMax env entry).2) ∨
    (∃ thread env piece rest, m = .resume thread env ∧ s.todo thread = piece :: rest ∧
      s'.bench = (s.bench.resume z env piece).1 ∧
      s'.todo = Function.update s.todo thread ((s.bench.resume z env piece).2 ++ rest)) := by
  cases m with
  | enter entry env =>
    simp only [step] at h
    split at h
    · obtain rfl := Option.some.inj h
      exact .inl ⟨entry, env, rfl, ‹_›, rfl, rfl⟩
    · cases h
  | resume thread env =>
    simp only [step] at h
    split at h
    · cases h
    · obtain rfl := Option.some.inj h
      exact .inr ⟨thread, env, _, _, rfl, ‹_›, rfl, rfl⟩

/-- A thread's own list is the only one that changes. -/
theorem todo_ne {s s' : System} {thread : Thread} {rest : List Rest} (other : Thread)
    (h : other ≠ thread) (htodo : s'.todo = Function.update s.todo thread rest) :
    s'.todo other = s.todo other := by
  rw [htodo, Function.update_of_ne h]

theorem todo_self {s s' : System} {thread : Thread} {rest : List Rest}
    (htodo : s'.todo = Function.update s.todo thread rest) : s'.todo thread = rest := by
  rw [htodo, Function.update_self]

/-- The thread a move is of. -/
def Move.thread : Move → Thread
  | .enter entry _ => entry.thread
  | .resume thread _ => thread

theorem todo_of_step {s s' : System} {m : Move} (h : step z offerMax s m = some s')
    {thread : Thread} (hne : thread ≠ m.thread) : s'.todo thread = s.todo thread := by
  obtain ⟨entry, env, rfl, -, -, htodo⟩ | ⟨other, env, piece, rest, rfl, -, -, htodo⟩ :=
    step_cases h
  · exact todo_ne thread hne htodo
  · exact todo_ne thread hne htodo

end DevBench.Pd
