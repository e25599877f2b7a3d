import DevBench.Pd.Ask

/-!
# Commands the stack refuses

A command changes what the bench holds before it asks the stack for anything, and takes some of
it back, or nothing, when the stack refuses. What a refused call leaves is settled as soon as it
is entered; from there the state it leaves is the one before it exactly when the command changes
nothing that it does not take back.
-/

namespace DevBench.Pd

open DevBench.Core

/-- The commands that have the stack send something. -/
inductive Command where
  | req (pos : Arg) (ma : Option Arg)
  | pps (pos mv ma : Arg)
  | max
  | drswap
  | prswap
  | srccaps (args : Slots Arg pdoMaxDataObjects)
  | ask (arg : Arg)

/-- The command is typed. -/
def Command.move (env : Env) : Command → PortMove
  | req pos ma => .bench (.enter (.cmdReq pos ma) env)
  | pps pos mv ma => .bench (.enter (.cmdPps pos mv ma) env)
  | max => .bench (.enter .cmdMax env)
  | drswap => .bench (.enter .cmdDrswap env)
  | prswap => .bench (.enter .cmdPrswap env)
  | srccaps args => .bench (.enter (.cmdSrccaps args) env)
  | ask arg => .cmdAsk arg

namespace Port

/-- The shell is in no call. -/
def ShellIdle (p : Port) : Prop := p.sys.todo .shell = [] ∧ p.asking = none

/-- The moves while a call of the shell's is refused: its own, told a negative value wherever it
asks the stack, and those of the work thread. -/
def Refused (_ : Port) : PortMove → Prop
  | .bench (.resume .shell env) | .ask env => env.ret < 0
  | .bench (.resume .work _) | .bench (.enter .keepaliveHandler _) => True
  | _ => False

/-- The choice, the offer, the swaps and the question. -/
structure Held where
  want : Want
  offer : Slots Word pdoMaxDataObjects
  drsPending : Bool
  drsResult : SwapResult
  prsPending : Bool
  prsResult : SwapResult
  awaiting : SwapKind
  swapUntil : Int
  ask : AskKind

/-- What a port shows of its bench. -/
def held (p : Port) : Held where
  want := p.sys.bench.want
  offer := p.sys.bench.offer
  drsPending := p.sys.bench.drsPending
  drsResult := p.sys.bench.drsResult
  prsPending := p.sys.bench.prsPending
  prsResult := p.sys.bench.prsResult
  awaiting := p.sys.bench.awaiting
  swapUntil := p.sys.bench.swapUntil
  ask := p.question.ask

/-- What the rest of a refused call will leave. -/
inductive EndsAs (p : Port) : Held → Prop
  | idle (hidle : p.ShellIdle) : EndsAs p p.held
  | request {piece : Rest} (hshell : p.sys.todo .shell = [piece]) (hasking : p.asking = none)
    (hpiece : piece = .requestSink ∨ piece = .requestSrcCaps ∨ piece = .requestDrSwap) :
    EndsAs p p.held
  | prSwap {piece : Rest} (hshell : p.sys.todo .shell = [piece]) (hasking : p.asking = none)
    (hpiece : piece = .requestPrSwap ∨ piece = .prSwapNotQueued) :
    EndsAs p { p.held with prsPending := false, swapUntil := 0 }
  | ask {kind : AskKind} {piece : AskStep} (hshell : p.sys.todo .shell = [])
    (hasking : p.asking = some piece)
    (hpiece : piece = .resetSem kind ∨ piece = .pose kind ∨ piece = .request kind ∨
      piece = .notQueued) :
    EndsAs p { p.held with ask := .none }

variable {z : Layout} {offerMax : List Word} {p p' : Port} {held : Held}

/-- Once the shell is idle it is what is held. -/
theorem EndsAs.eq_held (h : p.EndsAs held) (hidle : p.ShellIdle) : p.held = held := by
  obtain ⟨hshell, hasking⟩ := hidle
  cases h with
  | idle => rfl
  | request => rfl
  | prSwap hshell' =>
    rw [hshell] at hshell'
    cases hshell'
  | ask _ hasking' =>
    rw [hasking] at hasking'
    cases hasking'

/-- A move that is not the shell's and leaves what is held. -/
theorem EndsAs.congr (h : p.EndsAs held) (hshell : p'.sys.todo .shell = p.sys.todo .shell)
    (hasking : p'.asking = p.asking) (hheld : p'.held = p.held) : p'.EndsAs held := by
  cases h with
  | idle hidle => exact hheld ▸ .idle ⟨hshell.trans hidle.1, hasking.trans hidle.2⟩
  | request hshell' hasking' hpiece =>
    exact hheld ▸ .request (hshell.trans hshell') (hasking.trans hasking') hpiece
  | prSwap hshell' hasking' hpiece =>
    exact hheld ▸ .prSwap (hshell.trans hshell') (hasking.trans hasking') hpiece
  | ask hshell' hasking' hpiece =>
    exact hheld ▸ .ask (hshell.trans hshell') (hasking.trans hasking') hpiece

/-- A piece of the shell's call, when the stack refuses. -/
theorem EndsAs.resume {env : Env} (h : p.EndsAs held) (hret : env.ret < 0)
    (hstep : p.step z offerMax (.bench (.resume .shell env)) = some p') : p'.EndsAs held := by
  obtain ⟨-, hstep⟩ := Option.ite_none_left_eq_some.mp hstep
  obtain ⟨sys, hsys, rfl⟩ := Option.map_eq_some_iff.mp hstep
  obtain ⟨entry, env', heq, -⟩ | ⟨thread, env', piece, rest, heq, htodo, hbench, hrest⟩ :=
    step_cases hsys
  · cases heq
  cases heq
  have hself := todo_self hrest
  cases h with
  | idle hidle =>
    rw [hidle.1] at htodo
    cases htodo
  | ask hshell =>
    rw [hshell] at htodo
    cases htodo
  | request hshell hasking hpiece =>
    obtain ⟨rfl, rfl⟩ := List.cons.inj (hshell.symm.trans htodo)
    rcases hpiece with rfl | rfl | rfl
    all_goals
      have hheld : held ⟨sys, p.question, p.asking, p.telling⟩ = p.held := by
        simp only [Port.held, hbench, Bench.resume]
      exact hheld ▸ .idle ⟨hself, hasking⟩
  | prSwap hshell hasking hpiece =>
    obtain ⟨rfl, rfl⟩ := List.cons.inj (hshell.symm.trans htodo)
    rcases hpiece with rfl | rfl
    · have hheld : held ⟨sys, p.question, p.asking, p.telling⟩ = p.held := by
        simp only [Port.held, hbench, Bench.resume]
      rw [Bench.resume, if_pos hret] at hself
      exact hheld ▸ .prSwap hself hasking (.inr rfl)
    · have hheld : held ⟨sys, p.question, p.asking, p.telling⟩ =
          { p.held with prsPending := false, swapUntil := 0 } := by
        simp only [Port.held, hbench, Bench.resume]
      exact hheld ▸ .idle ⟨hself, hasking⟩

/-- A piece of a `pd ask`, when the stack refuses. -/
theorem EndsAs.advance {env : Env} (h : p.EndsAs held) (hret : env.ret < 0)
    (hstep : p.step z offerMax (.ask env) = some p') : p'.EndsAs held := by
  obtain ⟨piece, hasking, hstep⟩ := Option.bind_eq_some_iff.mp hstep
  obtain ⟨⟨question, asking⟩, hadvance, hstep⟩ := Option.bind_eq_some_iff.mp hstep
  obtain rfl := Option.some.inj hstep
  cases h with
  | idle hidle =>
    rw [hidle.2] at hasking
    cases hasking
  | request _ hasking' | prSwap _ hasking' =>
    rw [hasking'] at hasking
    cases hasking
  | ask hshell hasking' hpiece =>
    obtain rfl := Option.some.inj (hasking'.symm.trans hasking)
    rcases hpiece with rfl | rfl | rfl | rfl
    · obtain ⟨rfl, rfl⟩ := Prod.mk.inj (Option.some.inj hadvance)
      exact .ask hshell rfl (.inr (.inl rfl))
    · obtain ⟨rfl, rfl⟩ := Prod.mk.inj (Option.some.inj hadvance)
      exact .ask (p := ⟨p.sys, _, _, p.telling⟩) hshell rfl (.inr (.inr (.inl rfl)))
    · obtain ⟨rfl, rfl⟩ := Prod.mk.inj (Option.some.inj hadvance)
      rw [if_pos hret]
      have hpiece : AskStep.notQueued = .resetSem .none ∨ AskStep.notQueued = .pose .none ∨
          AskStep.notQueued = .request .none ∨ AskStep.notQueued = .notQueued :=
        .inr (.inr (.inr rfl))
      exact .ask hshell rfl hpiece
    · obtain ⟨rfl, rfl⟩ := Prod.mk.inj (Option.some.inj hadvance)
      exact .idle ⟨hshell, rfl⟩

/-- Nothing the shell and the work thread do meanwhile changes where a refused call ends. -/
theorem EndsAs.step {m : PortMove} (h : p.EndsAs held) (hinv : PortInv p) (hm : p.Refused m)
    (hstep : p.step z offerMax m = some p') : p'.EndsAs held := by
  have hother : Thread.shell ≠ .work := by decide
  cases m with
  | ask env => exact h.advance hm hstep
  | cmdAsk | answer | tell => exact hm.elim
  | bench m =>
    have hbench := hstep
    obtain ⟨-, hbench⟩ := Option.ite_none_left_eq_some.mp hbench
    obtain ⟨sys, hsys, rfl⟩ := Option.map_eq_some_iff.mp hbench
    cases m with
    | enter entry env =>
      cases entry with
      | keepaliveHandler =>
        refine h.congr (todo_of_step hsys hother) rfl ?_
        obtain ⟨entry, env', heq, -, hbench, -⟩ | ⟨thread, env', piece, rest, heq, -⟩ :=
          step_cases hsys
        · cases heq
          simp only [Port.held, hbench, Bench.enter, Bench.keepaliveHandler]
        · cases heq
      | _ => exact hm.elim
    | resume thread env =>
      cases thread with
      | shell => exact h.resume hm hstep
      | stack => exact hm.elim
      | work =>
        refine h.congr (todo_of_step hsys hother) rfl ?_
        obtain ⟨entry, env', heq, -⟩ | ⟨thread, env', piece, rest, heq, htodo, hbench, -⟩ :=
          step_cases hsys
        · cases heq
        · cases heq
          obtain rfl := hinv.work piece (htodo ▸ List.mem_cons_self)
          simp only [Port.held, hbench, Bench.resume]

/-- Where a refused call ends, the shell holds what was settled when it was entered. -/
theorem held_of_refused (hinv : PortInv p) (h : p.EndsAs held)
    (hrun : Reaches (Port.step z offerMax) Refused p p') (hidle : p'.ShellIdle) :
    p'.held = held := by
  have hends : PortInv p' ∧ p'.EndsAs held :=
    hrun.invariant (fun p => PortInv p ∧ p.EndsAs held) ⟨hinv, h⟩
      fun _ _ _ hp hm hstep => ⟨hp.1.step hstep, hp.2.step hp.1 hm hstep⟩
  exact hends.2.eq_held hidle

/-! ## The commands -/

/-- What the command changes and does not take back is so already. -/
def Harmless (z : Layout) (offerMax : List Word) (p : Port) : Command → Prop
  | .req pos ma => cmdReq pos ma = .ok p.sys.bench.want
  | .pps pos mv ma => cmdPps pos mv ma = .ok p.sys.bench.want
  | .max => p.sys.bench.want = ⟨.max, 0, 0, 0⟩
  | .drswap => p.sys.bench.drsPending = true ∧ p.sys.bench.awaiting = .dr
  | .prswap =>
    p.sys.bench.prsPending = false ∧ p.sys.bench.awaiting = .pr ∧ p.sys.bench.swapUntil = 0
  | .srccaps args => ∃ pdos, offerPdos z offerMax args.items 0 = .ok pdos ∧
      p.sys.bench.offer.items = drdHead z p.sys.bench.drAnswer pdos
  | .ask _ => True

/-- A choice that is asked for is the one held from then on. -/
theorem endsAs_choose {sys : System} {w : Except ShellError Want} (hasking : p.asking = none)
    (hbench : sys.bench = (p.sys.bench.choose z w).1)
    (hshell : sys.todo .shell = (p.sys.bench.choose z w).2)
    (hbusy : ¬ ShellIdle { p with sys := sys }) :
    ∃ held, EndsAs { p with sys := sys } held ∧ (held = p.held ↔ w = .ok p.sys.bench.want) := by
  cases w with
  | error e => exact absurd ⟨hshell, hasking⟩ hbusy
  | ok w =>
    rw [Bench.choose, Bench.wantSet] at hbench hshell
    split at hshell
    · next htaken =>
      rw [if_pos htaken] at hbench
      refine ⟨_, .request hshell hasking (.inl rfl), ?_⟩
      simp only [Port.held, hbench, Held.mk.injEq, and_true, Except.ok.injEq]
    · exact absurd ⟨hshell, hasking⟩ hbusy

/-- A command of the bench, as far as its first piece. -/
theorem entered_bench {entry : Entry} {env : Env} (hthread : entry.thread = .shell)
    (h : p.step z offerMax (.bench (.enter entry env)) = some p') :
    ∃ sys : System, p' = { p with sys := sys } ∧
      sys.bench = (p.sys.bench.enter z offerMax env entry).1 ∧
      sys.todo .shell = (p.sys.bench.enter z offerMax env entry).2 := by
  obtain ⟨-, h⟩ := Option.ite_none_left_eq_some.mp h
  obtain ⟨sys, hsys, rfl⟩ := Option.map_eq_some_iff.mp h
  obtain ⟨entry', env', heq, -, hbench, htodo⟩ | ⟨thread, env', piece, rest, heq, -⟩ :=
    step_cases hsys
  · cases heq
    exact ⟨sys, rfl, hbench, hthread ▸ todo_self htodo⟩
  · cases heq

variable (z offerMax) in
/-- A `pd srccaps` lists the offer or refuses its arguments, or it replaces the offer. -/
theorem cmdSrccaps_cases (b : Bench) (args : Slots Arg pdoMaxDataObjects) :
    b.cmdSrccaps z offerMax args = (b, []) ∨
    ∃ (pdos : List Word) (offer : Slots Word pdoMaxDataObjects),
      offerPdos z offerMax args.items 0 = .ok pdos ∧ offer.items = drdHead z b.drAnswer pdos ∧
      b.cmdSrccaps z offerMax args =
        ({ b with offer := offer }, if b.attached && b.source then [.requestSrcCaps] else []) := by
  unfold Bench.cmdSrccaps
  split
  · exact .inl rfl
  · split
    · exact .inl rfl
    · next pdos hpdos => exact .inr ⟨pdos, _, hpdos, rfl, rfl⟩

/-- An offer that is made is the one held from then on. -/
theorem endsAs_srccaps {sys : System} {args : Slots Arg pdoMaxDataObjects}
    (hasking : p.asking = none)
    (hbench : sys.bench = (p.sys.bench.cmdSrccaps z offerMax args).1)
    (hshell : sys.todo .shell = (p.sys.bench.cmdSrccaps z offerMax args).2)
    (hbusy : ¬ ShellIdle { p with sys := sys }) :
    ∃ held, EndsAs { p with sys := sys } held ∧
      (held = p.held ↔ p.Harmless z offerMax (.srccaps args)) := by
  rcases cmdSrccaps_cases z offerMax p.sys.bench args with
    hcaps | ⟨pdos, offer, hpdos, hoffer, hcaps⟩
  · rw [hcaps] at hshell
    exact absurd ⟨hshell, hasking⟩ hbusy
  · rw [hcaps] at hbench hshell
    split at hshell
    · refine ⟨_, .request hshell hasking (.inr (.inl rfl)), ?_⟩
      simp only [Port.held, hbench, Held.mk.injEq, and_true, true_and, Harmless]
      constructor
      · rintro rfl
        exact ⟨pdos, hpdos, hoffer⟩
      · rintro ⟨pdos', hpdos', hsame⟩
        obtain rfl := Except.ok.inj (hpdos.symm.trans hpdos')
        exact Slots.ext (hoffer.trans hsame.symm)
    · exact absurd ⟨hshell, hasking⟩ hbusy

/-- A question is taken back, and none was posed before. -/
theorem endsAs_ask {arg : Arg} (hinv : PortInv p) (hasking : p.asking = none)
    (hshell : p.sys.todo .shell = [])
    (hbusy : ¬ ShellIdle { p with asking := p.sys.bench.cmdAsk arg }) :
    EndsAs { p with asking := p.sys.bench.cmdAsk arg } p.held := by
  cases hchecks : p.sys.bench.cmdAsk arg with
  | none =>
    rw [hchecks] at hbusy
    exact absurd ⟨hshell, rfl⟩ hbusy
  | some piece =>
    have hreset : piece = .resetSem (askOf arg) := by
      simp only [Bench.cmdAsk] at hchecks
      split_ifs at hchecks
      exact (Option.some.inj hchecks).symm
    have hnone : p.question.ask = .none := by
      by_contra hask
      obtain ⟨posed, hposed, -⟩ := hinv.question hask
      rw [hasking] at hposed
      cases hposed
    have hheld : p.held = { p.held with ask := .none } := by
      simp only [Port.held, hnone]
    rw [hheld]
    exact .ask hshell rfl (.inl hreset)

/-- Entered, a command has settled what a refusal leaves, which is what was held before if and
only if it is harmless. -/
theorem endsAs_of_entered {c : Command} {env : Env} (hinv : PortInv p) (hidle : p.ShellIdle)
    (henter : p.step z offerMax (c.move env) = some p') (hbusy : ¬ p'.ShellIdle) :
    ∃ held, p'.EndsAs held ∧ (held = p.held ↔ p.Harmless z offerMax c) := by
  obtain ⟨-, hasking⟩ := hidle
  cases c with
  | req pos ma =>
    obtain ⟨sys, rfl, hbench, hshell⟩ := entered_bench rfl henter
    exact endsAs_choose hasking hbench hshell hbusy
  | pps pos mv ma =>
    obtain ⟨sys, rfl, hbench, hshell⟩ := entered_bench rfl henter
    exact endsAs_choose hasking hbench hshell hbusy
  | max =>
    obtain ⟨sys, rfl, hbench, hshell⟩ := entered_bench rfl henter
    obtain ⟨held, hends, hiff⟩ := endsAs_choose (w := .ok ⟨.max, 0, 0, 0⟩) hasking hbench hshell
      hbusy
    refine ⟨held, hends, hiff.trans ?_⟩
    rw [Except.ok.injEq, eq_comm]
    exact Iff.rfl
  | drswap =>
    obtain ⟨sys, rfl, hbench, hshell⟩ := entered_bench rfl henter
    refine ⟨_, .request hshell hasking (.inr (.inr rfl)), ?_⟩
    simp only [Port.held, hbench, Bench.enter, Held.mk.injEq, and_true, true_and, Harmless]
    exact and_congr eq_comm eq_comm
  | prswap =>
    obtain ⟨sys, rfl, hbench, hshell⟩ := entered_bench rfl henter
    simp only [Bench.enter] at hbench hshell
    split at hshell
    · next hattached =>
      rw [if_pos hattached] at hbench
      refine ⟨_, .prSwap hshell hasking (.inl rfl), ?_⟩
      simp only [Port.held, hbench, Held.mk.injEq, and_true, true_and, Harmless]
      exact and_congr eq_comm (and_congr eq_comm eq_comm)
    · exact absurd ⟨hshell, hasking⟩ hbusy
  | srccaps args =>
    obtain ⟨sys, rfl, hbench, hshell⟩ := entered_bench rfl henter
    exact endsAs_srccaps hasking hbench hshell hbusy
  | ask arg =>
    obtain ⟨⟨hshell, -⟩, henter⟩ := Option.ite_none_right_eq_some.mp henter
    obtain rfl := Option.some.inj henter
    exact ⟨_, endsAs_ask hinv hasking hshell hbusy, iff_true_intro rfl⟩

/-- **What a refused command leaves.** In every state reached in which the shell is idle, a
command that gets as far as asking the stack, is refused, and is over before any callback of the
stack's runs, leaves all of the choice, the offer, the swaps and the question as they were if and
only if it is harmless. -/
theorem refused_iff {offerMax : Slots Word pdoMaxDataObjects} {sinkPdos : List Word}
    (h : Reaches (Port.step z offerMax.items) (fun _ _ => True) (Port.start z offerMax sinkPdos) p)
    (hidle : p.ShellIdle) {c : Command} {env : Env} {entered : Port}
    (henter : p.step z offerMax.items (c.move env) = some entered) (hbusy : ¬ entered.ShellIdle)
    (hrun : Reaches (Port.step z offerMax.items) Refused entered p') (hover : p'.ShellIdle) :
    p'.held = p.held ↔ p.Harmless z offerMax.items c := by
  have hinv := portInv_of_reaches h
  obtain ⟨held, hends, hiff⟩ := endsAs_of_entered hinv hidle henter hbusy
  rw [held_of_refused (hinv.step henter) hends hrun hover]
  exact hiff

/-- A stack that takes no request. -/
def refusing : Env := { quiet with ret := -1 }

/-- A DR_Swap that is refused where nothing was asked for before. -/
theorem refused_drswap : ∃ entered ended : Port,
    (start usbPd shieldPdos []).step usbPd shieldPdos.items (Command.drswap.move quiet) =
      some entered ∧
    ¬ entered.ShellIdle ∧ Reaches (Port.step usbPd shieldPdos.items) Refused entered ended ∧
      ended.ShellIdle ∧ ended.held.drsPending = true := by
  refine ⟨_, _, rfl, fun hidle => ?_, .move .start (m := .bench (.resume .shell refusing)) ?_ rfl,
    ⟨rfl, rfl⟩, rfl⟩
  · exact List.cons_ne_nil _ _ hidle.1
  · exact show (-1 : Int) < 0 by decide

theorem refused_iff_drswap : ∃ ended : Port,
    ended.held = (start usbPd shieldPdos []).held ↔
      (start usbPd shieldPdos []).Harmless usbPd shieldPdos.items .drswap := by
  obtain ⟨entered, ended, henter, hbusy, hrun, hover, -⟩ := refused_drswap
  exact ⟨ended, refused_iff .start ⟨rfl, rfl⟩ henter hbusy hrun hover⟩

/-- It stays pending, and the marker stays on it. -/
theorem not_unchanged_drswap : ¬ ∀ (p entered p' : Port) (c : Command) (env : Env),
    Reaches (Port.step usbPd shieldPdos.items) (fun _ _ => True) (start usbPd shieldPdos []) p →
    p.ShellIdle → p.step usbPd shieldPdos.items (c.move env) = some entered →
    ¬ entered.ShellIdle → Reaches (Port.step usbPd shieldPdos.items) Refused entered p' →
    p'.ShellIdle → p'.held = p.held := by
  intro hall
  obtain ⟨entered, ended, henter, hbusy, hrun, hover, hpending⟩ := refused_drswap
  have hsame := hall _ entered ended .drswap quiet .start ⟨rfl, rfl⟩ henter hbusy hrun hover
  rw [hsame] at hpending
  exact Bool.noConfusion hpending

end Port

end DevBench.Pd
