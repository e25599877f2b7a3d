import DevBench.Pd.Sink

/-!
# Keep-alives and choices

A keep-alive tells the next Request to repeat the contract and then asks the stack for one. When
the stack does not take that request, the next one is another's: a choice made meanwhile is
then passed over, and nothing asks for it again.
-/

namespace DevBench.Pd

open DevBench.Core

variable {z : Layout} {offerMax : List Word}

/-- The requests the stack has queued and not served, and whether the last choice taken has not
gone into a Request. -/
structure Requests where
  queued : Nat
  unasked : Bool

/-- The choice a command makes. -/
def Entry.choice : Entry → Option Want
  | cmdReq pos ma => (Pd.cmdReq pos ma).toOption
  | cmdPps pos mv ma => (Pd.cmdPps pos mv ma).toOption
  | cmdMax => some ⟨.max, 0, 0, 0⟩
  | _ => none

/-- The next Request is built from the choice. -/
def Bench.asksChoice (z : Layout) (b : Bench) : Bool :=
  !b.repeats z && decide ((rdoForLocked z b.srcCaps b.want).1 ≠ 0)

/-- The piece asks the stack for a Request. -/
def Rest.asks : Rest → Bool
  | requestKeepalive | requestSink => true
  | _ => false

/-- What a move does to the requests: the stack takes one when it returns no error, and serves
the oldest by asking for its RDO. -/
def seeRequests (z : Layout) (s : System) (m : Move) (log : Requests) : Requests :=
  match m with
  | .enter .policyGetRdo _ =>
    ⟨log.queued - 1, log.unasked && !s.bench.asksChoice z⟩
  | .enter entry _ =>
    match entry.choice with
    | some w => if s.bench.wantFault z w = none then { log with unasked := true } else log
    | none => log
  | .resume thread env =>
    match s.todo thread with
    | [] => log
    | piece :: _ =>
      if piece.asks = true ∧ 0 ≤ env.ret then { log with queued := log.queued + 1 } else log

/-- Keep-alives, choices the stack takes, and one RDO for each request queued: the contract and
the caps held are as they were. -/
def WhileKept (t : System × Requests) : Move → Prop
  | .enter .policyGetRdo _ => 0 < t.2.queued
  | .enter .keepaliveHandler _ => True
  | .enter (.cmdReq ..) _ => True
  | .enter (.cmdPps ..) _ => True
  | .enter .cmdMax _ => True
  | .resume .shell env => 0 ≤ env.ret
  | .resume .work _ => True
  | _ => False

/-- The stack refuses a keep-alive's request only while the requests queued and being queued are
enough for the repetition that is due and the choice not asked for. -/
def FailsCovered (z : Layout) (t : System × Requests) : Move → Prop
  | .resume .work env => env.ret < 0 → (t.1.bench.repeats z).toNat + t.2.unasked.toNat ≤
      t.2.queued + (t.1.todo .shell).length
  | _ => True

/-- With every request served and no call under way the last choice has gone into a Request. -/
def Asked (s : System) (log : Requests) : Prop :=
  log.queued = 0 → (∀ thread, s.todo thread = []) → log.unasked = false

/-- A repetition and a choice each have a request queued or about to be queued. -/
structure RequestsInv (z : Layout) (s : System) (log : Requests) : Prop where
  stack : s.todo .stack = []
  work : s.todo .work = [] ∨ s.todo .work = [.requestKeepalive]
  shell : s.todo .shell = [] ∨ s.todo .shell = [.requestSink]
  valid : log.unasked = true → (rdoForLocked z s.bench.srcCaps s.bench.want).1 ≠ 0
  enough : (s.bench.repeats z).toNat + log.unasked.toNat ≤
    log.queued + (s.todo .work).length + (s.todo .shell).length

theorem RequestsInv.asked {s : System} {log : Requests} (h : RequestsInv z s log) :
    Asked s log := by
  intro hqueued hidle
  have henough := h.enough
  rw [hidle .work, hidle .shell, hqueued] at henough
  cases hunasked : log.unasked with
  | false => rfl
  | true =>
    rw [hunasked] at henough
    simp at henough

/-- Nothing is repeated that no keep-alive has flagged. -/
theorem Bench.repeats_of_refresh {b : Bench} (h : b.refresh = false) : b.repeats z = false := by
  simp [Bench.repeats, h]

namespace RequestsInv

variable {s s' : System} {log : Requests}

/-- A repetition takes one request and leaves the choice's; a choice asked for is done. -/
theorem getRdo (h : RequestsInv z s log) (hqueued : 0 < log.queued)
    (hbench : s'.bench = (s.bench.policyGetRdo z).2) (htodo : s'.todo = s.todo) :
    RequestsInv z s' ⟨log.queued - 1, log.unasked && !s.bench.asksChoice z⟩ := by
  have hrepeats' : s'.bench.repeats z = false := by
    rw [hbench]
    exact Bench.repeats_of_refresh rfl
  have hcaps : s'.bench.srcCaps = s.bench.srcCaps := by rw [hbench]; rfl
  have hwant : s'.bench.want = s.bench.want := by rw [hbench]; rfl
  refine ⟨htodo ▸ h.stack, htodo ▸ h.work, htodo ▸ h.shell, fun hu => ?_, ?_⟩
  · rw [hcaps, hwant]
    exact h.valid (Bool.and_eq_true_iff.mp hu).1
  · rw [hrepeats', htodo, Bool.toNat_false, Nat.zero_add]
    cases hu : log.unasked && !s.bench.asksChoice z with
    | false => exact Nat.zero_le _
    | true =>
      obtain ⟨hunasked, hnot⟩ := Bool.and_eq_true_iff.mp hu
      -- the choice is valid, so passing it over takes a repetition
      have hrepeats : s.bench.repeats z = true := by
        rw [Bench.asksChoice, decide_eq_true (h.valid hunasked), Bool.and_true,
          Bool.not_not] at hnot
        exact hnot
      have henough := h.enough
      rw [hrepeats, hunasked] at henough
      simp only [Bool.toNat_true] at henough ⊢
      omega

/-- A keep-alive asks for a request with the repetition it flags. -/
theorem keepalive (h : RequestsInv z s log) (hidle : s.todo .work = [])
    (hbench : s'.bench = s.bench.keepaliveHandler z)
    (htodo : s'.todo = Function.update s.todo .work
      (if s.bench.keepsAlive z then [.requestKeepalive] else [])) : RequestsInv z s' log := by
  have hcaps : s'.bench.srcCaps = s.bench.srcCaps := by rw [hbench]; rfl
  have hwant : s'.bench.want = s.bench.want := by rw [hbench]; rfl
  have hwork := todo_self htodo
  have hshell := todo_ne .shell (by decide) htodo
  have hflag : (s'.bench.repeats z).toNat ≤ (s'.todo .work).length := by
    rw [hwork]
    cases hkeeps : s.bench.keepsAlive z with
    | true => exact Bool.toNat_le _
    | false =>
      have hrefresh : s'.bench.refresh = false := by
        rw [hbench]
        exact hkeeps
      rw [Bench.repeats_of_refresh hrefresh]
      exact Nat.zero_le _
  refine ⟨?_, ?_, hshell ▸ h.shell, fun hu => ?_, ?_⟩
  · rw [todo_ne .stack (by decide) htodo]
    exact h.stack
  · rw [hwork]
    cases s.bench.keepsAlive z
    · exact .inl rfl
    · exact .inr rfl
  · rw [hcaps, hwant]
    exact h.valid hu
  · have henough := h.enough
    rw [hidle, List.length_nil] at henough
    rw [hshell]
    omega

/-- A choice that is taken brings a request of its own. -/
theorem choose (h : RequestsInv z s log) (hidle : s.todo .shell = []) {w : Want}
    (hbench : s'.bench = (s.bench.wantSet z w).1)
    (htodo : s'.todo = Function.update s.todo .shell (s.bench.wantSet z w).2) :
    RequestsInv z s'
      (if s.bench.wantFault z w = none then { log with unasked := true } else log) := by
  have hstack := todo_ne .stack (by decide) htodo
  have hwork := todo_ne .work (by decide) htodo
  have hshell := todo_self htodo
  have henough := h.enough
  rw [hidle, List.length_nil] at henough
  by_cases htaken : s.bench.wantFault z w = none
  · rw [if_pos htaken]
    rw [Bench.wantFault_eq_none] at htaken
    have hset : s.bench.wantSet z w = ({ s.bench with want := w }, [.requestSink]) :=
      if_pos htaken
    rw [hset] at hbench hshell
    have hrepeats : s'.bench.repeats z = s.bench.repeats z := by rw [hbench]; rfl
    refine ⟨hstack ▸ h.stack, hwork ▸ h.work, .inr hshell, fun _ => ?_, ?_⟩
    · rw [hbench]
      exact htaken.2
    · rw [hrepeats, hwork, hshell]
      simp only [Bool.toNat_true, List.length_cons, List.length_nil]
      omega
  · rw [if_neg htaken]
    rw [Bench.wantFault_eq_none] at htaken
    have hset : s.bench.wantSet z w = (s.bench, []) := if_neg htaken
    rw [hset] at hbench hshell
    refine ⟨hstack ▸ h.stack, hwork ▸ h.work, .inl hshell, ?_, ?_⟩
    · rw [hbench]
      exact h.valid
    · rw [hbench, hwork, hshell]
      exact henough

/-- A command whose arguments are no numbers changes nothing. -/
theorem refused (h : RequestsInv z s log) (hidle : s.todo .shell = [])
    (hbench : s'.bench = s.bench) (htodo : s'.todo = Function.update s.todo .shell []) :
    RequestsInv z s' log := by
  have hsame : s'.todo = s.todo := by
    rw [htodo, ← hidle, Function.update_eq_self]
  refine ⟨hsame ▸ h.stack, hsame ▸ h.work, hsame ▸ h.shell, ?_, ?_⟩
  · rw [hbench]
    exact h.valid
  · rw [hbench, hsame]
    exact h.enough

/-- A command whose arguments make a choice, or do not. -/
theorem command (h : RequestsInv z s log) (hidle : s.todo .shell = [])
    {w : Except ShellError Want} (hbench : s'.bench = (s.bench.choose z w).1)
    (htodo : s'.todo = Function.update s.todo .shell (s.bench.choose z w).2) :
    RequestsInv z s' (match w.toOption with
      | some w => if s.bench.wantFault z w = none then { log with unasked := true } else log
      | none => log) := by
  cases w with
  | ok w => exact h.choose hidle hbench htodo
  | error e => exact h.refused hidle hbench htodo

/-- The shell's request is queued. -/
theorem askedSink (h : RequestsInv z s log) (hshell : s.todo .shell = [.requestSink])
    (hbench : s'.bench = s.bench) (htodo : s'.todo = Function.update s.todo .shell []) :
    RequestsInv z s' { log with queued := log.queued + 1 } := by
  have hstack := todo_ne .stack (by decide) htodo
  have hwork := todo_ne .work (by decide) htodo
  have hself := todo_self htodo
  have hone : (s.todo .shell).length = 1 := congrArg List.length hshell
  have henough := h.enough
  refine ⟨hstack ▸ h.stack, hwork ▸ h.work, .inl hself, ?_, ?_⟩
  · rw [hbench]
    exact h.valid
  · rw [hbench, hwork, hself]
    simp only [List.length_nil]
    omega

/-- The keep-alive's request is queued, or is not missed. -/
theorem askedKeepalive (h : RequestsInv z s log) (hwork : s.todo .work = [.requestKeepalive])
    {env : Env} (hok : FailsCovered z (s, log) (.resume .work env))
    (hbench : s'.bench = s.bench) (htodo : s'.todo = Function.update s.todo .work []) :
    RequestsInv z s'
      (if 0 ≤ env.ret then { log with queued := log.queued + 1 } else log) := by
  have hstack := todo_ne .stack (by decide) htodo
  have hshell := todo_ne .shell (by decide) htodo
  have hself := todo_self htodo
  have hone : (s.todo .work).length = 1 := congrArg List.length hwork
  have henough := h.enough
  by_cases hret : 0 ≤ env.ret
  · rw [if_pos hret]
    refine ⟨hstack ▸ h.stack, .inl hself, hshell ▸ h.shell, ?_, ?_⟩
    · rw [hbench]
      exact h.valid
    · rw [hbench, hself, hshell]
      simp only [List.length_nil]
      omega
  · rw [if_neg hret]
    refine ⟨hstack ▸ h.stack, .inl hself, hshell ▸ h.shell, ?_, ?_⟩
    · rw [hbench]
      exact h.valid
    · rw [hbench, hself, hshell]
      exact hok (Int.not_le.mp hret)

theorem step {m : Move} (h : RequestsInv z s log) (hkept : WhileKept (s, log) m)
    (hok : FailsCovered z (s, log) m) (hstep : Pd.step z offerMax s m = some s') :
    RequestsInv z s' (seeRequests z s m log) := by
  obtain ⟨entry, env, rfl, hidle, hbench, htodo⟩ |
    ⟨thread, env, piece, rest, rfl, hpiece, hbench, htodo⟩ := step_cases hstep
  · cases entry with
    | policyGetRdo =>
      have hsame : s'.todo = s.todo := by
        rw [htodo]
        change Function.update s.todo .stack [] = s.todo
        rw [← h.stack, Function.update_eq_self]
      exact h.getRdo hkept hbench hsame
    | keepaliveHandler => exact h.keepalive hidle hbench htodo
    | cmdMax => exact h.choose hidle hbench htodo
    | cmdReq pos ma => exact h.command hidle hbench htodo
    | cmdPps pos mv ma => exact h.command hidle hbench htodo
    | policySetSrcCap | policyGetSrcCaps | policyCheckSinkRequest | policyNotify
    | policyWaitNotify | prSwapCheck | policySrcDis | cmdKeepalive | cmdDrswap | cmdPrswap
    | cmdDr | cmdPr | cmdAnswer | cmdSrccaps => exact hkept.elim
  · cases thread with
    | stack => exact hkept.elim
    | shell =>
      rcases h.shell with hnil | hshell
      · rw [hnil] at hpiece
        cases hpiece
      · obtain ⟨rfl, rfl⟩ := List.cons.inj (hshell.symm.trans hpiece)
        have hret : 0 ≤ env.ret := hkept
        simp only [seeRequests, hshell, Rest.asks, true_and, if_pos hret]
        exact h.askedSink hshell hbench htodo
    | work =>
      rcases h.work with hnil | hwork
      · rw [hnil] at hpiece
        cases hpiece
      · obtain ⟨rfl, rfl⟩ := List.cons.inj (hwork.symm.trans hpiece)
        simp only [seeRequests, hwork, Rest.asks, true_and]
        exact h.askedKeepalive hwork hok hbench htodo

end RequestsInv

/-- No choice is lost in a run whose refused keep-alive requests are covered. -/
theorem choice_asked {s₀ s : System} {queued : Nat} {log : Requests}
    (hidle : ∀ thread, s₀.todo thread = []) (hrepeats : (s₀.bench.repeats z).toNat ≤ queued)
    (h : Reaches (watched (step z offerMax) (seeRequests z))
      (fun t m => WhileKept t m ∧ FailsCovered z t m) (s₀, ⟨queued, false⟩) (s, log)) :
    Asked s log := by
  have hinv : RequestsInv z s log := by
    refine h.invariant (fun t => RequestsInv z t.1 t.2) ?_ fun t t' m ht hok hstep => ?_
    · exact ⟨hidle .stack, .inl (hidle .work), .inl (hidle .shell), nofun,
        Nat.le_add_right_of_le (Nat.le_add_right_of_le hrepeats)⟩
    · obtain ⟨s', hs', rfl⟩ := Option.map_eq_some_iff.mp hstep
      exact ht.step hok.1 hok.2 hs'
  exact hinv.asked

/-- A PPS contract at 9 V: the caps come, `pd pps 2 9000 2000` is asked for and accepted. -/
def ppsContract : List Move :=
  [.enter (.policyNotify .powerRoleIsSink) quiet,
    .enter (.policySetSrcCap [0x2001912c#32, 0xc1a4213c#32]) quiet,
    .enter (.cmdPps (ascii "2") (ascii "9000") (ascii "2000")) quiet, .resume .shell quiet,
    .enter .policyGetRdo quiet, .enter (.policyNotify .transitionPs) quiet]

/-- The bench in that contract. -/
def ppsSystem : System :=
  ((play (step usbPd shieldPdos.items) (fun _ _ => True) (start usbPd shieldPdos [])
    ppsContract).getD (start usbPd shieldPdos []))

theorem reaches_ppsSystem : Reaches (step usbPd shieldPdos.items) (fun _ _ => True)
    (start usbPd shieldPdos []) ppsSystem := by
  have hplay : play (step usbPd shieldPdos.items) (fun _ _ => True)
      (start usbPd shieldPdos []) ppsContract = some ppsSystem := rfl
  exact reaches_of_play .start hplay

/-- A `pd req 1` beside a keep-alive the stack takes: the second Request is the choice's. -/
theorem choice_asked_req : ∃ (s : System) (log : Requests),
    s.bench.sentRdo = usbPd.rdoFixed 1 3000 ∧ log.queued = 0 ∧ log.unasked = false := by
  have hkeepalive : Reaches (watched (step usbPd shieldPdos.items) (seeRequests usbPd))
      (fun t m => WhileKept t m ∧ FailsCovered usbPd t m) (ppsSystem, ⟨0, false⟩) _ :=
    .move (m := .enter .keepaliveHandler quiet) .start ⟨trivial, trivial⟩ rfl
  have hqueued : Reaches (watched (step usbPd shieldPdos.items) (seeRequests usbPd))
      (fun t m => WhileKept t m ∧ FailsCovered usbPd t m) (ppsSystem, ⟨0, false⟩) _ :=
    .move (m := .resume .work quiet) hkeepalive ⟨trivial, nofun⟩ rfl
  have hchosen : Reaches (watched (step usbPd shieldPdos.items) (seeRequests usbPd))
      (fun t m => WhileKept t m ∧ FailsCovered usbPd t m) (ppsSystem, ⟨0, false⟩) _ :=
    .move (m := .resume .shell quiet)
      (.move (m := .enter (.cmdReq (ascii "1") none) quiet) hqueued ⟨trivial, trivial⟩ rfl)
      ⟨Int.le_refl 0, trivial⟩ rfl
  have hserved : Reaches (watched (step usbPd shieldPdos.items) (seeRequests usbPd))
      (fun t m => WhileKept t m ∧ FailsCovered usbPd t m) (ppsSystem, ⟨0, false⟩) _ :=
    .move (m := .enter .policyGetRdo quiet)
      (.move (m := .enter .policyGetRdo quiet) hchosen ⟨Nat.two_pos, trivial⟩ rfl)
      ⟨Nat.one_pos, trivial⟩ rfl
  have hreached : ∃ t, Reaches (watched (step usbPd shieldPdos.items) (seeRequests usbPd))
      (fun t m => WhileKept t m ∧ FailsCovered usbPd t m) (ppsSystem, ⟨0, false⟩) t ∧
        t.1.bench.sentRdo = usbPd.rdoFixed 1 3000 ∧ t.2.queued = 0 ∧
          ∀ thread, t.1.todo thread = [] :=
    ⟨_, hserved, by decide +kernel, rfl, fun thread => by cases thread <;> rfl⟩
  obtain ⟨⟨s, log⟩, hserved, hrdo, hqueued, hidle⟩ := hreached
  have hasked : Asked s log :=
    choice_asked (fun thread => by cases thread <;> rfl) (by decide +kernel) hserved
  exact ⟨s, log, hrdo, hqueued, hasked hqueued hidle⟩

/-- Behind a keep-alive the stack refused, the Request of a `pd req 1` repeats the contract. -/
theorem not_choice_asked_refused : ¬ ∀ (s₀ s : System) (log : Requests),
    Reaches (step usbPd shieldPdos.items) (fun _ _ => True) (start usbPd shieldPdos []) s₀ →
    (∀ thread, s₀.todo thread = []) → s₀.bench.refresh = false →
    Reaches (watched (step usbPd shieldPdos.items) (seeRequests usbPd)) WhileKept
      (s₀, ⟨0, false⟩) (s, log) → Asked s log := by
  intro hall
  have hrefused : Reaches (watched (step usbPd shieldPdos.items) (seeRequests usbPd)) WhileKept
      (ppsSystem, ⟨0, false⟩) _ :=
    .move (m := .resume .work { quiet with ret := -11 })
      (.move (m := .enter .keepaliveHandler quiet) .start trivial rfl) trivial rfl
  have hchosen : Reaches (watched (step usbPd shieldPdos.items) (seeRequests usbPd)) WhileKept
      (ppsSystem, ⟨0, false⟩) _ :=
    .move (m := .resume .shell quiet)
      (.move (m := .enter (.cmdReq (ascii "1") none) quiet) hrefused trivial rfl)
      (Int.le_refl 0) rfl
  have hserved : Reaches (watched (step usbPd shieldPdos.items) (seeRequests usbPd)) WhileKept
      (ppsSystem, ⟨0, false⟩) _ :=
    .move (m := .enter .policyGetRdo quiet) hchosen Nat.one_pos rfl
  have hasked := hall _ _ _ reaches_ppsSystem (fun thread => by cases thread <;> rfl) rfl hserved
  have hlost := hasked rfl fun thread => by cases thread <;> rfl
  revert hlost
  decide +kernel

end DevBench.Pd
