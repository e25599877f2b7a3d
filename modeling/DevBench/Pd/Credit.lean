import DevBench.Pd.System

/-!
# Whose swap a role change was

`role_set` takes a change of the power role for the end of the partner's PR_Swap when one was
accepted and nothing is known to have ended it, and for the end of the bench's own otherwise.
Nothing tells the bench of a swap its partner abandons, so one accepted long ago still takes the
credit for a swap of the bench's that came after it.
-/

namespace DevBench.Pd

open DevBench.Core

/-! ## What the bench is told of PR_Swaps -/

/-- The bench sends a PR_Swap, it accepts one of the partner's, or whatever swap is under way
comes to an end. -/
inductive SwapEvent where
  | sent | accepted | ended
  deriving DecidableEq, Repr

/-- The power role changes while attached. -/
def Bench.changesRole (b : Bench) (source : Bool) : Bool := b.attached && source != b.source

/-- A notification that ends a swap under way: a role change, or a failure before the window
closes. -/
def Bench.endsSwap (b : Bench) (now : Int) : Notify → Bool
  | .powerRoleIsSource => b.changesRole true
  | .powerRoleIsSink => b.changesRole false
  | .protocolError | .snkTransitionToDefault | .hardResetReceived => decide (now < b.swapUntil)
  | _ => false

/-- The event of a piece of a call. -/
def Rest.swapEvent : Rest → Option SwapEvent
  | .prSwapAccept => some .accepted
  | .detach => some .ended
  | _ => none

/-- The event of a move. -/
def swapEvent (s : System) : Move → Option SwapEvent
  | .enter .cmdPrswap _ => if s.bench.attached then some .sent else none
  | .enter (.policyNotify notify) env =>
    if s.bench.endsSwap env.now notify then some .ended else none
  | .enter _ _ => none
  | .resume thread _ => (s.todo thread).head?.bind Rest.swapEvent

/-- The events so far, the last one first. -/
def seeSwapEvents (s : System) (m : Move) (events : List SwapEvent) : List SwapEvent :=
  (swapEvent s m).toList ++ events

/-- The partner's swap accepted last has not ended. -/
def partnerOpen (events : List SwapEvent) : Bool :=
  events.find? (· ≠ .sent) == some .accepted

/-! ## The partner's swap -/

section

variable {z : Layout} {offerMax : List Word} (b : Bench) (env : Env)

/-- A role that changes ends the partner's swap. -/
theorem partnerSwap_roleSwap (source : Bool) :
    (b.roleSwap source).partnerSwap =
      if b.changesRole source then false else b.partnerSwap := by
  unfold Bench.roleSwap Bench.changesRole
  by_cases hattached : b.attached = false
  · simp [hattached]
  · by_cases hrole : source = b.source
    · simp [hattached, hrole]
    · have hattached : b.attached = true := Bool.eq_true_of_not_eq_false hattached
      by_cases hpartner : b.partnerSwap = true
      · simp [hattached, hrole, hpartner]
      · by_cases hprs : b.prsPending = true <;> simp [hattached, hrole, hpartner, hprs]

/-- So does setting it. -/
theorem partnerSwap_roleSet (source : Bool) :
    (b.roleSet source).partnerSwap =
      if b.changesRole source then false else b.partnerSwap := by
  rw [← partnerSwap_roleSwap]
  unfold Bench.roleSet
  split <;> rfl

/-- A swap that fails in its window is over. -/
theorem partnerSwap_swapFailedLocked (now : Int) :
    (b.swapFailedLocked now).partnerSwap = if now < b.swapUntil then false else b.partnerSwap := by
  unfold Bench.swapFailedLocked
  by_cases h : b.swapUntil ≤ now
  · rw [if_pos h, if_neg (Int.not_lt.mpr h)]
  · rw [if_neg h, if_pos (Int.not_le.mp h)]
    dsimp only
    split <;> rfl

/-- An answer to the bench's own swap leaves the partner's. -/
theorem partnerSwap_swapAnsweredLocked (result : SwapResult) :
    (b.swapAnsweredLocked result).2.partnerSwap = b.partnerSwap := by
  unfold Bench.swapAnsweredLocked
  split_ifs <;> rfl

/-- A choice leaves the partner's swap. -/
theorem partnerSwap_wantSet (w : Want) : (b.wantSet z w).1.partnerSwap = b.partnerSwap := by
  unfold Bench.wantSet
  split <;> rfl

/-- A command with a choice leaves it too. -/
theorem partnerSwap_choose (w : Except ShellError Want) :
    (b.choose z w).1.partnerSwap = b.partnerSwap := by
  cases w with
  | ok w => exact partnerSwap_wantSet b w
  | error e => rfl

/-- The flag after a notification. -/
theorem partnerSwap_policyNotify (notify : Notify) :
    (b.policyNotify env notify).1.partnerSwap =
      if b.endsSwap env.now notify then false else b.partnerSwap := by
  cases notify with
  | powerRoleIsSource => exact partnerSwap_roleSet b true
  | powerRoleIsSink => exact partnerSwap_roleSet b false
  | transitionPs =>
    simp only [Bench.policyNotify, Bench.transitionPs]
    split <;> rfl
  | msgRejectedReceived =>
    have hanswered := partnerSwap_swapAnsweredLocked b .rejected
    simp only [Bench.policyNotify]
    split <;> exact hanswered
  | msgNotSupportedReceived => exact partnerSwap_swapAnsweredLocked b .notSupported
  | protocolError | snkTransitionToDefault =>
    simpa only [Bench.policyNotify, Bench.endsSwap, decide_eq_true_eq] using
      partnerSwap_swapFailedLocked b env.now
  | hardResetReceived =>
    simpa only [Bench.policyNotify, Bench.srcHardReset, Bench.endsSwap, decide_eq_true_eq] using
      partnerSwap_swapFailedLocked { b with srcContract := false } env.now
  | senderResponseTimeout =>
    simp only [Bench.policyNotify]
    split <;> rfl
  | dataRoleIsUfp | dataRoleIsDfp =>
    simp only [Bench.policyNotify, Bench.dataRole]
    split <;> rfl
  | powerChange0A0 | other => rfl

/-- No other call touches it before its later pieces. -/
theorem partnerSwap_enter {entry : Entry} (h : ∀ notify, entry ≠ .policyNotify notify) :
    (b.enter z offerMax env entry).1.partnerSwap = b.partnerSwap := by
  cases entry with
  | policyNotify notify => exact absurd rfl (h notify)
  | policyWaitNotify wait =>
    cases wait with
    | powerRoleSwap =>
      simp only [Bench.enter, Bench.policyWaitNotify]
      split <;> rfl
    | dataRoleSwap | sinkRequest | other => rfl
  | policyCheckSinkRequest request =>
    simp only [Bench.enter, Bench.policyCheckSinkRequest]
    split <;> rfl
  | cmdReq pos ma => exact partnerSwap_choose b _
  | cmdPps pos mv ma => exact partnerSwap_choose b _
  | cmdMax => exact partnerSwap_wantSet b _
  | cmdKeepalive arg =>
    simp only [Bench.enter]
    split_ifs <;> rfl
  | cmdPrswap =>
    simp only [Bench.enter]
    split <;> rfl
  | cmdDr | cmdPr | cmdAnswer =>
    simp only [Bench.enter]
    split <;> rfl
  | cmdSrccaps args =>
    simp only [Bench.enter, Bench.cmdSrccaps]
    split
    · rfl
    · split <;> rfl
  | policySetSrcCap | policyGetRdo | policyGetSrcCaps | prSwapCheck | policySrcDis
  | keepaliveHandler | cmdDrswap => rfl

end

/-! ## The flag and the events -/

variable {z : Layout} {offerMax : List Word} {s s' : System} {m : Move}
  {events : List SwapEvent}

/-- The last event that says something decides. -/
theorem partnerOpen_cons (e : SwapEvent) (events : List SwapEvent) :
    partnerOpen (e :: events) =
      match e with
      | .sent => partnerOpen events
      | .accepted => true
      | .ended => false := by
  cases e <;> simp [partnerOpen]

/-- The flag is set while the partner's swap accepted last has not ended. -/
def FollowsEvents (s : System) (events : List SwapEvent) : Prop :=
  s.bench.partnerSwap = partnerOpen events

/-- A move and its events. -/
theorem FollowsEvents.step (h : FollowsEvents s events) (hstep : step z offerMax s m = some s') :
    FollowsEvents s' (seeSwapEvents s m events) := by
  unfold FollowsEvents at h ⊢
  obtain ⟨entry, env, rfl, -, hbench, -⟩ | ⟨thread, env, piece, rest, rfl, htodo, hbench, -⟩ :=
    step_cases hstep
  · rw [hbench]
    by_cases hnotify : ∃ notify, entry = .policyNotify notify
    · obtain ⟨notify, rfl⟩ := hnotify
      have hflag := partnerSwap_policyNotify s.bench env notify
      simp only [Bench.enter, hflag, seeSwapEvents, swapEvent]
      split
      · exact (partnerOpen_cons .ended events).symm
      · exact h
    · have hflag : (s.bench.enter z offerMax env entry).1.partnerSwap = s.bench.partnerSwap :=
        partnerSwap_enter s.bench env fun notify heq => hnotify ⟨notify, heq⟩
      rw [hflag, h]
      cases entry with
      | policyNotify notify => exact absurd ⟨notify, rfl⟩ hnotify
      | cmdPrswap =>
        simp only [seeSwapEvents, swapEvent]
        split
        · exact (partnerOpen_cons .sent events).symm
        · rfl
      | _ => rfl
  · rw [hbench]
    have hevent : swapEvent s (.resume thread env) = piece.swapEvent := by
      rw [swapEvent, htodo]
      rfl
    rw [seeSwapEvents, hevent]
    cases piece with
    | prSwapAccept => rfl
    | detach => rfl
    | _ => exact h

/-- The bench follows the events of its run. -/
theorem followsEvents_of_reaches {offerMax : Slots Word pdoMaxDataObjects} {sinkPdos : List Word}
    (h : Reaches (watched (step z offerMax.items) seeSwapEvents) (fun _ _ => True)
      (start z offerMax sinkPdos, []) (s, events)) : FollowsEvents s events := by
  have hstart : FollowsEvents (start z offerMax sinkPdos) [] := rfl
  refine h.invariant (fun t => FollowsEvents t.1 t.2) hstart fun t t' m ht _ hstep => ?_
  obtain ⟨s', hs', rfl⟩ := Option.map_eq_some_iff.mp hstep
  exact ht.step hs'

/-! ## The credit -/

/-- A PR_Swap of the partner's was accepted before the bench sent its own, and nothing has ended
it since. -/
def LeftOpen (events : List SwapEvent) : Prop :=
  ∃ since before, events = since ++ .accepted :: before ∧ .sent ∈ since ∧ .ended ∉ since

/-- An open swap of the partner's was accepted before the bench sent its own, when none was
accepted behind it. -/
theorem partnerOpen_iff_leftOpen (h : .accepted ∉ events.takeWhile (· ≠ .sent)) :
    partnerOpen events = true ↔ LeftOpen events := by
  rw [partnerOpen, beq_iff_eq]
  constructor
  · intro hopen
    obtain ⟨-, since, before, rfl, hsince⟩ := List.find?_eq_some_iff_append.mp hopen
    have hsent : ∀ e ∈ since, e = .sent := fun e he => by simpa using hsince e he
    refine ⟨since, before, rfl, ?_, fun hended => SwapEvent.noConfusion (hsent _ hended)⟩
    rcases since with _ | ⟨e, since⟩
    · exact absurd List.mem_cons_self h
    · exact hsent e List.mem_cons_self ▸ List.mem_cons_self
  · rintro ⟨since, before, rfl, -, hended⟩
    rw [List.find?_append]
    cases hfirst : since.find? (· ≠ .sent) with
    | none => rfl
    | some e =>
      have hmem := List.mem_of_find?_eq_some hfirst
      have hne : e ≠ .sent := by simpa using List.find?_some hfirst
      cases e with
      | sent => exact absurd rfl hne
      | accepted => rfl
      | ended => exact absurd hmem hended

/-- The notification that the stack starts in a power role. -/
def Notify.powerRole (source : Bool) : Notify :=
  if source then .powerRoleIsSource else .powerRoleIsSink

/-- What a change of the power role makes of the swaps. -/
theorem swaps_of_powerRole {source : Bool} {env : Env}
    (h : step z offerMax s (.enter (.policyNotify (.powerRole source)) env) = some s') :
    s'.bench.prsPending = (s.bench.roleSwap source).prsPending ∧
      s'.bench.prsResult = (s.bench.roleSwap source).prsResult := by
  obtain ⟨entry, env', heq, -, hbench, -⟩ | ⟨thread, env', piece, rest, heq, -⟩ := step_cases h
  · cases heq
    have hrole : s'.bench = s.bench.roleSet source := by
      rw [hbench]
      cases source <;> rfl
    rw [hrole, Bench.roleSet]
    split <;> exact ⟨rfl, rfl⟩
  · cases heq

/-- **Who a role change is credited to.** In every run, when the power role changes while the
bench waits for its PR_Swap and accepted none of the partner's since it sent it, the change ends
the bench's swap as accepted, unless an earlier one of the partner's is left open. -/
theorem credited_iff {offerMax : Slots Word pdoMaxDataObjects} {sinkPdos : List Word}
    (h : Reaches (watched (step z offerMax.items) seeSwapEvents) (fun _ _ => True)
      (start z offerMax sinkPdos, []) (s, events))
    (hattached : s.bench.attached = true) (hpending : s.bench.prsPending = true)
    (hsince : .accepted ∉ events.takeWhile (· ≠ .sent))
    {source : Bool} (hrole : source ≠ s.bench.source) {env : Env}
    (hstep : step z offerMax.items s (.enter (.policyNotify (.powerRole source)) env) = some s') :
    (s'.bench.prsPending = false ∧ s'.bench.prsResult = .accepted) ↔ ¬ LeftOpen events := by
  have hflag : s.bench.partnerSwap = partnerOpen events := followsEvents_of_reaches h
  obtain ⟨hprs, hresult⟩ := swaps_of_powerRole hstep
  rw [← partnerOpen_iff_leftOpen hsince, ← hflag, hprs, hresult, Bench.roleSwap]
  by_cases hpartner : s.bench.partnerSwap = true
  · simp [hattached, hpending, hrole, hpartner]
  · simp [hattached, hpending, hrole, hpartner]

/-- Five seconds on, when the window of a swap accepted at the start is long closed. -/
def later : Env := { quiet with now := 5000 }

/-- The bench attaches as a sink and sends a PR_Swap. -/
def swapSent : List Move :=
  [.enter (.policyNotify .powerRoleIsSink) quiet, .enter .cmdPrswap later, .resume .shell later]

/-- The same, but the partner sent a PR_Swap in between, which the bench accepted and the partner
never went on with. -/
def abandonedBefore : List Move :=
  [.enter (.policyNotify .powerRoleIsSink) quiet, .enter .prSwapCheck quiet, .resume .stack quiet,
    .enter .cmdPrswap later, .resume .shell later]

theorem credited_iff_swapSent : ∃ (s s' : System) (events : List SwapEvent),
    step usbPd shieldPdos.items s (.enter (.policyNotify (.powerRole true)) later) = some s' ∧
      ((s'.bench.prsPending = false ∧ s'.bench.prsResult = .accepted) ↔ ¬ LeftOpen events) := by
  have hplay : ∃ t t', play (watched (step usbPd shieldPdos.items) seeSwapEvents)
      (fun _ _ => True) (start usbPd shieldPdos [], []) swapSent = some t ∧
        step usbPd shieldPdos.items t.1 (.enter (.policyNotify (.powerRole true)) later) =
          some t' ∧ t.2 = [.sent] ∧ t.1.bench.attached = true ∧ t.1.bench.prsPending = true ∧
        t.1.bench.source = false := ⟨_, _, rfl, rfl, rfl, rfl, rfl, rfl⟩
  obtain ⟨⟨s, events⟩, s', hplay, hstep, hevents, hattached, hpending, hsource⟩ := hplay
  simp only at hstep hevents hattached hpending hsource
  refine ⟨s, s', events, hstep, credited_iff (reaches_of_play .start hplay) hattached hpending ?_
    ?_ hstep⟩
  · rw [hevents]
    decide
  · rw [hsource]
    decide

/-- The abandoned swap takes the credit, and the bench's own goes on waiting. -/
theorem not_credited_abandonedBefore : ¬ ∀ (s s' : System) (events : List SwapEvent) (env : Env),
    Reaches (watched (step usbPd shieldPdos.items) seeSwapEvents) (fun _ _ => True)
      (start usbPd shieldPdos [], []) (s, events) →
    s.bench.attached = true → s.bench.prsPending = true → s.bench.source = false →
    .accepted ∉ events.takeWhile (· ≠ .sent) →
    step usbPd shieldPdos.items s (.enter (.policyNotify .powerRoleIsSource) env) = some s' →
    s'.bench.prsPending = false ∧ s'.bench.prsResult = .accepted := by
  intro hall
  have hplay : ∃ t t', play (watched (step usbPd shieldPdos.items) seeSwapEvents)
      (fun _ _ => True) (start usbPd shieldPdos [], []) abandonedBefore = some t ∧
        step usbPd shieldPdos.items t.1 (.enter (.policyNotify .powerRoleIsSource) later) =
          some t' ∧ t.2 = [.sent, .accepted] ∧ t.1.bench.attached = true ∧
        t.1.bench.prsPending = true ∧ t.1.bench.source = false ∧ t'.bench.prsPending = true :=
    ⟨_, _, rfl, rfl, rfl, rfl, rfl, rfl, rfl⟩
  obtain ⟨⟨s, events⟩, s', hplay, hstep, hevents, hattached, hpending, hsource, hleft⟩ := hplay
  simp only at hstep hevents hattached hpending hsource
  have hsince : .accepted ∉ events.takeWhile (· ≠ .sent) := by
    rw [hevents]
    decide
  have hcredited := hall s s' events later (reaches_of_play .start hplay) hattached hpending hsource
    hsince hstep
  rw [hleft] at hcredited
  exact Bool.noConfusion hcredited.1

end DevBench.Pd
