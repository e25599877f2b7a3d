import DevBench.Pd.System

/-!
# Answers to swaps

A Reject or Not_Supported names no message: the bench takes it for the answer to the swap it
sent last that still waits. It keeps one marker for the swap sent last, and a DR_Swap that was
sent last and is resolved leaves the marker on itself while an earlier PR_Swap still waits.
-/

namespace DevBench.Pd

open DevBench.Core

variable {z : Layout} {offerMax : List Word}

/-! ## What a call leaves of the swaps -/

/-- No swap is sent: the marker stays and nothing comes to be pending. -/
structure SwapKept (b b' : Bench) : Prop where
  awaiting : b'.awaiting = b.awaiting
  drs : b'.drsPending = true → b.drsPending = true
  prs : b'.prsPending = true → b.prsPending = true

section

variable (b : Bench) (env : Env)

/-- Nothing was done. -/
theorem SwapKept.refl : SwapKept b b := ⟨rfl, id, id⟩

/-- What the user wants is no swap. -/
theorem swapKept_wantSet (w : Want) : SwapKept b (b.wantSet z w).1 := by
  unfold Bench.wantSet
  split <;> exact ⟨rfl, id, id⟩

/-- However it is chosen. -/
theorem swapKept_choose (w : Except ShellError Want) : SwapKept b (b.choose z w).1 := by
  cases w with
  | ok w => exact swapKept_wantSet b w
  | error e => exact .refl b

/-- A role that is swapped answers none. -/
theorem swapKept_roleSwap (source : Bool) : SwapKept b (b.roleSwap source) := by
  unfold Bench.roleSwap
  split_ifs
  · exact ⟨rfl, id, id⟩
  · exact ⟨rfl, id, id⟩
  · exact ⟨rfl, id, nofun⟩
  · exact ⟨rfl, id, id⟩

/-- A role that is set asks for none. -/
theorem swapKept_roleSet (source : Bool) : SwapKept b (b.roleSet source) := by
  obtain ⟨hawaiting, hdrs, hprs⟩ := swapKept_roleSwap b source
  unfold Bench.roleSet
  split <;> exact ⟨hawaiting, hdrs, hprs⟩

/-- A swap that failed is pending no longer. -/
theorem swapKept_swapFailedLocked (now : Int) : SwapKept b (b.swapFailedLocked now) := by
  unfold Bench.swapFailedLocked
  split
  · exact .refl b
  · dsimp only
    split
    · exact ⟨rfl, id, nofun⟩
    · exact ⟨rfl, id, id⟩

/-- Nor is one that was answered. -/
theorem swapKept_swapAnsweredLocked (result : SwapResult) :
    SwapKept b (b.swapAnsweredLocked result).2 := by
  unfold Bench.swapAnsweredLocked
  split_ifs
  · exact ⟨rfl, id, nofun⟩
  · exact ⟨rfl, nofun, id⟩
  · exact .refl b

/-- A data role that changes. -/
theorem swapKept_dataRole (dfp : Bool) : SwapKept b (b.dataRole dfp) := by
  unfold Bench.dataRole
  dsimp only
  split
  · exact ⟨rfl, nofun, id⟩
  · exact ⟨rfl, id, id⟩

/-- A supply that is on its way. -/
theorem swapKept_transitionPs (now : Int) : SwapKept b (b.transitionPs now) := by
  unfold Bench.transitionPs
  split <;> exact ⟨rfl, id, id⟩

/-- Whatever the stack notifies. -/
theorem swapKept_policyNotify (notify : Notify) : SwapKept b (b.policyNotify env notify).1 := by
  cases notify with
  | powerRoleIsSource => exact swapKept_roleSet b true
  | powerRoleIsSink => exact swapKept_roleSet b false
  | transitionPs => exact swapKept_transitionPs b env.now
  | powerChange0A0 | other => exact .refl b
  | msgRejectedReceived =>
    obtain ⟨hawaiting, hdrs, hprs⟩ := swapKept_swapAnsweredLocked b .rejected
    simp only [Bench.policyNotify]
    split <;> exact ⟨hawaiting, hdrs, hprs⟩
  | msgNotSupportedReceived => exact swapKept_swapAnsweredLocked b .notSupported
  | protocolError | snkTransitionToDefault => exact swapKept_swapFailedLocked b env.now
  | senderResponseTimeout =>
    simp only [Bench.policyNotify]
    split
    · exact ⟨rfl, id, nofun⟩
    · exact .refl b
  | dataRoleIsUfp => exact swapKept_dataRole b false
  | dataRoleIsDfp => exact swapKept_dataRole b true
  | hardResetReceived =>
    obtain ⟨hawaiting, hdrs, hprs⟩ := swapKept_swapFailedLocked { b with srcContract := false }
      env.now
    exact ⟨hawaiting, hdrs, hprs⟩

/-- Or waits to be told. -/
theorem swapKept_policyWaitNotify (wait : WaitNotify) :
    SwapKept b (b.policyWaitNotify wait) := by
  cases wait with
  | dataRoleSwap => exact ⟨rfl, nofun, id⟩
  | powerRoleSwap =>
    simp only [Bench.policyWaitNotify]
    split
    · exact ⟨rfl, id, nofun⟩
    · exact ⟨rfl, id, id⟩
  | sinkRequest | other => exact ⟨rfl, id, id⟩

/-- Every call but the two that send a swap. -/
theorem swapKept_enter {entry : Entry} (hdr : entry ≠ .cmdDrswap) (hpr : entry ≠ .cmdPrswap) :
    SwapKept b (b.enter z offerMax env entry).1 := by
  cases entry with
  | cmdDrswap => exact absurd rfl hdr
  | cmdPrswap => exact absurd rfl hpr
  | policyNotify notify => exact swapKept_policyNotify b env notify
  | policyWaitNotify wait => exact swapKept_policyWaitNotify b wait
  | cmdReq pos ma => exact swapKept_choose b _
  | cmdPps pos mv ma => exact swapKept_choose b _
  | cmdMax => exact swapKept_wantSet b _
  | policyCheckSinkRequest request =>
    simp only [Bench.enter, Bench.policyCheckSinkRequest]
    split <;> exact ⟨rfl, id, id⟩
  | cmdKeepalive arg =>
    simp only [Bench.enter]
    split_ifs <;> exact ⟨rfl, id, id⟩
  | cmdDr | cmdPr | cmdAnswer =>
    simp only [Bench.enter]
    split <;> exact ⟨rfl, id, id⟩
  | cmdSrccaps args =>
    simp only [Bench.enter, Bench.cmdSrccaps]
    split
    · exact .refl b
    · split <;> exact ⟨rfl, id, id⟩
  | policySetSrcCap | policyGetRdo | policyGetSrcCaps | prSwapCheck | policySrcDis
  | keepaliveHandler => exact ⟨rfl, id, id⟩

/-- Or asks for behind a wait. -/
theorem swapKept_resume (piece : Rest) : SwapKept b (b.resume z env piece).1 := by
  cases piece with
  | detach => exact ⟨rfl, nofun, nofun⟩
  | prSwapNotQueued => exact ⟨rfl, id, nofun⟩
  | contractEnd | srcDisCheck | powerGone | requestKeepalive | requestSink | requestSrcCaps
  | requestDrSwap | requestPrSwap | prSwapAccept | drOffer => exact ⟨rfl, id, id⟩

end

/-! ## The swaps sent -/

/-- The swaps sent, the last one first. -/
def seeSwaps (s : System) (m : Move) (sent : List SwapKind) : List SwapKind :=
  match m with
  | .enter .cmdDrswap _ => .dr :: sent
  | .enter .cmdPrswap _ => if s.bench.attached then .pr :: sent else sent
  | _ => sent

/-- The bench waits for an answer to its swap of a kind. -/
def Bench.pending (b : Bench) : SwapKind → Bool
  | .none => false
  | .dr => b.drsPending
  | .pr => b.prsPending

/-- The marker names the swap sent last, and what is pending was sent. -/
structure SwapInv (b : Bench) (sent : List SwapKind) : Prop where
  awaiting : b.awaiting = sent.head?.getD .none
  pending : ∀ kind, b.pending kind = true → kind ∈ sent
  kinds : ∀ kind ∈ sent, kind = .dr ∨ kind = .pr

variable {b : Bench} {sent : List SwapKind}

/-- Where no swap was sent the same swaps wait. -/
theorem SwapInv.kept {b' : Bench} (h : SwapInv b sent) (hkept : SwapKept b b') :
    SwapInv b' sent where
  awaiting := hkept.awaiting.trans h.awaiting
  pending := fun kind hkind => by
    apply h.pending kind
    cases kind with
    | none => cases hkind
    | dr => exact hkept.drs hkind
    | pr => exact hkept.prs hkind
  kinds := h.kinds

/-- A data role swap is sent and waits. -/
theorem SwapInv.cmdDrswap (h : SwapInv b sent) :
    SwapInv { b with drsPending := true, awaiting := .dr } (.dr :: sent) where
  awaiting := rfl
  pending := fun kind hkind => by
    cases kind with
    | none => cases hkind
    | dr => exact List.mem_cons_self
    | pr => exact List.mem_cons_of_mem _ (h.pending .pr hkind)
  kinds := fun kind hkind => (List.mem_cons.mp hkind).elim .inl (h.kinds kind)

/-- So is a power role swap, and no later than its time. -/
theorem SwapInv.cmdPrswap (h : SwapInv b sent) (swapUntil : Int) :
    SwapInv { b with prsPending := true, awaiting := .pr, swapUntil := swapUntil }
      (.pr :: sent) where
  awaiting := rfl
  pending := fun kind hkind => by
    cases kind with
    | none => cases hkind
    | dr => exact List.mem_cons_of_mem _ (h.pending .dr hkind)
    | pr => exact List.mem_cons_self
  kinds := fun kind hkind => (List.mem_cons.mp hkind).elim .inr (h.kinds kind)

/-- So with every move of bench and stack. -/
theorem SwapInv.step {s s' : System} {m : Move} (h : SwapInv s.bench sent)
    (hstep : step z offerMax s m = some s') : SwapInv s'.bench (seeSwaps s m sent) := by
  obtain ⟨entry, env, rfl, -, hbench, -⟩ | ⟨thread, env, piece, rest, rfl, -, hbench, -⟩ :=
    step_cases hstep
  · rw [hbench]
    by_cases hdr : entry = .cmdDrswap
    · subst hdr
      exact h.cmdDrswap
    · by_cases hpr : entry = .cmdPrswap
      · subst hpr
        simp only [Bench.enter, seeSwaps]
        split
        · exact h.cmdPrswap _
        · exact h
      · have hsame : seeSwaps s (.enter entry env) sent = sent := by
          cases entry <;> first | rfl | exact absurd rfl hdr | exact absurd rfl hpr
        rw [hsame]
        exact h.kept (swapKept_enter _ env hdr hpr)
  · rw [hbench]
    exact h.kept (swapKept_resume _ env piece)

/-! ## The answer -/

/-- The answer resolves the pending swap that was sent last, and no other one. -/
def Resolves (b b' : Bench) (sent : List SwapKind) (result : SwapResult) : Prop :=
  match sent.find? b.pending with
  | some .dr =>
    b'.drsPending = false ∧ b'.drsResult = result ∧ b'.prsPending = b.prsPending ∧
      b'.prsResult = b.prsResult
  | some .pr =>
    b'.prsPending = false ∧ b'.prsResult = result ∧ b'.drsPending = b.drsPending ∧
      b'.drsResult = b.drsResult
  | _ => b'.drsResult = b.drsResult ∧ b'.prsResult = b.prsResult

/-- The swap sent last is a DR_Swap that is no longer pending, and a PR_Swap still is. -/
def MarkerStuck (b : Bench) : Prop :=
  b.awaiting = .dr ∧ b.drsPending = false ∧ b.prsPending = true

/-- The first element of a list with a property, when no other one has it. -/
theorem find?_eq_of_unique {α : Type} {p : α → Bool} {a : α} {l : List α} (ha : a ∈ l)
    (hp : p a = true) (hunique : ∀ x ∈ l, p x = true → x = a) : l.find? p = some a := by
  cases hfind : l.find? p with
  | none => exact absurd hp (List.find?_eq_none.mp hfind a ha)
  | some x =>
    exact congrArg some (hunique x (List.mem_of_find?_eq_some hfind) (List.find?_some hfind))

/-- Once a swap was sent the marker names one. -/
theorem SwapInv.awaiting_of_mem (h : SwapInv b sent) {kind : SwapKind} (hkind : kind ∈ sent) :
    b.awaiting = .dr ∨ b.awaiting = .pr := by
  have hawaiting := h.awaiting
  have hkinds := h.kinds
  cases sent with
  | nil => exact absurd hkind List.not_mem_nil
  | cons last rest =>
    have hlast : b.awaiting = last := hawaiting
    rw [hlast]
    exact hkinds last List.mem_cons_self

/-- The swap the marker names heads those sent. -/
theorem SwapInv.find_awaiting (h : SwapInv b sent) (hpending : b.pending b.awaiting = true) :
    sent.find? b.pending = some b.awaiting := by
  cases sent with
  | nil => exact absurd (h.pending _ hpending) List.not_mem_nil
  | cons kind rest =>
    have hkind : b.awaiting = kind := h.awaiting
    rw [hkind] at hpending ⊢
    exact List.find?_cons_of_pos hpending

/-- The pending swap sent last, by the marker and the flags. -/
theorem SwapInv.find_pending (h : SwapInv b sent) : sent.find? b.pending =
    if b.awaiting = .pr ∧ b.prsPending = true then some .pr
    else if b.drsPending = true then some .dr
    else if b.prsPending = true then some .pr
    else none := by
  by_cases hpr : b.awaiting = .pr ∧ b.prsPending = true
  · have hpending : b.pending b.awaiting = true := by
      rw [hpr.1]
      exact hpr.2
    rw [if_pos hpr, h.find_awaiting hpending, hpr.1]
  rw [if_neg hpr]
  by_cases hdrs : b.drsPending = true
  · rw [if_pos hdrs]
    by_cases hdr : b.awaiting = .dr
    · have hpending : b.pending b.awaiting = true := by
        rw [hdr]
        exact hdrs
      rw [h.find_awaiting hpending, hdr]
    -- the marker is on a PR_Swap that is settled: only the DR_Swap waits
    · refine find?_eq_of_unique (h.pending .dr hdrs) hdrs fun kind hkind hpending => ?_
      have hmarker : b.awaiting = .pr := (h.awaiting_of_mem hkind).resolve_left hdr
      rcases h.kinds kind hkind with rfl | rfl
      · rfl
      · exact absurd ⟨hmarker, hpending⟩ hpr
  rw [if_neg hdrs]
  by_cases hprs : b.prsPending = true
  · rw [if_pos hprs]
    refine find?_eq_of_unique (h.pending .pr hprs) hprs fun kind hkind hpending => ?_
    rcases h.kinds kind hkind with rfl | rfl
    · exact absurd hpending hdrs
    · rfl
  · rw [if_neg hprs, List.find?_eq_none]
    intro kind hkind
    rcases h.kinds kind hkind with rfl | rfl
    · exact hdrs
    · exact hprs

/-- `swap_answered_locked` resolves the right swap unless the marker is stuck. -/
theorem SwapInv.resolves_iff (h : SwapInv b sent) {b' : Bench} {result : SwapResult}
    (hdrsPending : b'.drsPending = (b.swapAnsweredLocked result).2.drsPending)
    (hdrsResult : b'.drsResult = (b.swapAnsweredLocked result).2.drsResult)
    (hprsPending : b'.prsPending = (b.swapAnsweredLocked result).2.prsPending)
    (hprsResult : b'.prsResult = (b.swapAnsweredLocked result).2.prsResult) :
    Resolves b b' sent result ↔ ¬ MarkerStuck b := by
  unfold Resolves MarkerStuck
  rw [h.find_pending, hdrsPending, hdrsResult, hprsPending, hprsResult,
    Bench.swapAnsweredLocked]
  by_cases hpr : b.awaiting = .pr ∧ b.prsPending = true
  · simp [hpr]
  by_cases hdrs : b.drsPending = true
  · simp [hpr, hdrs]
  rw [if_neg hpr, if_neg hpr, if_neg hdrs, if_neg hdrs]
  by_cases hprs : b.prsPending = true
  · have hawaiting : b.awaiting = .dr :=
      (h.awaiting_of_mem (h.pending .pr hprs)).resolve_right fun hmarker => hpr ⟨hmarker, hprs⟩
    simp [hprs, hawaiting, Bool.eq_false_iff.mpr hdrs]
  · simp [hprs]

/-- None waits at the start. -/
theorem swapInv_start (offerMax : Slots Word pdoMaxDataObjects) (sinkPdos : List Word) :
    SwapInv (start z offerMax sinkPdos).bench [] where
  awaiting := rfl
  pending := fun kind hkind => by cases kind <;> cases hkind
  kinds := nofun

/-- In every run a Reject and a Not_Supported resolve the pending swap sent last, except when the
marker is stuck on a DR_Swap that is settled. -/
theorem answers_resolve_iff {offerMax : Slots Word pdoMaxDataObjects} {sinkPdos : List Word}
    {s : System} {sent : List SwapKind}
    (h : Reaches (watched (step z offerMax.items) seeSwaps) (fun _ _ => True)
      (start z offerMax sinkPdos, []) (s, sent)) (env : Env) :
    (Resolves s.bench (s.bench.policyNotify env .msgRejectedReceived).1 sent .rejected ↔
      ¬ MarkerStuck s.bench) ∧
    (Resolves s.bench (s.bench.policyNotify env .msgNotSupportedReceived).1 sent .notSupported ↔
      ¬ MarkerStuck s.bench) := by
  have hinv : SwapInv s.bench sent := by
    refine h.invariant (fun t => SwapInv t.1.bench t.2) (swapInv_start offerMax sinkPdos)
      fun t t' m ht _ hstep => ?_
    obtain ⟨s', hs', rfl⟩ := Option.map_eq_some_iff.mp hstep
    exact ht.step hs'
  constructor
  · by_cases hanswered : (s.bench.swapAnsweredLocked .rejected).1 = true
    · apply hinv.resolves_iff <;> simp only [Bench.policyNotify, if_pos hanswered]
    · apply hinv.resolves_iff <;> simp only [Bench.policyNotify, if_neg hanswered]
  · exact hinv.resolves_iff rfl rfl rfl rfl

/-- A PR_Swap and then a DR_Swap are sent. -/
def twoSwaps : List Move :=
  [.enter (.policyNotify .powerRoleIsSink) quiet,
    .enter .cmdPrswap quiet, .resume .shell quiet,
    .enter .cmdDrswap quiet, .resume .shell quiet]

/-- The first Reject is the DR_Swap's. -/
theorem answers_resolve_twoSwaps : ∃ (s : System) (sent : List SwapKind),
    sent = [.dr, .pr] ∧ s.bench.drsPending = true ∧ s.bench.prsPending = true ∧
      Resolves s.bench (s.bench.policyNotify quiet .msgRejectedReceived).1 sent .rejected := by
  have hplay : ∃ t, play (watched (step usbPd shieldPdos.items) seeSwaps) (fun _ _ => True)
      (start usbPd shieldPdos [], []) twoSwaps = some t ∧ t.2 = [.dr, .pr] ∧
        t.1.bench.drsPending = true ∧ t.1.bench.prsPending = true := ⟨_, rfl, rfl, rfl, rfl⟩
  obtain ⟨⟨s, sent⟩, hplay, hsent, hdrs, hprs⟩ := hplay
  refine ⟨s, sent, hsent, hdrs, hprs, ?_⟩
  refine (answers_resolve_iff (reaches_of_play .start hplay) quiet).1.mpr fun hstuck => ?_
  rw [hstuck.2.1] at hdrs
  cases hdrs

/-- Behind a first Reject the second one resolves nothing, and the PR_Swap goes on waiting. -/
theorem not_resolves_secondReject : ¬ ∀ (s : System) (sent : List SwapKind) (env : Env),
    Reaches (watched (step usbPd shieldPdos.items) seeSwaps) (fun _ _ => True)
      (start usbPd shieldPdos [], []) (s, sent) →
    Resolves s.bench (s.bench.policyNotify env .msgRejectedReceived).1 sent .rejected := by
  intro hall
  have hplay : ∃ t, play (watched (step usbPd shieldPdos.items) seeSwaps) (fun _ _ => True)
      (start usbPd shieldPdos [], [])
      (twoSwaps ++ [.enter (.policyNotify .msgRejectedReceived) quiet]) = some t ∧
        t.2 = [.dr, .pr] ∧ t.1.bench.awaiting = .dr ∧ t.1.bench.drsPending = false ∧
          t.1.bench.prsPending = true := ⟨_, rfl, rfl, rfl, rfl, rfl⟩
  obtain ⟨⟨s, sent⟩, hplay, hsent, hawaiting, hdrs, hprs⟩ := hplay
  have hresolves := hall s sent quiet (reaches_of_play .start hplay)
  simp only at hsent hawaiting hdrs hprs
  simp [hsent, Resolves, Bench.pending, Bench.policyNotify, Bench.swapAnsweredLocked, hawaiting,
    hdrs, hprs] at hresolves

end DevBench.Pd
