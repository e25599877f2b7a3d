import DevBench.Pd.System

/-!
# What the calls leave alone

The Requests the bench remembers as a sink, and what it promises as a source, are each changed
by a few of the calls. Roles, swaps and the shell's answers are none of these.
-/

namespace DevBench.Pd

open DevBench.Core

/-- What the bench promises by as a source is as it was; a contract may have ended. -/
structure SourceKept (b b' : Bench) : Prop where
  offer : b'.offer = b.offer
  sentCaps : b'.sentCaps = b.sentCaps
  reqRdo : b'.reqRdo = b.reqRdo
  reqPdo : b'.reqPdo = b.reqPdo
  srcRdo : b'.srcRdo = b.srcRdo
  srcPdo : b'.srcPdo = b.srcPdo
  srcContract : b'.srcContract = true → b.srcContract = true

/-- The Requests remembered as a sink are as they were. -/
structure SinkKept (b b' : Bench) : Prop where
  sentRdo : b'.sentRdo = b.sentRdo
  sentPdo : b'.sentPdo = b.sentPdo
  contractRdo : b'.contractRdo = b.contractRdo
  contractPdo : b'.contractPdo = b.contractPdo

/-- What either side remembers is as it was. -/
structure Kept (b b' : Bench) : Prop extends SourceKept b b', SinkKept b b'

variable {z : Layout} {offerMax : List Word} (b : Bench) (env : Env)

/-- All of it at once. -/
def Bench.remembered :=
  (b.offer, b.sentCaps, b.reqRdo, b.reqPdo, b.srcRdo, b.srcPdo, b.srcContract,
    b.sentRdo, b.sentPdo, b.contractRdo, b.contractPdo)

variable {b} in
/-- Nothing that is remembered has changed. -/
theorem Kept.of_remembered {b' : Bench} (h : b'.remembered = b.remembered) : Kept b b' := by
  simp only [Bench.remembered, Prod.mk.injEq] at h
  obtain ⟨hoffer, hcaps, hreqRdo, hreqPdo, hsrcRdo, hsrcPdo, hcontract, hsink⟩ := h
  obtain ⟨hsentRdo, hsentPdo, hcontractRdo, hcontractPdo⟩ := hsink
  exact ⟨⟨hoffer, hcaps, hreqRdo, hreqPdo, hsrcRdo, hsrcPdo, hcontract.symm.trans⟩,
    ⟨hsentRdo, hsentPdo, hcontractRdo, hcontractPdo⟩⟩

/-- Nothing was done. -/
theorem Kept.refl : Kept b b := .of_remembered rfl

/-- What the user wants. -/
theorem kept_wantSet (w : Want) : Kept b (b.wantSet z w).1 := by
  unfold Bench.wantSet
  split
  · exact .of_remembered rfl
  · exact .refl b

/-- However it is chosen. -/
theorem kept_choose (w : Except ShellError Want) : Kept b (b.choose z w).1 := by
  cases w with
  | ok w => exact kept_wantSet b w
  | error e => exact .refl b

/-- A role that is swapped. -/
theorem kept_roleSwap (source : Bool) : Kept b (b.roleSwap source) := by
  unfold Bench.roleSwap
  split_ifs <;> exact .of_remembered rfl

/-- Or set. -/
theorem kept_roleSet (source : Bool) : Kept b (b.roleSet source) := by
  obtain ⟨hsource, hsink⟩ := kept_roleSwap b source
  unfold Bench.roleSet
  split
  · exact ⟨{ hsource with }, { hsink with }⟩
  · exact ⟨{ hsource with srcContract := nofun }, { hsink with }⟩

/-- A swap that failed. -/
theorem kept_swapFailedLocked (now : Int) : Kept b (b.swapFailedLocked now) := by
  unfold Bench.swapFailedLocked
  split
  · exact .refl b
  · dsimp only
    split <;> exact .of_remembered rfl

/-- Or was answered. -/
theorem kept_swapAnsweredLocked (result : SwapResult) :
    Kept b (b.swapAnsweredLocked result).2 := by
  unfold Bench.swapAnsweredLocked
  split_ifs <;> exact .of_remembered rfl

/-- A data role that changes. -/
theorem kept_dataRole (dfp : Bool) : Kept b (b.dataRole dfp) := by
  unfold Bench.dataRole
  dsimp only
  split <;> exact .of_remembered rfl

/-- A hard reset. -/
theorem kept_srcHardReset (now : Int) : Kept b (b.srcHardReset now) := by
  obtain ⟨hsource, hsink⟩ := kept_swapFailedLocked { b with srcContract := false } now
  exact ⟨{ hsource with srcContract := fun h => nomatch hsource.srcContract h },
    { hsink with }⟩

/-- Every notification but the transition of the supply. -/
theorem kept_policyNotify {notify : Notify} (h : notify ≠ .transitionPs) :
    Kept b (b.policyNotify env notify).1 := by
  cases notify with
  | powerRoleIsSource => exact kept_roleSet b true
  | powerRoleIsSink => exact kept_roleSet b false
  | transitionPs => exact absurd rfl h
  | powerChange0A0 => exact .refl b
  | msgRejectedReceived =>
    obtain ⟨hsource, hsink⟩ := kept_swapAnsweredLocked b .rejected
    simp only [Bench.policyNotify]
    split <;> exact ⟨{ hsource with }, { hsink with }⟩
  | msgNotSupportedReceived => exact kept_swapAnsweredLocked b .notSupported
  | protocolError => exact kept_swapFailedLocked b env.now
  | senderResponseTimeout =>
    simp only [Bench.policyNotify]
    split <;> exact .of_remembered rfl
  | dataRoleIsUfp => exact kept_dataRole b false
  | dataRoleIsDfp => exact kept_dataRole b true
  | snkTransitionToDefault => exact kept_swapFailedLocked b env.now
  | hardResetReceived => exact kept_srcHardReset b env.now
  | other => exact .refl b

/-- Waiting to be told. -/
theorem kept_policyWaitNotify (wait : WaitNotify) : Kept b (b.policyWaitNotify wait) := by
  cases wait with
  | powerRoleSwap =>
    simp only [Bench.policyWaitNotify]
    split <;> exact .of_remembered rfl
  | sinkRequest | dataRoleSwap | other =>
    exact .of_remembered rfl

/-- The calls that change a promise or a Request remembered. -/
def Entry.promises : Entry → Bool
  | policyGetRdo | policyGetSrcCaps | policyCheckSinkRequest _ | policyNotify .transitionPs
  | cmdSrccaps _ => true
  | _ => false

/-- An entry that promises nothing. -/
theorem kept_enter {entry : Entry} (h : entry.promises = false) :
    Kept b (b.enter z offerMax env entry).1 := by
  cases entry with
  | policyGetRdo | policyGetSrcCaps | policyCheckSinkRequest | cmdSrccaps => cases h
  | policyNotify notify =>
    refine kept_policyNotify b env ?_
    rintro rfl
    cases h
  | policyWaitNotify wait => exact kept_policyWaitNotify b wait
  | cmdReq pos ma => exact kept_choose b _
  | cmdPps pos mv ma => exact kept_choose b _
  | cmdMax => exact kept_wantSet b _
  | cmdKeepalive arg =>
    simp only [Bench.enter]
    split_ifs <;> exact .of_remembered rfl
  | cmdPrswap | cmdDr | cmdPr | cmdAnswer =>
    simp only [Bench.enter]
    split <;> exact .of_remembered rfl
  | policySetSrcCap | prSwapCheck | policySrcDis | keepaliveHandler | cmdDrswap =>
    exact .of_remembered rfl

/-- A later piece of a call touches no promise but for the Dual-Role Data bit. -/
theorem kept_resume {piece : Rest} (h : ∀ answer, piece ≠ .drOffer answer) :
    Kept b (b.resume z env piece).1 := by
  cases piece with
  | detach => exact ⟨⟨rfl, rfl, rfl, rfl, rfl, rfl, nofun⟩, ⟨rfl, rfl, rfl, rfl⟩⟩
  | drOffer answer => exact absurd rfl (h answer)
  | contractEnd | srcDisCheck | powerGone | requestKeepalive | requestSink | requestSrcCaps
  | requestDrSwap | requestPrSwap | prSwapNotQueued | prSwapAccept =>
    exact .of_remembered rfl

end DevBench.Pd
