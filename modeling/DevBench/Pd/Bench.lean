import DevBench.Pd.Shell

/-!
# The PD bench

The state `main.c` keeps in `self` and what each of its functions does to it. A function is cut
where it leaves its lock: what it does under one lock, or without any, is a piece of its own,
and says which pieces of the same call come after it.
-/

namespace DevBench.Pd

open DevBench.Core

/-- `SWAP_WINDOW_MS`. -/
abbrev swapWindowMs : Int := 2000

/-- The swap the bench sent last. -/
inductive SwapKind where
  | none | dr | pr
  deriving DecidableEq, Repr

/-- `drs_result` and `prs_result`. -/
inductive SwapResult where
  | none | accepted | rejected | notSupported | wait | failed | noResponse
  deriving DecidableEq, Repr

/-- The text `drs_result` or `prs_result` points to. -/
def SwapResult.text : SwapResult → Arg
  | none => ascii "none"
  | accepted => ascii "accepted"
  | rejected => ascii "rejected"
  | notSupported => ascii "not supported"
  | wait => ascii "wait"
  | failed => ascii "failed"
  | noResponse => ascii "no response"

/-- `src_caps` with its count: behind the caps counted stand older ones. -/
structure SrcCaps where
  slots : Vector Word pdoMaxDataObjects
  cnt : Nat
  cnt_le : cnt ≤ pdoMaxDataObjects
  deriving DecidableEq, Repr

namespace SrcCaps

/-- The PDO at a position of the array, which counts from 1. -/
def pdoAt (caps : SrcCaps) (pos : Nat) : Word := caps.slots.toList.getD (pos - 1) 0

/-- The PDOs held. -/
def held (caps : SrcCaps) : List Word := caps.slots.toList.take caps.cnt

/-- `memcpy` of as many PDOs as there is room for. -/
def load (caps : SrcCaps) (pdos : List Word) : SrcCaps where
  slots := Vector.ofFn fun i => (pdos.getD i (caps.slots.get i))
  cnt := min pdos.length pdoMaxDataObjects
  cnt_le := Nat.min_le_right _ _

/-- The count is 0; the PDOs stay where they are. -/
def clear (caps : SrcCaps) : SrcCaps := { caps with cnt := 0, cnt_le := Nat.zero_le _ }

end SrcCaps

/-- `self`, without what only `pd status` and `pd ask` read. -/
structure Bench where
  snkCaps : List Word
  srcCaps : SrcCaps
  want : Want
  /-- The last Request sent, and the PDO it named. -/
  sentRdo : Word
  sentPdo : Word
  /-- The Request the Source accepted and moved its supply for. -/
  contract : Bool
  contractRdo : Word
  contractPdo : Word
  /-- The next Request repeats the contract. -/
  refresh : Bool
  keepaliveOff : Bool
  rejects : Nat
  waits : Nat
  drAnswer : DrAnswer
  dfp : Bool
  drsPending : Bool
  drsResult : SwapResult
  attached : Bool
  source : Bool
  prsPending : Bool
  prsResult : SwapResult
  awaiting : SwapKind
  swapUntil : Int
  partnerSwap : Bool
  /-- The Source_Capabilities the bench offers. -/
  offer : Slots Word pdoMaxDataObjects
  reqAnswer : SnkReqReply
  prAnswer : PrAnswer
  requests : Nat
  lastAnswer : Option SnkReqReply
  /-- The Request accepted, and the contract once the PS_RDY is due. -/
  reqRdo : Word
  reqPdo : Word
  srcContract : Bool
  srcRdo : Word
  srcPdo : Word
  psAt : Int
  /-- The caps last sent. -/
  sentCaps : Slots Word pdoMaxDataObjects

/-- What a piece of a call is told from outside: the clock, whether a partner terminates a CC
line, whether CN3 is at vSafe5V, and what `usbc_request` returns. -/
structure Env where
  now : Int
  partnerPresent : Bool
  supplyOk : Bool
  ret : Int

/-- The notifications of the stack. -/
inductive Notify where
  | powerRoleIsSource | powerRoleIsSink
  | transitionPs
  | powerChange0A0
  | msgRejectedReceived | msgNotSupportedReceived
  | protocolError
  | senderResponseTimeout
  | dataRoleIsUfp | dataRoleIsDfp
  | snkTransitionToDefault
  | hardResetReceived
  | other
  deriving DecidableEq, Repr

/-- `enum usbc_policy_wait_t`, as far as the bench tells them apart. -/
inductive WaitNotify where
  | sinkRequest | dataRoleSwap | powerRoleSwap | other
  deriving DecidableEq, Repr

/-- The three threads the bench's code runs on. -/
inductive Thread where
  | stack | shell | work
  deriving DecidableEq, Repr

/-- The calls the bench's code is entered by, to the end of their first piece. -/
inductive Entry where
  | policySetSrcCap (pdos : List Word)
  | policyGetRdo
  | policyGetSrcCaps
  | policyCheckSinkRequest (request : Word)
  | policyNotify (notify : Notify)
  | policyWaitNotify (wait : WaitNotify)
  | prSwapCheck
  | policySrcDis
  | keepaliveHandler
  | cmdReq (pos : Arg) (ma : Option Arg)
  | cmdPps (pos mv ma : Arg)
  | cmdMax
  | cmdKeepalive (arg : Arg)
  | cmdDrswap
  | cmdPrswap
  | cmdDr (arg : Arg)
  | cmdPr (arg : Arg)
  | cmdAnswer (arg : Arg)
  | cmdSrccaps (args : Slots Arg pdoMaxDataObjects)
  deriving DecidableEq

/-- The pieces that come after a first one. -/
inductive Rest where
  | contractEnd
  | detach
  | srcDisCheck
  | powerGone
  | requestKeepalive
  | requestSink
  | requestSrcCaps
  | requestDrSwap
  | requestPrSwap
  | prSwapNotQueued
  | prSwapAccept
  | drOffer (answer : DrAnswer)
  deriving DecidableEq, Repr

/-- The thread a call comes in on. -/
def Entry.thread : Entry → Thread
  | policySetSrcCap _ | policyGetRdo | policyGetSrcCaps | policyCheckSinkRequest _
  | policyNotify _ | policyWaitNotify _ | prSwapCheck | policySrcDis => .stack
  | keepaliveHandler => .work
  | _ => .shell

/-! ## Requests as a sink -/

section

variable (z : Layout)

/-- What `rdo_fixed` or `rdo_pps` is called with. -/
inductive RdoArgs where
  | fixed (pos ma : Nat)
  | pps (pos mv ma : Nat)
  deriving DecidableEq, Repr

/-- The word it builds of that. -/
def RdoArgs.rdo : RdoArgs → Word
  | fixed pos ma => z.rdoFixed pos ma
  | pps pos mv ma => z.rdoPps pos mv ma

/-- The best PDO found so far. -/
structure Best where
  pos : Nat
  mw : Int
  ma : Nat

/-- The loop of `rdo_max_locked` over the caps from a position on. -/
def rdoMaxLoop : List Word → Nat → Best → Best
  | [], _, best => best
  | pdo :: pdos, pos, best =>
    let ma := min (z.fixedMa pdo) cableMa
    let mw := z.fixedMv pdo * ma / 1000
    if z.pdoIsFixed pdo ∧ best.mw < mw then rdoMaxLoop pdos (pos + 1) ⟨pos, mw, ma⟩
    else rdoMaxLoop pdos (pos + 1) best

/-- `rdo_max_locked` asks for the fixed PDO of the highest power; ties go to the one that comes
first. -/
def rdoMaxLocked (caps : SrcCaps) : RdoArgs :=
  let best := rdoMaxLoop z caps.held 1 ⟨1, -1, safeMa⟩
  .fixed best.pos best.ma

/-- `rdo_for_locked` up to the building of the RDO, or the reason there is none. -/
def rdoForChoice (caps : SrcCaps) (w : Want) : Except ShellError RdoArgs :=
  if caps.cnt = 0 then .error .noSourceCaps
  else if w.kind = .max then .ok (rdoMaxLocked z caps)
  else if w.pos < 1 ∨ caps.cnt < w.pos then .error .notOffered
  else
    let pdo := caps.pdoAt w.pos
    if w.kind = .fixed then
      if z.pdoIsFixed pdo = false then .error .notFixed
      else if z.fixedMa pdo < w.ma then .error .abovePdo
      else .ok (.fixed w.pos (if 0 < w.ma then w.ma else min (z.fixedMa pdo) cableMa))
    else if z.pdoIsPps pdo = false then .error .notPps
    else if w.mv < z.augMinMv pdo ∨ z.augMaxMv pdo < w.mv then .error .outsideApdo
    else if z.augMaxMa pdo < w.ma then .error .aboveApdo
    else .ok (.pps w.pos w.mv w.ma)

/-- The RDO for a choice, or 0 with the reason it is not valid. -/
def rdoForLocked (caps : SrcCaps) (w : Want) : Word × Option ShellError :=
  match rdoForChoice z caps w with
  | .ok args => (args.rdo z, none)
  | .error why => (0, some why)

/-- vSafe5V, for when nothing better is valid. -/
def rdoSafe (caps : SrcCaps) : RdoArgs :=
  .fixed 1 (if 0 < caps.cnt then min safeMa (z.fixedMa (caps.pdoAt 1)) else safeMa)

namespace Bench

/-- `policy_set_src_cap`. -/
def policySetSrcCap (b : Bench) (pdos : List Word) : Bench :=
  { b with srcCaps := b.srcCaps.load pdos }

/-- The contract is repeated: a keep-alive asked for it and the caps still offer it. -/
def repeats (b : Bench) : Bool :=
  b.refresh && b.contract && decide (1 ≤ z.rdoPos b.contractRdo) &&
    decide (z.rdoPos b.contractRdo ≤ b.srcCaps.cnt) &&
    b.srcCaps.pdoAt (z.rdoPos b.contractRdo) == b.contractPdo

/-- The Request the bench would send, or 0. -/
def wantedRdo (b : Bench) : Word :=
  if b.repeats z then b.contractRdo else (rdoForLocked z b.srcCaps b.want).1

/-- The Request to be sent next. -/
def nextRdo (b : Bench) : Word :=
  if b.wantedRdo z = 0 then (rdoSafe z b.srcCaps).rdo z else b.wantedRdo z

/-- All that `policy_get_rdo` calls `rdo_fixed` and `rdo_pps` with. -/
def built (b : Bench) : List RdoArgs :=
  (if b.repeats z then [] else (rdoForChoice z b.srcCaps b.want).toOption.toList) ++
    if b.wantedRdo z = 0 then [rdoSafe z b.srcCaps] else []

/-- The Request, and that it was sent. -/
def policyGetRdo (b : Bench) : Word × Bench :=
  (b.nextRdo z, { b with
    refresh := false
    sentRdo := b.nextRdo z
    sentPdo := b.srcCaps.pdoAt (z.rdoPos (b.nextRdo z)) })

/-- The contract is a PPS one that is to be kept alive. -/
def keepsAlive (b : Bench) : Bool := b.contract && z.pdoIsPps b.contractPdo && !b.keepaliveOff

/-- `keepalive_handler` under the lock. -/
def keepaliveHandler (b : Bench) : Bench := { b with refresh := b.keepsAlive z }

/-- `contract_end`. -/
def contractEnd (b : Bench) : Bench := { b with contract := false, refresh := false }

/-- Why a choice is not taken, if it is not. -/
def wantFault (b : Bench) (w : Want) : Option ShellError :=
  if b.source then some .benchIsSource
  else if (rdoForLocked z b.srcCaps w).1 = 0 then (rdoForLocked z b.srcCaps w).2
  else none

/-- A choice is checked against the caps held now. -/
def wantSet (b : Bench) (w : Want) : Bench × List Rest :=
  if b.source = false ∧ (rdoForLocked z b.srcCaps w).1 ≠ 0 then
    ({ b with want := w }, [.requestSink])
  else (b, [])

/-! ## Roles -/

/-- VBUS going off is a PR_Swap's while one is under way and the partner is still there. -/
def swapping (b : Bench) (env : Env) : Bool := env.now < b.swapUntil && env.partnerPresent

/-- `detach` under its lock. -/
def detach (b : Bench) : Bench :=
  { b with
    attached := false
    source := false
    dfp := false
    drsPending := false
    prsPending := false
    swapUntil := 0
    partnerSwap := false
    srcCaps := b.srcCaps.clear
    srcContract := false }

/-- What a role that is set settles of the swaps under way. -/
def roleSwap (b : Bench) (source : Bool) : Bench :=
  if b.attached = false then { b with attached := true, dfp := source }
  else if source ≠ b.source ∧ b.partnerSwap = true then { b with partnerSwap := false }
  else if source ≠ b.source ∧ b.prsPending = true then
    { b with prsPending := false, prsResult := .accepted }
  else b

/-- `role_set`: caps are a sink's, a source contract a source's. -/
def roleSet (b : Bench) (source : Bool) : Bench :=
  let b := { b.roleSwap source with swapUntil := 0, source := source }
  if source then { b with srcCaps := b.srcCaps.clear } else { b with srcContract := false }

/-- `swap_failed_locked`: outside the window nothing has failed. -/
def swapFailedLocked (b : Bench) (now : Int) : Bench :=
  if b.swapUntil ≤ now then b
  else
    let b := { b with swapUntil := 0, partnerSwap := false }
    if b.prsPending then { b with prsPending := false, prsResult := .failed } else b

/-- A Reject or Not_Supported answers the swap the bench sent last that still waits. -/
def swapAnsweredLocked (b : Bench) (result : SwapResult) : Bool × Bench :=
  if b.awaiting = .pr ∧ b.prsPending = true then
    (true, { b with prsPending := false, prsResult := result, swapUntil := 0 })
  else if b.drsPending then (true, { b with drsPending := false, drsResult := result })
  else (false, b)

/-- The data role is set, which ends a DR_Swap of the bench's own. -/
def dataRole (b : Bench) (dfp : Bool) : Bench :=
  let b := { b with dfp := dfp }
  if b.drsPending then { b with drsPending := false, drsResult := .accepted } else b

/-! ## The bench as a source -/

/-- `policy_get_src_caps`: the offer is what was sent. -/
def policyGetSrcCaps (b : Bench) : Bench := { b with sentCaps := b.offer }

end Bench

/-- A Request fits a fixed PDO when its operating current is within the PDO's. -/
def requestFits (pdo request : Word) : Bool :=
  pdo != 0 && z.pdoIsFixed pdo &&
    decide (z.operatingCurrent.get request ≤ z.maxCurrent.get pdo)

/-- The Dual-Role Data bit of a 5 V PDO, set when the bench takes a DR_Swap. -/
def drdBit (pdo : Word) (answer : DrAnswer) : Word :=
  if answer = .notSupported then pdo &&& ~~~z.dualRoleData.mask else pdo ||| z.dualRoleData.mask

/-- The first PDO of a list with its Dual-Role Data bit set. -/
def drdHead (answer : DrAnswer) : List Word → List Word
  | [] => []
  | pdo :: pdos => drdBit z pdo answer :: pdos

@[simp] theorem length_drdHead (answer : DrAnswer) (pdos : List Word) :
    (drdHead z answer pdos).length = pdos.length := by
  cases pdos <;> rfl

namespace Bench

/-- The PDO a Request names among the caps last sent, or 0. -/
def namedPdo (b : Bench) (request : Word) : Word :=
  let pos := z.rdoPos request
  if 1 ≤ pos ∧ pos ≤ b.sentCaps.items.length then b.sentCaps.items.getD (pos - 1) 0 else 0

/-- The answer the host set, but never Accept for more than the caps sent offer. -/
def replyTo (b : Bench) (request : Word) : SnkReqReply :=
  if b.reqAnswer = .valid ∧ requestFits z (b.namedPdo z request) request = false then .reject
  else b.reqAnswer

/-- `policy_check_sink_request`: a Request accepted is kept with its PDO. -/
def policyCheckSinkRequest (b : Bench) (request : Word) : SnkReqReply × Bench :=
  let reply := b.replyTo z request
  let judged := if reply = .valid then
    { b with reqRdo := request, reqPdo := b.namedPdo z request } else b
  (reply, { judged with requests := b.requests + 1, lastAnswer := some reply })

/-- `TRANSITION_PS`: the contract is in force. -/
def transitionPs (b : Bench) (now : Int) : Bench :=
  if b.source then
    { b with srcContract := true, srcRdo := b.reqRdo, srcPdo := b.reqPdo, psAt := now }
  else { b with contract := true, contractRdo := b.sentRdo, contractPdo := b.sentPdo }

/-- The contract `pd role` and `pd status` show. -/
structure Role where
  contract : Bool
  rdo : Word
  pdo : Word
  deriving DecidableEq, Repr

/-- `role_get`. -/
def roleGet (b : Bench) : Role :=
  if b.source then ⟨b.srcContract, b.srcRdo, b.srcPdo⟩
  else ⟨b.contract, b.contractRdo, b.contractPdo⟩

/-- `src_hard_reset` up to VBUS going off. -/
def srcHardReset (b : Bench) (now : Int) : Bench :=
  { b with srcContract := false }.swapFailedLocked now

/-- `dr_answer_set` but for the offer. -/
def drAnswerSet (b : Bench) (answer : DrAnswer) : Bench :=
  { b with drAnswer := answer, snkCaps := drdHead z answer b.snkCaps }

/-- The offer's part of `dr_answer_set`. -/
def drOffer (b : Bench) (answer : DrAnswer) : Bench :=
  { b with offer := ⟨drdHead z answer b.offer.items, by
    rw [length_drdHead]
    exact b.offer.fits⟩ }

/-- `pd srccaps` with an offer: it is set, and sent to a sink attached. -/
def cmdSrccaps (b : Bench) (offerMax : List Word) (args : Slots Arg pdoMaxDataObjects) :
    Bench × List Rest :=
  if args.items.isEmpty then (b, [])
  else
    match hpdos : offerPdos z offerMax args.items 0 with
    | .error _ => (b, [])
    | .ok pdos =>
      ({ b with offer := ⟨drdHead z b.drAnswer pdos, by
          rw [length_drdHead, (offerPdos_ok hpdos).1]
          exact args.fits⟩ },
        if b.attached && b.source then [.requestSrcCaps] else [])

end Bench

end

end DevBench.Pd
