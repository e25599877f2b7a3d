import DevBench.Pd.Frame

/-!
# The bench as a source

Three copies of the capabilities change at different moments: the devicetree's never, the offer
with a command, the caps last sent when the stack asks for them. A Request is judged against the
last of them, and the contract keeps the PDO the Request named then.
-/

namespace DevBench.Pd

open DevBench.Core

/-! ## Offers -/

/-- What the devicetree is trusted to give: fixed PDOs, the first at 5 V, rising in voltage. -/
structure Devicetree (z : Layout) (offerMax : List Word) : Prop where
  nonempty : offerMax ≠ []
  fixed : ∀ pdo ∈ offerMax, z.pdoIsFixed pdo = true
  first : ∀ pdo ∈ offerMax.head?, z.fixedMv pdo = 5000
  rise : (offerMax.map z.fixedMv).Pairwise (· < ·)

/-- A list of PDOs the bench may offer. -/
structure Offered (z : Layout) (offerMax pdos : List Word) : Prop where
  nonempty : pdos ≠ []
  within : ∀ pdo ∈ pdos, Within z offerMax pdo
  first : ∀ pdo ∈ pdos.head?, z.fixedMv pdo = 5000
  rise : (pdos.map z.fixedMv).Pairwise (· < ·)

variable {z : Layout} {offerMax : List Word}

/-- The offer of the devicetree is made of its own PDOs. -/
theorem Devicetree.offered (h : Devicetree z offerMax) : Offered z offerMax offerMax where
  nonempty := h.nonempty
  within := fun pdo hpdo => ⟨h.fixed pdo hpdo, pdo, hpdo, rfl, Nat.le_refl _⟩
  first := h.first
  rise := h.rise

section

variable (pdo : Word) (answer : DrAnswer)

/-- The Dual-Role Data bit is none of the others the bench reads in a PDO. -/
theorem get_drdBit {f : BitField 32} (h : z.dualRoleData.Disjoint f) :
    f.get (drdBit z pdo answer) = f.get pdo := by
  unfold drdBit
  split
  · exact BitField.get_clear h pdo
  · exact BitField.get_fill h pdo

/-- The Dual-Role Data bit does not change the type. -/
theorem pdoIsFixed_drdBit : z.pdoIsFixed (drdBit z pdo answer) = z.pdoIsFixed pdo := by
  obtain ⟨-, -, hdata, -⟩ := BitField.disjoint_four z.fixedPdo
  exact Layout.pdoIsFixed_congr (get_drdBit pdo answer hdata.symm)

/-- Nor the voltage. -/
theorem fixedMv_drdBit : z.fixedMv (drdBit z pdo answer) = z.fixedMv pdo := by
  obtain ⟨-, -, -, -, -, hdata⟩ := BitField.disjoint_four z.fixedPdo
  rw [Layout.fixedMv, get_drdBit pdo answer hdata.symm, Layout.fixedMv]

/-- Nor the current. -/
theorem fixedMa_drdBit : z.fixedMa (drdBit z pdo answer) = z.fixedMa pdo := by
  obtain ⟨-, -, -, -, hdata, -⟩ := BitField.disjoint_four z.fixedPdo
  rw [Layout.fixedMa, get_drdBit pdo answer hdata.symm, Layout.fixedMa]

end

/-- An offer stays one when the bench takes or refuses DR_Swaps. -/
theorem Offered.drdHead {pdos : List Word} (h : Offered z offerMax pdos) (answer : DrAnswer) :
    Offered z offerMax (drdHead z answer pdos) := by
  cases pdos with
  | nil => exact h
  | cons pdo pdos =>
    have hwithin := h.within pdo List.mem_cons_self
    refine ⟨List.cons_ne_nil _ _, fun p hp => ?_, fun p hp => ?_, ?_⟩
    · rcases List.mem_cons.mp hp with rfl | hp
      · obtain ⟨hfixed, limit, hlimit, hmv, hma⟩ := hwithin
        refine ⟨(pdoIsFixed_drdBit pdo answer).trans hfixed, limit, hlimit, ?_, ?_⟩
        · rw [fixedMv_drdBit, hmv]
        · rw [fixedMa_drdBit]
          exact hma
      · exact h.within p (List.mem_cons_of_mem _ hp)
    · obtain rfl := Option.some.inj hp
      rw [fixedMv_drdBit]
      exact h.first pdo rfl
    · have hrise := h.rise
      rw [List.map_cons] at hrise
      rw [Pd.drdHead, List.map_cons, fixedMv_drdBit]
      exact hrise

/-- What `pd srccaps` lets through is an offer. -/
theorem offered_offerPdos {args : List Arg} {pdos : List Word} (hne : args ≠ [])
    (h : offerPdos z offerMax args 0 = .ok pdos) : Offered z offerMax pdos := by
  obtain ⟨hlen, hwithin, hrise, hfirst⟩ := offerPdos_ok h
  refine ⟨?_, hwithin, fun pdo hpdo => hfirst pdo hpdo rfl, (List.pairwise_cons.mp hrise).2⟩
  rintro rfl
  exact hne (List.length_eq_zero_iff.mp hlen.symm)

/-! ## Requests -/

/-- A Request answered Accept, with the PDO it was judged against and the caps sent by then. -/
structure Accepted where
  request : Word
  pdo : Word
  caps : List Word

/-- The Request names a position of the caps and asks for no more than its PDO's current. -/
structure Accepted.Fits (z : Layout) (a : Accepted) : Prop where
  pos : 1 ≤ z.rdoPos a.request
  named : a.caps[z.rdoPos a.request - 1]? = some a.pdo
  fixed : z.pdoIsFixed a.pdo = true
  current : z.operatingCurrent.get a.request ≤ z.maxCurrent.get a.pdo

/-- What is answered with Accept fits the PDO it names. -/
theorem Bench.fits_of_replyTo {b : Bench} {request : Word} (h : b.replyTo z request = .valid) :
    Accepted.Fits z ⟨request, b.namedPdo z request, b.sentCaps.items⟩ := by
  have hfits : requestFits z (b.namedPdo z request) request = true := by
    unfold Bench.replyTo at h
    split at h
    · cases h
    · rename_i hnot
      by_contra hfits
      exact hnot ⟨h, Bool.eq_false_iff.mpr hfits⟩
  unfold requestFits at hfits
  rw [Bool.and_eq_true, Bool.and_eq_true, bne_iff_ne, decide_eq_true_eq] at hfits
  obtain ⟨⟨hne, hfixed⟩, hcurrent⟩ := hfits
  -- a Request that names no PDO sent is judged against 0
  have hpos : 1 ≤ z.rdoPos request ∧ z.rdoPos request ≤ b.sentCaps.items.length := by
    by_contra hout
    exact hne (if_neg hout)
  refine ⟨hpos.1, ?_, hfixed, hcurrent⟩
  have hlt : z.rdoPos request - 1 < b.sentCaps.items.length := by omega
  simp only [Bench.namedPdo, if_pos hpos, List.getD_eq_getElem?_getD,
    List.getElem?_eq_getElem hlt, Option.getD_some]

/-! ## What a source does over a run -/

/-- Whether the stack has asked for the caps, and the Requests accepted since the start. -/
structure SourceLog where
  asked : Bool
  accepted : List Accepted

/-- What a move adds to the log. -/
def seeSource (z : Layout) (s : System) (m : Move) (log : SourceLog) : SourceLog :=
  match m with
  | .enter .policyGetSrcCaps _ => { log with asked := true }
  | .enter (.policyCheckSinkRequest request) _ =>
    if s.bench.replyTo z request = .valid then
      { log with accepted :=
          log.accepted ++ [⟨request, s.bench.namedPdo z request, s.bench.sentCaps.items⟩] }
    else log
  | _ => log

/-- As a source the bench is told of a transition only once a Request has been accepted. -/
def TransitionAfterAccept (s : System × SourceLog) (m : Move) : Prop :=
  ∀ env, m = .enter (.policyNotify .transitionPs) env → s.1.bench.source = true →
    s.2.accepted ≠ []

/-- The copies of the capabilities are offers, and the contract is a Request accepted. -/
structure SourceInv (z : Layout) (offerMax : List Word) (b : Bench) (log : SourceLog) : Prop where
  offer : Offered z offerMax b.offer.items
  unasked : log.asked = false → b.sentCaps.items = []
  sent : log.asked = true → Offered z offerMax b.sentCaps.items
  fits : ∀ a ∈ log.accepted, a.Fits z
  last : log.accepted ≠ [] → ∃ a ∈ log.accepted, a.request = b.reqRdo ∧ a.pdo = b.reqPdo
  contract : b.srcContract = true →
    ∃ a ∈ log.accepted, a.request = b.srcRdo ∧ a.pdo = b.srcPdo

/-- What leaves the source's part alone keeps its invariant. -/
theorem SourceInv.kept {b b' : Bench} {log : SourceLog} (h : SourceInv z offerMax b log)
    (hkept : SourceKept b b') : SourceInv z offerMax b' log where
  offer := hkept.offer ▸ h.offer
  unasked := hkept.sentCaps ▸ h.unasked
  sent := hkept.sentCaps ▸ h.sent
  fits := h.fits
  last := by
    rw [hkept.reqRdo, hkept.reqPdo]
    exact h.last
  contract := fun hcontract => by
    rw [hkept.srcRdo, hkept.srcPdo]
    exact h.contract (hkept.srcContract hcontract)

/-! ## What changes them -/

section

variable {b : Bench} {log : SourceLog}

/-- The offer is sent. -/
theorem SourceInv.policyGetSrcCaps (h : SourceInv z offerMax b log) :
    SourceInv z offerMax b.policyGetSrcCaps { log with asked := true } :=
  { h with unasked := nofun, sent := fun _ => h.offer }

/-- A Request accepted is judged against the caps last sent. -/
theorem SourceInv.accept (h : SourceInv z offerMax b log) {request : Word}
    (hreply : b.replyTo z request = .valid) :
    SourceInv z offerMax (b.policyCheckSinkRequest z request).2 { log with accepted :=
      log.accepted ++ [⟨request, b.namedPdo z request, b.sentCaps.items⟩] } := by
  have hbench : (b.policyCheckSinkRequest z request).2 = { b with
      reqRdo := request, reqPdo := b.namedPdo z request, requests := b.requests + 1
      lastAnswer := some .valid } := by
    simp only [Bench.policyCheckSinkRequest, hreply, if_true]
  rw [hbench]
  exact {
    offer := h.offer
    unasked := h.unasked
    sent := h.sent
    fits := fun a ha => by
      rcases List.mem_append.mp ha with ha | ha
      · exact h.fits a ha
      · obtain rfl := List.mem_singleton.mp ha
        exact Bench.fits_of_replyTo hreply
    last := fun _ => ⟨_, List.mem_append_right _ List.mem_cons_self, rfl, rfl⟩
    contract := fun hcontract => by
      obtain ⟨a, ha, hrdo, hpdo⟩ := h.contract hcontract
      exact ⟨a, List.mem_append_left _ ha, hrdo, hpdo⟩ }

/-- A Request refused leaves everything promised as it was. -/
theorem sourceKept_refuse {request : Word} (hreply : b.replyTo z request ≠ .valid) :
    SourceKept b (b.policyCheckSinkRequest z request).2 := by
  simp only [Bench.policyCheckSinkRequest, if_neg hreply]
  exact ⟨rfl, rfl, rfl, rfl, rfl, rfl, id⟩

/-- The contract is the Request accepted last. -/
theorem SourceInv.transitionPs (h : SourceInv z offerMax b log) (hsource : b.source = true)
    (haccepted : log.accepted ≠ []) (now : Int) :
    SourceInv z offerMax (b.transitionPs now) log := by
  have hbench : b.transitionPs now = { b with
      srcContract := true, srcRdo := b.reqRdo, srcPdo := b.reqPdo, psAt := now } := by
    rw [Bench.transitionPs, hsource]
    rfl
  rw [hbench]
  exact { h with contract := fun _ => h.last haccepted }

/-- A new offer is made of the devicetree's PDOs. -/
theorem SourceInv.cmdSrccaps (h : SourceInv z offerMax b log)
    (args : Slots Arg pdoMaxDataObjects) :
    SourceInv z offerMax (b.cmdSrccaps z offerMax args).1 log := by
  unfold Bench.cmdSrccaps
  split
  · exact h
  · rename_i hne
    split
    · exact h
    · rename_i pdos hpdos
      have hargs : args.items ≠ [] := by simpa using hne
      exact { h with offer := (offered_offerPdos hargs hpdos).drdHead _ }

/-- As a sink the transition is none of the source's. -/
theorem sourceKept_transitionPs (hsink : b.source = false) (now : Int) :
    SourceKept b (b.transitionPs now) := by
  rw [Bench.transitionPs, hsink]
  exact ⟨rfl, rfl, rfl, rfl, rfl, rfl, id⟩

end

/-- What a call does to the bench, its log included. -/
theorem SourceInv.enter {s : System} {log : SourceLog}
    (h : SourceInv z offerMax s.bench log) (entry : Entry) (env : Env)
    (hok : TransitionAfterAccept (s, log) (.enter entry env)) :
    SourceInv z offerMax (s.bench.enter z offerMax env entry).1
      (seeSource z s (.enter entry env) log) := by
  cases entry with
  | policyGetSrcCaps => exact h.policyGetSrcCaps
  | policyCheckSinkRequest request =>
    by_cases hreply : s.bench.replyTo z request = .valid
    · simp only [seeSource, if_pos hreply]
      exact h.accept hreply
    · simp only [seeSource, if_neg hreply]
      exact h.kept (sourceKept_refuse hreply)
  | policyNotify notify =>
    by_cases hps : notify = .transitionPs
    · subst hps
      cases hsource : s.bench.source with
      | false => exact h.kept (sourceKept_transitionPs hsource env.now)
      | true => exact h.transitionPs hsource (hok env rfl hsource) env.now
    · exact h.kept (kept_policyNotify _ env hps).toSourceKept
  | cmdSrccaps args => exact h.cmdSrccaps args
  | policyGetRdo => exact h.kept ⟨rfl, rfl, rfl, rfl, rfl, rfl, id⟩
  | policySetSrcCap | policyWaitNotify | prSwapCheck | policySrcDis | keepaliveHandler | cmdReq
  | cmdPps | cmdMax | cmdKeepalive | cmdDrswap | cmdPrswap | cmdDr | cmdPr | cmdAnswer =>
    exact h.kept (kept_enter _ env rfl).toSourceKept

/-- A later piece of a call keeps the invariant. -/
theorem SourceInv.resume {b : Bench} {log : SourceLog} (h : SourceInv z offerMax b log)
    (env : Env) (piece : Rest) : SourceInv z offerMax (b.resume z env piece).1 log := by
  by_cases hdr : ∃ answer, piece = .drOffer answer
  · obtain ⟨answer, rfl⟩ := hdr
    exact { h with offer := h.offer.drdHead answer }
  · exact h.kept (kept_resume b env fun answer heq => hdr ⟨answer, heq⟩).toSourceKept

/-- The bench starts with it. -/
theorem sourceInv_start {offerMax : Slots Word pdoMaxDataObjects} (sinkPdos : List Word)
    (h : Devicetree z offerMax.items) :
    SourceInv z offerMax.items (start z offerMax sinkPdos).bench ⟨false, []⟩ where
  offer := h.offered.drdHead .accept
  unasked := fun _ => rfl
  sent := nofun
  fits := nofun
  last := fun h => absurd rfl h
  contract := nofun

/-- In every run the offer and the caps once sent stay within the devicetree's, what is accepted
fits the caps sent, and the contract shown as source is a Request accepted. -/
theorem source_within {offerMax : Slots Word pdoMaxDataObjects} {sinkPdos : List Word}
    {s : System} {log : SourceLog} (hdevicetree : Devicetree z offerMax.items)
    (h : Reaches (watched (step z offerMax.items) (seeSource z)) TransitionAfterAccept
      (start z offerMax sinkPdos, ⟨false, []⟩) (s, log)) :
    Offered z offerMax.items s.bench.offer.items ∧
    (log.asked = true → Offered z offerMax.items s.bench.sentCaps.items) ∧
    (log.asked = false → s.bench.sentCaps.items = []) ∧
    (∀ request, s.bench.replyTo z request = .valid →
      Accepted.Fits z ⟨request, s.bench.namedPdo z request, s.bench.sentCaps.items⟩) ∧
    (∀ a ∈ log.accepted, a.Fits z) ∧
    (s.bench.source = true → s.bench.roleGet.contract = true →
      ∃ a ∈ log.accepted, a.request = s.bench.roleGet.rdo ∧ a.pdo = s.bench.roleGet.pdo) := by
  have hinv : SourceInv z offerMax.items s.bench log := by
    refine h.invariant (fun t => SourceInv z offerMax.items t.1.bench t.2)
      (sourceInv_start sinkPdos hdevicetree) fun t t' m ht hok hstep => ?_
    obtain ⟨s', hs', rfl⟩ := Option.map_eq_some_iff.mp hstep
    obtain ⟨entry, env, rfl, -, hbench, -⟩ | ⟨thread, env, piece, rest, rfl, -, hbench, -⟩ :=
      step_cases hs'
    · rw [hbench]
      exact ht.enter entry env hok
    · rw [hbench]
      exact ht.resume env piece
  refine ⟨hinv.offer, hinv.sent, hinv.unasked, fun request => Bench.fits_of_replyTo, hinv.fits,
    fun hsource => ?_⟩
  rw [Bench.roleGet, if_pos hsource]
  exact hinv.contract

/-- The shield's own PDOs rise from 5 V. -/
theorem devicetree_shieldPdos : Devicetree usbPd shieldPdos.items where
  nonempty := List.cons_ne_nil _ _
  fixed := fun pdo hpdo => by
    obtain rfl := List.mem_singleton.mp hpdo
    decide +kernel
  first := fun pdo hpdo => by
    obtain rfl := Option.some.inj hpdo
    decide +kernel
  rise := List.pairwise_singleton _ _

/-- The bench as a source answers a Request for 500 mA with Accept and moves its supply for it. -/
theorem source_within_contract : ∃ (s : System) (log : SourceLog),
    s.bench.source = true ∧ s.bench.roleGet.contract = true ∧
      ∃ a ∈ log.accepted, a.request = s.bench.roleGet.rdo ∧ a.pdo = s.bench.roleGet.pdo := by
  have hasked : Reaches (watched (step usbPd shieldPdos.items) (seeSource usbPd))
      TransitionAfterAccept (start usbPd shieldPdos [], ⟨false, []⟩) _ :=
    .move (m := .enter .policyGetSrcCaps quiet) .start nofun rfl
  have haccepted : Reaches (watched (step usbPd shieldPdos.items) (seeSource usbPd))
      TransitionAfterAccept (start usbPd shieldPdos [], ⟨false, []⟩) _ :=
    .move (m := .enter (.policyCheckSinkRequest (usbPd.rdoFixed 1 500)) quiet) hasked nofun rfl
  have hsource : Reaches (watched (step usbPd shieldPdos.items) (seeSource usbPd))
      TransitionAfterAccept (start usbPd shieldPdos [], ⟨false, []⟩) _ :=
    .move (m := .resume .stack quiet)
      (.move (m := .enter (.policyNotify .powerRoleIsSource) quiet) haccepted nofun rfl) nofun rfl
  have hcontract : Reaches (watched (step usbPd shieldPdos.items) (seeSource usbPd))
      TransitionAfterAccept (start usbPd shieldPdos [], ⟨false, []⟩) _ :=
    .move (m := .enter (.policyNotify .transitionPs) quiet) hsource
      (fun _ _ _ => List.cons_ne_nil _ _) rfl
  obtain ⟨-, -, -, -, -, hshown⟩ := source_within devicetree_shieldPdos hcontract
  exact ⟨_, _, rfl, rfl, hshown rfl rfl⟩

/-- Before the stack has asked for them no caps have been sent. -/
theorem not_sentCaps_start : ¬ ∀ (s : System) (log : SourceLog),
    Reaches (watched (step usbPd shieldPdos.items) (seeSource usbPd)) TransitionAfterAccept
      (start usbPd shieldPdos [], ⟨false, []⟩) (s, log) →
    Offered usbPd shieldPdos.items s.bench.sentCaps.items :=
  fun h => (h _ _ .start).nonempty rfl

end DevBench.Pd
