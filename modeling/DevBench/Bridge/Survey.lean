import DevBench.Bridge.Tables

/-!
# What a step reports of the peer's table

A step that walks over the peer's services reports them, and so does its transcript, entry by
entry while they are found. The two are the same.
-/

namespace DevBench.Bridge

open DevBench.Core DevBench.Core.Program DevBench.Eap DevBench.Bench DevBench.Wire

/-! ## What the transcript lists -/

/-- What a transcript entry says of a walk. -/
inductive Finding where
  | begun
  | service (uuid : Uuid)
  | characteristic (serviceUuid : Uuid) (info : CharacteristicInfo)
  deriving DecidableEq

/-- A characteristic's entry has its properties in the place of a status. -/
def findingOf (entry : TranscriptEntry) : Option Finding :=
  if entry.kind = bleGattEvtDiscoveryStarted then some .begun
  else if entry.kind = bleGattEvtServiceDiscovered then entry.serviceUuid.map .service
  else if entry.kind = bleGattEvtCharacteristicDiscovered then
    entry.serviceUuid.bind fun serviceUuid => entry.characteristicUuid.map fun uuid =>
      .characteristic serviceUuid ⟨uuid, entry.attStatus⟩
  else none

/-- What a mark says of a walk. -/
def Mark.finding : Mark → Option Finding
  | transcript entry => findingOf entry
  | _ => none

/-- What the transcript says of walks, the last first. -/
def BridgeState.findings (s : BridgeState) : List Finding := s.log.filterMap Mark.finding

/-- What the transcript lists since the last walk was begun, in order. -/
def BridgeState.listed (s : BridgeState) : List Finding :=
  (s.findings.takeWhile (· ≠ .begun)).reverse

/-- Services are found first, then the characteristics of each. -/
def listing (services : List ServiceInfo) : List Finding :=
  services.map (.service ·.uuid) ++ services.flatMap fun service =>
    service.characteristics.items.map (.characteristic service.uuid)

/-- The same of a table. -/
def catalogue (services : List FoundService) : List Finding :=
  services.map (.service ·.uuid) ++ services.flatMap fun service =>
    service.characteristics.items.map (.characteristic service.uuid ·.info)

variable {s s' : BridgeState}

/-- The outcome lists the table. -/
theorem listing_services (s : BridgeState) : listing s.services = catalogue s.table.items := by
  simp [listing, catalogue, BridgeState.services, List.flatMap_map, Slots.map, Function.comp_def]

/-- Nothing is found in services without characteristics. -/
theorem catalogue_bare {services : List FoundService}
    (h : ∀ service ∈ services, service.characteristics.items = []) :
    catalogue services = services.map (.service ·.uuid) := by
  have hnil : (services.flatMap fun service =>
      service.characteristics.items.map (Finding.characteristic service.uuid ·.info)) = [] :=
    List.flatMap_eq_nil_iff.mpr fun service hservice => by rw [h service hservice]; rfl
  rw [catalogue, hnil, List.append_nil]

/-- One more service, while none has characteristics. -/
theorem catalogue_push {services : List FoundService} {service : FoundService}
    (h : ∀ service ∈ services, service.characteristics.items = [])
    (hservice : service.characteristics.items = []) :
    catalogue (services ++ [service]) = catalogue services ++ [.service service.uuid] := by
  have hall : ∀ x ∈ services ++ [service], x.characteristics.items = [] := by
    intro x hx
    rcases List.mem_append.mp hx with hx | hx
    · exact h x hx
    · exact List.mem_singleton.mp hx ▸ hservice
  rw [catalogue_bare hall, catalogue_bare h, List.map_append]
  rfl

/-- One more characteristic, while the services behind its own have none. -/
theorem catalogue_add {services : List FoundService} {i : Nat} {service : FoundService}
    {c : FoundCharacteristic} (hi : services[i]? = some service)
    (hroom : service.characteristics.items.length < bleMaxCharsPerService)
    (h : ∀ service ∈ services.drop (i + 1), service.characteristics.items = []) :
    catalogue (services.set i (service.add c hroom)) =
      catalogue services ++ [.characteristic service.uuid c.info] := by
  obtain ⟨hlt, hget⟩ := List.getElem?_eq_some_iff.mp hi
  have hsplit : services = services.take i ++ service :: services.drop (i + 1) := by
    rw [← hget, List.getElem_cons_drop, List.take_append_drop]
  have hlength : (services.take i).length = i := List.length_take_of_le hlt.le
  have hset : services.set i (service.add c hroom) =
      services.take i ++ service.add c hroom :: services.drop (i + 1) := by
    conv_lhs => rw [hsplit]
    rw [List.set_append_right _ _ hlength.le, hlength, Nat.sub_self, List.set_cons_zero]
  have hnil : ((services.drop (i + 1)).flatMap fun service =>
      service.characteristics.items.map (Finding.characteristic service.uuid ·.info)) = [] :=
    List.flatMap_eq_nil_iff.mpr fun x hx => by rw [h x hx]; rfl
  rw [hset]
  conv_rhs => rw [hsplit]
  simp only [catalogue, List.map_append, List.map_cons, List.flatMap_append, List.flatMap_cons,
    hnil, FoundService.add, push, List.append_nil, List.append_assoc]
  rfl

/-! ## What is not listed -/

/-- The table, the walk outstanding and what the transcript says of walks. -/
def BridgeState.hard (s : BridgeState) : Table × Nat × Option Procedure × List Finding :=
  (s.table, s.discovering, s.pending, s.findings)

/-- Such an entry is not found in a listing. -/
theorem finding_unlisted {entry : TranscriptEntry} (h : Unlisted entry.kind) :
    Mark.finding (.transcript entry) = none := by
  rw [Mark.finding, findingOf, if_neg h.1, if_neg h.2.1, if_neg h.2.2]

/-- No mark of a callback but the walk's own is found in a listing. -/
theorem finding_of_unlisted {m : Mark} (h : m.Unlisted) : m.finding = none := by
  cases m with
  | transcript entry => exact finding_unlisted h
  | _ => rfl

/-- Such a mark changes nothing a walk is about. -/
theorem hard_push {m : Mark} (h : m.finding = none) : (s.push m).hard = s.hard := by
  have hlog : (s.push m).findings = s.findings := List.filterMap_cons_none h
  rw [BridgeState.hard, hlog]
  rfl

/-- One more finding of the walk that is on. -/
theorem listed_cons {f : Finding} (hf : f ≠ .begun) (h : s'.findings = f :: s.findings) :
    s'.listed = s.listed ++ [f] := by
  simp [BridgeState.listed, h, hf]

/-! ## What the host can do -/

/-- The invariant is about the table and the walk, and it is kept by whatever a walk finds. -/
structure Observed (inv : BridgeState → Prop) : Prop where
  same : ∀ {s s' : BridgeState}, inv s → s'.hard = s.hard → inv s'
  done : ∀ {s : BridgeState}, inv s → inv { s with pending := none }
  found : ∀ {s : BridgeState} {table : Table} {entry : TranscriptEntry}, Found s table entry →
    inv s → inv ({ s with table := table }.push (.transcript entry))

namespace Observed

variable {inv : BridgeState → Prop} (h : Observed inv)
include h

/-- A mark that says nothing of a walk. -/
theorem push {m : Mark} (hm : m.finding = none) (hs : inv s) : inv (s.push m) :=
  h.same hs (hard_push hm)

/-- Whatever the host does, the invariant is kept. -/
theorem keptByHost : KeptByHost inv where
  other := by
    intro s s' hview hs
    simp only [BridgeState.view, BridgeState.core, Prod.mk.injEq] at hview
    obtain ⟨⟨-, -, -, -, hlog⟩, -, hpending, htable, hdiscovering, -⟩ := hview
    refine h.same hs ?_
    rw [BridgeState.hard, BridgeState.findings, htable, hdiscovering, hpending, hlog]
    rfl
  turn hs := h.same hs rfl
  quiet {s m} hm hs := h.push (finding_of_unlisted hm) hs
  up _ _ hs := h.same hs rfl
  lost conn reason hs := by
    unfold BridgeState.lose BridgeState.drop
    split
    · exact h.same (h.done hs) rfl
    · exact h.same hs rfl
  done hs := h.same (h.done hs) rfl
  found := h.found
  arrived _ hs := h.same hs rfl
  delivered data host _ hs := by
    have hkind : Unlisted bleGattEvtNotification := by decide
    exact h.push rfl (h.push (finding_unlisted hkind) hs)
  ccc hs := h.same hs rfl

/-- A program that changes nothing the invariant is about. -/
theorem step {α : Type} {m : Act α} (hm : ∀ host s, (m host s).2.hard = s.hard) : Keeps inv m :=
  fun host s hs => h.same hs (hm host s)

/-- A change of what the invariant is not about. -/
theorem modify {f : BridgeState → BridgeState} (hf : ∀ s, (f s).hard = s.hard) :
    Keeps inv (Program.modify f : Act Unit) := h.step fun _ => hf

/-- A mark that says nothing of a walk. -/
theorem note {m : Mark} (hm : m.finding = none) : Keeps inv (note m) := fun _ _ hs => h.push hm hs

/-- A semaphore is nothing to it. -/
theorem clear (sem : Sem) : Keeps inv (clear sem) := h.modify fun _ => rfl

/-- An entry that says nothing of a walk. -/
theorem transcriptEmit {kind : UInt8} (hkind : Unlisted kind) (direction : UInt8)
    (serviceUuid characteristicUuid : Option Uuid) (attStatus : UInt8) (payload : List UInt8) :
    Keeps inv
      (transcriptEmit direction kind serviceUuid characteristicUuid attStatus payload) :=
  h.keptByHost.transcriptEmit hkind direction serviceUuid characteristicUuid attStatus payload

/-- A wait lets the host go on. -/
theorem wait (sem : Sem) (site : Site) : Keeps inv (wait sem site) :=
  h.keptByHost.wait (fun s _ hs => h.push (s := s.take sem) rfl (h.same hs rfl)) fun _ hs =>
    h.push rfl hs

/-- A wait there may be no reason for. -/
theorem waitIf (p : Prop) [Decidable p] (sem : Sem) (site : Site) :
    Keeps inv (waitIf p sem site) := keeps_ite (fun _ => h.wait sem site) fun _ => keeps_pure true

/-- No GATT call changes what a walk has found. -/
theorem gattCall (call : GattCall) : Keeps inv (gattCall call) :=
  keeps_get.bind fun _ => Keeps.bind (h.note rfl) fun _ =>
    keeps_ite (fun _ => h.keptByHost.answer) fun _ => keeps_pure _

end Observed

/-! ## Walking -/

/-- The transcript lists the table, and the services from one on have no characteristics yet.
While their characteristics are looked for, the one before is looked at. -/
structure Catalogued (phase : Procedure) (n : Nat) (s : BridgeState) : Prop where
  bare : ∀ service ∈ s.table.items.drop n, service.characteristics.items = []
  first : phase = .allServices → n = 0
  next : phase = .allCharacteristics → s.discovering + 1 = n
  listed : s.listed = catalogue s.table.items

/-- And no other walk than this one is outstanding. -/
def Walking (phase : Procedure) (n : Nat) (s : BridgeState) : Prop :=
  Catalogued phase n s ∧ (s.pending = none ∨ s.pending = some phase)

/-- Only the table, the service it is at and the findings matter. -/
theorem Catalogued.congr {phase : Procedure} {n : Nat} (h : Catalogued phase n s)
    (htable : s'.table = s.table) (hdiscovering : s'.discovering = s.discovering)
    (hfindings : s'.findings = s.findings) : Catalogued phase n s' := by
  refine ⟨htable ▸ h.bare, h.first, hdiscovering ▸ h.next, ?_⟩
  rw [BridgeState.listed, hfindings, htable]
  exact h.listed

/-- One more service is listed, as long as services are looked for. -/
theorem Walking.service {phase : Procedure} {n : Nat} (h : Walking phase n s)
    {service : FoundService} (hroom : s.table.items.length < bleMaxDiscoveredServices)
    (hpending : s.pending = some .allServices) (hservice : service.characteristics.items = [])
    (htable : s'.table = push s.table service hroom) (hsame : s'.pending = s.pending)
    (hfindings : s'.findings = .service service.uuid :: s.findings) : Walking phase n s' := by
  obtain ⟨hcatalogued, hwalk⟩ := h
  obtain rfl : phase = .allServices := by
    rw [hpending] at hwalk
    exact (Option.some.inj (hwalk.resolve_left (Option.some_ne_none _))).symm
  obtain rfl := hcatalogued.first rfl
  have hbare := hcatalogued.bare
  rw [List.drop_zero] at hbare
  refine ⟨⟨?_, fun _ => rfl, fun h => Procedure.noConfusion h, ?_⟩, hsame ▸ hwalk⟩
  · intro x hx
    rw [htable, List.drop_zero] at hx
    rcases List.mem_append.mp hx with hx | hx
    · exact hbare x hx
    · exact List.mem_singleton.mp hx ▸ hservice
  · rw [listed_cons Finding.noConfusion hfindings, htable, hcatalogued.listed]
    exact (catalogue_push hbare hservice).symm

/-- One more characteristic is listed, as long as those of this service are looked for. -/
theorem Walking.characteristic {phase : Procedure} {n : Nat} (h : Walking phase n s)
    {service : FoundService} {c : FoundCharacteristic}
    (hroom : service.characteristics.items.length < bleMaxCharsPerService)
    (hpending : s.pending = some .allCharacteristics)
    (hservice : s.table.items[s.discovering]? = some service)
    (htable : s'.table = setService s.table s.discovering (service.add c hroom))
    (hdiscovering : s'.discovering = s.discovering) (hsame : s'.pending = s.pending)
    (hfindings : s'.findings = .characteristic service.uuid c.info :: s.findings) :
    Walking phase n s' := by
  obtain ⟨hcatalogued, hwalk⟩ := h
  obtain rfl : phase = .allCharacteristics := by
    rw [hpending] at hwalk
    exact (Option.some.inj (hwalk.resolve_left (Option.some_ne_none _))).symm
  obtain rfl := hcatalogued.next rfl
  refine ⟨⟨?_, fun h => Procedure.noConfusion h, fun _ => by rw [hdiscovering], ?_⟩,
    hsame ▸ hwalk⟩
  · intro x hx
    refine hcatalogued.bare x ?_
    rw [htable] at hx
    simpa only [setService, List.drop_set_of_lt (Nat.lt_succ_self s.discovering)] using hx
  · rw [listed_cons Finding.noConfusion hfindings, htable, hcatalogued.listed]
    exact (catalogue_add hservice hroom hcatalogued.bare).symm

/-- The catalogue grows with every finding of its walk. -/
theorem observed_walking (phase : Procedure) (n : Nat) : Observed (Walking phase n) where
  same := by
    intro s s' hs hhard
    obtain ⟨htable, hdiscovering, hpending, hfindings⟩ := by
      simpa only [BridgeState.hard, Prod.mk.injEq] using hhard
    exact ⟨hs.1.congr htable hdiscovering hfindings, hpending ▸ hs.2⟩
  done hs := ⟨hs.1.congr rfl rfl rfl, .inl rfl⟩
  found hfound hs := by
    cases hfound with
    | service service hroom hpending hservice =>
      exact hs.service hroom hpending hservice rfl rfl rfl
    | characteristic c hroom hpending hservice =>
      exact hs.characteristic hroom hpending hservice rfl rfl rfl rfl

/-- A walk that comes to its end leaves the transcript listing the table. -/
theorem triple_walk_catalogued (phase : Procedure) (n : Nat) (ofWhat during : String) :
    Triple (Catalogued phase n) (walk phase ofWhat during) fun failed s =>
      failed = none → Catalogued phase n s := by
  have hsome {o : BridgeOutcome} {pre : BridgeState → Prop} :
      Triple pre (pure (some o) : Act (Option BridgeOutcome)) fun failed s =>
        failed = none → Catalogued phase n s :=
    triple_pure fun _ _ h => absurd h (Option.some_ne_none _)
  have hcall : Keeps (Catalogued phase n) (gattCall (.discover phase)) :=
    keeps_get.bind fun _ => Keeps.bind (fun _ s hs => hs.congr rfl rfl rfl) fun _ =>
      keeps_ite (fun _ _ s hs => hs.congr rfl rfl rfl) fun _ => keeps_pure _
  have hrequest : Triple (Catalogued phase n) (request (.discover phase) phase) fun err s =>
      err = 0 → Walking phase n s := by
    refine Triple.bind hcall fun err => ?_
    refine Triple.bind (q := fun _ s => err = 0 → Walking phase n s) ?_ fun _ =>
      triple_pure fun _ hs => hs
    refine triple_ite (fun herr => ?_) fun herr => triple_pure fun _ _ h => absurd h herr
    exact triple_modify fun s hs _ => ⟨hs.congr rfl rfl rfl, .inr rfl⟩
  have hobserved := observed_walking phase n
  have hclear : Keeps (Catalogued phase n) (clear .gatt) :=
    keeps_modify fun s hs => hs.congr rfl rfl rfl
  refine Triple.bind hclear fun _ => hrequest.bind fun err => ?_
  refine triple_ite (fun _ => hsome) fun herr => ?_
  have hwalking {α : Type} {m : Act α} {post : α → BridgeState → Prop}
      (hm : Triple (Walking phase n) m post) :
      Triple (fun s => err = 0 → Walking phase n s) m post :=
    hm.weaken fun s hs => hs (Classical.not_not.mp herr)
  refine hwalking (Triple.bind (hobserved.wait _ _) fun taken => triple_get fun s => ?_)
  refine triple_ite (fun _ => ?_) fun _ => triple_ite (fun _ => ?_) fun _ => ?_
  · exact triple_any.bind fun _ => hsome
  · exact triple_any.bind fun _ => hsome
  · exact triple_pure fun _ hs _ => hs.2.1

/-- No walk is outstanding, and the transcript lists the table. -/
def Surveyed (s : BridgeState) : Prop := s.pending = none ∧ s.listed = catalogue s.table.items

/-- A table that was surveyed stays so until the next walk. -/
theorem observed_surveyed : Observed Surveyed where
  same := by
    intro s s' hs hhard
    obtain ⟨htable, -, hpending, hfindings⟩ := by
      simpa only [BridgeState.hard, Prod.mk.injEq] using hhard
    refine ⟨hpending.trans hs.1, ?_⟩
    rw [BridgeState.listed, hfindings, htable]
    exact hs.2
  done hs := ⟨rfl, hs.2⟩
  found hfound hs := absurd hs.1 hfound.pending

/-- Service by service the characteristics are listed, and at the end the table is surveyed. -/
theorem triple_walkServices_surveyed : ∀ left i,
    Triple (fun s => s.pending = none ∧ (∀ service ∈ s.table.items.drop i,
      service.characteristics.items = []) ∧ s.listed = catalogue s.table.items)
      (walkServices left i) fun failed s => failed = none → Surveyed s
  | 0, _ => triple_pure fun _ hs _ => ⟨hs.1, hs.2.2⟩
  | left + 1, i => by
    refine Triple.bind (q := fun _ => Catalogued .allCharacteristics (i + 1)) ?_ fun _ => ?_
    · refine triple_modify fun s hs => ⟨fun x hx => ?_, fun h => Procedure.noConfusion h,
        fun _ => rfl, hs.2.2⟩
      have htail : s.table.items.drop (i + 1) = (s.table.items.drop i).tail := by
        rw [List.tail_drop]
      exact hs.2.1 x (List.mem_of_mem_tail (htail ▸ hx))
    refine Triple.bind ((triple_and (triple_walk_catalogued _ _ _ _)
      (triple_walk_pending _ _ _)).weaken fun s hs => ⟨hs, trivial⟩) fun failed => ?_
    cases failed with
    | some outcome => exact triple_pure fun _ _ h => absurd h (Option.some_ne_none _)
    | none =>
      refine (triple_walkServices_surveyed left (i + 1)).weaken fun s hs => ?_
      exact ⟨hs.2 rfl, (hs.1 rfl).bare, (hs.1 rfl).listed⟩

/-- A discovery that passes leaves the transcript listing the table. -/
theorem triple_runGattDiscovery_surveyed :
    Triple (fun _ => True) runGattDiscovery fun o s => o.kind = .pass → Surveyed s := by
  have hbegun : Triple (fun _ => True)
      (transcriptEmit bleGattDirLocal bleGattEvtDiscoveryStarted none none 0 [])
      fun _ s => s.listed = [] := fun _ _ _ => rfl
  refine hbegun.bind fun _ => ?_
  refine Triple.bind (q := fun _ => Catalogued .allServices 0) ?_ fun _ => ?_
  · exact triple_modify fun s hs => ⟨fun _ h => absurd h List.not_mem_nil, fun _ => rfl,
      fun h => Procedure.noConfusion h, hs⟩
  refine Triple.bind (q := fun _ => Catalogued .allServices 0)
    (triple_modify fun s hs => hs.congr rfl rfl rfl) fun _ => ?_
  refine Triple.bind ((triple_and (triple_and (triple_walk_catalogued _ _ _ _)
    (triple_walk_pending _ _ _)) (triple_walk_failed _ _ _)).weaken
      fun s hs => ⟨⟨hs, trivial⟩, trivial⟩) fun failed => ?_
  cases failed with
  | some outcome => exact triple_pure fun s hs hpass => absurd hpass (hs.2 _ rfl).1
  | none =>
    refine Triple.bind (q := fun _ s => s.pending = none ∧ (∀ service ∈ s.table.items.drop 0,
      service.characteristics.items = []) ∧ s.listed = catalogue s.table.items)
      (fun _ s hs => ⟨hs.1.2 rfl, (hs.1.1 rfl).bare, (hs.1.1 rfl).listed⟩) fun s => ?_
    refine Triple.bind ((triple_and (triple_walkServices_surveyed _ _)
      (triple_walkServices _ _)).weaken fun s hs => ⟨hs, hs.1⟩) fun failed => ?_
    cases failed with
    | some outcome => exact triple_pure fun s hs hpass => absurd hpass (hs.2.1 _ rfl).1
    | none => exact fun host s hs _ => hs.1 rfl

/-! ## What is reported -/

/-- The services reported, if any, are those the transcript lists. -/
def Reported (o : BridgeOutcome) (s : BridgeState) : Prop :=
  ∀ services ∈ o.gattServices, s.listed = listing services

/-- An outcome with services reports the table that was surveyed. -/
theorem triple_withServices (outcome : BridgeOutcome) :
    Triple Surveyed (withServices outcome) Reported := by
  intro host s hs services hservices
  obtain rfl := Option.some.inj hservices
  exact hs.2.trans (listing_services s).symm

/-- No services are reported, and behind a pass the transcript lists the table. -/
def Unreported (o : BridgeOutcome) (s : BridgeState) : Prop :=
  o.gattServices = none ∧ (o.kind = .pass → Surveyed s)

/-- An outcome without services reports nothing. -/
theorem Unreported.reported {o : BridgeOutcome} (h : Unreported o s) : Reported o s := by
  intro services hservices
  rw [h.1] at hservices
  cases hservices

/-- What comes behind a pass finds the table listed. -/
theorem triple_behind_pass {α : Type} {m : Act α} {post : α → BridgeState → Prop}
    {o : BridgeOutcome} (hpass : ¬ o.kind ≠ .pass) (hm : Triple Surveyed m post) :
    Triple (Unreported o) m post := hm.weaken fun _ hs => hs.2 (Classical.not_not.mp hpass)

/-- So does a failure. -/
theorem triple_unreported_fail {pre : BridgeState → Prop} (reason : String) :
    Triple pre (pure (outcomeFail reason) : Act BridgeOutcome) Unreported :=
  triple_pure fun _ _ => ⟨rfl, fun hpass => by cases hpass⟩

/-- A discovery has no services of its own to report. -/
theorem triple_runGattDiscovery_unreported :
    Triple (fun _ => True) runGattDiscovery Unreported :=
  (triple_and triple_runGattDiscovery triple_runGattDiscovery_surveyed).conseq
    (fun _ hs => ⟨hs, hs⟩) fun _ _ hs => ⟨hs.1.1, hs.2⟩

namespace Observed

variable {inv : BridgeState → Prop} (h : Observed inv)
include h

/-- A subscription is no finding. -/
theorem subscribeSlot (slot : Nat) (label : Label) (handle value : UInt16) :
    Keeps inv (subscribeSlot slot label handle value) := by
  refine (h.gattCall _).bind fun _ => Keeps.bind (keeps_when fun _ => ?_) fun _ => keeps_pure _
  exact h.step fun _ _ => rfl

/-- Nor is a CCC write. -/
theorem subscribeCharacteristic (place : Nat × Nat) (service : FoundService)
    (c : FoundCharacteristic) (another : Bool) :
    Keeps inv (subscribeCharacteristic place service c another) := by
  have hrefused (reason : String) : Keeps inv (Bridge.transcriptEmit bleGattDirLocal
      bleGattEvtError (some service.uuid) (some c.info.uuid) 0 (ascii reason)) :=
    h.transcriptEmit (by decide) _ _ _ _ _
  refine keeps_get.bind fun s => keeps_ite (fun _ => hrefused _) fun _ => ?_
  refine Keeps.bind (h.note rfl) fun _ => Keeps.bind (h.step fun _ _ => rfl) fun _ => ?_
  refine (h.subscribeSlot _ _ _ _).bind fun err => keeps_ite (fun _ => hrefused _) fun _ => ?_
  refine (h.waitIf _ _ _).bind fun taken => keeps_ite (fun _ => ?_) fun _ => ?_
  · refine Keeps.bind (keeps_get.bind fun _ => keeps_when fun _ => ?_) fun _ => hrefused _
    exact h.step fun _ _ => rfl
  · exact (h.transcriptEmit (by decide) _ _ _ _ _).bind fun _ => h.modify fun _ => rfl

/-- Nor are all of them. -/
theorem visitAll (targets : List GattTarget) : ∀ (places : List (Nat × Nat)) checks,
    Keeps inv (visitAll targets checks places)
  | [], _ => keeps_pure _
  | place :: places, checks => by
    refine keeps_get.bind fun s => Keeps.bind (keeps_get.bind fun s => ?_) fun checks =>
      visitAll targets places checks
    split
    · exact keeps_pure _
    · split
      · exact keeps_pure _
      · exact Keeps.bind (keeps_when fun _ => h.subscribeCharacteristic _ _ _ _) fun _ =>
          keeps_pure _

/-- Nor is their end. -/
theorem monitorUnsubscribeAll : Keeps inv monitorUnsubscribeAll := by
  refine keeps_get.bind fun s => Keeps.bind (keeps_each fun slot _ => ?_) fun _ =>
    h.modify fun _ => rfl
  refine keeps_get.bind fun s => Keeps.bind ?_ fun _ => h.transcriptEmit (by decide) _ _ _ _ _
  exact (h.gattCall _).bind fun _ => h.step fun _ _ => rfl

end Observed

/-- Behind a subscription that passes the transcript still lists the table. -/
theorem triple_monitorSubscribeMatching_unreported (targets : Targets) :
    Triple (fun _ => True) (monitorSubscribeMatching targets) Unreported := by
  have hobserved := observed_surveyed
  refine triple_get fun s => triple_ite (fun _ => triple_unreported_fail _) fun _ => ?_
  refine Triple.bind (triple_runGattDiscovery_unreported.weaken fun _ _ => trivial)
    fun discovered => triple_ite (fun _ => triple_pure fun _ hs => hs) fun hpass => ?_
  refine triple_behind_pass hpass ?_
  refine Triple.bind (q := fun _ => Surveyed) keeps_get fun s => ?_
  refine Triple.bind (hobserved.note rfl) fun _ => ?_
  refine Triple.bind (hobserved.modify fun _ => rfl) fun _ => ?_
  refine Triple.bind (hobserved.visitAll _ _ _) fun checks => ?_
  split
  · exact triple_any.bind fun _ => triple_any.bind fun _ => triple_unreported_fail _
  · exact fun host s hs => ⟨rfl, fun _ => hs⟩

/-- The result of a monitor reports what was surveyed. -/
theorem triple_monitorResult_reported : Triple Surveyed monitorResult Reported :=
  Triple.bind (q := fun _ => Surveyed) (fun _ _ hs => hs) fun result => triple_withServices result

/-- So does a discovery. -/
theorem triple_executeGattDiscover_reported :
    Triple (fun _ => True) executeGattDiscover Reported := by
  refine triple_get fun s => triple_ite (fun _ => ?_) fun _ => ?_
  · exact (triple_unreported_fail _).strengthen fun _ _ => Unreported.reported
  refine Triple.bind (triple_runGattDiscovery_unreported.weaken fun _ _ => trivial) fun result => ?_
  refine triple_ite (fun _ => triple_pure fun _ hs => hs.reported) fun hpass => ?_
  exact triple_behind_pass hpass (triple_withServices result)

/-- So does a window, for which one was made. -/
theorem triple_executeGattMonitorWindow_reported (targets : Targets) :
    Triple (fun _ => True) (executeGattMonitorWindow targets) Reported := by
  have hobserved := observed_surveyed
  refine (triple_monitorSubscribeMatching_unreported targets).bind fun subscribed => ?_
  refine triple_ite (fun _ => triple_pure fun _ hs => hs.reported) fun hpass => ?_
  refine triple_behind_pass hpass ?_
  refine Triple.bind (hobserved.modify fun _ => rfl) fun _ => ?_
  refine Triple.bind (hobserved.clear .disconn) fun _ => ?_
  refine Triple.bind (q := fun _ => Surveyed) keeps_get fun s => ?_
  refine Triple.bind (hobserved.wait _ _) fun dropped => ?_
  refine Triple.bind hobserved.monitorUnsubscribeAll fun _ => triple_ite (fun _ => ?_) fun _ => ?_
  · intro host s _ services hservices
    cases hservices
  · exact triple_monitorResult_reported

/-- And one that is left open. -/
theorem triple_executeGattMonitorWindowStart_reported (targets : Targets) :
    Triple (fun _ => True) (executeGattMonitorWindowStart targets) Reported := by
  have hobserved := observed_surveyed
  refine triple_any.bind fun s => triple_any.bind fun _ => ?_
  refine (triple_monitorSubscribeMatching_unreported targets).bind fun subscribed => ?_
  refine triple_ite (fun _ => ?_) fun hpass => ?_
  · refine Triple.bind (q := fun _ _ => subscribed.gattServices = none)
      (triple_modify fun _ hs => hs.1) fun _ => triple_pure fun _ hs services hservices => ?_
    rw [hs] at hservices
    cases hservices
  · refine triple_behind_pass hpass ?_
    exact Triple.bind (hobserved.modify fun _ => rfl) fun _ => triple_monitorResult_reported

/-! ## The steps -/

/-- The action walks over the peer's services. -/
def Walks : BridgeAction → Prop
  | .gattDiscover | .gattMonitorAll | .gattMonitorStart | .monitorSelected _
  | .monitorSelectedStart _ => True
  | _ => False

/-- So does every action that walks over the peer's services. -/
theorem triple_dispatchAction_reported {action : BridgeAction} (hwalks : Walks action)
    (deadline rounds : Nat) : Triple (fun _ => True) (dispatchAction action deadline rounds)
      fun o s => ∀ outcome ∈ o, Reported outcome s := by
  have hsome {m : Act BridgeOutcome} (hm : Triple (fun _ => True) m Reported) :
      Triple (fun _ => True) (some <$> m) fun o s => ∀ outcome ∈ o, Reported outcome s := by
    refine hm.bind fun result => triple_pure fun s hs outcome houtcome => ?_
    obtain rfl := Option.some.inj houtcome
    exact hs
  cases action with
  | gattDiscover => exact hsome triple_executeGattDiscover_reported
  | gattMonitorAll => exact hsome (triple_executeGattMonitorWindow_reported _)
  | gattMonitorStart => exact hsome (triple_executeGattMonitorWindowStart_reported _)
  | monitorSelected targets => exact hsome (triple_executeGattMonitorWindow_reported _)
  | monitorSelectedStart targets => exact hsome (triple_executeGattMonitorWindowStart_reported _)
  | _ => exact hwalks.elim

/-- The level is no service. -/
theorem triple_stampLevel_reported (outcome : BridgeOutcome) :
    Triple (Reported outcome) (stampLevel outcome) Reported := by
  refine triple_get fun s => triple_ite (fun _ => ?_) fun _ => triple_pure fun _ hs => hs.2
  exact Triple.bind (q := fun _ => Reported outcome) (fun _ s hs => hs.2) fun level =>
    triple_pure fun _ hs => hs

/-- **The report is the transcript.** Whatever the host does and whatever was done before, the
services and characteristics a step with a walk reports are exactly those its transcript has
listed since the walk was begun, in the same order. -/
theorem survey_transcribed {action : BridgeAction} (hwalks : Walks action) (timeoutMs : UInt32)
    (rounds : Nat) (host : Host) (s : BridgeState) :
    ∀ outcome ∈ (bleBridgeExecute action timeoutMs rounds host s).1,
      ∀ services ∈ outcome.gattServices,
        (bleBridgeExecute action timeoutMs rounds host s).2.listed = listing services := by
  have hexecute : Triple (fun _ => True) (bleBridgeExecute action timeoutMs rounds)
      fun o s => ∀ outcome ∈ o, Reported outcome s := by
    refine triple_any.bind fun now => triple_any.bind fun _ => ?_
    refine triple_any.bind fun _ => triple_any.bind fun _ => ?_
    refine (triple_dispatchAction_reported hwalks _ rounds).bind fun o => ?_
    cases o with
    | none => exact triple_pure fun _ _ _ h => absurd h (Option.not_mem_none _)
    | some outcome =>
      refine Triple.bind ((triple_stampLevel_reported outcome).weaken fun s hs => hs outcome rfl)
        fun stamped => triple_pure fun s hs outcome houtcome => ?_
      obtain rfl := Option.some.inj houtcome
      exact hs
  exact hexecute host s trivial

/-- A peer that is connected to, with a service and a characteristic of it. -/
def surveyedPeer : BridgeState := { BridgeState.initial with link.activeConn := some samplePeer }

/-- A peer with a service and a characteristic, and its transcript. -/
theorem survey_transcribed_peer : ∃ services : List ServiceInfo, services ≠ [] ∧
    (bleBridgeExecute .gattDiscover 1000 0
      (.scripted [(1, sampleService), (3, sampleCharacteristic)]) surveyedPeer).2.listed =
        listing services := by
  have hrun : ((bleBridgeExecute .gattDiscover 1000 0
      (.scripted [(1, sampleService), (3, sampleCharacteristic)]) surveyedPeer).1.bind
        (·.gattServices)).map List.length = some 1 := by decide +kernel
  obtain ⟨services, hservices, hlength⟩ := Option.map_eq_some_iff.mp hrun
  obtain ⟨outcome, houtcome, hreported⟩ := Option.bind_eq_some_iff.mp hservices
  refine ⟨services, fun hnil => ?_,
    survey_transcribed (show Walks .gattDiscover from trivial) 1000 0 _ surveyedPeer outcome
      houtcome services hreported⟩
  rw [hnil] at hlength
  cases hlength

end DevBench.Bridge
