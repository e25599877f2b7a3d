import DevBench.Bridge.Events

/-!
# The table of a discovery

What a flattened index names, and how long the table stays as it is: the host writes it only
while a walk over services or characteristics is outstanding, and a discovery that passes
leaves none outstanding.
-/

namespace DevBench.Bridge

open DevBench.Core DevBench.Core.Program DevBench.Eap DevBench.Bench DevBench.Wire

/-! ## Flattened indices -/

/-- The characteristics of services with their services, flattened. -/
def flatten (services : List FoundService) : List Label :=
  services.flatMap fun service =>
    service.characteristics.items.map fun c => (service.uuid, c.info.uuid)

/-- The characteristics of the first service come first. -/
theorem flatten_cons (service : FoundService) (services : List FoundService) :
    flatten (service :: services) =
      (service.characteristics.items.map fun c => (service.uuid, c.info.uuid)) ++
        flatten services := List.flatMap_cons

/-- A service has sixteen at most. -/
theorem length_flatten_le (services : List FoundService) :
    (flatten services).length ≤ bleMaxCharsPerService * services.length := by
  induction services with
  | nil => exact Nat.le_refl 0
  | cons service services ih =>
    rw [flatten_cons, List.length_append, List.length_map, List.length_cons, Nat.mul_succ,
      Nat.add_comm]
    exact Nat.add_le_add ih service.characteristics.fits

/-- The loop finds the label at the index, counted from where it is. -/
theorem uuidsForFlatIndexFrom_eq (flat : Nat) (services : List FoundService) (seen : Nat)
    (hseen : seen ≤ flat) :
    uuidsForFlatIndexFrom flat services seen = (flatten services)[flat - seen]? := by
  induction services generalizing seen with
  | nil => rfl
  | cons service services ih =>
    rw [uuidsForFlatIndexFrom, flatten_cons]
    split
    · next hlt =>
      rw [List.getElem?_append_left (by rw [List.length_map]; omega), List.getElem?_map]
    · next hge =>
      rw [ih _ (by omega), List.getElem?_append_right (by rw [List.length_map]; omega),
        List.length_map, Nat.sub_add_eq]

/-- A flattened index names what stands there in the flattened table. -/
theorem uuidsForFlatIndex_eq (table : Table) (flat : UInt16) :
    uuidsForFlatIndex table flat = (flatten table.items)[flat.toNat]? := by
  rw [uuidsForFlatIndex, uuidsForFlatIndexFrom_eq _ _ _ (Nat.zero_le _), Nat.sub_zero]

/-- What stands at a place stands behind everything of the services before it. -/
theorem flatten_place {services : List FoundService} {i j : Nat} {service : FoundService}
    {c : FoundCharacteristic} (hservice : services[i]? = some service)
    (hc : service.characteristics.items[j]? = some c) :
    (flatten services)[((services.take i).map fun service =>
      service.characteristics.items.length).sum + j]? = some (service.uuid, c.info.uuid) := by
  induction services generalizing i with
  | nil => exact absurd hservice (by simp)
  | cons first services ih =>
    rw [flatten_cons]
    cases i with
    | zero =>
      obtain rfl : first = service := Option.some.inj hservice
      have hj : j < first.characteristics.items.length := (List.getElem?_eq_some_iff.mp hc).1
      rw [List.take_zero, List.map_nil, List.sum_nil, Nat.zero_add,
        List.getElem?_append_left (by rwa [List.length_map]), List.getElem?_map, hc]
      rfl
    | succ i =>
      rw [List.take_succ_cons, List.map_cons, List.sum_cons,
        List.getElem?_append_right (by rw [List.length_map]; omega), List.length_map, Nat.add_assoc,
        Nat.add_sub_cancel_left]
      exact ih hservice

/-- The index of a place that exists fits its sixteen bits. -/
theorem toNat_flatCharacteristicIndex {table : Table} {i j : Nat} {label : Label}
    (h : (flatten table.items)[((table.items.take i).map fun service =>
      service.characteristics.items.length).sum + j]? = some label) :
    (flatCharacteristicIndex table i j).toNat = ((table.items.take i).map fun service =>
      service.characteristics.items.length).sum + j := by
  have hlt := (List.getElem?_eq_some_iff.mp h).1
  have hle := length_flatten_le table.items
  have hfits : table.items.length ≤ 8 := table.fits
  rw [flatCharacteristicIndex, UInt16.toNat_ofNat']
  exact Nat.mod_eq_of_lt (by simp only [bleMaxCharsPerService] at hle; omega)

/-- The index of a place names the characteristic that is there. -/
theorem flatten_flatCharacteristicIndex {table : Table} {place : Nat × Nat}
    {service : FoundService} {c : FoundCharacteristic} (h : table.at place = some (service, c)) :
    (flatten table.items)[(flatCharacteristicIndex table place.1 place.2).toNat]? =
      some (service.uuid, c.info.uuid) := by
  obtain ⟨service', hservice, h⟩ := Option.bind_eq_some_iff.mp h
  obtain ⟨c', hc, h⟩ := Option.map_eq_some_iff.mp h
  obtain ⟨rfl, rfl⟩ := Prod.mk.inj h
  have hplace := flatten_place hservice hc
  rw [toNat_flatCharacteristicIndex hplace]
  exact hplace

/-! ## When the table is written -/

/-- `gatt_sem` is given only when the procedure is over or the link is. -/
def Settles (s : BridgeState) : Prop :=
  s.given .gatt = true → s.link.linkLost = true ∨ s.pending = none

/-- Both the end of a procedure and the loss of the link give the semaphore. -/
theorem keptByHost_settles : KeptByHost Settles where
  other := by
    intro s s' hview hs
    simp only [BridgeState.view, Prod.mk.injEq] at hview
    obtain ⟨-, hlost, hpending, -, -, -, ⟨hgiven, -⟩, -⟩ := hview
    rw [Settles, hlost, hpending, hgiven]
    exact hs
  turn hs := hs
  ccc hs := hs
  quiet _ hs := hs
  up _ _ hs := hs
  lost _ _ _ _ := .inl rfl
  done _ _ := .inr rfl
  found _ hs := hs
  arrived _ hs := hs
  delivered _ _ _ hs := hs

/-- The table is this one, and no walk is outstanding. -/
def Frozen (table : Table) (s : BridgeState) : Prop := s.table = table ∧ s.pending = none

/-- With no walk outstanding nothing is found. -/
theorem keptByHost_frozen (table : Table) : KeptByHost (Frozen table) where
  other := by
    intro s s' hview hs
    simp only [BridgeState.view, Prod.mk.injEq] at hview
    obtain ⟨-, -, hpending, htable, -⟩ := hview
    rw [Frozen, htable, hpending]
    exact hs
  turn hs := hs
  ccc hs := hs
  quiet _ hs := hs
  up _ _ hs := hs
  lost {s} conn _ hs := by
    unfold BridgeState.lose BridgeState.drop
    split
    · exact ⟨hs.1, rfl⟩
    · exact hs
  done hs := ⟨hs.1, rfl⟩
  found hfound hs := absurd hs.2 hfound.pending
  arrived _ hs := hs
  delivered _ _ _ hs := hs

/-- A program that leaves both alone. -/
theorem keeps_frozen {α : Type} {m : Act α} {table : Table}
    (hm : ∀ host s, (m host s).2.table = s.table ∧ (m host s).2.pending = s.pending) :
    Keeps (Frozen table) m := fun host s hs =>
  ⟨(hm host s).1.trans hs.1, (hm host s).2.trans hs.2⟩

/-- A call changes no table. -/
theorem keeps_frozen_gattCall {table : Table} (call : GattCall) :
    Keeps (Frozen table) (gattCall call) :=
  keeps_get.bind fun _ => Keeps.bind (keeps_frozen fun _ _ => ⟨rfl, rfl⟩) fun _ =>
    keeps_ite (fun _ => keeps_frozen fun _ _ => ⟨rfl, rfl⟩) fun _ => keeps_pure _

/-- In a wait nothing is found. -/
theorem keeps_frozen_waitIf {table : Table} (p : Prop) [Decidable p] (sem : Sem) (site : Site) :
    Keeps (Frozen table) (waitIf p sem site) :=
  keeps_ite (fun _ => (keptByHost_frozen table).wait (fun _ _ hs => hs) fun _ hs => hs) fun _ =>
    keeps_pure true

/-- A subscription is no walk. -/
theorem keeps_frozen_subscribeSlot {table : Table} (slot : Nat) (label : Label)
    (handle value : UInt16) : Keeps (Frozen table) (subscribeSlot slot label handle value) := by
  refine (keeps_frozen_gattCall _).bind fun _ => Keeps.bind (keeps_when fun _ => ?_) fun _ =>
    keeps_pure _
  exact keeps_frozen fun _ _ => ⟨rfl, rfl⟩

/-- Nor is its end. -/
theorem keeps_frozen_abandonSlot {table : Table} (slot : Nat) :
    Keeps (Frozen table) (abandonSlot slot) :=
  keeps_get.bind fun _ => keeps_when fun _ => keeps_frozen fun _ _ => ⟨rfl, rfl⟩

/-- So the table stands still while a characteristic is subscribed to. -/
theorem keeps_frozen_subscribeCharacteristic {table : Table} (place : Nat × Nat)
    (service : FoundService) (c : FoundCharacteristic) (another : Bool) :
    Keeps (Frozen table) (subscribeCharacteristic place service c another) := by
  have hstep {α : Type} {m : Act α}
      (hm : ∀ host s, (m host s).2.table = s.table ∧ (m host s).2.pending = s.pending) :
      Keeps (Frozen table) m := keeps_frozen hm
  refine keeps_get.bind fun s => keeps_ite (fun _ => hstep fun _ _ => ⟨rfl, rfl⟩) fun _ => ?_
  refine Keeps.bind (hstep fun _ _ => ⟨rfl, rfl⟩) fun _ => ?_
  refine Keeps.bind (hstep fun _ _ => ⟨rfl, rfl⟩) fun _ => ?_
  refine (keeps_frozen_subscribeSlot _ _ _ _).bind fun err => ?_
  refine keeps_ite (fun _ => hstep fun _ _ => ⟨rfl, rfl⟩) fun _ => ?_
  refine (keeps_frozen_waitIf _ _ _).bind fun taken => keeps_ite (fun _ => ?_) fun _ => ?_
  · exact (keeps_frozen_abandonSlot _).bind fun _ => hstep fun _ _ => ⟨rfl, rfl⟩
  · exact Keeps.bind (hstep fun _ _ => ⟨rfl, rfl⟩) fun _ => hstep fun _ _ => ⟨rfl, rfl⟩

/-- No success, and no services are reported. -/
def Failed (o : BridgeOutcome) : Prop := o.kind ≠ .pass ∧ o.gattServices = none

/-- A failure reports no services. -/
theorem Failed.concluded {o : BridgeOutcome} {p : Prop} (h : Failed o) :
    o.gattServices = none ∧ (o.kind = .pass → p) := ⟨h.2, fun hpass => absurd hpass h.1⟩

/-- What a walk that failed is reported as is a failure. -/
theorem triple_walk_failed (procedure : Procedure) (ofWhat during : String) :
    Triple (fun _ => True) (walk procedure ofWhat during) fun failed _ =>
      ∀ o ∈ failed, Failed o := by
  have hfailed {text : String} : ∀ o ∈ some (outcomeFail text), Failed o := by
    rintro _ ⟨⟩
    exact ⟨nofun, rfl⟩
  refine triple_any.bind fun _ => triple_any.bind fun err => triple_ite (fun _ => ?_) fun _ => ?_
  · exact triple_pure fun _ _ => hfailed
  refine triple_any.bind fun taken => triple_any.bind fun s => triple_ite (fun _ => ?_) fun _ => ?_
  · refine triple_any.bind fun _ => triple_pure fun _ _ => ?_
    rintro _ ⟨⟩
    exact ⟨nofun, rfl⟩
  · exact triple_ite (fun _ _ _ _ => hfailed) fun _ => triple_pure fun _ _ => nofun

/-- A walk that came to its end is not outstanding. -/
theorem triple_walk_pending (procedure : Procedure) (ofWhat during : String) :
    Triple (fun _ => True) (walk procedure ofWhat during) fun failed s =>
      failed = none → s.pending = none := by
  have hclear : Triple (fun _ => True) (clear .gatt) fun _ s => s.given .gatt = false :=
    triple_modify fun s _ => by simp [BridgeState.take]
  have hrequest (call : GattCall) :
      Keeps (fun s => s.given .gatt = false) (request call procedure) := by
    refine Keeps.bind ?_ fun _ => Keeps.bind (keeps_when fun _ => ?_) fun _ => keeps_pure _
    · exact keeps_get.bind fun s => Keeps.bind (keeps_modify fun _ hs => hs) fun _ =>
        keeps_ite (fun _ _ _ hs => hs) fun _ => keeps_pure _
    · exact keeps_modify fun _ hs => hs
  have hwait : Triple (fun s => s.given .gatt = false) (wait .gatt .discovery) fun taken s =>
      taken = true → s.link.linkLost = true ∨ s.pending = none := by
    refine (keptByHost_settles.wait (fun s hgiven hs _ => hs hgiven) fun s _ h =>
      nomatch h).weaken ?_
    exact fun s hs hgiven => absurd (hs.symm.trans hgiven) Bool.false_ne_true
  refine hclear.bind fun _ => Triple.bind (hrequest _) fun err => ?_
  refine triple_ite (fun _ => triple_pure fun s _ h => nomatch h) fun _ => ?_
  refine hwait.bind fun taken => triple_get fun s => triple_ite (fun _ => ?_) fun htaken => ?_
  · exact triple_any.bind fun _ => triple_pure fun s _ h => nomatch h
  · refine triple_ite (fun _ => fun host s _ h => nomatch h) fun hup => triple_pure ?_
    rintro _ ⟨rfl, hs⟩ -
    exact (hs (Classical.not_not.mp htaken)).resolve_left hup

/-- Where all walks went well no procedure is outstanding. -/
theorem triple_walkServices : ∀ left i, Triple (fun s => s.pending = none) (walkServices left i)
    fun failed s => (∀ o ∈ failed, Failed o) ∧ (failed = none → s.pending = none)
  | 0, _ => triple_pure fun _ hs => ⟨nofun, fun _ => hs⟩
  | left + 1, i => by
    refine triple_any.bind fun _ => ?_
    refine Triple.bind ((triple_and (triple_walk_failed _ _ _) (triple_walk_pending _ _ _)).weaken
      fun s _ => ⟨trivial, trivial⟩) fun failed => ?_
    cases failed with
    | some outcome => exact triple_pure fun s hs => hs
    | none => exact (triple_walkServices left (i + 1)).weaken fun s hs => hs.2 rfl

/-- A discovery reports no services yet, and one that passes leaves no procedure outstanding. -/
theorem triple_runGattDiscovery : Triple (fun _ => True) runGattDiscovery fun o s =>
    o.gattServices = none ∧ (o.kind = .pass → s.pending = none) := by
  refine triple_any.bind fun _ => triple_any.bind fun _ => triple_any.bind fun _ => ?_
  refine Triple.bind ((triple_and (triple_walk_failed _ _ _) (triple_walk_pending _ _ _)).weaken
      fun s _ => ⟨trivial, trivial⟩) fun failed => ?_
  cases failed with
  | some outcome => exact triple_pure fun s hs => (hs.1 outcome rfl).concluded
  | none =>
    refine Triple.bind (q := fun _ s => s.pending = none) (fun _ _ hs => hs.2 rfl) fun s => ?_
    refine (triple_walkServices _ _).bind fun failed => ?_
    cases failed with
    | some outcome => exact triple_pure fun s hs => (hs.1 outcome rfl).concluded
    | none => exact fun host s hs => ⟨rfl, fun _ => hs.2 rfl⟩

end DevBench.Bridge
