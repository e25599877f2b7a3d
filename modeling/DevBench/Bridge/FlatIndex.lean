import DevBench.Bridge.Tables
import DevBench.Core.Counter
import Mathlib.Algebra.BigOperators.Fin

/-!
# Flattened indices there and back

The characteristics of a discovery, numbered service after service, and the two loops that number
them: one adds up what the services in front have, with a counter of eight bits and a sum of
sixteen, the other takes it off again. They are inverse to each other on the characteristics there
are, whichever services have none.
-/

namespace DevBench.Bridge

open DevBench.Core DevBench.Eap DevBench.Wire

namespace Table

/-! ## Places -/

/-- The characteristics counted in a service. -/
def count (table : Table) (s : Fin table.items.length) : Nat :=
  table.items[s.val].characteristics.items.length

/-- The place of a characteristic: a service, and a characteristic in it. -/
abbrev Place (table : Table) : Type := (s : Fin table.items.length) × Fin (table.count s)

/-- The characteristics there are. -/
def total (table : Table) : Nat := ∑ s, table.count s

/-- The places, service after service. -/
def position (table : Table) : table.Place ≃ Fin table.total := finSigmaFinEquiv

/-- A position stands behind the characteristics of the services in front. -/
theorem position_val (table : Table) (place : table.Place) :
    (table.position place).val = ((table.items.take place.1).map fun service =>
      service.characteristics.items.length).sum + place.2 := by
  have hfront : (table.items.take place.1).map (fun service =>
      service.characteristics.items.length) =
        List.ofFn fun s : Fin place.1.val => table.count (Fin.castLE place.1.isLt.le s) := by
    apply List.ext_getElem
    · simp
    · intro i hi _
      simp [count]
  rw [hfront, List.sum_ofFn]
  exact finSigmaFinEquiv_apply place

theorem length_flatten (table : Table) : (flatten table.items).length = table.total := by
  rw [flatten, List.length_flatMap, total]
  simp only [List.length_map]
  exact (Fin.sum_univ_fun_getElem table.items fun service =>
    service.characteristics.items.length).symm

/-- There is a characteristic at a place. -/
def HasPlace (table : Table) (serviceIdx charIdx : Nat) : Prop :=
  ∃ found, table.at (serviceIdx, charIdx) = some found

theorem hasPlace_iff {table : Table} {serviceIdx charIdx : Nat} :
    table.HasPlace serviceIdx charIdx ↔
      ∃ place : table.Place, place.1 = serviceIdx ∧ place.2 = charIdx := by
  constructor
  · rintro ⟨found, h⟩
    obtain ⟨service, hservice, h⟩ := Option.bind_eq_some_iff.mp h
    obtain ⟨c, hc, -⟩ := Option.map_eq_some_iff.mp h
    obtain ⟨hs, rfl⟩ := List.getElem?_eq_some_iff.mp hservice
    obtain ⟨hlt, -⟩ := List.getElem?_eq_some_iff.mp hc
    exact ⟨⟨⟨serviceIdx, hs⟩, ⟨charIdx, hlt⟩⟩, rfl, rfl⟩
  · rintro ⟨⟨s, c⟩, rfl, rfl⟩
    refine ⟨(table.items[s.val], table.items[s.val].characteristics.items[c.val]), ?_⟩
    rw [Table.at, List.getElem?_eq_getElem s.isLt, Option.bind_some,
      List.getElem?_eq_getElem c.isLt]
    rfl

/-- The number of a characteristic is its position. -/
theorem toNat_flatCharacteristicIndex_place {table : Table} (place : table.Place) :
    (flatCharacteristicIndex table place.1 place.2).toNat = (table.position place).val := by
  have hlabel := flatten_place (List.getElem?_eq_getElem place.1.isLt)
    (List.getElem?_eq_getElem place.2.isLt)
  rw [position_val]
  exact toNat_flatCharacteristicIndex hlabel

/-! ## The loops -/

/-- `discovered_len`. -/
def len (table : Table) : UInt8 := .ofNat table.items.length

/-- `discovered[s].characteristics_len`. -/
def characteristicsLen (table : Table) (s : UInt8) : UInt8 :=
  .ofNat ((table.items[s.toNat]?.map fun service => service.characteristics.items.length).getD 0)

/-- The UUIDs of `discovered[s]` and of a characteristic in it. -/
def uuids (table : Table) (s : UInt8) (c : Nat) : Option Label :=
  (table.at (s.toNat, c)).map fun (service, c) => (service.uuid, c.info.uuid)

/-- The loop of `uuids_for_flat_index`, left with the UUIDs. The comparison and the difference
are made in the width of `int`, and no sum taken off is larger than `flat`. -/
def uuidsLoop (table : Table) (flat : UInt16) (fuel : Nat) :
    Option (Except (Option Label) UInt16) :=
  countUp (fun s seen =>
    if flat.toNat < seen.toNat + (table.characteristicsLen s).toNat then
      .error (table.uuids s (flat.toNat - seen.toNat))
    else .ok (seen + (table.characteristicsLen s).toUInt16)) table.len fuel 0 0

/-- What `uuids_for_flat_index` returns, with its outputs: they are null before the loop. -/
def uuidsResult : Except (Option Label) UInt16 → Bool × Option Uuid × Option Uuid
  | .error label => (true, label.map Prod.fst, label.map Prod.snd)
  | .ok _ => (false, none, none)

/-- `uuids_for_flat_index`, with the counters it has. -/
def uuidsForFlatIndexCounted (table : Table) (flat : UInt16) (fuel : Nat) :
    Option (Bool × Option Uuid × Option Uuid) :=
  (table.uuidsLoop flat fuel).map uuidsResult

/-- The loop of `flat_characteristic_index`. -/
def flatLoop (table : Table) (serviceIdx : UInt8) (fuel : Nat) : Option (Except Empty UInt16) :=
  countUp (fun s flat => .ok (flat + (table.characteristicsLen s).toUInt16)) serviceIdx fuel 0 0

/-- `flat_characteristic_index`, with the counters it has. -/
def flatCharacteristicIndexCounted (table : Table) (serviceIdx charIdx : UInt8) (fuel : Nat) :
    Option UInt16 :=
  (table.flatLoop serviceIdx fuel).map fun
    | .ok flat => flat + charIdx.toUInt16

@[simp] theorem toNat_len (table : Table) : table.len.toNat = table.items.length := by
  have hfits : table.items.length ≤ 8 := table.fits
  exact UInt8.toNat_ofNat_of_lt' (show table.items.length < 256 by omega)

theorem characteristicsLen_eq {table : Table} {s : UInt8} (h : s.toNat < table.items.length) :
    table.characteristicsLen s = .ofNat table.items[s.toNat].characteristics.items.length := by
  rw [characteristicsLen, List.getElem?_eq_getElem h]
  rfl

theorem uuids_eq {table : Table} {s : UInt8} (h : s.toNat < table.items.length) (c : Nat) :
    table.uuids s c = table.items[s.toNat].characteristics.items[c]?.map
      fun c => (table.items[s.toNat].uuid, c.info.uuid) := by
  rw [uuids, Table.at, List.getElem?_eq_getElem h, Option.bind_some, Option.map_map]
  rfl

end Table

/-- The characteristics of a service, as eight bits have their number. -/
theorem toNat_ofNat_characteristics (service : FoundService) :
    (UInt8.ofNat service.characteristics.items.length).toNat =
      service.characteristics.items.length := by
  have hfits : service.characteristics.items.length ≤ 16 := service.characteristics.fits
  exact UInt8.toNat_ofNat_of_lt' (show _ < 256 by omega)

/-- What a service adds to a sum of sixteen bits with room for it. -/
theorem toNat_add_characteristics (service : FoundService) {seen : UInt16}
    (h : seen.toNat + 16 < 2 ^ 16) :
    (seen + (UInt8.ofNat service.characteristics.items.length).toUInt16).toNat =
      seen.toNat + service.characteristics.items.length := by
  have hfits : service.characteristics.items.length ≤ 16 := service.characteristics.fits
  rw [UInt16.toNat_add, UInt8.toNat_toUInt16, toNat_ofNat_characteristics]
  exact Nat.mod_eq_of_lt (by omega)

/-- One round of the loop of `uuids_for_flat_index`. -/
def uuidsStep (flat : UInt16) (service : FoundService) (seen : UInt16) :
    Except (Option Label) UInt16 :=
  if flat.toNat < seen.toNat + service.characteristics.items.length then
    .error (service.characteristics.items[flat.toNat - seen.toNat]?.map fun c =>
      (service.uuid, c.info.uuid))
  else .ok (seen + (UInt8.ofNat service.characteristics.items.length).toUInt16)

/-- The rounds over services are the search through what is left of the table. -/
theorem foldlM_uuidsStep (flat : UInt16) (services : List FoundService) :
    ∀ (k : Nat) (seen : UInt16), seen.toNat + 16 * services.length < 2 ^ 16 → seen ≤ flat →
      Table.uuidsResult ((services.zipIdx k).foldlM (fun seen x => uuidsStep flat x.1 seen) seen) =
        ((uuidsForFlatIndexFrom flat.toNat services seen.toNat).isSome,
          (uuidsForFlatIndexFrom flat.toNat services seen.toNat).map Prod.fst,
          (uuidsForFlatIndexFrom flat.toNat services seen.toNat).map Prod.snd) := by
  induction services with
  | nil =>
    intro k seen _ _
    rfl
  | cons service services ih =>
    intro k seen hroom hle
    rw [List.length_cons] at hroom
    have hseen : seen.toNat ≤ flat.toNat := UInt16.le_iff_toNat_le.mp hle
    rw [List.zipIdx_cons, List.foldlM_cons, uuidsForFlatIndexFrom, uuidsStep]
    by_cases h : flat.toNat < seen.toNat + service.characteristics.items.length
    · -- The place is inside the service, so its UUIDs are there.
      have hlt : flat.toNat - seen.toNat < service.characteristics.items.length := by omega
      rw [if_pos h, if_pos h, List.getElem?_eq_getElem hlt]
      rfl
    · have hfits : service.characteristics.items.length ≤ 16 := service.characteristics.fits
      have hnext := toNat_add_characteristics service
        (show seen.toNat + 16 < 2 ^ 16 by omega)
      rw [if_neg h, if_neg h, ← hnext]
      dsimp only
      apply ih
      · omega
      · rw [UInt16.le_iff_toNat_le]
        omega

/-- The sum over services, in sixteen bits. -/
theorem toNat_foldl_add (services : List FoundService) :
    ∀ flat : UInt16, flat.toNat + 16 * services.length < 2 ^ 16 →
      (services.foldl (fun flat service =>
        flat + (UInt8.ofNat service.characteristics.items.length).toUInt16) flat).toNat =
        flat.toNat + (services.map fun service => service.characteristics.items.length).sum := by
  induction services with
  | nil =>
    intro flat _
    rfl
  | cons service services ih =>
    intro flat hroom
    rw [List.length_cons] at hroom
    have hfits : service.characteristics.items.length ≤ 16 := service.characteristics.fits
    have hnext := toNat_add_characteristics service
      (show flat.toNat + 16 < 2 ^ 16 by omega)
    rw [List.foldl_cons, ih _ (by omega), hnext, List.map_cons, List.sum_cons, Nat.add_assoc]

namespace Table

/-- The loop of `uuids_for_flat_index` ends, and finds what is found of the table. -/
theorem uuidsForFlatIndexCounted_eq (table : Table) (flat : UInt16) {fuel : Nat}
    (hfuel : bleMaxDiscoveredServices < fuel) :
    table.uuidsForFlatIndexCounted flat fuel = some ((uuidsForFlatIndex table flat).isSome,
      (uuidsForFlatIndex table flat).map Prod.fst,
      (uuidsForFlatIndex table flat).map Prod.snd) := by
  have hfits : table.items.length ≤ 8 := table.fits
  rw [uuidsForFlatIndexCounted, uuidsLoop,
    countUp_eq_foldlM (fun x seen => uuidsStep flat x.1 seen) table.toNat_len _
      (table.fits.trans_lt hfuel), Option.map_some]
  · exact congrArg some (foldlM_uuidsStep flat table.items 0 0 (by rw [UInt16.toNat_zero]; omega)
      UInt16.zero_le)
  · intro s h seen
    rw [characteristicsLen_eq h, toNat_ofNat_characteristics, uuids_eq h]
    rfl

/-- The loop of `flat_characteristic_index` ends, and its sum is the one of the table. -/
theorem flatCharacteristicIndexCounted_eq {table : Table} {serviceIdx : UInt8}
    (h : serviceIdx.toNat ≤ table.items.length) (charIdx : UInt8) {fuel : Nat}
    (hfuel : bleMaxDiscoveredServices < fuel) :
    table.flatCharacteristicIndexCounted serviceIdx charIdx fuel =
      some (flatCharacteristicIndex table serviceIdx.toNat charIdx.toNat) := by
  have hfits : table.items.length ≤ 8 := table.fits
  have hlength : (table.items.take serviceIdx.toNat).length = serviceIdx.toNat := by
    rw [List.length_take, Nat.min_eq_left h]
  rw [flatCharacteristicIndexCounted, flatLoop, countUp_eq_foldl (fun flat service =>
      flat + (UInt8.ofNat service.characteristics.items.length).toUInt16) hlength.symm _
      (by rw [hlength]; exact (h.trans table.fits).trans_lt hfuel), Option.map_some]
  · have hsum := toNat_foldl_add (table.items.take serviceIdx.toNat) 0
      (by rw [hlength, UInt16.toNat_zero]; omega)
    apply congrArg some
    rw [flatCharacteristicIndex, ← UInt16.toNat_inj]
    dsimp only
    rw [UInt16.toNat_add, hsum, UInt16.toNat_zero, Nat.zero_add, UInt8.toNat_toUInt16,
      UInt16.toNat_ofNat']
  · intro s hs flat
    have hlt : s.toNat < table.items.length := by
      rw [hlength] at hs
      omega
    rw [characteristicsLen_eq hlt, List.getElem_take]

/-- The index of a characteristic there is, as the code computes it: its position. -/
theorem flatCharacteristicIndexCounted_place {table : Table} (place : table.Place) {fuel : Nat}
    (hfuel : bleMaxDiscoveredServices < fuel) :
    ∃ flat, table.flatCharacteristicIndexCounted (.ofNat place.1) (.ofNat place.2) fuel =
        some flat ∧ flat.toNat = (table.position place).val := by
  have hs : place.1.val < 8 := place.1.isLt.trans_le table.fits
  have hc : place.2.val < 16 := place.2.isLt.trans_le table.items[place.1.val].characteristics.fits
  have hservice : (UInt8.ofNat place.1).toNat = place.1.val :=
    UInt8.toNat_ofNat_of_lt' (show place.1.val < 256 by omega)
  have hchar : (UInt8.ofNat place.2).toNat = place.2.val :=
    UInt8.toNat_ofNat_of_lt' (show place.2.val < 256 by omega)
  refine ⟨_, flatCharacteristicIndexCounted_eq ?_ _ hfuel, ?_⟩
  · rw [hservice]
    exact place.1.isLt.le
  · rw [hservice, hchar, toNat_flatCharacteristicIndex_place]

/-- **The two loops are inverse to each other.** The index of a characteristic there is names its
service's UUID and its own, no two characteristics have one index, the indices are the numbers
below the count of characteristics, and of no other number anything is named. -/
theorem flatIndex_law (table : Table) {fuel : Nat} (hfuel : bleMaxDiscoveredServices < fuel) :
    (∀ s c service characteristic, table.at (s, c) = some (service, characteristic) →
      ∃ flat, table.flatCharacteristicIndexCounted (.ofNat s) (.ofNat c) fuel = some flat ∧
        flat.toNat < table.total ∧ table.uuidsForFlatIndexCounted flat fuel =
          some (true, some service.uuid, some characteristic.info.uuid)) ∧
    (∀ s c s' c', table.HasPlace s c → table.HasPlace s' c' →
      table.flatCharacteristicIndexCounted (.ofNat s) (.ofNat c) fuel =
        table.flatCharacteristicIndexCounted (.ofNat s') (.ofNat c') fuel → s = s' ∧ c = c') ∧
    (∀ flat : UInt16, flat.toNat < table.total → ∃ s c, table.HasPlace s c ∧
      table.flatCharacteristicIndexCounted (.ofNat s) (.ofNat c) fuel = some flat) ∧
    ∀ flat : UInt16, table.total ≤ flat.toNat →
      table.uuidsForFlatIndexCounted flat fuel = some (false, none, none) := by
  refine ⟨?_, ?_, ?_, ?_⟩
  · intro s c service characteristic hat
    obtain ⟨place, rfl, rfl⟩ := hasPlace_iff.mp ⟨_, hat⟩
    obtain ⟨flat, hflat, hposition⟩ := flatCharacteristicIndexCounted_place place hfuel
    have hlabel := flatten_flatCharacteristicIndex hat
    rw [toNat_flatCharacteristicIndex_place, ← hposition, ← uuidsForFlatIndex_eq] at hlabel
    refine ⟨flat, hflat, hposition ▸ (table.position place).isLt, ?_⟩
    rw [uuidsForFlatIndexCounted_eq table flat hfuel, hlabel]
    rfl
  · intro s c s' c' hplace hplace' heq
    obtain ⟨place, rfl, rfl⟩ := hasPlace_iff.mp hplace
    obtain ⟨place', rfl, rfl⟩ := hasPlace_iff.mp hplace'
    obtain ⟨flat, hflat, hposition⟩ := flatCharacteristicIndexCounted_place place hfuel
    obtain ⟨flat', hflat', hposition'⟩ := flatCharacteristicIndexCounted_place place' hfuel
    obtain rfl : flat = flat' := Option.some.inj (hflat.symm.trans (heq.trans hflat'))
    obtain rfl : place = place' :=
      table.position.injective (Fin.ext (hposition.symm.trans hposition'))
    exact ⟨rfl, rfl⟩
  · intro flat hlt
    obtain ⟨place, hplace⟩ := table.position.surjective ⟨flat.toNat, hlt⟩
    obtain ⟨flat', hflat', hposition⟩ := flatCharacteristicIndexCounted_place place hfuel
    have heq : flat' = flat := by
      rw [← UInt16.toNat_inj, hposition, hplace]
    exact ⟨place.1, place.2, hasPlace_iff.mpr ⟨place, rfl, rfl⟩, heq ▸ hflat'⟩
  · intro flat hle
    have hnone : uuidsForFlatIndex table flat = none := by
      rw [uuidsForFlatIndex_eq, List.getElem?_eq_none_iff, length_flatten]
      exact hle
    rw [uuidsForFlatIndexCounted_eq table flat hfuel, hnone]
    rfl

/-- Two services with characteristics, and one without any between them. -/
def gap : Table :=
  let uuid (n : UInt8) : Uuid := Vector.replicate 16 n
  let characteristic (n : UInt8) : FoundCharacteristic := ⟨⟨uuid n, 16⟩, 0⟩
  .ofList [⟨uuid 1, 1, 9, .ofList [characteristic 11, characteristic 12]⟩,
    ⟨uuid 2, 10, 19, .ofList []⟩, ⟨uuid 3, 20, 29, .ofList [characteristic 31]⟩]

/-- The characteristic behind the gap is named by an index, and behind it nothing is. -/
theorem flatIndex_law_gap :
    (∃ flat, gap.flatCharacteristicIndexCounted 2 0 9 = some flat ∧ flat.toNat < gap.total ∧
      gap.uuidsForFlatIndexCounted flat 9 =
        some (true, some (Vector.replicate 16 3), some (Vector.replicate 16 31))) ∧
    gap.uuidsForFlatIndexCounted 3 9 = some (false, none, none) :=
  ⟨(flatIndex_law gap (by decide)).1 2 0 _ _ rfl,
    (flatIndex_law gap (by decide)).2.2.2 3 (by decide)⟩

end Table

end DevBench.Bridge
