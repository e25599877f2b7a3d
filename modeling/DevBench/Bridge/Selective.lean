import DevBench.Bridge.Responses

/-!
# What a selective monitor has when it passes

`monitor_subscribe_matching` takes a target for found once a characteristic has its pair of
UUIDs, and for subscribable once the last such characteristic can notify or indicate; both
before the subscription is tried. What the host makes of the subscriptions decides which slots
count, not whether the step passes.
-/

namespace DevBench.Bridge

open DevBench.Core DevBench.Core.Program DevBench.Eap DevBench.Bench DevBench.Wire

/-! ## The subscriptions that are tried -/

/-- A subscription that is tried: with which slot, on which characteristic of the table, and what
the host makes of it. -/
structure Try where
  slot : Nat
  place : Nat × Nat
  response : Response
  deriving DecidableEq, Repr

/-- The subscriptions tried by the two loops over the places that are left. -/
def tries (targets : List GattTarget) (host : Host) (checks : TargetChecks) :
    List (Nat × Nat) → BridgeState → List Try
  | [], _ => []
  | place :: places, s =>
    let (checks', s') := visit targets checks place (places.any (wanted targets s.table)) host s
    (if wanted targets s.table place ∧ s.monitor.count < bleMaxMonitorSubscriptions then
      [⟨s.monitor.count, place, host.response s⟩]
    else []) ++ tries targets host checks' places s'

/-- What a visit makes of the target checks. -/
def TargetChecks.visited (targets : List GattTarget) (table : Table) (checks : TargetChecks)
    (place : Nat × Nat) : TargetChecks :=
  match table.at place with
  | .none => checks
  | .some (service, c) =>
    match targetIndexFor targets (service.uuid, c.info.uuid) with
    | .none => checks
    | .some target =>
      if targets = [] then checks
      else checks.mark target (canNotify c.info.properties || canIndicate c.info.properties)

/-- A visit by what it leaves: the table, the target checks, and one more slot just when a
subscription is tried and counts. -/
theorem visit_apply (targets : List GattTarget) (checks : TargetChecks) (place : Nat × Nat)
    (another : Bool) (host : Host) {table : Table} {s : BridgeState} (hfrozen : Frozen table s) :
    Frozen table (visit targets checks place another host s).2 ∧
      (visit targets checks place another host s).1 = checks.visited targets table place ∧
      (visit targets checks place another host s).2.monitor =
        if (wanted targets table place ∧ s.monitor.count < bleMaxMonitorSubscriptions) ∧
            (host.response s).counts then
          s.monitor.next (flatCharacteristicIndex table place.1 place.2)
        else s.monitor := by
  have hget : Program.get host s = (s, s) := rfl
  obtain ⟨rfl, hpending⟩ := hfrozen
  unfold visit TargetChecks.visited wanted
  rw [bind_apply]
  simp only [hget]
  cases hat : s.table.at place with
  | none => exact ⟨⟨rfl, hpending⟩, rfl, (if_neg (by simp)).symm⟩
  | some found =>
    obtain ⟨service, c⟩ := found
    simp only [Option.any_some]
    rcases Option.eq_none_or_eq_some (targetIndexFor targets (service.uuid, c.info.uuid)) with
      htarget | ⟨target, htarget⟩
    · simp only [htarget]
      exact ⟨⟨rfl, hpending⟩, rfl, (if_neg (by simp)).symm⟩
    · simp only [htarget, Option.isSome_some, Bool.true_and, bind_apply, when_apply]
      by_cases hsubscribable : (canNotify c.info.properties || canIndicate c.info.properties) = true
      · simp only [hsubscribable, if_true, true_and]
        have hkept := keeps_frozen_subscribeCharacteristic place service c another host s
          ⟨rfl, hpending⟩
        refine ⟨hkept, rfl, ?_⟩
        change (subscribeCharacteristic place service c another host s).2.monitor = _
        by_cases hslot : s.monitor.count < bleMaxMonitorSubscriptions
        · have hnext := subscribeCharacteristic_monitor place service c another host
            ⟨rfl, hpending⟩ hslot
          simpa only [hslot, and_self, true_and] using hnext
        · have hfull : (subscribeCharacteristic place service c another host s).2.monitor =
              s.monitor := by
            unfold subscribeCharacteristic
            rw [bind_apply]
            simp only [hget, if_pos (Nat.le_of_not_lt hslot)]
            rfl
          rw [if_neg (fun h => hslot h.1)]
          exact hfull
      · simp only [if_neg hsubscribable]
        exact ⟨⟨rfl, hpending⟩, rfl, (if_neg (fun h => hsubscribable h.1.1)).symm⟩

/-- Slots have come to count, and those that did are as they were. -/
structure Monitor.Extends (m m' : Monitor) : Prop where
  count_le : m.count ≤ m'.count
  charIndex : ∀ slot < m.count, m'.charIndex[slot]? = m.charIndex[slot]?

theorem Monitor.Extends.refl (m : Monitor) : m.Extends m := ⟨Nat.le_refl _, fun _ _ => rfl⟩

theorem Monitor.Extends.trans {m m' m'' : Monitor} (h : m.Extends m') (h' : m'.Extends m'') :
    m.Extends m'' := by
  constructor
  · exact Nat.le_trans h.count_le h'.count_le
  · intro slot hslot
    rw [h'.charIndex slot (Nat.lt_of_lt_of_le hslot h.count_le), h.charIndex slot hslot]

theorem Monitor.extends_next (m : Monitor) (index : UInt16) : m.Extends (m.next index) := by
  constructor
  · exact Nat.le_succ _
  · intro slot hslot
    exact Vector.getElem?_setIfInBounds_ne (Nat.ne_of_gt hslot)

theorem Monitor.charIndex_next {m : Monitor} (index : UInt16)
    (h : m.count < bleMaxMonitorSubscriptions) :
    (m.next index).charIndex[m.count]? = some index := by
  unfold Monitor.next
  simp [h]

/-- Once every slot is in use nothing more is tried. -/
theorem tries_full (targets : List GattTarget) (host : Host) {table : Table} :
    ∀ (places : List (Nat × Nat)) (checks : TargetChecks) (s : BridgeState), Frozen table s →
      bleMaxMonitorSubscriptions ≤ s.monitor.count → tries targets host checks places s = [] := by
  intro places
  induction places with
  | nil => intro checks s _ _; rfl
  | cons place places ih =>
    intro checks s hfrozen hfull
    obtain ⟨hkept, _, hmonitor⟩ := visit_apply targets checks place
      (places.any (wanted targets s.table)) host hfrozen
    have hroom : ¬ s.monitor.count < bleMaxMonitorSubscriptions := Nat.not_lt_of_le hfull
    rw [if_neg (fun h => hroom h.1.2)] at hmonitor
    rw [tries]
    simp only [if_neg (fun h : _ ∧ _ => hroom h.2), List.nil_append]
    exact ih _ _ hkept (hmonitor ▸ hfull)

/-- What a whole run of the two loops leaves. -/
structure Swept (targets : List GattTarget) (table : Table) (places : List (Nat × Nat))
    (before after : Monitor) (tried : List Try) : Prop where
  /-- The characteristics tried are the first of those wanted, in order. -/
  places : tried.map (·.place) <+: places.filter (wanted targets table)
  grown : before.Extends after
  /-- A subscription that counts has a slot, for its characteristic. -/
  counted : ∀ t ∈ tried, t.response.counts → t.slot < after.count ∧
    after.charIndex[t.slot]? = some (flatCharacteristicIndex table t.place.1 t.place.2)

/-- One more place in front of a run. -/
theorem Swept.cons {targets : List GattTarget} {table : Table} {place : Nat × Nat}
    {places : List (Nat × Nat)} {before between after : Monitor} {tried : List Try}
    (h : Swept targets table places between after tried) (response : Response)
    (hnext : between = if (wanted targets table place ∧
        before.count < bleMaxMonitorSubscriptions) ∧ response.counts then
      before.next (flatCharacteristicIndex table place.1 place.2) else before)
    (hfull : bleMaxMonitorSubscriptions ≤ between.count → tried = []) :
    Swept targets table (place :: places) before after
      ((if wanted targets table place ∧ before.count < bleMaxMonitorSubscriptions then
        [⟨before.count, place, response⟩] else []) ++ tried) := by
  have hgrown : before.Extends between := by
    rw [hnext]
    split_ifs
    · exact before.extends_next _
    · exact .refl before
  by_cases hwanted : wanted targets table place = true
  · by_cases hslot : before.count < bleMaxMonitorSubscriptions
    · rw [if_pos ⟨hwanted, hslot⟩]
      refine ⟨?_, hgrown.trans h.grown, ?_⟩
      · rw [List.filter_cons_of_pos hwanted]
        exact List.cons_prefix_cons.mpr ⟨rfl, h.places⟩
      · intro t ht hcounts
        rcases List.mem_cons.mp ht with rfl | ht
        · rw [if_pos ⟨⟨hwanted, hslot⟩, hcounts⟩] at hnext
          have hlt : before.count < between.count := by
            rw [hnext]
            exact Nat.lt_succ_self _
          refine ⟨Nat.lt_of_lt_of_le hlt h.grown.count_le, ?_⟩
          rw [h.grown.charIndex _ hlt, hnext]
          exact Monitor.charIndex_next _ hslot
        · exact h.counted t ht hcounts
    · have hsame : between = before := by
        rw [hnext, if_neg (fun h => hslot h.1.2)]
      have hnone : tried = [] := hfull (hsame ▸ Nat.le_of_not_lt hslot)
      rw [if_neg (fun h => hslot h.2), hnone]
      exact ⟨List.nil_prefix, hgrown.trans h.grown, fun t ht => absurd ht List.not_mem_nil⟩
  · rw [if_neg (fun h => hwanted h.1), List.nil_append]
    refine ⟨?_, hgrown.trans h.grown, h.counted⟩
    rw [List.filter_cons_of_neg hwanted]
    exact h.places

/-- **The two loops.** They leave the table alone, the target checks depend on the table only,
and the slots that count are those of the subscriptions whose response does. -/
theorem visitAll_apply (targets : List GattTarget) (host : Host) {table : Table} :
    ∀ (places : List (Nat × Nat)) (checks : TargetChecks) (s : BridgeState), Frozen table s →
      Frozen table (visitAll targets checks places host s).2 ∧
      (visitAll targets checks places host s).1 =
        places.foldl (TargetChecks.visited targets table) checks ∧
      Swept targets table places s.monitor (visitAll targets checks places host s).2.monitor
        (tries targets host checks places s) := by
  intro places
  induction places with
  | nil =>
    intro checks s hfrozen
    exact ⟨hfrozen, rfl, List.prefix_rfl, .refl _, fun t ht => absurd ht List.not_mem_nil⟩
  | cons place places ih =>
    intro checks s hfrozen
    obtain rfl : s.table = table := hfrozen.1
    obtain ⟨hkept, hchecks, hmonitor⟩ := visit_apply targets checks place
      (places.any (wanted targets s.table)) host hfrozen
    obtain ⟨hfrozen', hchecks', hswept⟩ := ih
      (visit targets checks place (places.any (wanted targets s.table)) host s).1 _ hkept
    refine ⟨hfrozen', ?_, ?_⟩
    · rw [List.foldl_cons, ← hchecks]
      exact hchecks'
    · exact hswept.cons (host.response s) hmonitor fun hfull =>
        tries_full targets host places _ _ hkept hfull

/-! ## The target checks -/

/-- The characteristic at a place has the pair of the `i`-th target. -/
def isTarget (targets : List GattTarget) (table : Table) (i : Nat) (place : Nat × Nat) : Bool :=
  (table.at place).any fun (service, c) =>
    targetIndexFor targets (service.uuid, c.info.uuid) == some i

/-- The characteristic at a place can notify or indicate. -/
def subscribableAt (table : Table) (place : Nat × Nat) : Bool :=
  (table.at place).any fun (_, c) => canNotify c.info.properties || canIndicate c.info.properties

/-- The last characteristic with the pair of the `i`-th target can notify or indicate. -/
def offered (targets : List GattTarget) (table : Table) (i : Nat) : Bool :=
  (table.places.filter (isTarget targets table i)).getLast?.any (subscribableAt table)

namespace TargetChecks

/-- The two flags of a target. -/
def flags (checks : TargetChecks) (i : Nat) : Bool × Bool :=
  (checks.found.getD i false, checks.subscribable.getD i false)

/-- There is a place for both flags of a target. -/
def Holds (checks : TargetChecks) (i : Nat) : Prop :=
  i < checks.found.length ∧ i < checks.subscribable.length

/-- A visit sets the flags of the target whose pair it meets. -/
theorem flags_visited {targets : List GattTarget} (table : Table) {checks : TargetChecks}
    (place : Nat × Nat) {i : Nat} (htargets : targets ≠ []) (hi : checks.Holds i) :
    (checks.visited targets table place).Holds i ∧
      (checks.visited targets table place).flags i =
        if isTarget targets table i place then (true, subscribableAt table place)
        else checks.flags i := by
  unfold visited isTarget subscribableAt
  rcases Option.eq_none_or_eq_some (table.at place) with hat | ⟨⟨service, c⟩, hat⟩
  · simp only [hat]
    exact ⟨hi, rfl⟩
  · simp only [hat, Option.any_some]
    rcases Option.eq_none_or_eq_some (targetIndexFor targets (service.uuid, c.info.uuid)) with
      htarget | ⟨target, htarget⟩
    · simp only [htarget]
      exact ⟨hi, rfl⟩
    · simp only [htarget, if_neg htargets]
      by_cases heq : target = i
      · subst heq
        refine ⟨⟨by simpa [mark] using hi.1, by simpa [mark] using hi.2⟩, ?_⟩
        simp [flags, mark, hi.1, hi.2]
      · refine ⟨⟨by simpa [mark] using hi.1, by simpa [mark] using hi.2⟩, ?_⟩
        simp [flags, mark, List.getElem?_set_ne heq, heq]

/-- Behind the loops the flags of a target are those of the last characteristic with its pair. -/
theorem flags_foldl {targets : List GattTarget} {table : Table} {i : Nat} (htargets : targets ≠ [])
    (places : List (Nat × Nat)) (checks : TargetChecks) (hi : checks.Holds i) :
    (places.foldl (visited targets table) checks).flags i =
      match (places.filter (isTarget targets table i)).getLast? with
      | .some place => (true, subscribableAt table place)
      | .none => checks.flags i := by
  induction places generalizing checks with
  | nil => rfl
  | cons place places ih =>
    obtain ⟨hholds, hflags⟩ := flags_visited table place htargets hi
    rw [List.foldl_cons, ih _ hholds, hflags]
    by_cases h : isTarget targets table i place = true
    · rw [List.filter_cons_of_pos h, List.getLast?_cons, if_pos h]
      cases (places.filter (isTarget targets table i)).getLast? <;> rfl
    · rw [List.filter_cons_of_neg h, if_neg h]

end TargetChecks

/-- No target is at fault just when both flags of each are set. -/
theorem targetFault_eq_none (checks : TargetChecks) (targets : List GattTarget) (k : Nat) :
    targetFault checks (targets.zipIdx k) = none ↔
      ∀ i < targets.length, checks.flags (k + i) = (true, true) := by
  induction targets generalizing k with
  | nil =>
    constructor
    · intro _ i hi
      exact absurd hi (Nat.not_lt_zero i)
    · intro _
      rfl
  | cons target targets ih =>
    have hsplit : (∀ i < (target :: targets).length, checks.flags (k + i) = (true, true)) ↔
        checks.flags k = (true, true) ∧
          ∀ i < targets.length, checks.flags (k + 1 + i) = (true, true) := by
      constructor
      · intro h
        refine ⟨h 0 (Nat.succ_pos _), fun i hi => ?_⟩
        rw [Nat.add_assoc, Nat.add_comm 1 i]
        exact h (i + 1) (Nat.succ_lt_succ hi)
      · rintro ⟨hzero, hsucc⟩ i hi
        cases i with
        | zero => exact hzero
        | succ i =>
          rw [Nat.add_comm i 1, ← Nat.add_assoc]
          exact hsucc i (Nat.lt_of_succ_lt_succ hi)
    rw [List.zipIdx_cons, targetFault, hsplit, ← ih (k + 1)]
    simp only [TargetChecks.flags, Prod.mk.injEq]
    cases checks.found.getD k false <;> cases checks.subscribable.getD k false <;> simp

/-- The target checks of the loops find no fault just when every target is offered. -/
theorem targetFault_visited (targets : Targets) (table : Table) :
    targetFault (table.places.foldl (TargetChecks.visited targets.list table) .none)
        targets.list.zipIdx = none ↔
      ∀ i < targets.list.length, offered targets.list table i := by
  rw [targetFault_eq_none]
  by_cases htargets : targets.list = []
  · rw [htargets]
    exact ⟨fun _ i hi => absurd hi (Nat.not_lt_zero i), fun _ i hi => absurd hi (Nat.not_lt_zero i)⟩
  have hfits : targets.list.length ≤ dbmMaxMonitorTargets := by
    cases targets with
    | none => exact Nat.zero_le _
    | some targets => exact targets.fits
  refine forall₂_congr fun i hi => ?_
  have hholds : TargetChecks.none.Holds i := by
    have hlt := Nat.lt_of_lt_of_le hi hfits
    exact ⟨by simpa [TargetChecks.none] using hlt, by simpa [TargetChecks.none] using hlt⟩
  rw [Nat.zero_add, TargetChecks.flags_foldl htargets _ _ hholds, offered]
  cases (table.places.filter (isTarget targets.list table i)).getLast? with
  | none =>
    have hnone : TargetChecks.none.flags i = (false, false) := by
      simp [TargetChecks.flags, TargetChecks.none, List.getElem?_replicate]
      split_ifs <;> rfl
    simp [hnone]
  | some place => simp

/-! ## When the step passes -/

/-- The state the two loops start in, behind a discovery that passed. -/
def loopStart (host : Host) (s : BridgeState) : BridgeState :=
  let s := (runGattDiscovery host s).2
  { s.push (.recounted (!s.armed.isEmpty)) with monitor.count := 0 }

/-- The table that was discovered. -/
def discoveredTable (host : Host) (s : BridgeState) : Table := (runGattDiscovery host s).2.table

/-- The step comes to the loops, and finds every target offered. -/
def Expected (targets : Targets) (host : Host) (s : BridgeState) : Prop :=
  s.live = true ∧ (runGattDiscovery host s).1.kind = .pass ∧
    ∀ i < targets.list.length, offered targets.list (discoveredTable host s) i

theorem loopStart_frozen {host : Host} {s : BridgeState}
    (h : (runGattDiscovery host s).1.kind = .pass) :
    Frozen (discoveredTable host s) (loopStart host s) :=
  ⟨rfl, (triple_runGattDiscovery host s trivial).2 h⟩

/-- **The step passes just when every target is offered**, whatever the host makes of the
subscriptions; it ends in the state the loops end in. -/
theorem monitorSubscribeMatching_pass (targets : Targets) (host : Host) (s : BridgeState) :
    ((monitorSubscribeMatching targets host s).1.kind = .pass ↔ Expected targets host s) ∧
      (Expected targets host s → (monitorSubscribeMatching targets host s).2 =
        (visitAll targets.list .none (discoveredTable host s).places host
          (loopStart host s)).2) := by
  have hget (s : BridgeState) : Program.get host s = (s, s) := rfl
  have hfail (text : String) : (outcomeFail text).kind ≠ .pass := nofun
  unfold monitorSubscribeMatching Expected
  simp only [bind_apply, hget]
  by_cases hlive : s.live = true
  · simp only [hlive, not_true_eq_false, if_false, true_and, bind_apply]
    by_cases hpass : (runGattDiscovery host s).1.kind = .pass
    · simp only [hpass, ne_eq, not_true_eq_false, if_false, true_and, bind_apply, hget]
      have hchecks := (visitAll_apply targets.list host (discoveredTable host s).places .none
        (loopStart host s) (loopStart_frozen hpass)).2.1
      rw [← targetFault_visited, ← hchecks]
      generalize hrun : visitAll targets.list .none (runGattDiscovery host s).2.table.places host
        _ = r
      have hloops : visitAll targets.list .none (discoveredTable host s).places host
        (loopStart host s) = r := hrun
      rw [hloops]
      cases hfault : targetFault r.1 targets.list.zipIdx with
      | none => exact ⟨⟨fun _ => rfl, fun _ => rfl⟩, fun _ => rfl⟩
      | some reason => exact ⟨iff_of_false (hfail reason) nofun, nofun⟩
    · simp only [ne_eq, hpass, not_false_eq_true, if_true, false_and, false_implies, and_true]
      exact iff_of_false hpass id
  · simp only [hlive, not_false_eq_true, if_true, Bool.false_eq_true, false_and, false_implies,
      and_true]
    exact iff_of_false (hfail _) id

/-- The subscriptions tried by the step, in order. -/
def triesOf (targets : Targets) (host : Host) (s : BridgeState) : List Try :=
  tries targets.list host .none (discoveredTable host s).places (loopStart host s)

/-- The characteristic at a place has the pair of a target. -/
def Table.HasPair (table : Table) (place : Nat × Nat) (target : GattTarget) : Prop :=
  ∃ service c, table.at place = some (service, c) ∧ service.uuid = target.serviceUuid ∧
    c.info.uuid = target.characteristicUuid

/-- What a step that passes owes its targets: for each one a slot that counts, recorded for a
characteristic with the target's pair of UUIDs, whose CCC write was answered without error. -/
def Sound (targets : Targets) (host : Host) (s : BridgeState) : Prop :=
  (monitorSubscribeMatching targets host s).1.kind = .pass → ∀ target ∈ targets.list,
    ∃ slot < (monitorSubscribeMatching targets host s).2.monitor.count, ∃ place,
      (discoveredTable host s).HasPair place target ∧
      (monitorSubscribeMatching targets host s).2.monitor.charIndex[slot]? =
        some (flatCharacteristicIndex (discoveredTable host s) place.1 place.2) ∧
      ⟨slot, place, .answered 0⟩ ∈ triesOf targets host s

/-- What the host makes of the subscriptions tried, in order. -/
def responses (targets : Targets) (host : Host) (s : BridgeState) : List Response :=
  (triesOf targets host s).map (·.response)

/-- Of the characteristics wanted, one with the target's pair gets an answer without error to its
CCC write. The host's responses go to the characteristics wanted in order, up to the last one
there was a slot for. -/
def Acknowledged (targets : Targets) (host : Host) (s : BridgeState) (target : GattTarget) :
    Prop :=
  ∃ (i : Nat) (place : Nat × Nat),
    ((discoveredTable host s).places.filter (wanted targets.list (discoveredTable host s)))[i]? =
      some place ∧
    (discoveredTable host s).HasPair place target ∧
    (responses targets host s)[i]? = some (.answered 0)

/-- What a list starts with is at the same places in it. -/
theorem getElem?_of_extends {α : Type} {xs ys : List α} (h : xs <+: ys) {i : Nat} {x : α}
    (hx : xs[i]? = some x) : ys[i]? = some x := by
  obtain ⟨more, rfl⟩ := h
  obtain ⟨hlt, -⟩ := List.getElem?_eq_some_iff.mp hx
  rw [List.getElem?_append_left hlt]
  exact hx

/-- **A step that passes has what its targets are owed just when the host acknowledges, for each
of them, one of the characteristics with its pair**; whether the step passes is decided by the
table alone. -/
theorem sound_iff (targets : Targets) (host : Host) (s : BridgeState) :
    Sound targets host s ↔
      (Expected targets host s → ∀ target ∈ targets.list, Acknowledged targets host s target) := by
  obtain ⟨hpass, hend⟩ := monitorSubscribeMatching_pass targets host s
  unfold Sound
  rw [hpass]
  refine forall_congr' fun hexpected => ?_
  have hswept := (visitAll_apply targets.list host (discoveredTable host s).places .none
    (loopStart host s) (loopStart_frozen hexpected.2.1)).2.2
  rw [hend hexpected]
  refine forall₂_congr fun target htarget => ?_
  constructor
  · rintro ⟨slot, hslot, place, hpair, hindex, htried⟩
    obtain ⟨i, hi⟩ := List.getElem?_of_mem htried
    refine ⟨i, place, ?_, hpair, ?_⟩
    · have hplace : ((triesOf targets host s).map (·.place))[i]? = some place := by
        rw [List.getElem?_map, hi]
        rfl
      exact getElem?_of_extends hswept.places hplace
    · rw [responses, List.getElem?_map, hi]
      rfl
  · rintro ⟨i, place, hplace, hpair, hresponse⟩
    rw [responses, List.getElem?_map] at hresponse
    obtain ⟨t, ht, hanswered⟩ := Option.map_eq_some_iff.mp hresponse
    have htplace : t.place = place := by
      have hmap : ((triesOf targets host s).map (·.place))[i]? = some t.place := by
        rw [List.getElem?_map, ht]
        rfl
      exact Option.some.inj ((getElem?_of_extends hswept.places hmap).symm.trans hplace)
    have hmem := List.mem_of_getElem? ht
    obtain ⟨hslot, hindex⟩ := hswept.counted t hmem (by rw [hanswered]; rfl)
    subst htplace
    refine ⟨t.slot, hslot, t.place, hpair, hindex, ?_⟩
    rw [← hanswered]
    exact hmem

/-- The one characteristic of the sample peer. -/
def sampleTargets : Targets :=
  some (.ofList [⟨fromBtUuid (.uuid16 0x180d), fromBtUuid (.uuid16 0x2a37)⟩])

/-- The peer is connected to; its CCC descriptor may not be written. -/
def writeNotPermitted : List (Nat × List HostEvent) :=
  [(1, sampleConnect), (6, sampleService), (8, sampleCharacteristic), (10, [.cccAnswer 3])]

/-- The bridge with the sample peer connected to it. -/
def sampleConnected : BridgeState :=
  BridgeState.initial.after (.scripted writeNotPermitted (.connect .central none none))

/-- A step whose one CCC write is answered with an ATT error passes. -/
theorem not_sound_writeNotPermitted :
    ¬ Sound sampleTargets (.scripted writeNotPermitted) sampleConnected := by
  have hpass : (monitorSubscribeMatching sampleTargets (.scripted writeNotPermitted)
      sampleConnected).1.kind = .pass := by
    decide +kernel
  have htries : triesOf sampleTargets (.scripted writeNotPermitted) sampleConnected =
      [⟨0, (0, 0), .answered 3⟩] := by
    decide +kernel
  intro h
  obtain ⟨slot, -, place, -, -, hmem⟩ := h hpass _ List.mem_cons_self
  rw [htries] at hmem
  exact absurd hmem (by simp)

end DevBench.Bridge
