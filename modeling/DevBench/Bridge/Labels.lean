import DevBench.Bridge.Stable
import DevBench.Bridge.Tables
import DevBench.Core.Machine

/-!
# What a notification is told as

A notification is labelled when it arrives, through the index recorded for its slot and the
table as it is then. The recorded index of a slot that counts was that of its
characteristic in the table the subscription was made from, so the label is right as long
as the table holds the same there. A slot that does not count yet is told as the first
characteristic of the table.
-/

namespace DevBench.Bridge

open DevBench.Core DevBench.Core.Program DevBench.Eap DevBench.Bench DevBench.Wire

/-- The entry carries the service and the characteristic the subscription was made on. -/
def Carries (on : Armed) (entry : TranscriptEntry) : Prop :=
  entry.serviceUuid = some on.label.1 ∧ entry.characteristicUuid = some on.label.2

/-- The table holds at the recorded index what it did when the subscription was made, or,
when there is none, the characteristic itself in its first place. -/
def Current (on : Armed) (index : Option UInt16) (table : List Label) : Prop :=
  match index with
  | some i => table[i.toNat]? = on.made[i.toNat]?
  | none => table[0]? = some on.label

instance (on : Armed) (entry : TranscriptEntry) : Decidable (Carries on entry) :=
  inferInstanceAs (Decidable (_ ∧ _))

/-- A notification is told right just when the table is current. -/
def Mark.Told : Mark → Prop
  | delivered on index table entry => Carries on entry ↔ Current on index table
  | _ => True

/-- The index of every armed slot that counts is that of its characteristic. -/
def Labelled (m : Monitor) (armed : List Armed) : Prop :=
  ∀ a ∈ armed, ∀ i, m.recorded a.slot = some i → a.made[i.toNat]? = some a.label

/-- And the next slot is `k`. -/
def LabelledBelow (k : Nat) (m : Monitor) (armed : List Armed) : Prop :=
  Labelled m armed ∧ m.count = k

/-- And that one, if it is armed, is armed for a characteristic of a table. -/
def Labelling (k : Nat) (label : Label) (made : List Label) (m : Monitor) (armed : List Armed) :
    Prop :=
  LabelledBelow k m armed ∧ ∀ a ∈ armed, a.slot = k → a.label = label ∧ a.made = made

/-- The armed slots are as they should be, and so is all that has been told. -/
structure Attributed (good : Monitor → List Armed → Prop) (s : BridgeState) : Prop where
  good : good s.monitor s.armed
  told : ∀ m ∈ s.log, m.Told

variable {good good' : Monitor → List Armed → Prop}

/-- More may be known of the labels than is asked for. -/
theorem Attributed.mono {s : BridgeState} (h : Attributed good s)
    (hle : good s.monitor s.armed → good' s.monitor s.armed) : Attributed good' s :=
  ⟨hle h.good, h.told⟩

/-- A mark that says nothing false. -/
theorem Attributed.push {s : BridgeState} {m : Mark} (h : Attributed good s) (hm : m.Told) :
    Attributed good (s.push m) := ⟨h.good, List.forall_mem_cons.mpr ⟨hm, h.told⟩⟩

/-- An entry carries a label when both its UUIDs are the label's. -/
theorem carries_iff {on : Armed} {label : Option Label} {entry : TranscriptEntry}
    (hservice : entry.serviceUuid = label.map Prod.fst)
    (hcharacteristic : entry.characteristicUuid = label.map Prod.snd) :
    Carries on entry ↔ label = some on.label := by
  rw [Carries, hservice, hcharacteristic]
  cases label with
  | none => simp
  | some label => simp [Prod.ext_iff]

/-- What a slot delivers is told through its index. -/
theorem told_delivered {s : BridgeState} {on : Armed} {entry : TranscriptEntry}
    (hgood : Labelled s.monitor s.armed) (hon : on ∈ s.armed)
    (hservice : entry.serviceUuid =
      (uuidsForFlatIndex s.table ((s.monitor.recorded on.slot).getD 0)).map Prod.fst)
    (hcharacteristic : entry.characteristicUuid =
      (uuidsForFlatIndex s.table ((s.monitor.recorded on.slot).getD 0)).map Prod.snd) :
    (Mark.delivered on (s.monitor.recorded on.slot) s.labels entry).Told := by
  refine (carries_iff hservice hcharacteristic).trans ?_
  rw [uuidsForFlatIndex_eq]
  cases hindex : s.monitor.recorded on.slot with
  | none => exact Iff.rfl
  | some i =>
    rw [Current, hgood on hon i hindex]
    exact Iff.rfl

/-- What is told is kept by everything but the monitors. -/
theorem stable_attributed (hnil : ∀ m armed, good m armed → good m [])
    (hlabelled : ∀ m armed, good m armed → Labelled m armed) : Stable (Attributed good) where
  same := by
    intro s s' hcore hs
    simp only [BridgeState.core, Prod.mk.injEq] at hcore
    obtain ⟨hmonitor, harmed, -, -, hlog⟩ := hcore
    exact ⟨by rw [hmonitor, harmed]; exact hs.good, by rw [hlog]; exact hs.told⟩
  quiet := by
    intro s m hm hs
    cases m <;> first | exact hs.push trivial | exact hm.elim
  idle _ _ hs := hs.push trivial
  up _ _ hs := ⟨hs.good, hs.told⟩
  down hs := ⟨hnil _ _ hs.good, hs.told⟩
  delivered _ _ hon hs :=
    Attributed.push (hs.push trivial) (told_delivered (hlabelled _ _ hs.good) hon rfl rfl)
  gatt _ hs := hs.push trivial
  waited _ _ hs := hs.push trivial
  sources _ hs := ⟨hs.good, hs.told⟩

/-- Labels are about the monitor, what is armed and the log. -/
theorem stable_labelled : Stable (Attributed Labelled) :=
  stable_attributed (fun _ _ _ _ ha => absurd ha List.not_mem_nil) fun _ _ => id

/-- So they are while one slot is still to be armed. -/
theorem stable_labelledBelow (k : Nat) : Stable (Attributed (LabelledBelow k)) :=
  stable_attributed (fun _ _ h => ⟨fun _ ha => absurd ha List.not_mem_nil, h.2⟩) fun _ _ =>
    And.left

/-- And while it is armed and not yet recorded. -/
theorem stable_labelling (k : Nat) (label : Label) (made : List Label) :
    Stable (Attributed (Labelling k label made)) :=
  stable_attributed (fun _ _ h => ⟨⟨fun _ ha => absurd ha List.not_mem_nil, h.1.2⟩,
    fun _ ha => absurd ha List.not_mem_nil⟩) fun _ _ h => h.1.1

/-- Fewer armed slots, with indices that were recorded before. -/
theorem Labelled.mono {m m' : Monitor} {armed armed' : List Armed} (h : Labelled m armed)
    (harmed : ∀ a ∈ armed', a ∈ armed)
    (hm : ∀ slot i, m'.recorded slot = some i → m.recorded slot = some i) :
    Labelled m' armed' := fun a ha i hi => h a (harmed a ha) i (hm _ _ hi)

/-- Slots that no longer count have no index. -/
theorem Labelled.uncounted {m : Monitor} {armed : List Armed} (hm : m.count = 0) :
    Labelled m armed := fun a _ i hi => by
  rw [Monitor.recorded, hm, if_neg (Nat.not_lt_zero _)] at hi
  exact absurd hi (by simp)

/-! ## One subscription -/

/-- A slot that is armed is the next one, which does not count yet. -/
theorem Labelled.arm {m : Monitor} {armed : List Armed} (h : Labelled m armed) (label : Label)
    (made : List Label) :
    Labelling m.count label made m
      (⟨m.count, label, made⟩ :: armed.filter (·.slot ≠ m.count)) := by
  refine ⟨⟨fun a ha i hi => ?_, rfl⟩, fun a ha hslot => ?_⟩
  · rcases List.mem_cons.mp ha with rfl | ha
    · rw [Monitor.recorded, if_neg (Nat.lt_irrefl _)] at hi
      exact absurd hi (by simp)
    · exact h a (List.mem_of_mem_filter ha) i hi
  · rcases List.mem_cons.mp ha with rfl | ha
    · exact ⟨rfl, rfl⟩
    · exact absurd hslot (of_decide_eq_true (List.mem_filter.mp ha).2)

/-- The next slot is recorded with the index of what it is armed for. -/
theorem Labelling.record {k : Nat} {label : Label} {made : List Label} {m : Monitor}
    {armed : List Armed} {index : UInt16} (h : Labelling k label made m armed)
    (hindex : made[index.toNat]? = some label) :
    Labelled { m with
      charIndex := m.charIndex.setIfInBounds m.count index
      count := m.count + 1 } armed := by
  obtain ⟨⟨hlabelled, rfl⟩, hnext⟩ := h
  intro a ha i hi
  rw [Monitor.recorded] at hi
  split at hi
  · next hlt =>
    by_cases hslot : a.slot = m.count
    · obtain ⟨hlabel, hmade⟩ := hnext a ha hslot
      rw [hslot, Vector.getElem?_setIfInBounds_self] at hi
      split at hi
      · rw [← Option.some.inj hi, hlabel, hmade]
        exact hindex
      · exact absurd hi (by simp)
    · rw [Vector.getElem?_setIfInBounds_ne (Ne.symm hslot)] at hi
      have hlt' : a.slot < m.count := by simp only at hlt; omega
      exact hlabelled a ha i (by rwa [Monitor.recorded, if_pos hlt'])
  · exact absurd hi (by simp)

/-- What is armed is labelled, and the table stays. -/
abbrev Naming (table : Table) (good : Monitor → List Armed → Prop) (s : BridgeState) : Prop :=
  Attributed good s ∧ Frozen table s

/-- A slot that was armed has the label it was armed with, and the table it was made from. -/
theorem triple_subscribeSlot_naming {table : Table} {k : Nat} {label : Label}
    {handle value : UInt16} :
    Triple (Naming table (LabelledBelow k)) (subscribeSlot k label handle value) fun err s =>
      if err = 0 ∨ err = ealready then Naming table (Labelling k label (flatten table.items)) s
      else Naming table Labelled s := by
  refine Triple.bind (triple_and ((stable_labelledBelow k).gattCall _)
    (keeps_frozen_gattCall _)) fun err => ?_
  by_cases herr : err = 0 ∨ err = ealready
  · simp only [when, if_pos herr]
    rintro host s ⟨hs, hfrozen⟩
    obtain ⟨hgood, rfl⟩ := hs.good
    have harmed := hgood.arm label (flatten table.items)
    rw [← hfrozen.1] at harmed ⊢
    exact (if_pos herr).mpr ⟨⟨harmed, hs.told⟩, rfl, hfrozen.2⟩
  · simp only [when, if_neg herr]
    exact triple_pure fun s hs => (if_neg herr).mpr ⟨hs.1.mono And.left, hs.2⟩

/-- Recorded, its index names that place in the table. -/
theorem triple_recordSlot_naming {table : Table} {k : Nat} {place : Nat × Nat}
    {service : FoundService} {c : FoundCharacteristic}
    (hplace : table.at place = some (service, c)) :
    Triple (Naming table (Labelling k (service.uuid, c.info.uuid) (flatten table.items)))
      (recordSlot place) fun _ => Naming table Labelled := by
  refine triple_modify fun s hs => ⟨⟨?_, hs.1.told⟩, hs.2⟩
  refine hs.1.good.record ?_
  rw [hs.2.1]
  exact flatten_flatCharacteristicIndex hplace

/-- So a characteristic that was subscribed to is labelled rightly. -/
theorem keeps_subscribeCharacteristic_naming {table : Table} {place : Nat × Nat}
    {service : FoundService} {c : FoundCharacteristic} {another : Bool}
    (hplace : table.at place = some (service, c)) :
    Keeps (Naming table Labelled) (subscribeCharacteristic place service c another) := by
  have hquiet {α : Type} {m : Act α} {good : Monitor → List Armed → Prop}
      (h : Keeps (Attributed good) m)
      (hm : ∀ host s, (m host s).2.table = s.table ∧ (m host s).2.pending = s.pending) :
      Keeps (Naming table good) m := triple_and h (keeps_frozen hm)
  have hrefused (reason : String) : Keeps (Naming table Labelled)
      (transcriptEmit bleGattDirLocal bleGattEvtError (some service.uuid) (some c.info.uuid) 0
        (ascii reason)) :=
    hquiet (stable_labelled.transcriptEmit _ _ _ _ _ _) fun _ _ => ⟨rfl, rfl⟩
  refine triple_get fun s => triple_ite (fun _ => (hrefused _).weaken fun _ hs => hs.2) fun _ => ?_
  refine Triple.bind (q := fun _ => Naming table (LabelledBelow s.monitor.count)) ?_ fun _ => ?_
  · rintro host _ ⟨rfl, hs, hfrozen⟩
    exact ⟨Attributed.push (hs.mono fun h => ⟨h, rfl⟩) trivial, hfrozen⟩
  refine Triple.bind (hquiet (stable_labelledBelow _).armCcc fun _ _ => ⟨rfl, rfl⟩) fun _ => ?_
  refine triple_subscribeSlot_naming.bind fun err => ?_
  by_cases herr : err = 0 ∨ err = ealready
  · simp only [if_pos herr]
    rw [if_neg fun h => herr.elim h.1 h.2]
    have hst := stable_labelling s.monitor.count (service.uuid, c.info.uuid) (flatten table.items)
    refine Triple.bind (triple_and (hst.waitIf _ _ _) (keeps_frozen_waitIf _ _ _)) fun taken => ?_
    refine triple_ite (fun _ => ?_) fun _ => ?_
    · refine Triple.bind (q := fun _ => Naming table Labelled) ?_ fun _ => hrefused _
      refine triple_and ?_ (keeps_frozen_abandonSlot _)
      refine triple_get fun s' => triple_ite (fun _ => ?_) fun _ => triple_pure ?_
      · refine triple_modify fun s hs => ⟨hs.2.good.1.1.mono (fun a ha => ?_) fun _ _ => id,
          hs.2.told⟩
        exact List.mem_of_mem_filter ha
      · exact fun s hs => hs.2.mono fun h => h.1.1
    · refine Triple.bind (hquiet (hst.transcriptEmit _ _ _ _ _ _) fun _ _ => ⟨rfl, rfl⟩) fun _ => ?_
      exact triple_recordSlot_naming hplace
  · simp only [if_neg herr]
    rw [if_pos (not_or.mp herr)]
    exact hrefused _

/-- So are all of them, place by place. -/
theorem keeps_visitAll_naming {table : Table} (targets : List GattTarget) : ∀ places checks,
    Keeps (Naming table Labelled) (visitAll targets checks places)
  | [], checks => keeps_pure checks
  | place :: places, checks => by
    refine keeps_get.bind fun s => Keeps.bind ?_ fun _ => keeps_visitAll_naming targets places _
    refine triple_get fun s => ?_
    split
    · exact triple_pure fun _ hs => hs.2
    · next service c hplace =>
      split
      · exact triple_pure fun _ hs => hs.2
      · refine Triple.of_pre fun s' hs => ?_
        obtain ⟨rfl, hs⟩ := hs
        rw [hs.2.1] at hplace
        refine Triple.weaken (Keeps.bind (keeps_when fun _ => ?_) fun _ => keeps_pure _)
          fun _ h => h ▸ hs
        exact keeps_subscribeCharacteristic_naming hplace

/-! ## The monitor actions -/

/-- Behind a discovery, with nothing armed from an older table. -/
theorem keeps_monitorSubscribeMatching_labelled (targets : Targets) :
    Keeps (Attributed Labelled) (monitorSubscribeMatching targets) := by
  have hdiscovered : Triple (Attributed Labelled) runGattDiscovery fun o s =>
      Attributed Labelled s ∧ (o.kind = .pass → s.pending = none) :=
    (triple_and stable_labelled.runGattDiscovery triple_runGattDiscovery).conseq
      (fun _ hs => ⟨hs, trivial⟩) fun _ _ hs => ⟨hs.1, hs.2.2⟩
  refine keeps_get.bind fun s => keeps_ite (fun _ => keeps_pure _) fun _ => ?_
  refine hdiscovered.bind fun discovered => triple_ite (fun _ => triple_pure fun _ hs => hs.1) ?_
  intro hpass
  refine triple_get fun s => ?_
  refine Triple.bind (q := fun _ => Naming s.table Labelled) ?_ fun _ => ?_
  · rintro host _ ⟨rfl, hs, hpending⟩
    exact ⟨hs.push trivial, rfl, hpending (Classical.not_not.mp hpass)⟩
  refine Triple.bind (q := fun _ => Naming s.table Labelled) ?_ fun _ => ?_
  · exact triple_modify fun s hs => ⟨⟨Labelled.uncounted rfl, hs.1.told⟩, hs.2⟩
  refine Triple.bind (keeps_visitAll_naming _ _ _) fun checks => ?_
  refine Triple.weaken ?_ fun _ hs => hs.1
  split
  · refine keeps_get.bind fun s => Keeps.bind ?_ fun _ => keeps_pure _
    exact keeps_modify fun _ hs => hs.push trivial
  · exact OfCore.outcomePass

/-- A slot that leaves takes its label along. -/
theorem keeps_disarm_labelled (slot : Nat) : Keeps (Attributed Labelled) (disarm slot) :=
  keeps_modify fun _ hs =>
    ⟨hs.good.mono (fun _ ha => List.mem_of_mem_filter ha) fun _ _ => id, hs.told⟩

/-- However it leaves. -/
theorem keeps_unsubscribeSlot_labelled (slot : Nat) :
    Keeps (Attributed Labelled) (unsubscribeSlot slot) :=
  (stable_labelled.gattCall _).bind fun _ => keeps_disarm_labelled slot

/-- All of them. -/
theorem keeps_monitorUnsubscribeAll_labelled :
    Keeps (Attributed Labelled) monitorUnsubscribeAll := by
  refine keeps_get.bind fun s => Keeps.bind (keeps_each fun slot _ => ?_) fun _ => ?_
  · exact keeps_get.bind fun _ => (keeps_unsubscribeSlot_labelled slot).bind fun _ =>
      stable_labelled.transcriptEmit _ _ _ _ _ _
  · exact keeps_modify fun _ hs => ⟨Labelled.uncounted rfl, hs.told⟩

/-- The flag is not what a slot is told by. -/
theorem keeps_windowOpen_labelled (isOpen : Bool) :
    Keeps (Attributed Labelled)
      (modify fun s => { s with monitor.windowOpen := isOpen } : Act Unit) :=
  keeps_modify fun _ hs => ⟨hs.good, hs.told⟩

/-- A window. -/
theorem keeps_executeGattMonitorWindow_labelled (targets : Targets) :
    Keeps (Attributed Labelled) (executeGattMonitorWindow targets) := by
  have hst := stable_labelled
  refine (keeps_monitorSubscribeMatching_labelled targets).bind fun _ => ?_
  refine keeps_ite (fun _ => keeps_pure _) fun _ => Keeps.bind (hst.modify fun _ => rfl) fun _ => ?_
  refine (hst.clear _).bind fun _ => keeps_get.bind fun s => (hst.wait _ _).bind fun _ => ?_
  refine keeps_monitorUnsubscribeAll_labelled.bind fun _ => ?_
  exact keeps_ite (fun _ => OfCore.outcomeDisconnected _) fun _ =>
    OfCore.outcomePass.bind fun _ => OfCore.withServices _

/-- One that is left open. -/
theorem keeps_executeGattMonitorWindowStart_labelled (targets : Targets) :
    Keeps (Attributed Labelled) (executeGattMonitorWindowStart targets) := by
  refine keeps_get.bind fun s => ?_
  refine Keeps.bind (keeps_when fun _ => keeps_monitorUnsubscribeAll_labelled) fun _ => ?_
  refine (keeps_monitorSubscribeMatching_labelled targets).bind fun o => keeps_ite (fun _ => ?_) ?_
  · exact (keeps_windowOpen_labelled _).bind fun _ => keeps_pure o
  · exact fun _ => (keeps_windowOpen_labelled _).bind fun _ =>
      OfCore.outcomePass.bind fun _ => OfCore.withServices _

/-- Its stop. -/
theorem keeps_executeGattMonitorStop_labelled :
    Keeps (Attributed Labelled) executeGattMonitorStop := by
  refine keeps_get.bind fun s => keeps_ite (fun _ => OfCore.outcomePass) fun _ => ?_
  exact keeps_monitorUnsubscribeAll_labelled.bind fun _ =>
    (keeps_windowOpen_labelled _).bind fun _ =>
      OfCore.outcomePass.bind fun _ => OfCore.withServices _

/-- And a reset. -/
theorem keeps_resetSubscriptions_labelled : Keeps (Attributed Labelled) resetSubscriptions := by
  have hst := stable_labelled
  refine keeps_get.bind fun s => Keeps.bind (keeps_when fun _ => ?_) fun _ => ?_
  · exact (hst.gattCall _).bind fun _ => keeps_pure ()
  refine Keeps.bind (hst.modify fun _ => rfl) fun _ => keeps_get.bind fun s => ?_
  refine Keeps.bind (keeps_when fun _ => ?_) fun _ => ?_
  · exact keeps_each fun slot _ => keeps_unsubscribeSlot_labelled slot
  refine Keeps.bind (keeps_modify fun _ hs => ⟨Labelled.uncounted rfl, hs.told⟩) fun _ => ?_
  exact hst.modify fun _ => rfl

/-- So every command keeps the labels right. -/
theorem keeps_act_labelled (rounds : Nat) (command : Command) :
    Keeps (Attributed Labelled) (command.act rounds) :=
  stable_labelled.act keeps_executeGattMonitorWindow_labelled
    keeps_executeGattMonitorWindowStart_labelled keeps_executeGattMonitorStop_labelled
    keeps_resetSubscriptions_labelled rounds command

/-! ## Runs -/

/-- In every run and in whatever has come of a further episode, a notification carries the
characteristic it was subscribed to just when the table is current. -/
theorem carries_iff_current {s : BridgeState}
    (h : Reaches BridgeState.next (fun _ _ => True) .initial s) (t : Episode) {on : Armed}
    {index : Option UInt16} {table : List Label} {entry : TranscriptEntry}
    (hmark : .delivered on index table entry ∈ (s.after t).log) :
    Carries on entry ↔ Current on index table := by
  have hs : Attributed Labelled s := by
    refine h.invariant (Attributed Labelled) ⟨?_, ?_⟩ ?_
    · exact fun _ ha => absurd ha List.not_mem_nil
    · exact fun _ hm => absurd hm List.not_mem_nil
    · intro s s' t hs _ hstep
      obtain ⟨_, _, rfl⟩ := Option.map_eq_some_iff.mp hstep
      exact keeps_act_labelled t.rounds t.command t.host s hs
  exact (keeps_act_labelled t.rounds t.command t.host s hs).told _ hmark

/-- The peer is connected to and a window opened over two characteristics; the second one
notifies at the given turn. -/
def openOverTwo (turn : Nat) : List (Nat × List HostEvent) :=
  [(turn, [.notified (.monitor 1) (some [7]), .cccAnswer 0]), (1, sampleConnect),
    (6, sampleService),
    (8, .characteristic 6 btGattChrcNotify (.uuid16 0x2a38) :: sampleCharacteristic),
    (10, [.cccAnswer 0]), (12, [.cccAnswer 0])]

/-- A notification that arrives once the window is open is told right. -/
theorem carries_iff_current_idle : ∃ (s : BridgeState) (t : Episode) (on : Armed)
    (index : Option UInt16) (table : List Label) (entry : TranscriptEntry),
    .delivered on index table entry ∈ (s.after t).log ∧ index = some 1 ∧
      (Carries on entry ↔ Current on index table) := by
  have hplay : ((play BridgeState.next (fun _ _ => True) .initial
      [.scripted (openOverTwo 14) (.connect .central none none),
        .scripted (openOverTwo 14) .gattMonitorStart]).any fun s =>
      (s.after ⟨.idle, .scripted (openOverTwo 14), 0⟩).log.any fun
        | .delivered _ index _ _ => index = some 1
        | _ => false) = true := by
    decide +kernel
  obtain ⟨s, hs, hany⟩ := (Option.any_eq_true _ _).mp hplay
  obtain ⟨m, hm, hindex⟩ := List.any_eq_true.mp hany
  cases m with
  | delivered on index table entry =>
    exact ⟨s, _, on, index, table, entry, hm, of_decide_eq_true hindex,
      carries_iff_current (reaches_of_play .start hs) _ hm⟩
  | _ => exact absurd hindex Bool.false_ne_true

/-- A notification that arrives while its CCC write is waited for is told as the first
characteristic's. -/
theorem not_carries_early : ∃ s, Reaches BridgeState.next (fun _ _ => True) .initial s ∧
    ∃ on index table entry, .delivered on index table entry ∈ s.log ∧ ¬ Carries on entry := by
  have hplay : ((play BridgeState.next (fun _ _ => True) .initial
      [.scripted (openOverTwo 12) (.connect .central none none),
        .scripted (openOverTwo 12) .gattMonitorStart]).any fun s => s.log.any fun
        | .delivered on _ _ entry => ¬ Carries on entry
        | _ => false) = true := by
    decide +kernel
  obtain ⟨s, hs, hany⟩ := (Option.any_eq_true _ _).mp hplay
  obtain ⟨m, hm, hwrong⟩ := List.any_eq_true.mp hany
  cases m with
  | delivered on index table entry =>
    exact ⟨s, reaches_of_play .start hs, on, index, table, entry, hm, of_decide_eq_true hwrong⟩
  | _ => exact absurd hwrong Bool.false_ne_true

end DevBench.Bridge
