import DevBench.Bridge.Stable
import DevBench.Core.Machine

/-!
# Which subscriptions are armed

The monitor's slots, its count and its flag against the host's list of subscriptions. The
count starts over with every window, whatever is armed, and a selective window that fails
its target check ends its step with what it subscribed to. Where neither happens with a
slot armed, the count and the flag account for every armed slot.
-/

namespace DevBench.Bridge

open DevBench.Core DevBench.Core.Program DevBench.Eap DevBench.Bench DevBench.Wire

/-- Neither does the count start over nor a target check fail with a slot armed. -/
def Mark.Orderly : Mark → Prop
  | recounted armed | missed armed => armed = false
  | _ => True

/-- A slot that is zeroed is not armed. -/
def Mark.Unarmed : Mark → Prop
  | zeroed _ armed => armed = false
  | _ => True

instance : DecidablePred Mark.Orderly := fun m => by
  cases m <;> unfold Mark.Orderly <;> infer_instance

/-- The armed slots are as they should be, there are none without a connection, and none has
been zeroed. -/
structure Accounted (good : Monitor → List Armed → Prop) (s : BridgeState) : Prop where
  good : good s.monitor s.armed
  up : s.armed ≠ [] → s.live = true
  unarmed : ∀ m ∈ s.log, m.Unarmed

/-- The account holds of a run that has been orderly so far. -/
abbrev Ledger (good : Monitor → List Armed → Prop) : BridgeState → Prop :=
  Provided Mark.Orderly (Accounted good)

/-- Every armed slot counts, and there is none where the monitor is as described. -/
def Counted (closed : Monitor → Prop) (m : Monitor) (armed : List Armed) : Prop :=
  (∀ a ∈ armed, a.slot < m.count) ∧ (closed m → armed = [])

/-- Every armed slot is one of these. -/
def Within (slots : List Nat) (_ : Monitor) (armed : List Armed) : Prop :=
  ∀ a ∈ armed, a.slot ∈ slots

/-- The next slot is `k`, and every armed one comes before it, or is it. -/
def Next (own : Prop) (k : Nat) (m : Monitor) (armed : List Armed) : Prop :=
  m.count = k ∧ ∀ a ∈ armed, a.slot < k ∨ own ∧ a.slot = k

/-- Nothing is armed. -/
def NoneArmed (_ : Monitor) (armed : List Armed) : Prop := armed = []

variable {good good' : Monitor → List Armed → Prop}

/-- More may be known of the slots than is asked for. -/
theorem Accounted.mono {s : BridgeState} (h : Accounted good s)
    (hle : good s.monitor s.armed → good' s.monitor s.armed) : Accounted good' s :=
  ⟨hle h.good, h.up, h.unarmed⟩

/-- A mark of no slot that is armed. -/
theorem Accounted.push {s : BridgeState} {m : Mark} (h : Accounted good s) (hm : m.Unarmed) :
    Accounted good (s.push m) :=
  ⟨h.good, h.up, List.forall_mem_cons.mpr ⟨hm, h.unarmed⟩⟩

/-- The same while no target was missed. -/
theorem Ledger.mono {s : BridgeState} (h : Ledger good s)
    (hle : good s.monitor s.armed → good' s.monitor s.armed) : Ledger good' s :=
  h.change rfl fun hs => hs.mono hle

/-- And the same for a mark. -/
theorem Ledger.push {s : BridgeState} {m : Mark} (h : Ledger good s) (hm : m.Unarmed) :
    Ledger good (s.push m) := Provided.push h fun _ hs => hs.push hm

/-- The account is kept by everything but the monitors, since it holds of no slots at all. -/
theorem stable_ledger (hnil : ∀ m armed, good m armed → good m []) : Stable (Ledger good) where
  same := by
    intro s s' hcore hs
    simp only [BridgeState.core, Prod.mk.injEq] at hcore
    obtain ⟨hmonitor, harmed, -, hconn, hlog⟩ := hcore
    refine hs.change hlog fun hs => ⟨?_, ?_, ?_⟩
    · rw [hmonitor, harmed]
      exact hs.good
    · rw [harmed, BridgeState.live, hconn]
      exact hs.up
    · rw [hlog]
      exact hs.unarmed
  quiet := by
    intro s m hm hs
    cases m <;> first | exact hs.push trivial | exact hm.elim
  idle := fun _ _ hs => hs.push trivial
  up := fun _ _ hs => hs.change rfl fun hs => ⟨hs.good, fun _ => rfl, hs.unarmed⟩
  down := fun hs => hs.change rfl fun hs =>
    ⟨hnil _ _ hs.good, fun h => absurd rfl h, hs.unarmed⟩
  delivered := fun _ _ _ hs => Ledger.push (hs.push trivial) trivial
  gatt := fun _ hs => hs.push trivial
  waited := fun _ _ hs => hs.push trivial
  sources := fun _ hs => hs.change rfl fun hs => ⟨hs.good, hs.up, hs.unarmed⟩

/-- With no slot armed every count is right. -/
theorem counted_nil {closed : Monitor → Prop} :
    ∀ m armed, Counted closed m armed → Counted closed m [] := fun _ _ _ =>
  ⟨fun _ ha => absurd ha List.not_mem_nil, fun _ => rfl⟩

/-- And every list of slots will do. -/
theorem within_nil {slots : List Nat} : ∀ m armed, Within slots m armed → Within slots m [] :=
  fun _ _ _ _ ha => absurd ha List.not_mem_nil

/-- And any slot may be next. -/
theorem next_nil {own : Prop} {k : Nat} : ∀ m armed, Next own k m armed → Next own k m [] :=
  fun _ _ h => ⟨h.1, fun _ ha => absurd ha List.not_mem_nil⟩

/-- And none is armed. -/
theorem noneArmed_nil : ∀ m armed, NoneArmed m armed → NoneArmed m [] := fun _ _ _ => rfl

/-- So the count is right whatever it is. -/
theorem NoneArmed.counted {closed : Monitor → Prop} {m : Monitor} {armed : List Armed}
    (h : NoneArmed m armed) : Counted closed m armed := by
  cases h
  exact ⟨fun _ ha => absurd ha List.not_mem_nil, fun _ => rfl⟩

/-- It may be asked for in fewer monitors. -/
theorem counted_mono {closed closed' : Monitor → Prop} {m : Monitor} {armed : List Armed}
    (h : Counted closed m armed) (hle : closed' m → closed m) : Counted closed' m armed :=
  ⟨h.1, fun hm => h.2 (hle hm)⟩

/-! ## Ending subscriptions -/

/-- A slot that is disarmed is not among those left. -/
theorem triple_disarm {slot : Nat} {slots : List Nat} :
    Triple (Ledger (Within (slot :: slots))) (disarm slot) fun _ => Ledger (Within slots) := by
  refine triple_modify fun s hs => ?_
  refine hs.change rfl fun hs => ⟨fun a ha => ?_, fun hne => ?_, hs.unarmed⟩
  · obtain ⟨ha, hslot⟩ := List.mem_filter.mp ha
    exact (List.mem_cons.mp (hs.good a ha)).resolve_left (of_decide_eq_true hslot)
  · exact hs.up fun hnil => hne (by rw [hnil, List.filter_nil])

/-- The first of the slots is ended, and none but the others are armed. -/
theorem triple_unsubscribeSlot {slot : Nat} {slots : List Nat} :
    Triple (Ledger (Within (slot :: slots))) (unsubscribeSlot slot) fun _ =>
      Ledger (Within slots) :=
  Triple.bind ((stable_ledger within_nil).gattCall _) fun _ => triple_disarm

/-- A program that ends the subscription of a slot, for every slot. -/
theorem triple_each {act : Nat → Act Unit}
    (h : ∀ slot slots, Triple (Ledger (Within (slot :: slots))) (act slot) fun _ =>
      Ledger (Within slots)) :
    ∀ slots, Triple (Ledger (Within slots)) (each act slots) fun _ => Ledger (Within [])
  | [] => triple_pure fun _ => id
  | slot :: slots => (h slot slots).bind fun _ => triple_each h slots

/-- The slots in front of the count are all that may be armed. -/
theorem within_range {closed : Monitor → Prop} {m : Monitor} {armed : List Armed}
    (h : Counted closed m armed) : Within (List.range m.count) m armed := fun a ha =>
  List.mem_range.mpr (h.1 a ha)

/-- With no slot left none is. -/
theorem Within.noneArmed {m : Monitor} {armed : List Armed} (h : Within [] m armed) :
    NoneArmed m armed := List.eq_nil_iff_forall_not_mem.mpr fun a ha => nomatch h a ha

/-- So none is armed when all are ended. -/
theorem triple_monitorUnsubscribeAll {closed : Monitor → Prop} :
    Triple (Ledger (Counted closed)) monitorUnsubscribeAll fun _ => Ledger NoneArmed := by
  have hone : ∀ slot slots, Triple (Ledger (Within (slot :: slots))) (unsubscribeCounted slot)
      fun _ => Ledger (Within slots) := by
    intro slot slots
    refine Triple.bind (keeps_get) fun s => triple_unsubscribeSlot.bind fun _ => ?_
    exact (stable_ledger within_nil).transcriptEmit _ _ _ _ _ _
  refine triple_get fun s => Triple.bind (q := fun _ => Ledger (Within [])) ?_ fun _ => ?_
  · refine (triple_each hone _).weaken ?_
    rintro _ ⟨rfl, hs⟩
    exact hs.mono within_range
  · exact triple_modify fun s hs => hs.change rfl fun hs =>
      ⟨hs.good.noneArmed, hs.up, hs.unarmed⟩

/-! ## Making subscriptions -/

/-- The next slot is armed only by a host that took it on, so only with a connection. -/
theorem triple_subscribeSlot {k : Nat} {label : Label} {handle value : UInt16} :
    Triple (Ledger (Next False k)) (subscribeSlot k label handle value) fun err s =>
      if err = 0 ∨ err = ealready then Ledger (Next True k) s else Ledger (Next False k) s := by
  refine Triple.bind ((stable_ledger next_nil).gattCall_live _) fun err => ?_
  rintro host s ⟨hs, hlive⟩
  by_cases herr : err = 0 ∨ err = ealready
  · have harm : Ledger (Next True k) (arm k label host s).2 := by
      refine hs.change rfl fun hs => ⟨⟨hs.good.1, fun a ha => ?_⟩, fun _ => ?_, hs.unarmed⟩
      · rcases List.mem_cons.mp ha with rfl | ha
        · exact .inr ⟨trivial, rfl⟩
        · exact .inl ((hs.good.2 a (List.mem_of_mem_filter ha)).resolve_right fun h => h.1)
      · refine hlive.resolve_right fun h => ?_
        rw [h] at herr
        exact absurd herr (by decide)
    simp only [when, if_pos herr]
    exact (if_pos herr).mpr harm
  · simp only [when, if_neg herr]
    exact (if_neg herr).mpr hs

/-- A subscription that was not answered is given up. -/
theorem triple_abandonSlot {k : Nat} :
    Triple (Ledger (Next True k)) (abandonSlot k) fun _ => Ledger (Next False k) := by
  refine triple_get fun s => triple_ite (fun _ => ?_) fun hdown => ?_
  · refine triple_modify fun s hs => ?_
    refine hs.2.change rfl fun hs => ⟨⟨hs.good.1, fun a ha => ?_⟩, fun hne => ?_, hs.unarmed⟩
    · obtain ⟨ha, hslot⟩ := List.mem_filter.mp ha
      exact .inl ((hs.good.2 a ha).resolve_right fun h => of_decide_eq_true hslot h.2)
    · exact hs.up fun hnil => hne (by rw [hnil, List.filter_nil])
  · refine triple_pure ?_
    rintro _ ⟨rfl, hs⟩
    refine hs.change rfl fun hs => ⟨⟨hs.good.1, fun a ha => ?_⟩, hs.up, hs.unarmed⟩
    exact absurd (hs.up (List.ne_nil_of_mem ha)) hdown

/-- The slot that was armed last is counted. -/
theorem triple_recordSlot {k : Nat} {place : Nat × Nat} :
    Triple (Ledger (Next True k)) (recordSlot place) fun _ =>
      Ledger (Counted fun _ => False) := by
  refine triple_modify fun s hs => ?_
  refine hs.change rfl fun hs => ⟨⟨fun a ha => ?_, False.elim⟩, hs.up, hs.unarmed⟩
  have hcount : s.monitor.count = k := hs.good.1
  rcases hs.good.2 a ha with hlt | ⟨_, heq⟩
  · exact Nat.lt_succ_of_lt (hcount ▸ hlt)
  · exact Nat.lt_succ_of_le (Nat.le_of_eq (heq.trans hcount.symm))

/-- A slot that was not armed need not be. -/
theorem Next.counted {k : Nat} {m : Monitor} {armed : List Armed} (h : Next False k m armed) :
    Counted (fun _ => False) m armed :=
  ⟨fun a ha => h.1 ▸ (h.2 a ha).resolve_right fun h => h.1, False.elim⟩

/-- The next slot is never armed, so what is zeroed is not. -/
theorem keeps_subscribeCharacteristic (place : Nat × Nat) (service : FoundService)
    (c : FoundCharacteristic) (another : Bool) :
    Keeps (Ledger (Counted fun _ => False))
      (subscribeCharacteristic place service c another) := by
  have hfresh (k : Nat) : Stable (Ledger (Next False k)) := stable_ledger next_nil
  have hown (k : Nat) : Stable (Ledger (Next True k)) := stable_ledger next_nil
  have hleave (k : Nat) (reason : String) : Triple (Ledger (Next False k))
      (transcriptEmit bleGattDirLocal bleGattEvtError (some service.uuid) (some c.info.uuid) 0
        (ascii reason)) fun _ => Ledger (Counted fun _ => False) :=
    ((hfresh k).transcriptEmit _ _ _ _ _ _).strengthen fun _ s hs => hs.mono Next.counted
  refine triple_get fun s => triple_ite (fun _ => ?_) fun _ => ?_
  · exact ((stable_ledger counted_nil).transcriptEmit _ _ _ _ _ _).weaken fun _ hs => hs.2
  · have hzeroed : Triple (fun s' => s' = s ∧ Ledger (Counted fun _ => False) s')
        (note (.zeroed s.monitor.count (s.isArmed s.monitor.count))) fun _ =>
          Ledger (Next False s.monitor.count) := by
      rintro host _ ⟨rfl, hs⟩
      refine Provided.push hs fun _ hs => (hs.mono fun hgood => ?_).push ?_
      · exact ⟨rfl, fun a ha => .inl (hgood.1 a ha)⟩
      · refine List.any_eq_false.mpr fun a ha => ?_
        simp only [beq_iff_eq]
        exact Nat.ne_of_lt (hs.good.1 a ha)
    refine hzeroed.bind fun _ => Triple.bind (hfresh _).armCcc fun _ => ?_
    refine triple_subscribeSlot.bind fun err => ?_
    by_cases herr : err = 0 ∨ err = ealready
    · simp only [if_pos herr]
      rw [if_neg fun h => herr.elim h.1 h.2]
      refine Triple.bind ((hown _).waitIf _ _ _) fun taken => triple_ite (fun _ => ?_) fun _ => ?_
      · exact triple_abandonSlot.bind fun _ => hleave _ _
      · exact Triple.bind ((hown _).transcriptEmit _ _ _ _ _ _) fun _ => triple_recordSlot
    · simp only [if_neg herr]
      rw [if_pos (not_or.mp herr)]
      exact hleave _ _

/-- Whatever the targets, the count stays right behind each place. -/
theorem keeps_visitAll (targets : List GattTarget) : ∀ places checks,
    Keeps (Ledger (Counted fun _ => False)) (visitAll targets checks places)
  | [], checks => keeps_pure checks
  | place :: places, checks => by
    refine keeps_get.bind fun s => Keeps.bind ?_ fun _ => keeps_visitAll targets places _
    refine keeps_get.bind fun s => ?_
    split
    · exact keeps_pure checks
    · split
      · exact keeps_pure checks
      · refine Keeps.bind (keeps_when fun _ => ?_) fun _ => keeps_pure _
        exact keeps_subscribeCharacteristic place _ _ _

/-- A mark that something is armed leaves nothing armed in an orderly run. -/
theorem triple_note_armed {s : BridgeState} (mark : Bool → Mark)
    (hok : (mark (!s.armed.isEmpty)).Orderly → (!s.armed.isEmpty) = false)
    (hm : (mark (!s.armed.isEmpty)).Unarmed) :
    Triple (fun s' => s' = s ∧ Ledger good s') (note (mark (!s.armed.isEmpty))) fun _ =>
      Ledger NoneArmed := by
  rintro host _ ⟨rfl, hs⟩
  refine Provided.push hs fun horderly hs => (hs.mono fun _ => ?_).push hm
  exact List.isEmpty_iff.mp (by simpa using hok horderly)

/-- A window that does not come about leaves no more than it found. -/
theorem triple_monitorSubscribeMatching (closed : Monitor → Prop) (targets : Targets) :
    Triple (Ledger (Counted closed)) (monitorSubscribeMatching targets) fun o =>
      Ledger (Counted fun m => o.kind ≠ .pass ∧ closed m) := by
  have hst : Stable (Ledger (Counted closed)) := stable_ledger counted_nil
  refine triple_get fun s => triple_ite (fun _ => ?_) fun _ => ?_
  · exact triple_pure fun s' hs => hs.2.mono fun h => counted_mono h And.right
  refine Triple.weaken (Triple.bind hst.runGattDiscovery fun discovered => ?_) fun _ hs => hs.2
  refine triple_ite (fun hfailed => ?_) fun _ => ?_
  · exact triple_pure fun s' hs => hs.mono fun h => counted_mono h And.right
  refine triple_get fun s => ?_
  refine (triple_note_armed .recounted id trivial).bind fun _ => ?_
  refine Triple.bind (q := fun _ => Ledger (Counted fun _ => False)) ?_ fun _ => ?_
  · exact triple_modify fun s hs => hs.change rfl fun hs =>
      ⟨NoneArmed.counted hs.good, hs.up, hs.unarmed⟩
  refine Triple.bind (keeps_visitAll _ _ _) fun checks => ?_
  split
  · refine triple_get fun s => ?_
    refine (triple_note_armed .missed id trivial).bind fun _ => ?_
    exact triple_pure fun s hs => hs.mono NoneArmed.counted
  · exact fun host s hs => hs.mono fun h => ⟨h.1, fun hm => absurd rfl hm.1⟩

/-! ## The monitor actions -/

/-- While no window is open nothing is armed. -/
abbrev Closed (m : Monitor) : Prop := m.windowOpen = false

/-- A window ends the slots it has counted. -/
theorem keeps_executeGattMonitorWindow (targets : Targets) :
    Keeps (Ledger (Counted Closed)) (executeGattMonitorWindow targets) := by
  have hst (q : Monitor → Prop) : Stable (Ledger (Counted q)) := stable_ledger counted_nil
  have hnone : Stable (Ledger NoneArmed) := stable_ledger noneArmed_nil
  have hleave {o : BridgeOutcome} : Triple (Ledger NoneArmed) (pure o : Act BridgeOutcome)
      fun _ => Ledger (Counted Closed) := triple_pure fun s hs => hs.mono NoneArmed.counted
  refine (triple_monitorSubscribeMatching Closed targets).bind fun o => ?_
  refine triple_ite (fun hfailed => ?_) fun _ => ?_
  · exact triple_pure fun s hs => hs.mono fun h => counted_mono h fun hm => ⟨hfailed, hm⟩
  refine Triple.bind ((hst _).modify fun _ => rfl) fun _ => Triple.bind ((hst _).clear _)
    fun _ => ?_
  refine Triple.bind keeps_get fun s => Triple.bind ((hst _).wait _ _) fun dropped => ?_
  refine triple_monitorUnsubscribeAll.bind fun _ => ?_
  refine Triple.strengthen (q := fun _ => Ledger NoneArmed) ?_ fun _ s hs =>
    hs.mono NoneArmed.counted
  exact keeps_ite (fun _ => OfCore.outcomeDisconnected _) fun _ =>
    Keeps.bind OfCore.outcomePass fun _ => OfCore.withServices _

/-- So does the stop of an open one. -/
theorem keeps_executeGattMonitorStop :
    Keeps (Ledger (Counted Closed)) executeGattMonitorStop := by
  refine keeps_get.bind fun s => triple_ite (fun _ => OfCore.outcomePass) fun _ => ?_
  refine triple_monitorUnsubscribeAll.bind fun _ => ?_
  refine Triple.bind (q := fun _ => Ledger (Counted Closed)) ?_ fun _ =>
    Keeps.bind OfCore.outcomePass fun _ => OfCore.withServices _
  exact triple_modify fun s hs => hs.change rfl fun hs =>
    ⟨NoneArmed.counted hs.good, hs.up, hs.unarmed⟩

/-- A window that is opened over another one ends that one's subscriptions first. -/
theorem keeps_executeGattMonitorWindowStart (targets : Targets) :
    Keeps (Ledger (Counted Closed)) (executeGattMonitorWindowStart targets) := by
  have hends (s : BridgeState) : Triple (fun s' => s' = s ∧ Ledger (Counted Closed) s')
      (when s.monitor.windowOpen monitorUnsubscribeAll)
      fun _ => Ledger (Counted fun _ => True) := by
    refine triple_ite (fun _ => ?_) fun hclosed => triple_pure ?_
    · exact (triple_monitorUnsubscribeAll.conseq (fun _ hs => hs.2)) fun _ s hs =>
        hs.mono NoneArmed.counted
    · rintro _ ⟨rfl, hs⟩
      exact hs.mono fun h => NoneArmed.counted (h.2 (Bool.eq_false_of_not_eq_true hclosed))
  refine triple_get fun s => (hends s).bind fun _ => ?_
  refine (triple_monitorSubscribeMatching _ targets).bind fun o => ?_
  refine triple_ite (fun hfailed => ?_) fun _ => ?_
  · refine Triple.bind (q := fun _ => Ledger (Counted Closed)) ?_ fun _ => keeps_pure o
    exact triple_modify fun s hs => hs.change rfl fun hs =>
      ⟨NoneArmed.counted (hs.good.2 ⟨hfailed, trivial⟩), hs.up, hs.unarmed⟩
  · refine Triple.bind (q := fun _ => Ledger (Counted Closed)) ?_ fun _ =>
      Keeps.bind OfCore.outcomePass fun _ => OfCore.withServices _
    exact triple_modify fun s hs => hs.change rfl fun hs =>
      ⟨⟨hs.good.1, nofun⟩, hs.up, hs.unarmed⟩

/-- The reset has ended them before it zeroes the count. -/
theorem keeps_resetSubscriptions : Keeps (Ledger (Counted Closed)) resetSubscriptions := by
  have hst : Stable (Ledger (Counted Closed)) := stable_ledger counted_nil
  have hends (s : BridgeState) : Triple (fun s' => s' = s ∧ Ledger (Counted Closed) s')
      (when s.live (each unsubscribeSlot (List.range s.monitor.count))) fun _ =>
        Ledger NoneArmed := by
    refine triple_ite (fun _ => ?_) fun hdown => triple_pure ?_
    · refine (triple_each (fun _ _ => triple_unsubscribeSlot) _).conseq ?_ fun _ s hs =>
        hs.mono Within.noneArmed
      rintro _ ⟨rfl, hs⟩
      exact hs.mono within_range
    · rintro _ ⟨rfl, hs⟩
      exact hs.change rfl fun hs =>
        ⟨Classical.not_not.mp fun hne => hdown (hs.up hne), hs.up, hs.unarmed⟩
  have hexchange : Keeps (Ledger (Counted Closed)) unsubscribeExchange :=
    (hst.gattCall _).bind fun _ => keeps_pure ()
  refine keeps_get.bind fun s => Keeps.bind (keeps_when fun _ => hexchange) fun _ => ?_
  refine Keeps.bind (hst.modify fun _ => rfl) fun _ => triple_get fun s => (hends s).bind
    fun _ => ?_
  refine Triple.bind (q := fun _ => Ledger (Counted Closed)) ?_ fun _ => hst.modify fun _ => rfl
  exact triple_modify fun s hs => hs.change rfl fun hs =>
    ⟨NoneArmed.counted hs.good, hs.up, hs.unarmed⟩

/-- So with every command. -/
theorem keeps_act (rounds : Nat) (command : Command) :
    Keeps (Ledger (Counted Closed)) (command.act rounds) :=
  (stable_ledger counted_nil).act keeps_executeGattMonitorWindow
    keeps_executeGattMonitorWindowStart keeps_executeGattMonitorStop keeps_resetSubscriptions
    rounds command

/-! ## Runs -/

/-- The episode is orderly, so far as it has come. -/
def Orderly (s : BridgeState) (t : Episode) : Prop := ∀ m ∈ (s.after t).log, m.Orderly

/-- In every run whose episodes are all orderly the armed slots are accounted for in every
state reached, and none is zeroed on the way, nor in an episode that has not come to its
end. -/
theorem accounted_of_orderly {s : BridgeState}
    (h : Reaches BridgeState.next Orderly .initial s) :
    (∀ a ∈ s.armed, a.slot < s.monitor.count) ∧
      (s.monitor.windowOpen = false → s.armed = []) ∧
      ∀ t, Orderly s t → ∀ slot armed, .zeroed slot armed ∈ (s.after t).log → armed = false := by
  have hinv : Ledger (Counted Closed) s ∧ ∀ m ∈ s.log, m.Orderly := by
    refine h.invariant (fun s => Ledger (Counted Closed) s ∧ ∀ m ∈ s.log, m.Orderly) ?_ ?_
    · exact ⟨fun _ => ⟨⟨nofun, fun _ => rfl⟩, fun h => absurd rfl h, nofun⟩, nofun⟩
    · intro s s' t hs hok hstep
      obtain ⟨_, _, rfl⟩ := Option.map_eq_some_iff.mp hstep
      exact ⟨keeps_act t.rounds t.command t.host s hs.1, hok⟩
  obtain ⟨hledger, horderly⟩ := hinv
  have hs := hledger horderly
  refine ⟨hs.good.1, hs.good.2, fun t hok slot armed hmark => ?_⟩
  exact (keeps_act t.rounds t.command t.host s hledger hok).unarmed _ hmark

instance (s : BridgeState) (t : Episode) : Decidable (Orderly s t) :=
  inferInstanceAs (Decidable (∀ m ∈ (s.after t).log, m.Orderly))

/-- The peer is connected to and a window opened over its one characteristic; then all of it
is monitored once more. -/
def openTwice : List (Nat × List HostEvent) :=
  [(1, sampleConnect), (6, sampleService), (8, sampleCharacteristic), (10, [.cccAnswer 0]),
    (13, sampleService), (15, sampleCharacteristic)]

/-- A window that is opened leaves its one slot armed and accounted for. -/
theorem accounted_of_orderly_start : ∃ s, s.armed.map (·.slot) = [0] ∧
    ((∀ a ∈ s.armed, a.slot < s.monitor.count) ∧ (s.monitor.windowOpen = false → s.armed = []) ∧
      ∀ t, Orderly s t → ∀ slot armed, .zeroed slot armed ∈ (s.after t).log → armed = false) := by
  have hplay : ((play BridgeState.next Orderly .initial
      [.scripted openTwice (.connect .central none none),
        .scripted openTwice .gattMonitorStart]).any fun s => s.armed.map (·.slot) = [0])
          = true := by
    decide +kernel
  obtain ⟨s, hs, harmed⟩ := (Option.any_eq_true _ _).mp hplay
  exact ⟨s, of_decide_eq_true harmed, accounted_of_orderly (reaches_of_play .start hs)⟩

/-- Monitoring everything while a window is open zeroes a slot that is armed. -/
theorem zeroed_armed : ∃ s, Reaches BridgeState.next (fun _ _ => True) .initial s ∧
    .zeroed 0 true ∈ s.log := by
  have hplay : ((play BridgeState.next (fun _ _ => True) .initial
      [.scripted openTwice (.connect .central none none),
        .scripted openTwice .gattMonitorStart, .scripted openTwice .gattMonitorAll]).any fun s =>
        .zeroed 0 true ∈ s.log) = true := by
    decide +kernel
  obtain ⟨s, hs, hzeroed⟩ := (Option.any_eq_true _ _).mp hplay
  exact ⟨s, reaches_of_play .start hs, of_decide_eq_true hzeroed⟩

end DevBench.Bridge
