import DevBench.Eap.Language

/-!
# Outlines of protocols

Assertions hung at the states of a protocol, checked move by move, show what holds over
every run of the interpreter and what every write it asks for carries; nothing that
holds needs more than that. The transitions a protocol declares form a graph, and it
bounds where a run comes, how it can end and which variables it can change.
-/

namespace DevBench.Eap

open DevBench.Core Relation

variable {defn : ProtocolDef} {entryState : UInt8} {start : EapRun}

/-- What is asserted of the states holds over every run, whatever the events, if and only if
some checked outline shows it. -/
theorem holds_played_iff (h : Starts defn entryState start) (o : Outline UInt8 Memory) :
    (∀ evs, o.Holds (start.played evs).resting) ↔
      ∃ o', defn.flowchart.Checked o' ∧ o'.Holds (defn.begin entryState) ∧ o'.Implies o := by
  rw [← Flowchart.holds_play_iff]
  simp only [resting_played h.start]

/-! ## What is written -/

/-- A write the instruction asks for is as required. -/
def EapStep.Writes (W : UInt8 → List UInt8 → Prop) : EapStep → Prop
  | write source _ payload _ => W source payload
  | wait _ => True
  | done _ _ => True

/-- Entering the state with this memory writes as required. -/
def ProtocolDef.Sends (defn : ProtocolDef) (W : UInt8 → List UInt8 → Prop) (s : UInt8)
    (m : Memory) : Prop :=
  match defn.kindOf s with
  | .active (some w) _ _ => defn.ends s = false → W w.source (w.payload m.session)
  | .active none _ _ => True
  | .terminal _ => True

/-- What the entry of a state writes, the state sends. -/
theorem writes_entry (W : UInt8 → List UInt8 → Prop) (s : UInt8) (m : Memory) :
    (defn.entry s m.session).Writes W ↔ defn.Sends W s m := by
  rw [ProtocolDef.Sends]
  cases hkind : defn.kindOf s with
  | terminal outcome =>
    cases outcome with
    | pass =>
      obtain ⟨name, hentry⟩ := entry_pass hkind m.session
      simp only [hentry, EapStep.Writes]
    | fail =>
      obtain ⟨name, reason, hentry⟩ := entry_fail hkind m.session
      simp only [hentry, EapStep.Writes]
  | active onEnter arms timeout =>
    cases hends : defn.ends s with
    | true =>
      obtain ⟨name, reason, hentry⟩ := entry_refused hkind hends m.session
      cases onEnter <;> simp [hentry, EapStep.Writes]
    | false =>
      rw [entry_active hkind hends]
      cases onEnter <;> simp [entryStep, EapStep.Writes]

/-- What an instruction writes, a state entered by it sends. -/
theorem writes_instruction (W : UInt8 → List UInt8 → Prop) {c : Resting UInt8 Memory}
    (hc : c.ended = false) (ev : Event) :
    (defn.instruction c ev).Writes W ↔
      ∀ e ∈ defn.flowchart.entered c ev, defn.Sends W e.1 e.2 := by
  simp only [ProtocolDef.instruction, Flowchart.entered, hc, Bool.false_eq_true, if_false,
    ProtocolDef.flowchart]
  rcases (defn.move c.location ev).run c.store with ⟨m, _ | s⟩
  · simp [EapStep.Writes]
  · simp [writes_entry]

/-- A run that has ended enters nothing. -/
theorem entered_ended {c : Resting UInt8 Memory} (hc : c.ended = true) (ev : Event) :
    defn.flowchart.entered c ev = none := if_pos hc

/-- Every write that any run asks for is as required if and only if an outline shows it, whose
moves enter their states with what has to be written there. -/
theorem writes_played_iff (h : Starts defn entryState start) (W : UInt8 → List UInt8 → Prop) :
    ((eapRunEnter start).value.2.Writes W ∧ ∀ evs ev, (start.played evs).finished = false →
        (eapRunOnEvent (start.played evs) ev).value.2.Writes W) ↔
      defn.Sends W entryState ⟨defn.sessionInitial.items, 0⟩ ∧
        ∃ o, defn.flowchart.CheckedEntering o (defn.Sends W) ∧
          o.Holds (defn.begin entryState) := by
  have hstart := h.start
  rw [(entered_sound hstart).2.2.2, ← Flowchart.entered_iff]
  apply and_congr (writes_entry W entryState ⟨defn.sessionInitial.items, 0⟩)
  apply forall_congr'
  intro evs
  have hfinished := finished_played hstart evs
  apply forall_congr'
  intro ev
  cases hgoes : (start.played evs).finished with
  | true =>
    rw [hgoes] at hfinished
    simp [entered_ended hfinished.symm]
  | false =>
    rw [hgoes] at hfinished
    rw [instruction_played hstart evs ev hgoes, writes_instruction W hfinished.symm ev]
    simp

/-! ## The graph of the transitions -/

/-- The states that a state declares transitions to. -/
def StateKind.targets : StateKind → List UInt8
  | active _ arms timeout =>
    (arms.items.flatMap fun arm =>
      arm.guards.items.map GuardedGoto.gotoState ++ arm.otherwise.toList) ++
        timeout.toList.map TimeoutArm.gotoState
  | terminal _ => []

/-- The protocol declares a transition from one state to another. -/
def ProtocolDef.Leads (defn : ProtocolDef) (s t : UInt8) : Prop := t ∈ (defn.kindOf s).targets

/-- The transitions of a closed protocol lead from declared states to declared ones. -/
theorem ProtocolDef.Closed.lt_of_leads (hclosed : defn.Closed) {s t : UInt8}
    (hs : s.toNat < defn.states.items.length) (h : defn.Leads s t) :
    t.toNat < defn.states.items.length := by
  have hkind := hclosed _ (List.getElem_mem hs)
  rw [ProtocolDef.Leads, ProtocolDef.kindOf, List.getD_eq_getElem _ _ hs] at h
  cases hstate : (defn.states.items[s.toNat]).kind with
  | terminal outcome =>
    rw [hstate] at h
    exact absurd h List.not_mem_nil
  | active onEnter arms timeout =>
    rw [hstate] at h hkind
    simp only [StateKind.targets, List.mem_append, List.mem_flatMap, List.mem_map,
      Option.mem_toList] at h
    rcases h with ⟨arm, harm, ⟨g, hg, rfl⟩ | hother⟩ | ⟨arm, harm, rfl⟩
    · exact (hkind.1 arm harm).1 g hg
    · exact (hkind.1 arm harm).2 t hother
    · exact hkind.2 arm harm

/-- Every state on a way from a declared one is declared. -/
theorem ProtocolDef.Closed.lt_of_path (hclosed : defn.Closed) {s t : UInt8}
    (hs : s.toNat < defn.states.items.length) (h : ReflTransGen defn.Leads s t) :
    t.toNat < defn.states.items.length := by
  induction h with
  | refl => exact hs
  | tail _ hleads ih => exact hclosed.lt_of_leads ih hleads

/-- Some arm of the state remembers the variable. -/
def StateKind.Remembers (v : Nat) : StateKind → Prop
  | active _ arms _ => Remembered arms.items v
  | terminal _ => False

/-- The arm that answers is one of those given. -/
theorem armOf_mem {arms : List EventArm} {source : UInt8} {payload : List UInt8} {frame : Frame}
    {arm : EventArm} (h : defn.armOf arms source payload = some (frame, arm)) : arm ∈ arms := by
  simp only [ProtocolDef.armOf, Option.bind_eq_bind, Option.bind_eq_some_iff, Option.pure_def,
    Option.some.injEq, Prod.mk.injEq] at h
  obtain ⟨selected, -, arm', harm, -, rfl⟩ := h
  exact List.mem_of_find?_eq_some harm

/-- An arm goes where one of its guards or its `otherwise` does. -/
theorem mem_targets_eventArm {arm : EventArm} {frame : Frame} {payload : List UInt8} {t : UInt8} :
    t ∈ (arm.move frame payload).targets ↔
      t ∈ arm.guards.items.map GuardedGoto.gotoState ++ arm.otherwise.toList := by
  have htransition : ∀ target, t ∈ (transition target).targets ↔ t = target := by
    intro target
    simp [transition, Move.targets]
  rw [EventArm.move, Move.targets_stores, Move.mem_targets_firstOf, List.mem_append]
  apply or_congr
  · rw [List.mem_map]
    constructor
    · rintro ⟨g, hg, ht⟩
      obtain ⟨guard, hguard, rfl⟩ := List.mem_map.mp hg
      exact ⟨guard, hguard, ((htransition _).mp ht).symm⟩
    · rintro ⟨guard, hguard, rfl⟩
      exact ⟨_, List.mem_map.mpr ⟨guard, hguard, rfl⟩, (htransition _).mpr rfl⟩
  · cases arm.otherwise with
    | none => simp [Move.targets]
    | some target => simp [htransition]

/-- A move goes to its own state or along a declared transition. -/
theorem mem_targets_move {s t : UInt8} {ev : Event} (h : t ∈ (defn.move s ev).targets) :
    t = s ∨ defn.Leads s t := by
  rw [ProtocolDef.move] at h
  rw [ProtocolDef.Leads]
  cases hkind : defn.kindOf s with
  | terminal outcome => simp [hkind, Move.targets] at h
  | active onEnter arms timeout =>
    simp only [hkind] at h
    cases ev with
    | timeout =>
      cases timeout with
      | none => simp [Move.targets] at h
      | some arm =>
        simp only [TimeoutArm.move, transition, Move.targets, List.mem_append,
          List.mem_singleton] at h
        rcases h with rfl | rfl
        · exact .inl rfl
        · exact .inr (by simp [StateKind.targets])
    | notify source payload =>
      simp only at h
      cases harm : defn.armOf arms.items source payload with
      | none => simp [harm, Move.targets] at h
      | some selected =>
        obtain ⟨frame, arm⟩ := selected
        simp only [harm] at h
        refine .inr (List.mem_append_left _ (List.mem_flatMap.mpr ⟨arm, armOf_mem harm, ?_⟩))
        exact mem_targets_eventArm.mp h

/-- A way in the flowchart is one along the targets of the states. -/
theorem leads_of_path {s t : UInt8} (h : ReflTransGen defn.flowchart.Edge s t) :
    ReflTransGen defn.Leads s t := by
  induction h with
  | refl => exact .refl
  | tail _ hedge ih =>
    obtain ⟨ev, hev⟩ := hedge
    rcases mem_targets_move hev with rfl | hleads
    · exact ih
    · exact ih.tail hleads

/-- A run stands where the declared transitions lead. -/
theorem leads_played (hstart : eapRunStart defn entryState = some start) (evs : List Event) :
    ReflTransGen defn.Leads entryState (start.played evs).state := by
  have hpath :=
    leads_of_path (Flowchart.path_play (F := defn.flowchart) (defn.begin entryState) evs)
  rw [← resting_played hstart evs] at hpath
  exact hpath

/-! ## Variables -/

/-- A `remember` leaves every variable but its own. -/
theorem getD_remember {r : Remember} {v : Nat} (h : r.var.toNat ≠ v) (frame : Frame)
    (payload : List UInt8) (m : Memory) :
    (r.store frame payload m).session.getD v 0 = m.session.getD v 0 := by
  rw [Remember.store]
  split
  · rfl
  · rw [List.getD_eq_getElem?_getD, List.getD_eq_getElem?_getD, List.getElem?_set_ne h]

/-- A variable has its first value in every state that the transitions lead to. -/
def unchanged (defn : ProtocolDef) (entryState : UInt8) (v : Nat) : Outline UInt8 Memory :=
  let first := fun s (m : Memory) => ReflTransGen defn.Leads entryState s ∧
    m.session.getD v 0 = defn.sessionInitial.items.getD v 0
  ⟨first, first⟩

/-- The outline spelled out. -/
theorem unchanged_holds_iff {v : Nat} {c : Resting UInt8 Memory} :
    (unchanged defn entryState v).Holds c ↔ ReflTransGen defn.Leads entryState c.location ∧
      c.store.session.getD v 0 = defn.sessionInitial.items.getD v 0 := by
  rw [Outline.Holds]
  split <;> exact Iff.rfl

/-- The outline is checked where no state on the way remembers the variable. -/
theorem checked_unchanged {v : Nat}
    (hv : ∀ s, ReflTransGen defn.Leads entryState s → ¬ (defn.kindOf s).Remembers v) :
    defn.flowchart.Checked (unchanged defn entryState v) := by
  rintro s ev m ⟨hpath, hfirst⟩
  have henter : ∀ t m', defn.Leads s t →
      m'.session.getD v 0 = defn.sessionInitial.items.getD v 0 →
      (transition t).wp ((unchanged defn entryState v).rests s)
        (fun l s => (unchanged defn entryState v).Holds (defn.flowchart.enter l s)) m' := by
    intro t m' hleads hm'
    exact unchanged_holds_iff.mpr ⟨hpath.tail hleads, hm'⟩
  have hmove : defn.flowchart.move s ev = defn.move s ev := rfl
  rw [hmove, ProtocolDef.move]
  have hkeeps := hv s hpath
  cases hkind : defn.kindOf s with
  | terminal outcome => exact ⟨hpath, hfirst⟩
  | active onEnter arms timeout =>
    rw [hkind] at hkeeps
    have hleads : ∀ t, t ∈ (StateKind.active onEnter arms timeout).targets → defn.Leads s t := by
      intro t ht
      rwa [ProtocolDef.Leads, hkind]
    cases ev with
    | timeout =>
      cases timeout with
      | none => exact ⟨hpath, hfirst⟩
      | some arm =>
        refine ⟨fun _ => unchanged_holds_iff.mpr ⟨hpath, hfirst⟩, fun _ => ?_⟩
        exact henter _ m (hleads _ (by simp [StateKind.targets])) hfirst
    | notify source payload =>
      simp only
      cases harm : defn.armOf arms.items source payload with
      | none => exact ⟨hpath, hfirst⟩
      | some selected =>
        obtain ⟨frame, arm⟩ := selected
        have hmem := armOf_mem harm
        have htargets : ∀ t ∈ arm.guards.items.map GuardedGoto.gotoState ++ arm.otherwise.toList,
            defn.Leads s t := by
          intro t ht
          exact hleads t (List.mem_append_left _ (List.mem_flatMap.mpr ⟨arm, hmem, ht⟩))
        refine Move.wp_stores (p := fun m : Memory =>
          m.session.getD v 0 = defn.sessionInitial.items.getD v 0) ?_ ?_ hfirst
        · intro f hf m' hm'
          obtain ⟨r, hr, rfl⟩ := List.mem_map.mp hf
          have hother : r.var.toNat ≠ v := fun hvar => hkeeps ⟨arm, hmem, r, hr, hvar⟩
          exact (getD_remember hother frame payload m').trans hm'
        · intro m' hm'
          apply Move.wp_firstOf
          · intro g hg
            obtain ⟨guard, hguard, rfl⟩ := List.mem_map.mp hg
            exact henter _ m' (htargets _ (List.mem_append_left _
              (List.mem_map.mpr ⟨guard, hguard, rfl⟩))) hm'
          · cases hother : arm.otherwise with
            | none => exact ⟨hpath, hm'⟩
            | some target =>
              exact henter _ m' (htargets _ (List.mem_append_right _ (by simp [hother]))) hm'

/-- The graph of the declared transitions bounds every run: it stands in a declared state that
they lead to from its entry, it ends with a pass, on its entry or on an event, only if they lead to
a state that declares one, and a variable that no state on the way remembers keeps its first
value. -/
theorem graph_bounds_run (h : Starts defn entryState start) (evs : List Event) :
    ((start.played evs).StateInRange ∧
      ReflTransGen defn.Leads entryState (start.played evs).state) ∧
    (∀ name, (eapRunEnter start).value.2 = .done name .pass ∨
        (∃ ev, (start.played evs).finished = false ∧
          (eapRunOnEvent (start.played evs) ev).value.2 = .done name .pass) →
      ∃ s, ReflTransGen defn.Leads entryState s ∧ defn.kindOf s = .terminal .pass) ∧
    ∀ v, (∀ s, ReflTransGen defn.Leads entryState s → ¬ (defn.kindOf s).Remembers v) →
      (start.played evs).session.getD v 0 = defn.sessionInitial.items.getD v 0 := by
  have hstart := h.start
  refine ⟨⟨h.inRange_played evs, leads_played hstart evs⟩, ?_, ?_⟩
  · rintro name (hdone | ⟨ev, hfinished, hdone⟩)
    · rw [(entered_sound hstart).2.2.2] at hdone
      exact ⟨entryState, .refl, kindOf_of_entry_pass hdone⟩
    have hresting := resting_played hstart evs
    have hpath := leads_played hstart evs
    have hasks := instruction_played hstart evs ev hfinished
    rw [hdone, ← hresting] at hasks
    rcases hrun : (defn.move (start.played evs).resting.location ev).run
        (start.played evs).resting.store with ⟨m, _ | s⟩
    · simp [ProtocolDef.instruction, hrun] at hasks
    · simp only [ProtocolDef.instruction, hrun] at hasks
      have hmem : s ∈ (defn.move (start.played evs).state ev).targets := by
        apply Move.mem_targets _ (start.played evs).resting.store
        exact congrArg Prod.snd hrun
      have hs : ReflTransGen defn.Leads entryState s := by
        rcases mem_targets_move hmem with rfl | hleads
        · exact hpath
        · exact hpath.tail hleads
      exact ⟨s, hs, kindOf_of_entry_pass hasks.symm⟩
  · intro v hv
    have hbegin : (unchanged defn entryState v).Holds (defn.begin entryState) :=
      unchanged_holds_iff.mpr ⟨.refl, rfl⟩
    have hholds := (checked_unchanged hv).play hbegin evs
    rw [← resting_played hstart evs] at hholds
    exact (unchanged_holds_iff.mp hholds).2

/-- No state of it remembers the number it asks for. -/
theorem not_remembers_ping (s : UInt8) : ¬ (pingDef.kindOf s).Remembers 1 := by
  have hkind : pingDef.kindOf s = (pingDef.states.items.getD s.toNat EapRun.zeroState).kind := rfl
  rw [hkind]
  rcases s.toNat with _ | _ | _ | n
  · rintro ⟨arm, harm, r, hr, hvar⟩
    rw [List.mem_singleton.mp harm] at hr
    rw [List.mem_singleton.mp hr] at hvar
    exact absurd hvar (by decide)
  · exact id
  · exact id
  · rintro ⟨arm, harm, -⟩
    exact absurd harm List.not_mem_nil

/-- The number asked for stays what it is. -/
theorem holds_played_ping : (unchanged pingDef 0 1).Holds
    (pingStart.played [.timeout, .notify 0 [2], .timeout]).resting := by
  apply (holds_played_iff starts_ping _).mpr
  exact ⟨_, checked_unchanged fun s _ => not_remembers_ping s,
    unchanged_holds_iff.mpr ⟨.refl, rfl⟩, fun _ _ h => h, fun _ _ h => h⟩

/-- It is what a write asked for again carries. -/
theorem writes_played_ping :
    (eapRunOnEvent (pingStart.played [.notify 0 [2]]) .timeout).value.2.Writes
      fun source payload => source = 0 ∧ payload = [7] := by
  have hsends : ∀ s m, m.session.getD 1 0 = 7 →
      pingDef.Sends (fun source payload => source = 0 ∧ payload = [7]) s m := by
    intro s m hseven
    have hkind : pingDef.kindOf s = (pingDef.states.items.getD s.toNat EapRun.zeroState).kind := rfl
    rw [ProtocolDef.Sends, hkind]
    rcases s.toNat with _ | _ | _ | n
    · intro _
      have hpayload : (Write.mk 0 (.ofList [⟨1, .session 1⟩]) false).payload m.session =
          scalarBytes 1 (m.session.getD 1 0) := List.append_nil _
      refine ⟨rfl, hpayload.trans ?_⟩
      rw [hseven]
      decide +kernel
    · trivial
    · trivial
    · trivial
  refine ((writes_played_iff starts_ping _).mpr ⟨hsends 0 _ rfl, unchanged pingDef 0 1, ?_, ?_⟩).2
    [.notify 0 [2]] .timeout (by decide +kernel)
  · apply (checked_unchanged fun s _ => not_remembers_ping s).entering
    intro s m hholds
    exact hsends s m (unchanged_holds_iff.mp hholds).2
  · exact unchanged_holds_iff.mpr ⟨.refl, rfl⟩

/-- So the run of a peer that never answers asks for seven. -/
theorem graph_bounds_run_ping :
    (pingStart.played [.timeout, .notify 0 [2], .timeout]).session.getD 1 0 = 7 := by
  exact (graph_bounds_run starts_ping _).2.2 1 fun s _ => not_remembers_ping s

end DevBench.Eap
