import DevBench.Pd.PowerPath

/-!
# The safety of the power path

What each piece of the path adds to the events, and from it what a call of the path guarantees:
the provider path closes only behind an open consumer path and a supply seen at vSafe5V, and
does not stay closed behind a call that failed or turned the source off.
-/

namespace DevBench.Pd

open DevBench.Core DevBench.Core.Program

/-! ## Events -/

namespace PathEvent

/-- The word that closes the provider path is written. -/
def sources : PathEvent → Bool
  | write _ val _ => val == ctrlSource
  | _ => false

/-- VBUS is measured. -/
def measures : PathEvent → Bool
  | vbus .. => true
  | _ => false

/-- The control byte the TCPP03 takes, if it takes one. -/
def taken : PathEvent → Option UInt8
  | write _ val ret => if ret = 0 then some val else none
  | _ => none

/-- The word is one that turns the source off, written by the path itself. -/
def turnsOff : PathEvent → Prop
  | write writer val ret => writer = .path ∧ (val = ctrlSourceOff ∨ val = ctrlIdle) ∧ ret = 0
  | _ => False

/-- What `fault_handler` does: no measure, and no word that closes a path. -/
def quiet : PathEvent → Prop
  | write writer val _ => writer = .fault ∧ (val = ctrlOpen ∨ val = ctrlIdle)
  | cn3 .. => False
  | vbus .. => False
  | flags .. => True
  | errorRecovery => True

variable {event : PathEvent}

/-- A quiet event does not turn the source on. -/
theorem sources_of_quiet (h : event.quiet) : event.sources = false := by
  cases event with
  | write writer val ret =>
    obtain ⟨-, rfl | rfl⟩ := h
    · rfl
    · rfl
  | flags | cn3 | vbus | errorRecovery => rfl

/-- It measures nothing. -/
theorem measures_of_quiet (h : event.quiet) : event.measures = false := by
  cases event with
  | vbus => exact h.elim
  | write | flags | cn3 | errorRecovery => rfl

/-- And it turns nothing off. -/
theorem not_turnsOff_of_quiet (h : event.quiet) : ¬ event.turnsOff := by
  cases event with
  | write writer val ret =>
    rintro ⟨hpath, -⟩
    rw [h.1] at hpath
    cases hpath
  | flags | cn3 | vbus | errorRecovery => exact id

end PathEvent

/-- The last control byte the TCPP03 took. -/
def lastCtrl (events : List PathEvent) : Option UInt8 := (events.filterMap PathEvent.taken).getLast?

/-- Nothing that closes the provider path is among the events. -/
def Unsourced (events : List PathEvent) : Prop := ∀ event ∈ events, event.sources = false

/-- Every word that closes the provider path is the path's own, comes right behind a word taken
that opens the consumer path, and has a reading of CN3 at vSafe5V before it. -/
def Checked (l : Limits) (events : List PathEvent) : Prop :=
  ∀ before event after, events = before ++ event :: after → event.sources = true →
    (∃ ret, event = .write .path ctrlSource ret) ∧
    (∃ earlier, before = earlier ++ [.write .path ctrlOpen 0]) ∧
    ∃ ret mv, .cn3 ret mv ∈ before ∧ 0 ≤ ret ∧ l.vSafe5vMinMv ≤ mv ∧ mv ≤ l.vSafe5vMaxMv

/-- If the path's own off or idle word was taken, the last byte taken leaves the source off. -/
def Off (events : List PathEvent) : Prop :=
  (∃ event ∈ events, event.turnsOff) → ∀ earlier, lastCtrl (earlier ++ events) ≠ some ctrlSource

/-- Where the source is never turned on there is nothing to check. -/
theorem Unsourced.checked {l : Limits} {events : List PathEvent} (h : Unsourced events) :
    Checked l events := by
  intro before event after heq hsources
  rw [h event (heq ▸ List.mem_append_right _ List.mem_cons_self)] at hsources
  cases hsources

/-- One stretch without sourcing behind another. -/
theorem Unsourced.append {xs ys : List PathEvent} (hx : Unsourced xs) (hy : Unsourced ys) :
    Unsourced (xs ++ ys) := fun event hevent =>
  (List.mem_append.mp hevent).elim (hx event) (hy event)

/-- One event that does not source. -/
theorem unsourced_singleton {event : PathEvent} (h : event.sources = false) :
    Unsourced [event] := by
  intro x hx
  obtain rfl := List.mem_singleton.mp hx
  exact h

/-- Quiet events do not. -/
theorem unsourced_of_quiet {events : List PathEvent} (h : ∀ event ∈ events, event.quiet) :
    Unsourced events := fun event hevent => PathEvent.sources_of_quiet (h event hevent)

/-- What turns the source off is taken. -/
theorem PathEvent.taken_of_turnsOff {event : PathEvent} (h : event.turnsOff) :
    ∃ val, event.taken = some val := by
  cases event with
  | write writer val ret =>
    obtain ⟨-, -, rfl⟩ := h
    exact ⟨val, rfl⟩
  | flags | cn3 | vbus | errorRecovery => exact h.elim

/-- Behind events that never close the provider path, one of which was taken, it is open. -/
theorem Unsourced.off {events : List PathEvent} (h : Unsourced events) : Off events := by
  rintro ⟨event, hevent, hoff⟩ earlier hlast
  obtain ⟨val, hval⟩ := event.taken_of_turnsOff hoff
  have hne : events.filterMap PathEvent.taken ≠ [] := by
    intro hnil
    have hmem : val ∈ events.filterMap PathEvent.taken := List.mem_filterMap.mpr ⟨_, hevent, hval⟩
    rw [hnil] at hmem
    cases hmem
  rw [lastCtrl, List.filterMap_append, List.getLast?_append,
    List.getLast?_eq_some_getLast hne, Option.some_or, ← List.getLast?_eq_some_getLast hne] at hlast
  obtain ⟨last, hlastmem, htaken⟩ := List.mem_filterMap.mp (List.mem_of_getLast? hlast)
  have hunsourced := h last hlastmem
  cases last with
  | write writer val ret =>
    simp only [PathEvent.taken] at htaken
    split at htaken
    · obtain rfl := Option.some.inj htaken
      cases hunsourced
    · cases htaken
  | flags | cn3 | vbus | errorRecovery => cases htaken

/-- Events in front that turn nothing off leave the rest to decide. -/
theorem Off.append_left {front events : List PathEvent} (h : Off events)
    (hfront : ∀ event ∈ front, ¬ event.turnsOff) : Off (front ++ events) := by
  rintro ⟨event, hevent, hoff⟩ earlier
  rw [← List.append_assoc]
  refine h ⟨event, ?_, hoff⟩ (earlier ++ front)
  exact (List.mem_append.mp hevent).resolve_left fun hmem => hfront event hmem hoff

/-! ## What each piece adds -/

/-- The events of a path are its log. -/
abbrev Adds {α : Type} (m : PathProgram α) (post : α → List PathEvent → Prop) : Prop :=
  Logs Path.events m post

/-- Asking the world leaves no event. -/
theorem adds_ask {α : Type} (f : World → Nat → α) : Adds (ask f) fun _ new => new = [] :=
  fun _ p => ⟨[], (List.append_nil p.events).symm, rfl⟩

/-- Nor does looking at the path. -/
theorem adds_get : Adds (Program.get : PathProgram Path) fun _ new => new = [] := fun _ p =>
  ⟨[], (List.append_nil p.events).symm, rfl⟩

/-- A change that leaves the events alone adds none. -/
theorem adds_modify {f : Path → Path} (hf : ∀ p, (f p).events = p.events) :
    Adds (modify f : PathProgram Unit) fun _ new => new = [] :=
  logs_modify (fun p => by rw [hf, List.append_nil]) rfl

/-- An event that is noted is the only one. -/
theorem adds_note (event : PathEvent) : Adds (note event) fun _ new => new = [event] :=
  logs_modify (fun _ => rfl) rfl

/-- A write is one event, with what the bus answered. -/
theorem adds_ctrlWrite (writer : Writer) (val : UInt8) :
    Adds (ctrlWrite writer val) fun ret new => new = [.write writer val ret] ∧ ret ≤ 0 :=
  fun w p => ⟨_, rfl, rfl, w.write_nonpos p.turn⟩

/-- The program does nothing that `fault_handler` does not do. -/
abbrev Quiet {α : Type} (m : PathProgram α) : Prop :=
  LogsOnly Path.events m PathEvent.quiet

/-- The recovery writes and reports. -/
theorem quiet_recover (ret : Int) (flags : UInt8) : Quiet (recover ret flags) := by
  unfold recover
  apply logsOnly_ite
  · have hwrites : ∀ val, Adds (ctrlWrite .fault val) fun ret new =>
        new = [.write .fault val ret] := fun val =>
      (adds_ctrlWrite .fault val).conseq fun _ _ hnew => hnew.1
    have hopen : Quiet (ctrlWrite .fault ctrlOpen) :=
      Logs.only_singleton (hwrites ctrlOpen) fun _ => ⟨rfl, .inl rfl⟩
    have hidle : Quiet (ctrlWrite .fault ctrlIdle) :=
      Logs.only_singleton (hwrites ctrlIdle) fun _ => ⟨rfl, .inr rfl⟩
    exact hopen.bind fun ret => logsOnly_ite hidle (logsOnly_pure ret)
  · exact logsOnly_pure ret

/-- So does what a fault makes the bench do. -/
theorem quiet_tcppFault (flags : UInt8) : Quiet (tcppFault flags) := by
  have hcount : Quiet (modify fun p =>
      { p with faults := p.faults + 1, faultFlags := flags }) :=
    (adds_modify (by exact fun _ => rfl)).only_nil
  exact hcount.bind fun _ => (adds_note .errorRecovery).only_singleton fun _ => trivial

/-- `fault_handler` writes words that open paths, and measures nothing. -/
theorem quiet_faultHandler : Quiet faultHandler := by
  have hflags : Quiet (ask World.flags) := (adds_ask _).only_nil
  refine hflags.bind fun answer => ?_
  have hnote : Quiet (note (.flags answer.1 answer.2)) :=
    (adds_note _).only_singleton fun _ => trivial
  exact hnote.bind fun _ => (quiet_recover _ _).bind fun _ =>
    logsOnly_ite (logsOnly_pure ()) (quiet_tcppFault _)

/-- Whatever comes in a gap is quiet. -/
theorem quiet_gap : Quiet gap := by
  have hruns : Quiet (ask World.faultRuns) := (adds_ask _).only_nil
  exact hruns.bind fun _ => logsOnly_each (fun _ => quiet_faultHandler) _

/-- A measurement is one event, with what was read. -/
theorem adds_measureVbus :
    Adds measureVbus fun reading new => new = [.vbus reading.1 reading.2] := by
  refine (adds_ask _).bind fun reading old hold => ?_
  refine (adds_note _).bind fun _ noted hnoted => logs_pure ?_
  rw [hold, hnoted]
  rfl

/-- The same at the supply. -/
theorem adds_measureCn3 :
    Adds measureCn3 fun reading new => new = [.cn3 reading.1 reading.2] := by
  refine (adds_ask _).bind fun reading old hold => ?_
  refine (adds_note _).bind fun _ noted hnoted => logs_pure ?_
  rw [hold, hnoted]
  rfl

/-- What turning the source on writes: the consumer path is opened, and only then the provider
path closed, with nothing in between. -/
def Switched (ret : Int) (events : List PathEvent) : Prop :=
  (events = [.write .path ctrlOpen ret] ∧ ret < 0) ∨
    (events = [.write .path ctrlOpen 0, .write .path ctrlSource ret] ∧ ret ≤ 0)

/-- Turning the gates on is one write, and another where the first went well. -/
theorem adds_tcpp03Source_true : Adds (tcpp03Source true) Switched := by
  refine (adds_ctrlWrite .path ctrlOpen).bind fun opened old hold => ?_
  obtain ⟨rfl, hopened⟩ := hold
  apply logs_ite
  · rintro rfl
    refine (adds_ctrlWrite .path ctrlSource).conseq fun ret new hnew => .inr ?_
    rw [hnew.1]
    exact ⟨rfl, hnew.2⟩
  · intro hne
    exact logs_pure (.inl ⟨rfl, by omega⟩)

/-! ## Polling -/

/-- `fault_handler`'s, or a measure of VBUS. -/
def PathEvent.polled (event : PathEvent) : Prop := event.quiet ∨ event.measures = true

/-- Polling does not source. -/
theorem PathEvent.sources_of_polled {event : PathEvent} (h : event.polled) :
    event.sources = false := by
  rcases h with h | h
  · exact PathEvent.sources_of_quiet h
  · cases event with
    | vbus => rfl
    | write | flags | cn3 | errorRecovery => cases h

/-- Nor does it turn anything off. -/
theorem PathEvent.not_turnsOff_of_polled {event : PathEvent} (h : event.polled) :
    ¬ event.turnsOff := by
  rcases h with h | h
  · exact PathEvent.not_turnsOff_of_quiet h
  · cases event with
    | vbus => exact id
    | write | flags | cn3 | errorRecovery => cases h

/-- How often VBUS is measured from a time of the loop on, at most. -/
def pollsFrom (maxMs t : Nat) : Nat := 1 + (maxMs - t + 1) / 2

/-- What a polling loop adds, and that it measures no more often than its time allows. -/
structure PollReport (good : Int → Bool) (maxMs t : Nat) (ok : Bool)
    (events : List PathEvent) : Prop where
  polled : ∀ event ∈ events, event.polled
  seen : ok = true → ∃ mv, .vbus 0 mv ∈ events ∧ good mv = true
  polls : events.countP PathEvent.measures ≤ pollsFrom maxMs t

/-- Quiet events are no measurements. -/
theorem countP_of_quiet {events : List PathEvent} (h : ∀ event ∈ events, event.quiet) :
    events.countP PathEvent.measures = 0 := by
  rw [List.countP_eq_zero]
  intro event hevent
  rw [PathEvent.measures_of_quiet (h event hevent)]
  exact Bool.false_ne_true

/-- Polling measures at most so often, and stops at the first good reading. -/
theorem adds_pollVbus (good : Int → Bool) (maxMs t : Nat) :
    Adds (pollVbus good maxMs t) (PollReport good maxMs t) := by
  unfold pollVbus
  refine Logs.bind quiet_gap fun _ gapEvents hgap => ?_
  refine adds_measureVbus.bind fun reading measured hmeasured => ?_
  subst hmeasured
  have hpolled : ∀ event ∈ gapEvents ++ [PathEvent.vbus reading.1 reading.2], event.polled := by
    intro event hevent
    rcases List.mem_append.mp hevent with hevent | hevent
    · exact .inl (hgap event hevent)
    · obtain rfl := List.mem_singleton.mp hevent
      exact .inr rfl
  have hcount : (gapEvents ++ [PathEvent.vbus reading.1 reading.2]).countP PathEvent.measures =
      1 := by
    rw [List.countP_append, countP_of_quiet hgap]
    rfl
  apply logs_ite
  · rintro ⟨hret, hgood⟩
    apply logs_pure
    rw [List.append_nil]
    refine ⟨hpolled, fun _ => ⟨reading.2, ?_, hgood⟩, ?_⟩
    · rw [← hret]
      exact List.mem_append_right _ List.mem_cons_self
    · rw [hcount, pollsFrom]
      omega
  · intro _
    by_cases hup : maxMs ≤ t
    · rw [dif_pos hup]
      apply logs_pure
      rw [List.append_nil]
      refine ⟨hpolled, nofun, ?_⟩
      rw [hcount, pollsFrom]
      omega
    · rw [dif_neg hup]
      refine (adds_pollVbus good maxMs (t + vbusPollMs)).conseq fun ok later hlater => ?_
      rw [← List.append_assoc]
      refine ⟨fun event hevent => ?_, fun hok => ?_, ?_⟩
      · exact (List.mem_append.mp hevent).elim (hpolled event) (hlater.polled event)
      · obtain ⟨mv, hmem, hgood⟩ := hlater.seen hok
        exact ⟨mv, List.mem_append_right _ hmem, hgood⟩
      · have hpolls := hlater.polls
        rw [List.countP_append, hcount]
        rw [pollsFrom, vbusPollMs] at hpolls
        rw [pollsFrom]
        omega
termination_by maxMs - t
decreasing_by
  rw [vbusPollMs]
  omega

/-! ## The source off -/

/-- Nothing is polled behind a write that failed. -/
theorem pollReport_nil (good : Int → Bool) (maxMs t : Nat) : PollReport good maxMs t false [] :=
  ⟨nofun, nofun, Nat.zero_le _⟩

/-- Nothing is sourced while it is polled. -/
theorem PollReport.unsourced {good : Int → Bool} {maxMs t : Nat} {ok : Bool}
    {events : List PathEvent} (h : PollReport good maxMs t ok events) : Unsourced events :=
  fun event hevent => PathEvent.sources_of_polled (h.polled event hevent)

/-- What waiting for the discharge adds, behind a write that returned `ret`. -/
theorem adds_awaitDischarge (l : Limits) {ret : Int} (hret : ret ≤ 0) :
    Adds (awaitDischarge l ret) fun out new => out ≤ 0 ∧ PollReport
      (fun mv => mv < l.dischargedMv) l.tSafe0vMaxMs 0 (decide (out = 0)) new := by
  unfold awaitDischarge
  apply logs_ite
  · intro _
    refine (adds_pollVbus _ _ _).bind fun off events hpoll => logs_pure ?_
    rw [List.append_nil]
    cases off with
    | true => exact ⟨Int.le_refl 0, hpoll⟩
    | false => exact ⟨by decide, hpoll⟩
  · intro hne
    apply logs_pure
    rw [decide_eq_false hne]
    exact ⟨hret, pollReport_nil _ _ _⟩

/-- What a call of `source_off` guarantees. -/
structure OffReport (l : Limits) (ret : Int) (events : List PathEvent) : Prop where
  unsourced : Unsourced events
  off : Off events
  discharged : ret = 0 → ∃ mv, .vbus 0 mv ∈ events ∧ mv < l.dischargedMv
  polls : events.countP PathEvent.measures ≤ pollsFrom l.tSafe0vMaxMs 0

/-- Turning off writes, then waits for the voltage to fall. -/
theorem adds_sourceOff (l : Limits) : Adds (sourceOff l) (OffReport l) := by
  unfold sourceOff
  refine Logs.bind quiet_gap fun _ before hbefore => ?_
  refine (adds_ctrlWrite .path ctrlSourceOff).bind fun ret wrote hwrote => ?_
  obtain ⟨rfl, hret⟩ := hwrote
  refine (adds_awaitDischarge l hret).bind fun out waited hwaited => ?_
  obtain ⟨hout, hpoll⟩ := hwaited
  refine Logs.bind quiet_gap fun _ between hbetween => ?_
  refine (adds_ctrlWrite .path ctrlIdle).bind fun idle idled hidled => logs_pure ?_
  obtain ⟨rfl, hidle⟩ := hidled
  have hunsourced : Unsourced (before ++ ([PathEvent.write .path ctrlSourceOff ret] ++ (waited ++
      (between ++ ([PathEvent.write .path ctrlIdle idle] ++ []))))) := by
    apply (unsourced_of_quiet hbefore).append
    apply (unsourced_singleton rfl).append
    apply hpoll.unsourced.append
    exact (unsourced_of_quiet hbetween).append (unsourced_singleton rfl)
  refine ⟨hunsourced, hunsourced.off, fun hzero => ?_, ?_⟩
  · have hnot : ¬ out < 0 := by
      intro hneg
      rw [if_pos hneg] at hzero
      omega
    obtain ⟨mv, hmem, hmv⟩ := hpoll.seen (decide_eq_true (by omega))
    refine ⟨mv, ?_, of_decide_eq_true hmv⟩
    apply List.mem_append_right
    apply List.mem_append_right
    exact List.mem_append_left _ hmem
  · have hpolls := hpoll.polls
    simp only [List.countP_append, countP_of_quiet hbefore, countP_of_quiet hbetween]
    have hwrites : ∀ val ret, [PathEvent.write .path val ret].countP PathEvent.measures = 0 :=
      fun _ _ => rfl
    rw [hwrites, hwrites, List.countP_nil]
    omega

/-! ## The source on -/

/-- The supply is judged by one reading, within its limits. -/
theorem adds_supplyOk (l : Limits) : Adds (supplyOk l) fun ok new =>
    ∃ ret mv, new = [.cn3 ret mv] ∧
      (ok = true → 0 ≤ ret ∧ l.vSafe5vMinMv ≤ mv ∧ mv ≤ l.vSafe5vMaxMv) := by
  unfold supplyOk
  refine adds_measureCn3.bind fun reading events hevents => logs_pure ?_
  rw [List.append_nil]
  refine ⟨reading.1, reading.2, hevents, fun hok => ?_⟩
  simp only [Bool.not_eq_true', Bool.or_eq_false_iff, decide_eq_false_iff_not, Int.not_lt] at hok
  exact ⟨hok.1.1, hok.1.2, hok.2⟩

/-- What waiting for VBUS adds, behind a write that returned `ret`. -/
theorem adds_awaitVbus (l : Limits) (ret : Int) : Adds (awaitVbus l ret)
    (PollReport (fun mv => l.vSafe5vMinMv ≤ mv) l.tVbusOnMaxMs 0) := by
  unfold awaitVbus
  apply logs_ite
  · exact fun _ => adds_pollVbus _ _ _
  · exact fun _ => logs_pure (pollReport_nil _ _ _)

/-- What a call of `source_on` guarantees. -/
structure OnReport (l : Limits) (ret : Int) (events : List PathEvent) : Prop where
  answers : ret = 0 ∨ ret < 0
  checked : Checked l events
  seen : ret = 0 → ∃ mv, .vbus 0 mv ∈ events ∧ l.vSafe5vMinMv ≤ mv
  off : ret ≠ 0 → Off events
  polls : events.countP PathEvent.measures ≤
    pollsFrom l.tVbusOnMaxMs 0 + pollsFrom l.tSafe0vMaxMs 0

variable {l : Limits}

/-- A supply was seen at vSafe5V, and nothing was switched since. -/
structure Supplied (l : Limits) (events : List PathEvent) : Prop where
  unsourced : Unsourced events
  kept : ∀ event ∈ events, ¬ event.turnsOff
  seen : ∃ ret mv, .cn3 ret mv ∈ events ∧ 0 ≤ ret ∧ l.vSafe5vMinMv ≤ mv ∧ mv ≤ l.vSafe5vMaxMv
  unmeasured : events.countP PathEvent.measures = 0

/-- What comes between the judgement and the gates is quiet. -/
theorem supplied_cn3 {ret mv : Int} {events : List PathEvent}
    (hseen : 0 ≤ ret ∧ l.vSafe5vMinMv ≤ mv ∧ mv ≤ l.vSafe5vMaxMv)
    (hevents : ∀ event ∈ events, event.quiet) : Supplied l ([.cn3 ret mv] ++ events) where
  unsourced := (unsourced_singleton rfl).append (unsourced_of_quiet hevents)
  kept := by
    intro event hevent
    rcases List.mem_cons.mp hevent with rfl | hevent
    · exact id
    · exact PathEvent.not_turnsOff_of_quiet (hevents event hevent)
  seen := ⟨ret, mv, List.mem_cons_self, hseen⟩
  unmeasured := by
    rw [List.countP_append, countP_of_quiet hevents]
    rfl

/-- The one word that closes the provider path stands where it was written. -/
theorem Supplied.checked_switch {front back : List PathEvent} {ret : Int}
    (hfront : Supplied l front) (hback : Unsourced back) :
    Checked l (front ++ [.write .path ctrlOpen 0, .write .path ctrlSource ret] ++ back) := by
  intro before event after heq hsources
  have hopen : Unsourced (front ++ [.write .path ctrlOpen 0]) :=
    hfront.unsourced.append (unsourced_singleton rfl)
  have hsplit : (front ++ [.write .path ctrlOpen 0]) ++ .write .path ctrlSource ret :: back =
      before ++ event :: after := by
    rw [← heq]
    simp
  rcases entry_of_append hsplit with ⟨more, hmore, hrest⟩ | ⟨more, hrest⟩
  · cases more with
    | nil =>
      rw [List.append_nil] at hmore
      obtain ⟨hevent, -⟩ := List.cons.inj hrest
      obtain ⟨cn3Ret, mv, hcn3, hlimits⟩ := hfront.seen
      refine ⟨⟨ret, hevent.symm⟩, ⟨front, hmore⟩, cn3Ret, mv, ?_, hlimits⟩
      rw [hmore]
      exact List.mem_append_left _ hcn3
    | cons first more =>
      obtain ⟨-, hrest⟩ := List.cons.inj hrest
      rw [hback event (hrest ▸ List.mem_append_right _ List.mem_cons_self)] at hsources
      cases hsources
  · rw [hopen event (hrest ▸ List.mem_append_right _ List.mem_cons_self)] at hsources
    cases hsources

/-- A switch behind a supply seen at vSafe5V. -/
theorem Switched.checked {front events back : List PathEvent} {ret : Int}
    (h : Switched ret events) (hfront : Supplied l front) (hback : Unsourced back) :
    Checked l (front ++ (events ++ back)) := by
  rcases h with ⟨rfl, -⟩ | ⟨rfl, -⟩
  · apply Unsourced.checked
    exact hfront.unsourced.append ((unsourced_singleton rfl).append hback)
  · rw [← List.append_assoc]
    exact hfront.checked_switch hback

/-- Turning on turns nothing off. -/
theorem Switched.not_turnsOff {events : List PathEvent} {ret : Int} (h : Switched ret events) :
    ∀ event ∈ events, ¬ event.turnsOff := by
  have hword : ∀ {val ret}, val ≠ ctrlSourceOff → val ≠ ctrlIdle →
      ¬ (PathEvent.write .path val ret).turnsOff := by
    rintro val ret hoff hidle ⟨-, hval | hval, -⟩
    · exact hoff hval
    · exact hidle hval
  intro event hevent
  rcases h with ⟨rfl, -⟩ | ⟨rfl, -⟩
  · obtain rfl := List.mem_singleton.mp hevent
    exact hword (by decide) (by decide)
  · rcases List.mem_cons.mp hevent with rfl | hevent
    · exact hword (by decide) (by decide)
    · obtain rfl := List.mem_singleton.mp hevent
      exact hword (by decide) (by decide)

/-- And measures nothing. -/
theorem Switched.countP {events : List PathEvent} {ret : Int} (h : Switched ret events) :
    events.countP PathEvent.measures = 0 := by
  rcases h with ⟨rfl, -⟩ | ⟨rfl, -⟩
  · rfl
  · rfl

section

variable {front switched waited off : List PathEvent} {ret offRet : Int} {on : Bool}

/-- The source is on once VBUS is there. -/
theorem Supplied.done (hfront : Supplied l front) (hswitched : Switched ret switched)
    (hpoll : PollReport (fun mv => l.vSafe5vMinMv ≤ mv) l.tVbusOnMaxMs 0 true waited) :
    OnReport l 0 (front ++ (switched ++ waited)) where
  answers := .inl rfl
  checked := hswitched.checked hfront hpoll.unsourced
  seen := fun _ => by
    obtain ⟨mv, hmem, hmv⟩ := hpoll.seen rfl
    refine ⟨mv, ?_, of_decide_eq_true hmv⟩
    apply List.mem_append_right
    exact List.mem_append_right _ hmem
  off := fun hne => absurd rfl hne
  polls := by
    have hpolls := hpoll.polls
    rw [List.countP_append, List.countP_append, hfront.unmeasured, hswitched.countP]
    omega

/-- Without VBUS in time the source is turned off again. -/
theorem Supplied.undone (hfront : Supplied l front) (hswitched : Switched ret switched)
    (hpoll : PollReport (fun mv => l.vSafe5vMinMv ≤ mv) l.tVbusOnMaxMs 0 on waited)
    (hoff : OffReport l offRet off) :
    OnReport l eio (front ++ (switched ++ (waited ++ off))) where
  answers := .inr (by decide)
  checked := hswitched.checked hfront (hpoll.unsourced.append hoff.unsourced)
  seen := nofun
  off := fun _ => by
    apply Off.append_left _ hfront.kept
    apply Off.append_left _ hswitched.not_turnsOff
    apply Off.append_left hoff.off
    exact fun event hevent => PathEvent.not_turnsOff_of_polled (hpoll.polled event hevent)
  polls := by
    have hpolls := hpoll.polls
    have hoffPolls := hoff.polls
    rw [List.countP_append, List.countP_append, List.countP_append, hfront.unmeasured,
      hswitched.countP]
    omega

/-- Without a supply at vSafe5V nothing is switched. -/
theorem onReport_unsupplied (ret mv : Int) : OnReport l eio [.cn3 ret mv] where
  answers := .inr (by decide)
  checked := (unsourced_singleton rfl).checked
  seen := nofun
  off := by
    rintro - ⟨event, hevent, hoff⟩
    obtain rfl := List.mem_singleton.mp hevent
    exact hoff.elim
  polls := Nat.zero_le _

end

/-- Turning on judges the supply, then opens the gates, then waits for the voltage to rise. -/
theorem adds_sourceOn (l : Limits) : Adds (sourceOn l) (OnReport l) := by
  unfold sourceOn
  refine (adds_supplyOk l).bind fun ok supply hsupply => ?_
  obtain ⟨cn3Ret, mv, rfl, hok⟩ := hsupply
  apply logs_ite
  · intro hyes
    refine Logs.bind quiet_gap fun _ between hbetween => ?_
    have hfront := supplied_cn3 (hok hyes) hbetween
    refine adds_tcpp03Source_true.bind fun ret switched hswitched => ?_
    refine (adds_awaitVbus l ret).bind fun on waited hpoll => ?_
    apply logs_ite
    · rintro rfl
      apply logs_pure
      rw [List.append_nil, ← List.append_assoc]
      exact hfront.done hswitched hpoll
    · intro _
      refine (adds_sourceOff l).bind fun offRet off hoff => logs_pure ?_
      rw [List.append_nil, ← List.append_assoc]
      exact hfront.undone hswitched hpoll hoff
  · intro _
    apply logs_pure
    rw [List.append_nil]
    exact onReport_unsupplied cn3Ret mv

/-! ## Runs -/

/-- Error Recovery is asked for behind a call that failed. -/
def recoveryOf (ret : Int) : List PathEvent := if ret < 0 then [.errorRecovery] else []

/-- What an answer and the events of its call guarantee. -/
def CallReport (l : Limits) : PathAnswer → List PathEvent → Prop
  | .sourceOn ret, events => OnReport l ret events
  | .sourceOff ret, events => OffReport l ret events
  | .srcHardReset, events => ∃ ret off, OffReport l ret off ∧ events = off ++ recoveryOf ret
  | .srcRecovered done, events => events = [] ∨
      ∃ ret on, OnReport l ret on ∧ (done = true ↔ ret = 0) ∧ events = on ++ recoveryOf ret

/-- The events of a run, cut at its calls. -/
inductive RunReport (l : Limits) : List PathAnswer → List PathEvent → Prop
  | done {faults} (hfaults : ∀ event ∈ faults, event.quiet) : RunReport l [] faults
  | call {answer answers faults events rest} (hfaults : ∀ event ∈ faults, event.quiet)
      (hcall : CallReport l answer events) (hrest : RunReport l answers rest) :
      RunReport l (answer :: answers) (faults ++ (events ++ rest))

/-- A hard reset turns off and recovers where that went wrong. -/
theorem adds_srcHardResetOff (l : Limits) : Adds (srcHardResetOff l) fun _ events =>
    ∃ ret off, OffReport l ret off ∧ events = off ++ recoveryOf ret := by
  unfold srcHardResetOff
  refine (adds_sourceOff l).bind fun ret off hoff => ?_
  apply logs_ite
  · intro hneg
    refine Logs.bind (adds_modify ?_) fun _ none hnone => ?_
    · exact fun _ => rfl
    refine (adds_note _).conseq fun _ noted hnoted => ⟨ret, off, hoff, ?_⟩
    rw [hnone, hnoted, recoveryOf, if_pos hneg, List.nil_append]
  · intro hneg
    refine (adds_ask _).bind fun now none hnone => ?_
    refine Logs.conseq (adds_modify ?_) fun _ more hmore => ⟨ret, off, hoff, ?_⟩
    · exact fun _ => rfl
    rw [hnone, hmore, recoveryOf, if_neg hneg]
    rfl

/-- The recovery turns on again, and is done when that went well. -/
theorem adds_recoverSource (l : Limits) : Adds (recoverSource l) fun done events =>
    ∃ ret on, OnReport l ret on ∧ (done = true ↔ ret = 0) ∧ events = on ++ recoveryOf ret := by
  unfold recoverSource
  refine (adds_sourceOn l).bind fun ret on hon => ?_
  apply logs_ite
  · intro hneg
    refine Logs.bind (adds_modify ?_) fun _ none hnone => ?_
    · exact fun _ => rfl
    refine (adds_note _).bind fun _ noted hnoted => logs_pure ⟨ret, on, hon, ?_, ?_⟩
    · constructor
      · nofun
      · intro hzero
        omega
    · rw [hnone, hnoted, recoveryOf, if_pos hneg, List.nil_append, List.append_nil]
  · intro hneg
    refine Logs.bind (adds_modify ?_) fun _ none hnone => logs_pure ⟨ret, on, hon, ?_, ?_⟩
    · exact fun _ => rfl
    · have hanswers := hon.answers
      constructor
      · intro _
        omega
      · exact fun _ => rfl
    · rw [hnone, recoveryOf, if_neg hneg, List.append_nil]

/-- It is tried once and reported. -/
theorem adds_srcRecovered (l : Limits) : Adds (srcRecovered l) fun done events =>
    CallReport l (.srcRecovered done) events := by
  unfold srcRecovered
  refine adds_get.bind fun p none hnone => ?_
  subst hnone
  cases p.hr with
  | none => exact logs_pure (.inl rfl)
  | failed => exact logs_pure (.inl rfl)
  | recover =>
    refine (adds_ask _).bind fun now old hold => ?_
    subst hold
    apply logs_ite
    · exact fun _ => logs_pure (.inl rfl)
    · exact fun _ => (adds_recoverSource l).conseq fun _ _ hreport => .inr hreport

/-- Every call keeps its guarantee, whatever state it is made in. -/
theorem adds_pathCall (l : Limits) (call : PathCall) : Adds (pathCall l call) fun answer events =>
    answer.call = call ∧ CallReport l answer events := by
  cases call with
  | sourceOn =>
    refine (adds_sourceOn l).bind fun ret events h => logs_pure ?_
    rw [List.append_nil]
    exact ⟨rfl, h⟩
  | sourceOff =>
    refine (adds_sourceOff l).bind fun ret events h => logs_pure ?_
    rw [List.append_nil]
    exact ⟨rfl, h⟩
  | srcHardReset =>
    refine (adds_srcHardResetOff l).bind fun _ events h => logs_pure ?_
    rw [List.append_nil]
    exact ⟨rfl, h⟩
  | srcRecovered =>
    refine (adds_srcRecovered l).bind fun done events h => logs_pure ?_
    rw [List.append_nil]
    exact ⟨rfl, h⟩

/-- Calls to the path make their events one after the other. -/
theorem adds_pathCalls (l : Limits) : ∀ calls, Adds (pathCalls l calls) fun answers events =>
    answers.map PathAnswer.call = calls ∧ RunReport l answers events
  | [] => by
    unfold pathCalls
    refine Logs.bind quiet_gap fun _ faults hfaults => logs_pure ?_
    rw [List.append_nil]
    exact ⟨rfl, .done hfaults⟩
  | call :: calls => by
    unfold pathCalls
    refine Logs.bind quiet_gap fun _ faults hfaults => ?_
    refine (adds_pathCall l call).bind fun answer events hcall => ?_
    refine (adds_pathCalls l calls).bind fun answers rest hrest => logs_pure ?_
    rw [List.append_nil]
    refine ⟨?_, .call hfaults hcall.2 hrest.2⟩
    rw [List.map_cons, hcall.1, hrest.1]

/-! ### The whole log -/

/-- One checked stretch behind another. -/
theorem Checked.append {xs ys : List PathEvent} (hx : Checked l xs) (hy : Checked l ys) :
    Checked l (xs ++ ys) := by
  intro before event after heq hsources
  rcases entry_of_append heq with ⟨more, hmore, hrest⟩ | ⟨more, hrest⟩
  · obtain ⟨hwrite, ⟨earlier, hopened⟩, ret, mv, hcn3, hlimits⟩ :=
      hy more event after hrest hsources
    refine ⟨hwrite, ⟨xs ++ earlier, ?_⟩, ret, mv, ?_, hlimits⟩
    · rw [hmore, hopened, List.append_assoc]
    · rw [hmore]
      exact List.mem_append_right _ hcn3
  · exact hx before event more hrest hsources

/-- A recovery is checked. -/
theorem checked_recoveryOf (ret : Int) : Checked l (recoveryOf ret) := by
  unfold recoveryOf
  split
  · exact (unsourced_singleton rfl).checked
  · exact Unsourced.checked nofun

/-- So is every call. -/
theorem CallReport.checked {answer : PathAnswer} {events : List PathEvent}
    (h : CallReport l answer events) : Checked l events := by
  cases answer with
  | sourceOn ret => exact OnReport.checked h
  | sourceOff ret => exact (OffReport.unsourced h).checked
  | srcHardReset =>
    obtain ⟨ret, off, hoff, rfl⟩ := h
    exact hoff.unsourced.checked.append (checked_recoveryOf ret)
  | srcRecovered done =>
    rcases h with rfl | ⟨ret, on, hon, -, rfl⟩
    · exact Unsourced.checked nofun
    · exact hon.checked.append (checked_recoveryOf ret)

/-- So are all of them. -/
theorem RunReport.checked {answers : List PathAnswer} {events : List PathEvent}
    (h : RunReport l answers events) : Checked l events := by
  induction h with
  | done hfaults => exact (unsourced_of_quiet hfaults).checked
  | call hfaults hcall _ ih =>
    exact (unsourced_of_quiet hfaults).checked.append (hcall.checked.append ih)

/-- The calls end, whatever the bus, the ADC and the clock answer and wherever `fault_handler`
runs; every call keeps its guarantee, and over the whole run the provider path is closed only
behind an open consumer path and a supply seen at vSafe5V. -/
theorem path_safe (l : Limits) (calls : List PathCall) (w : World) (p : Path) :
    ∃ answers p' events, pathCalls l calls w p = (answers, p') ∧
      answers.map PathAnswer.call = calls ∧ p'.events = p.events ++ events ∧
      RunReport l answers events ∧ Checked l events := by
  obtain ⟨events, hevents, hcalls, hreport⟩ := adds_pathCalls l calls w p
  exact ⟨_, _, events, rfl, hcalls, hevents, hreport, hreport.checked⟩

/-- The limits of the standards, in millivolts and milliseconds. -/
def usbLimits : Limits := ⟨4750, 5500, 800, 650, 275⟩

/-- A supply that is there, a VBUS that is discharged once it has been on for a while, and a
fault alert that finds no fault before the first call. -/
def steadyWorld : World where
  write _ := 0
  write_nonpos _ := Int.le_refl 0
  flags _ := (0, 0)
  cn3 _ := (0, 5000)
  vbus turn := (0, if turn < 10 then 5000 else 100)
  faultRuns turn := if turn = 0 then 1 else 0
  now _ := 0

/-- The path as it starts. -/
def Path.start : Path := ⟨[], .none, 0, 0, 0, 0⟩

/-- VBUS is turned on, and off again. -/
theorem path_safe_onOff : ∃ answers p' events,
    pathCalls usbLimits [.sourceOn, .sourceOff] steadyWorld .start = (answers, p') ∧
      answers = [.sourceOn 0, .sourceOff 0] ∧
      answers.map PathAnswer.call = [.sourceOn, .sourceOff] ∧
      p'.events = Path.start.events ++ events ∧ RunReport usbLimits answers events ∧
      Checked usbLimits events := by
  have hanswers : (pathCalls usbLimits [.sourceOn, .sourceOff] steadyWorld .start).1 =
      [.sourceOn 0, .sourceOff 0] := by decide +kernel
  obtain ⟨answers, p', events, hrun, hcalls, hevents, hreport, hchecked⟩ :=
    path_safe usbLimits [.sourceOn, .sourceOff] steadyWorld .start
  rw [hrun] at hanswers
  exact ⟨answers, p', events, hrun, hanswers, hcalls, hevents, hreport, hchecked⟩

end DevBench.Pd
