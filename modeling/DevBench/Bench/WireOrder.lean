import DevBench.Bench.Capture
import Mathlib.Data.List.Induction

/-!
# The order of a tap's messages

A record of a tap belongs between its opening and its closing. It gets there as long as the
TX thread does not serve an entry between the send of the tap's close and the assignment that
follows it.
-/

namespace DevBench.Bench

open DevBench.Core DevBench.Wire

/-! ## Wires -/

/-- Every record lies behind the opening of its tap and in front of its closing. -/
def WellOrdered (wire : List WireEvent) : Prop :=
  ∀ before i r after, wire = before ++ .record i r :: after →
    .opened i ∈ before ∧ ∀ dropped, .closed i dropped ∉ before

/-- A message may be added to the wire. -/
def MayFollow (wire : List WireEvent) (e : WireEvent) : Prop :=
  ∀ i r, e = .record i r → .opened i ∈ wire ∧ ∀ dropped, .closed i dropped ∉ wire

theorem wellOrdered_concat {wire : List WireEvent} {e : WireEvent} :
    WellOrdered (wire ++ [e]) ↔ WellOrdered wire ∧ MayFollow wire e := by
  constructor
  · intro h
    refine ⟨?_, ?_⟩
    · rintro before i r after rfl
      exact h before i r (after ++ [e]) (by simp)
    · rintro i r rfl
      exact h wire i r [] rfl
  · rintro ⟨hwire, hlast⟩ before i r after heq
    rcases List.eq_nil_or_concat after with rfl | ⟨after, last, rfl⟩
    · obtain ⟨rfl, hevent⟩ := List.append_inj' heq rfl
      exact hlast i r (List.singleton_inj.mp hevent)
    · rw [List.concat_eq_append, ← List.cons_append, ← List.append_assoc] at heq
      exact hwire before i r after (List.append_inj' heq rfl).1

/-- Records do not get into each other's way. -/
theorem wellOrdered_append_records {wire : List WireEvent} : ∀ {events : List WireEvent},
    (∀ e ∈ events, ∃ i r, e = .record i r) →
      (WellOrdered (wire ++ events) ↔ WellOrdered wire ∧ ∀ e ∈ events, MayFollow wire e) := by
  intro events
  induction events using List.reverseRecOn with
  | nil => simp
  | append_singleton events e ih =>
    intro hrecords
    have hbefore : ∀ e ∈ events, ∃ i r, e = .record i r :=
      fun e he => hrecords e (List.mem_append_left _ he)
    have hfollow : MayFollow (wire ++ events) e ↔ MayFollow wire e := by
      have hopened : ∀ i, .opened i ∉ events := fun i hi => by
        obtain ⟨_, _, heq⟩ := hbefore _ hi
        exact absurd heq nofun
      have hclosed : ∀ i dropped, .closed i dropped ∉ events := fun i dropped hi => by
        obtain ⟨_, _, heq⟩ := hbefore _ hi
        exact absurd heq nofun
      simp only [MayFollow, List.mem_append, hopened, hclosed, or_false]
    rw [← List.append_assoc, wellOrdered_concat, ih hbefore, hfollow, and_assoc]
    simp only [List.mem_append, List.mem_singleton, or_imp, forall_and, forall_eq]

namespace Capture

variable {s s' : Capture}

/-! ## The machine -/

/-- The open taps were opened, and none of them is closed but for the one whose flag is about
to follow. -/
structure Framed (s : Capture) : Prop where
  opened : ∀ i, s.table.tapOpen i = true → .opened i ∈ s.wire
  opening : ∀ i, s.phase = .sent ⟨i, true⟩ → .opened i ∈ s.wire
  closed : ∀ i dropped, .closed i dropped ∈ s.wire → s.table.tapOpen i = true →
    s.phase = .sent ⟨i, false⟩
  closing : ∀ i, s.phase = .sent ⟨i, false⟩ → ∃ dropped, .closed i dropped ∈ s.wire

/-- A section of the TX thread sends records only. -/
theorem record_of_mem_served {t : TapTable} {entry : TranscriptEntry} {e : WireEvent}
    (h : e ∈ (t.served entry).flatMap (t.sendRecord entry)) :
    ∃ i r, e = .record i r ∧ i ∈ t.served entry ∧ t.recordFor entry i = some r := by
  obtain ⟨i, hserved, hevent⟩ := List.mem_flatMap.mp h
  obtain ⟨r, hrecord, rfl⟩ := mem_sendRecord.mp hevent
  exact ⟨i, r, rfl, hserved, hrecord⟩

/-- Away from the section under the lock neither the flags nor the wire change. -/
theorem Framed.of_not_sent (h : s.Framed) (htap : s'.table.tapOpen = s.table.tapOpen)
    (hwire : s'.wire = s.wire) (hbefore : ∀ call, s.phase ≠ .sent call)
    (hafter : ∀ call, s'.phase ≠ .sent call) : s'.Framed := by
  refine ⟨?_, fun i hphase => absurd hphase (hafter _), ?_,
    fun i hphase => absurd hphase (hafter _)⟩
  · rw [htap, hwire]
    exact h.opened
  · rw [htap, hwire]
    exact fun i dropped hclosed hopen => absurd (h.closed i dropped hclosed hopen) (hbefore _)

/-- The close of a tap is sent before its flag is cleared. -/
theorem Framed.announced (h : s.Framed) {call : TapCall} {dropped : UInt32}
    (hphase : s.phase = .called call dropped) :
    Framed { s with phase := .sent call, wire := s.wire ++ [announce call dropped] } := by
  refine ⟨fun i hopen => List.mem_append_left _ (h.opened i hopen), fun i hsent => ?_,
    fun i dropped' hclosed hopen => ?_, fun i hsent => ?_⟩
  · obtain rfl := DispatchPhase.sent.inj hsent
    exact List.mem_append_right _ (List.mem_singleton.mpr rfl)
  · rcases List.mem_append.mp hclosed with hbefore | hnew
    · rw [h.closed i dropped' hbefore hopen] at hphase
      exact absurd hphase nofun
    · obtain ⟨rfl, _⟩ := announce_eq_closed (List.mem_singleton.mp hnew).symm
      rfl
  · obtain rfl := DispatchPhase.sent.inj hsent
    exact ⟨dropped, List.mem_append_right _ (List.mem_singleton.mpr rfl)⟩

/-- The flag follows what was sent; a tap that was closed is not opened again. -/
theorem Framed.assigned (h : s.Framed) (horderly : s.Orderly) {call : TapCall}
    (hphase : s.phase = .sent call) :
    (s.assignTap call).Framed := by
  have hnot : ∀ call', DispatchPhase.assigned call ≠ .sent call' := by simp
  refine ⟨fun i hopen => ?_, fun i hsent => absurd hsent (hnot _),
    fun i dropped hclosed hopen => ?_, fun i hsent => absurd hsent (hnot _)⟩
  · rcases eq_or_ne i call.index with rfl | hne
    · have hvalue : call.isOpen = true := (Function.update_self ..).symm.trans hopen
      exact h.opening call.index (hvalue ▸ hphase)
    · exact h.opened i ((Function.update_of_ne hne ..).symm.trans hopen)
  · rcases eq_or_ne i call.index with rfl | hne
    · have hvalue : call.isOpen = true := (Function.update_self ..).symm.trans hopen
      have hread := horderly.current call (current_of_sent hphase)
      rw [hvalue, horderly.closed call.index dropped hclosed] at hread
      exact absurd hread Bool.false_ne_true.symm
    · have hsent := h.closed i dropped hclosed ((Function.update_of_ne hne ..).symm.trans hopen)
      rw [hphase] at hsent
      exact absurd (congrArg TapCall.index (DispatchPhase.sent.inj hsent)) hne.symm

theorem Framed.steps (h : s.Framed) (horderly : s.Orderly) {m : CaptureMove}
    (hs : s.Steps m s') : s'.Framed := by
  cases hs with
  | ignore | queue | full | drop | take => exact ⟨h.opened, h.opening, h.closed, h.closing⟩
  | serve hhand =>
    refine ⟨fun i hopen => List.mem_append_left _ (h.opened i hopen),
      fun i hphase => List.mem_append_left _ (h.opening i hphase), fun i dropped hclosed => ?_,
      fun i hphase => ?_⟩
    · rcases List.mem_append.mp hclosed with hbefore | hnew
      · exact h.closed i dropped hbefore
      · obtain ⟨_, _, heq, _⟩ := record_of_mem_served hnew
        exact absurd heq (by simp)
    · obtain ⟨dropped, hclosed⟩ := h.closing i hphase
      exact ⟨dropped, List.mem_append_left _ hclosed⟩
  | call hphase =>
    rw [callTap]
    split
    · exact h.of_not_sent rfl rfl (by simp [hphase]) (by simp)
    · exact h.of_not_sent rfl rfl (by simp [hphase]) (by simp)
  | drained hphase => exact h.of_not_sent rfl rfl (by simp [hphase]) (by simp [hphase])
  | stamped hphase => exact h.of_not_sent rfl rfl (by simp [hphase]) (by simp [hphase])
  | announced hphase => exact h.announced hphase
  | opened hphase => exact h.assigned horderly hphase
  | @finished call hphase =>
    have htap : (s.table.assignTranscript call).tapOpen = s.table.tapOpen := by
      rw [TapTable.assignTranscript]
      split
      · rfl
      · rfl
    exact h.of_not_sent htap rfl (by simp [hphase]) (by simp)

/-! ## The condition -/

/-- The item in hand makes a record for the tap whose close was sent and whose flag has not
followed yet. -/
def sendsBehindClose (s : Capture) : Bool :=
  match s.inHand with
  | none => false
  | some item => (s.table.served item.entry).any fun i =>
      s.phase = .sent ⟨i, false⟩ && (s.table.recordFor item.entry i).isSome

/-- The move is not the section of the TX thread that sends such a record. -/
def BeforeClose (s : Capture) (m : CaptureMove) : Prop := m = .serve → s.sendsBehindClose = false

instance (s : Capture) (m : CaptureMove) : Decidable (s.BeforeClose m) :=
  inferInstanceAs (Decidable (m = .serve → s.sendsBehindClose = false))

theorem sendsBehindClose_iff {item : Item} (hhand : s.inHand = some item) :
    s.sendsBehindClose = true ↔ ∃ i r, s.phase = .sent ⟨i, false⟩ ∧
      i ∈ s.table.served item.entry ∧ s.table.recordFor item.entry i = some r := by
  simp only [sendsBehindClose, hhand, List.any_eq_true, Bool.and_eq_true, decide_eq_true_eq,
    Option.isSome_iff_exists]
  constructor
  · rintro ⟨i, hserved, hphase, r, hrecord⟩
    exact ⟨i, r, hphase, hserved, hrecord⟩
  · rintro ⟨i, r, hphase, hserved, hrecord⟩
    exact ⟨i, hserved, hphase, r, hrecord⟩

/-- The records of a section may follow exactly when none of them is for the tap just closed. -/
theorem Framed.serve_iff (h : s.Framed) (hwire : WellOrdered s.wire) {item : Item}
    (hhand : s.inHand = some item) :
    WellOrdered (s.serve item).wire ↔ s.sendsBehindClose = false := by
  have hrecords : ∀ e ∈ (s.table.served item.entry).flatMap (s.table.sendRecord item.entry),
      ∃ i r, e = .record i r := fun e he => by
    obtain ⟨i, r, heq, _⟩ := record_of_mem_served he
    exact ⟨i, r, heq⟩
  refine (wellOrdered_append_records hrecords).trans ((and_iff_right hwire).trans ?_)
  constructor
  · refine fun hfollow => Bool.eq_false_iff.mpr fun hbehind => ?_
    obtain ⟨i, r, hphase, hserved, hrecord⟩ := (sendsBehindClose_iff hhand).mp hbehind
    obtain ⟨dropped, hclosed⟩ := h.closing i hphase
    exact (hfollow _ (List.mem_flatMap.mpr ⟨i, hserved, mem_sendRecord.mpr ⟨r, hrecord, rfl⟩⟩) i r
      rfl).2 dropped hclosed
  · rintro hbehind e he i r rfl
    obtain ⟨_, _, heq, hserved, hrecord⟩ := record_of_mem_served he
    obtain ⟨rfl, rfl⟩ := WireEvent.record.inj heq
    have hopen := TapTable.tapOpen_of_mem_served hserved
    refine ⟨h.opened i hopen, fun dropped hclosed => Bool.eq_false_iff.mp hbehind ?_⟩
    exact (sendsBehindClose_iff hhand).mpr
      ⟨i, r, h.closed i dropped hclosed hopen, hserved, hrecord⟩

/-- A move keeps the order of the wire exactly when it meets the condition. -/
theorem Framed.wellOrdered_iff (h : s.Framed) (hwire : WellOrdered s.wire) {m : CaptureMove}
    (hs : s.Steps m s') : WellOrdered s'.wire ↔ s.BeforeClose m := by
  cases hs with
  | serve hhand => exact (h.serve_iff hwire hhand).trans ⟨fun hok _ => hok, fun hok => hok rfl⟩
  | @announced call dropped hphase =>
    have hfollow : MayFollow s.wire (announce call dropped) := by
      intro i r heq
      rw [announce] at heq
      split at heq
      · exact absurd heq nofun
      · exact absurd heq nofun
    exact iff_of_true (wellOrdered_concat.mpr ⟨hwire, hfollow⟩) nofun
  | ignore | queue | full | drop | take | drained | stamped | opened | finished =>
    exact iff_of_true hwire nofun
  | call =>
    rw [callTap]
    split
    · exact iff_of_true hwire nofun
    · exact iff_of_true hwire nofun

/-- As long as the TX thread sends no record of a tap between the send of its close and the
assignment behind it, every record lies between the opening and the closing of its tap; the
first section that does breaks that. -/
theorem wellOrdered_of_beforeClose {answers : Answers} {study : StudyStart} {left : Leftover}
    (h : Reaches advance BeforeClose (start answers study left) s) :
    WellOrdered s.wire ∧ ∀ m s', s.advance m = some s' →
      (WellOrdered s'.wire ↔ s.BeforeClose m) := by
  have hstart : (start answers study left).Framed ∧
      WellOrdered (start answers study left).wire := by
    refine ⟨⟨nofun, nofun, nofun, nofun⟩, fun before i r after heq => ?_⟩
    exact absurd heq.symm (List.append_ne_nil_of_right_ne_nil _ (List.cons_ne_nil _ _))
  obtain ⟨hframed, hwire⟩ := invariant_of_steps h (fun s => s.Framed ∧ WellOrdered s.wire) hstart
    fun horderly hinv hok hstep =>
      have hs := steps_of_advance hstep
      ⟨hinv.1.steps horderly hs, (hinv.1.wellOrdered_iff hinv.2 hs).mpr hok⟩
  exact ⟨hwire, fun m s' hstep => hframed.wellOrdered_iff hwire (steps_of_advance hstep)⟩

/-- The notification is sent in the step it came in. -/
theorem promptRun_wellOrdered : ∃ s,
    play advance BeforeClose (start passingAnswers windowStudy nothingLeft)
      [.dispatch, .dispatch, .dispatch, .dispatch, .sink notification, .dequeue, .serve] = some s ∧
    s.wire = [.opened 0, .record 0 ⟨0, .empty⟩] ∧ WellOrdered s.wire := by
  have hwire : (play advance BeforeClose (start passingAnswers windowStudy nothingLeft)
      [.dispatch, .dispatch, .dispatch, .dispatch, .sink notification, .dequeue, .serve]).map
        Capture.wire = some [.opened 0, .record 0 ⟨0, .empty⟩] := by decide +kernel
  obtain ⟨s, hplay, hwire⟩ := Option.map_eq_some_iff.mp hwire
  exact ⟨s, hplay, hwire, (wellOrdered_of_beforeClose (reaches_of_play .start hplay)).1⟩

/-- It is in hand when the second step closes the tap, and is sent before the flag follows. -/
theorem overtakenRun_not_wellOrdered : ∃ s,
    Reaches advance (fun _ _ => True) (start passingAnswers windowStudy nothingLeft) s ∧
    s.wire = [.opened 0, .closed 0 0, .record 0 ⟨0, .empty⟩] ∧ ¬ WellOrdered s.wire := by
  have hwire : (play advance (fun _ _ => True) (start passingAnswers windowStudy nothingLeft)
      [.dispatch, .dispatch, .dispatch, .dispatch, .sink notification, .dequeue, .dispatch,
        .dispatch, .dispatch, .dispatch, .serve]).map Capture.wire =
      some [.opened 0, .closed 0 0, .record 0 ⟨0, .empty⟩] := by decide +kernel
  obtain ⟨s, hplay, hwire⟩ := Option.map_eq_some_iff.mp hwire
  refine ⟨s, reaches_of_play .start hplay, hwire, fun h => ?_⟩
  exact (h [.opened 0, .closed 0 0] 0 _ [] hwire).2 0 (by decide)

end Capture

end DevBench.Bench
