import DevBench.Bench.Walks

/-!
# Accounting for captured records

Every entry captured for a tap and every drop reported for it is sent, counted, still under
way, or met the tap closed at the edge of its window. A tap that `close_all_taps` closes has no
such edge: the wait for the queue to be empty goes before.
-/

namespace DevBench.Bench

open DevBench.Core DevBench.Eap DevBench.Wire

/-- The message is a record of the tap. -/
def WireEvent.isRecordOf (i : Nat) : WireEvent → Bool
  | record j _ => j == i
  | _ => false

/-- The records sent for a tap. -/
def sentFor (i : Nat) (wire : List WireEvent) : Nat := wire.countP (WireEvent.isRecordOf i)

/-- The frames of a tap are counted piece by piece. -/
theorem sentFor_append (i : Nat) (xs ys : List WireEvent) :
    sentFor i (xs ++ ys) = sentFor i xs + sentFor i ys := List.countP_append

/-- Each time a tap is served it is sent a record or loses one. -/
theorem sentFor_sendRecord (t : TapTable) (entry : TranscriptEntry) (i : Nat) :
    ∀ served : List Nat, sentFor i (served.flatMap (t.sendRecord entry)) +
      (served.filter fun j => (t.recordFor entry j).isNone).count i = served.count i
  | [] => rfl
  | j :: served => by
    have ih := sentFor_sendRecord t entry i served
    rw [List.flatMap_cons, sentFor_append, List.filter_cons, TapTable.sendRecord]
    cases t.recordFor entry j with
    | none =>
      simp only [Option.isNone_none, if_true, List.count_cons]
      simp only [sentFor, List.countP_nil] at ih ⊢
      omega
    | some r =>
      simp only [Option.isNone_some, Bool.false_eq_true, if_false, List.count_cons, beq_iff_eq,
        sendMessageLocked_eq]
      simp only [sentFor, List.countP_cons, List.countP_nil, WireEvent.isRecordOf,
        beq_iff_eq] at ih ⊢
      omega

namespace Capture

variable {s s' : Capture} {i : Nat}

/-! ## The runs the accounts are about -/

/-- Once it was read for its close, the counter of the tap is final. -/
def CounterFinal (i : Nat) (s : Capture) (m : CaptureMove) : Prop :=
  s.counterRead i = true → ∀ s' ∈ s.advance m, s'.tapDropped i = s.tapDropped i

/-- When `close_all_taps` lets the flag of the tap fall, the TX thread holds nothing for it, and
nothing that is queued came for it behind the drain. -/
def ServedBeforeSweep (i : Nat) (s : Capture) (m : CaptureMove) : Prop :=
  m = .dispatch → s.phase = .sent ⟨i, false⟩ → s.drained = true →
    (∀ item ∈ s.inHand, item.owed i = false) ∧
      ∀ item ∈ s.transcriptQ, item.sinceDrain = true → item.owed i = false

/-- The close of the tap leaves nothing behind that its comments say is in front of it. -/
def LeavesNothing (i : Nat) (s : Capture) (m : CaptureMove) : Prop :=
  s.CounterFinal i m ∧ s.ServedBeforeSweep i m

instance (i : Nat) (s : Capture) (m : CaptureMove) : Decidable (s.LeavesNothing i m) :=
  inferInstanceAs (Decidable (
    (s.counterRead i = true → ∀ s' ∈ s.advance m, s'.tapDropped i = s.tapDropped i) ∧
      (m = .dispatch → s.phase = .sent ⟨i, false⟩ → s.drained = true →
        (∀ item ∈ s.inHand, item.owed i = false) ∧
          ∀ item ∈ s.transcriptQ, item.sinceDrain = true → item.owed i = false)))

/-! ## What is under way -/

/-- The entries captured for a tap that wait to be served. -/
def pending (s : Capture) (i : Nat) : Nat := s.underWay.countP fun item => item.owed i

/-- An entry that is queued is pending where it is owed. -/
theorem pending_enqueue (s : Capture) (entry : TranscriptEntry) (i : Nat) :
    (s.enqueue entry).pending i = s.pending i + (s.table.owes entry i).toNat := by
  rw [pending, underWay_enqueue, List.countP_append, List.countP_singleton]
  show s.pending i + (if s.table.owes entry i = true then 1 else 0) = _
  cases s.table.owes entry i with
  | false => rfl
  | true => rfl

/-- One that is served no longer is. -/
theorem pending_serve {item : Item} (hhand : s.inHand = some item) :
    s.pending i = (s.serve item).pending i + if item.owed i = true then 1 else 0 := by
  rw [pending, underWay_serve hhand, List.countP_cons]
  rfl

/-- What waits is owed to taps it is for; behind the drain all that is queued came since. -/
structure Queued (s : Capture) : Prop where
  room : s.transcriptQ.length ≤ transcriptQueueDepth
  addressed : ∀ item ∈ s.underWay, ∀ i, item.owed i = true → s.table.isFor item.entry i = true
  behind : s.drained = true → ∀ item ∈ s.transcriptQ, item.sinceDrain = true

/-- Which entries a tap is for does not change when it is opened or closed. -/
theorem isFor_assignTranscript (t : TapTable) (call : TapCall) (entry : TranscriptEntry) (i : Nat) :
    (t.assignTranscript call).isFor entry i = t.isFor entry i := by
  rw [TapTable.assignTranscript]
  split
  · rfl
  · rfl

/-- The item in hand is owed to taps it is for. -/
theorem Queued.isFor_inHand (h : s.Queued) {item : Item} (hhand : s.inHand = some item)
    (howed : item.owed i = true) : s.table.isFor item.entry i = true := by
  refine h.addressed item ?_ i howed
  rw [underWay_serve hhand]
  exact List.mem_cons_self

/-- A move keeps the queue in order. -/
theorem Queued.steps (h : s.Queued) {m : CaptureMove} (hs : s.Steps m s') : s'.Queued := by
  cases hs with
  | ignore | full | drop | stamped | announced => exact ⟨h.room, h.addressed, h.behind⟩
  | @queue entry hroom =>
    refine ⟨(List.length_append).trans_le hroom, ?_, fun hdrained item hitem => ?_⟩
    · rw [underWay_enqueue]
      intro item hitem i howed
      rcases List.mem_append.mp hitem with hbefore | hnew
      · exact h.addressed item hbefore i howed
      · obtain rfl := List.mem_singleton.mp hnew
        exact TapTable.isFor_of_owes howed
    · rcases List.mem_append.mp hitem with hbefore | hnew
      · exact h.behind hdrained item hbefore
      · obtain rfl := List.mem_singleton.mp hnew
        exact hdrained
  | @take item rest hhand hqueue =>
    have hroom := h.room
    rw [hqueue] at hroom
    refine ⟨Nat.le_of_succ_le hroom, ?_, fun hdrained item' hitem => ?_⟩
    · rw [underWay_take hhand hqueue]
      exact h.addressed
    · refine h.behind hdrained item' ?_
      rw [hqueue]
      exact List.mem_cons_of_mem _ hitem
  | @serve item hhand =>
    refine ⟨h.room, fun item' hitem => h.addressed item' ?_, h.behind⟩
    rw [underWay_serve hhand]
    exact List.mem_cons_of_mem _ hitem
  | call =>
    rw [callTap]
    split
    · exact ⟨h.room, h.addressed, h.behind⟩
    · exact ⟨h.room, h.addressed, h.behind⟩
  | drained hphase hprogram hqueue =>
    refine ⟨h.room, h.addressed, fun _ item hitem => ?_⟩
    rw [show ({ s with drained := true } : Capture).transcriptQ = [] from hqueue] at hitem
    exact absurd hitem List.not_mem_nil
  | opened => exact ⟨h.room, h.addressed, h.behind⟩
  | finished =>
    refine ⟨h.room, fun item hitem i howed => ?_, h.behind⟩
    rw [isFor_assignTranscript]
    exact h.addressed item hitem i howed

/-! ## The balance -/

/-- What came for a tap is what became of it. -/
def Balanced (s : Capture) (i : Nat) : Prop :=
  s.captured i + s.reported i + s.late i =
    sentFor i s.wire + s.tapDropped i + s.edge i + s.pending i

/-- An open tap is served what is for it, owed or late; a closed one lets go what it was owed. -/
theorem Balanced.serve (h : s.Balanced i) (hloaded : s.table.Loaded) {item : Item}
    (hhand : s.inHand = some item)
    (hfor : item.owed i = true → s.table.isFor item.entry i = true) :
    (s.serve item).Balanced i := by
  have hcount := sentFor_sendRecord s.table item.entry i (s.table.served item.entry)
  rw [hloaded.nodup_served.count, if_congr TapTable.mem_served_iff rfl rfl] at hcount
  unfold Balanced at h ⊢
  rw [pending_serve hhand] at h
  show s.captured i + s.reported i +
      (s.late i + (s.table.tapOpen i && s.table.isFor item.entry i && !item.owed i).toNat) =
    sentFor i (s.wire ++ (s.table.served item.entry).flatMap (s.table.sendRecord item.entry)) +
      (s.tapDropped i + ((s.table.served item.entry).filter fun j =>
        (s.table.recordFor item.entry j).isNone).count i) +
      (s.edge i + (!s.table.tapOpen i && item.owed i).toNat) + (s.serve item).pending i
  rw [sentFor_append]
  cases hopen : s.table.tapOpen i with
  | false =>
    simp only [hopen, Bool.false_eq_true, false_and, if_false] at hcount
    cases howed : item.owed i with
    | false =>
      simp only [howed, Bool.false_eq_true, if_false, Bool.false_and, Bool.not_false,
        Bool.and_false, Bool.toNat_false] at h ⊢
      omega
    | true =>
      simp only [howed, if_true, Bool.false_and, Bool.not_false, Bool.and_true, Bool.toNat_false,
        Bool.toNat_true] at h ⊢
      omega
  | true =>
    cases hisFor : s.table.isFor item.entry i with
    | false =>
      have howed : item.owed i = false := Bool.eq_false_iff.mpr fun howed =>
        Bool.false_ne_true (hisFor.symm.trans (hfor howed))
      simp only [hisFor, Bool.false_eq_true, and_false, if_false] at hcount
      simp only [howed, Bool.false_eq_true, if_false, Bool.and_false, Bool.false_and,
        Bool.toNat_false] at h ⊢
      omega
    | true =>
      simp only [hopen, hisFor, and_self, if_true] at hcount
      cases howed : item.owed i with
      | false =>
        simp only [howed, Bool.false_eq_true, if_false, Bool.and_true, Bool.not_false,
          Bool.not_true, Bool.and_false, Bool.toNat_false, Bool.toNat_true] at h ⊢
        omega
      | true =>
        simp only [howed, if_true, Bool.not_true, Bool.and_false, Bool.and_true, Bool.toNat_false]
          at h ⊢
        omega

/-- The sink sees the transcript's tap open with its flag down only while the tap is closed. -/
theorem FlagSettled.counterRead (h : s.FlagSettled) (horderly : s.Orderly)
    (htranscribes : s.table.transcribes i = true) (hclosed : s.table.tapOpen i = false) :
    s.counterRead i = true := by
  rw [TapTable.transcribes, Bool.and_eq_true, beq_iff_eq] at htranscribes
  obtain ⟨hflag, hindex⟩ := htranscribes
  by_cases hphase : ∃ call, s.phase = .assigned call
  · obtain ⟨call, hphase⟩ := hphase
    have hsettled := h.assigned call hphase
    rw [TapTable.Follows, TapTable.assignTranscript, hindex] at hsettled
    split at hsettled
    · next hcall =>
      -- the flag is about to follow the tap down, so this is the close of it
      obtain rfl := Option.some.inj hcall
      have hcurrent : s.current = some call := by rw [Capture.current, hphase]
      have hdown : call.isOpen = false := by
        simpa only [hindex, Option.any_some, hclosed] using hsettled
      rw [horderly.current call hcurrent, hdown]
      rfl
    · rw [hflag, hindex, Option.any_some, hclosed] at hsettled
      exact absurd hsettled.symm Bool.false_ne_true
  · have hsettled := h.other fun call heq => hphase ⟨call, heq⟩
    rw [TapTable.Follows, hflag, hindex, Option.any_some, hclosed] at hsettled
    exact absurd hsettled.symm Bool.false_ne_true

/-- While the counter is final, a full queue charges just the taps that are open. -/
theorem chargeDropToTaps_of_final (horderly : s.Orderly) (hflag : s.FlagSettled)
    (entry : TranscriptEntry)
    (hfinal : s.counterRead i = true → s.table.chargeDropToTaps entry i = 0) :
    s.table.chargeDropToTaps entry i = (s.table.owes entry i).toNat := by
  have hcharge := horderly.loaded.chargeDropToTaps_eq entry i
  rw [hcharge, TapTable.owes]
  cases hopen : s.table.tapOpen i with
  | true => rw [Bool.true_and]
  | false =>
    have hnotifies : s.table.notifies entry i = false := by
      rw [TapTable.notifies_eq, hopen, Bool.and_false]
    rw [TapTable.captures, hnotifies, Bool.or_false] at hcharge ⊢
    cases htranscribes : s.table.transcribes i with
    | false => rfl
    | true =>
      rw [hfinal (hflag.counterRead horderly htranscribes hopen), htranscribes] at hcharge
      exact absurd hcharge Nat.zero_ne_one

/-- A move keeps the balance of what a tap is owed. -/
theorem Balanced.steps (h : s.Balanced i) (horderly : s.Orderly) (hflag : s.FlagSettled)
    (hqueued : s.Queued) {m : CaptureMove} (hs : s.Steps m s')
    (hfinal : s.counterRead i = true → s'.tapDropped i = s.tapDropped i) : s'.Balanced i := by
  cases hs with
  | @ignore entry hclosed =>
    unfold Balanced at h
    have hnot : s.table.owes entry i = false := by
      rw [TapTable.owes, TapTable.captures_of_ignored hclosed.1 hclosed.2, Bool.and_false]
    show s.captured i + (s.table.owes entry i).toNat + _ + _ = _
    rw [hnot]
    exact h
  | @queue entry hroom =>
    unfold Balanced at h
    have hpending := pending_enqueue (s.count entry) entry i
    show s.captured i + (s.table.owes entry i).toNat + s.reported i + s.late i =
      sentFor i s.wire + s.tapDropped i + s.edge i + ((s.count entry).enqueue entry).pending i
    rw [hpending]
    show _ = _ + (s.pending i + (s.table.owes entry i).toNat)
    omega
  | @full entry =>
    unfold Balanced at h
    have hcharge := chargeDropToTaps_of_final horderly hflag entry fun hread =>
      Nat.add_eq_left.mp (hfinal hread)
    show s.captured i + (s.table.owes entry i).toNat + s.reported i + s.late i =
      sentFor i s.wire + (s.tapDropped i + s.table.chargeDropToTaps entry i) + s.edge i +
        s.pending i
    omega
  | @drop uuid =>
    unfold Balanced at h
    show s.captured i + (s.reported i + (s.table.feeds uuid i).toNat) + s.late i =
      sentFor i s.wire + (s.tapDropped i + (s.table.feeds uuid i).toNat) + s.edge i + s.pending i
    omega
  | take hhand hqueue =>
    rw [Balanced, pending, underWay_take hhand hqueue]
    exact h
  | serve hhand => exact h.serve horderly.loaded hhand (hqueued.isFor_inHand hhand)
  | drained | stamped | opened | finished => exact h
  | call =>
    rw [callTap]
    split
    · exact h
    · exact h
  | @announced call dropped =>
    have hsent : sentFor i [announce call dropped] = 0 := by
      rw [announce]
      split
      · rfl
      · rfl
    rw [Balanced, sentFor_append, hsent]
    exact h

/-! ## What a close reports -/

/-- The counter was sent with the close of the tap, or is about to be. -/
def Closing (s : Capture) (i : Nat) (dropped : UInt32) : Prop :=
  .closed i dropped ∈ s.wire ∨ s.phase = .called ⟨i, false⟩ dropped

/-- A close carries the counter. -/
def Reported (s : Capture) (i : Nat) : Prop :=
  ∀ dropped, s.Closing i dropped →
    s.counterRead i = true ∧ dropped = UInt32.ofNat (s.tapDropped i)

/-- No close is added, and the counter is final if it was read. -/
theorem Reported.of_closing (h : s.Reported i)
    (hfinal : s.counterRead i = true → s'.tapDropped i = s.tapDropped i)
    (hread : s'.counterRead i = s.counterRead i)
    (hclosing : ∀ dropped, s'.Closing i dropped → s.Closing i dropped) : s'.Reported i := by
  intro dropped hclose
  obtain ⟨hbefore, hdropped⟩ := h dropped (hclosing dropped hclose)
  exact ⟨hread.trans hbefore, hdropped.trans (congrArg UInt32.ofNat (hfinal hbefore).symm)⟩

/-- A move keeps what is reported of a tap in step with its counter. -/
theorem Reported.steps (h : s.Reported i) (horderly : s.Orderly) {m : CaptureMove}
    (hs : s.Steps m s') (hfinal : s.counterRead i = true → s'.tapDropped i = s.tapDropped i) :
    s'.Reported i := by
  cases hs with
  | ignore | queue | full | drop | take | drained | stamped =>
    exact h.of_closing hfinal rfl fun _ hclosing => hclosing
  | serve hhand =>
    refine h.of_closing hfinal rfl fun dropped hclosing => ?_
    rcases hclosing with hclosed | hphase
    · rcases List.mem_append.mp hclosed with hbefore | hnew
      · exact .inl hbefore
      · obtain ⟨j, _, hevent⟩ := List.mem_flatMap.mp hnew
        obtain ⟨_, _, heq⟩ := mem_sendRecord.mp hevent
        exact absurd heq (by simp)
    · exact .inr hphase
  | @call call program hphase hprogram =>
    have hunread := horderly.unread hprogram
    rw [callTap] at hfinal ⊢
    split
    · next hopen =>
      refine h.of_closing (fun _ => rfl) rfl fun dropped hclosing => ?_
      rcases hclosing with hclosed | hcalled
      · exact .inl hclosed
      · obtain ⟨rfl, _⟩ := DispatchPhase.called.inj hcalled
        exact absurd hopen Bool.false_ne_true
    · rintro dropped (hclosed | hcalled)
      · obtain ⟨hread, hdropped⟩ := h dropped (.inl hclosed)
        rcases eq_or_ne i call.index with rfl | hne
        · exact ⟨Function.update_self .., hdropped⟩
        · exact ⟨(Function.update_of_ne hne ..).trans hread, hdropped⟩
      · obtain ⟨rfl, rfl⟩ := DispatchPhase.called.inj hcalled
        exact ⟨Function.update_self .., rfl⟩
  | @announced call dropped hphase =>
    refine h.of_closing (fun _ => rfl) rfl fun dropped' hclosing => ?_
    rcases hclosing with hclosed | hcalled
    · rcases List.mem_append.mp hclosed with hbefore | hnew
      · exact .inl hbefore
      · obtain ⟨rfl, rfl⟩ := announce_eq_closed (List.mem_singleton.mp hnew).symm
        exact .inr hphase
    · exact absurd hcalled (by simp)
  | opened | finished =>
    refine h.of_closing (fun _ => rfl) rfl fun dropped hclosing => ?_
    exact hclosing.imp_right fun hcalled => absurd hcalled (by simp [assignTap])

/-! ## What is left out at the edges -/

/-- The tap that was called for to be closed and whose flag is still up. -/
def falling (s : Capture) : Option Nat :=
  match s.phase with
  | .called ⟨i, false⟩ _ | .sent ⟨i, false⟩ => some i
  | _ => none

/-- The tap was closed. -/
def Shut (s : Capture) (i : Nat) : Prop := s.counterRead i = true ∧ s.falling ≠ some i

/-- Nothing owed to a tap meets it closed before its flag falls, and then no more than there are
places for items; when it falls behind the drain there is nothing owed left. -/
structure Edged (s : Capture) (i : Nat) : Prop where
  shut : s.Shut i → s.table.tapOpen i = false
  early : ¬ s.Shut i → s.edge i = 0 ∧ (s.table.tapOpen i = false → s.pending i = 0)
  edge : s.edge i + s.pending i ≤ transcriptQueueDepth + 1
  swept : s.swept i = true → s.Shut i ∧ s.edge i = 0 ∧ s.pending i = 0

/-- The items under way are no more than the slots of the queue and the hand. -/
theorem Queued.countP_le (h : s.Queued) (p : Item → Bool) :
    s.underWay.countP p ≤ transcriptQueueDepth + 1 := by
  have hcount := List.countP_le_length (p := p) (l := s.underWay)
  have hhand : s.inHand.toList.length ≤ 1 := by
    cases s.inHand with
    | none => exact Nat.zero_le 1
    | some item => exact Nat.le_refl 1
  have hroom := h.room
  have hlength : s.underWay.length = s.inHand.toList.length + s.transcriptQ.length :=
    List.length_append
  omega

/-- What is neither shut nor open for anything keeps its accounts. -/
theorem Edged.of_same (h : s.Edged i) (hshut : s'.Shut i ↔ s.Shut i)
    (hopen : s'.table.tapOpen i = s.table.tapOpen i) (hedge : s'.edge i = s.edge i)
    (hpending : s'.pending i = s.pending i) (hswept : s'.swept i = s.swept i) : s'.Edged i := by
  refine ⟨?_, ?_, ?_, ?_⟩
  · rw [hshut, hopen]
    exact h.shut
  · rw [hshut, hopen, hedge, hpending]
    exact h.early
  · rw [hedge, hpending]
    exact h.edge
  · rw [hswept, hshut, hedge, hpending]
    exact h.swept

/-- Only a tap that is open comes to be owed an entry. -/
theorem Edged.queue (h : s.Edged i) (entry : TranscriptEntry)
    (hqueued : ((s.count entry).enqueue entry).Queued) :
    ((s.count entry).enqueue entry).Edged i := by
  have hpending : ((s.count entry).enqueue entry).pending i =
      s.pending i + (s.table.owes entry i).toNat := pending_enqueue (s.count entry) entry i
  cases hopen : s.table.tapOpen i with
  | false =>
    rw [TapTable.owes, hopen, Bool.false_and, Bool.toNat_false, Nat.add_zero] at hpending
    exact h.of_same Iff.rfl rfl rfl hpending rfl
  | true =>
    have hgoes : ¬ s.Shut i := fun hshut => Bool.false_ne_true ((h.shut hshut).symm.trans hopen)
    obtain ⟨hedge, -⟩ := h.early hgoes
    refine ⟨h.shut, fun _ => ⟨hedge, fun hclosed => ?_⟩, ?_, fun hswept => ?_⟩
    · exact absurd (hopen.symm.trans hclosed) Bool.false_ne_true.symm
    · show s.edge i + _ ≤ _
      rw [hedge, Nat.zero_add]
      exact hqueued.countP_le _
    · exact absurd (h.swept hswept).1 hgoes

/-- An entry that meets its tap closed was owed to it till then. -/
theorem Edged.serve (h : s.Edged i) {item : Item} (hhand : s.inHand = some item) :
    (s.serve item).Edged i := by
  have hpending := pending_serve (i := i) hhand
  have hedge : (s.serve item).edge i =
      s.edge i + (!s.table.tapOpen i && item.owed i).toNat := rfl
  have hshut : (s.serve item).Shut i ↔ s.Shut i := Iff.rfl
  have hopen : (s.serve item).table.tapOpen i = s.table.tapOpen i := rfl
  have hbound := h.edge
  have hmoved : (s.serve item).edge i + (s.serve item).pending i ≤ s.edge i + s.pending i := by
    rw [hedge, hpending, Nat.add_assoc, Nat.add_comm _ ((s.serve item).pending i)]
    cases s.table.tapOpen i <;> cases item.owed i <;> simp
  refine ⟨h.shut, fun hgoes => ?_, hmoved.trans hbound, fun hswept => ?_⟩
  · obtain ⟨hzero, hwaits⟩ := h.early hgoes
    cases hup : s.table.tapOpen i with
    | false =>
      have hnone := hwaits hup
      rw [hzero, hnone] at hmoved
      exact ⟨by omega, fun _ => by omega⟩
    | true =>
      rw [hedge, hup, hzero]
      exact ⟨rfl, fun hdown => absurd (hup.symm.trans hdown) Bool.false_ne_true.symm⟩
  · obtain ⟨hshut, hzero, hnone⟩ := h.swept hswept
    rw [hzero, hnone] at hmoved
    exact ⟨hshut, by omega, by omega⟩

/-- The dispatch thread reads the counter of a tap that was not shut, and its flag is up still. -/
theorem Edged.called (h : s.Edged i) {call : TapCall} {program : List TapOp}
    (hphase : s.phase = .between) (hunread : s.counterRead call.index = false) :
    ({ s with program := program }.callTap call).Edged i := by
  have hbefore : s.falling = none := by rw [falling, hphase]
  rw [callTap]
  split
  · next hopen =>
    have hafter : falling { s with program := program, phase := .called call 0 } = none := by
      obtain ⟨j, isOpen⟩ := call
      obtain rfl : isOpen = true := hopen
      rfl
    refine h.of_same ?_ rfl rfl rfl rfl
    rw [Shut, Shut, hbefore, hafter]
  · next hopen =>
    obtain ⟨j, isOpen⟩ := call
    obtain rfl : isOpen = false := Bool.eq_false_iff.mpr hopen
    refine h.of_same ?_ rfl rfl rfl rfl
    rcases eq_or_ne i j with rfl | hne
    · -- it is falling from here on
      exact iff_of_false (fun hshut => hshut.2 rfl) fun hshut =>
        Bool.false_ne_true (hunread.symm.trans hshut.1)
    · have hread : Function.update s.counterRead j true i = s.counterRead i :=
        Function.update_of_ne hne ..
      rw [Shut, Shut, hbefore]
      refine and_congr (iff_of_eq (congrArg (· = true) hread)) (iff_of_true ?_ ?_)
      · exact fun heq => hne (Option.some.inj heq).symm
      · exact (Option.some_ne_none i).symm

/-- A flag that rises is one of a tap that was not closed before; one that falls behind the drain
leaves nothing that was owed. -/
theorem Edged.assigned (h : s.Edged i) (horderly : s.Orderly) (hqueued : s.Queued) {call : TapCall}
    (hphase : s.phase = .sent call)
    (hserved : s.ServedBeforeSweep i .dispatch) : (s.assignTap call).Edged i := by
  have hread := horderly.current call (current_of_sent hphase)
  have hafter : (s.assignTap call).falling = none := rfl
  rcases eq_or_ne i call.index with rfl | hne
  · have hvalue : (s.assignTap call).table.tapOpen call.index = call.isOpen :=
      Function.update_self ..
    have hswept : (s.assignTap call).swept call.index = (s.drained && !call.isOpen) :=
      Function.update_self ..
    have hbefore : ¬ s.Shut call.index := by
      rintro ⟨hdown, hother⟩
      refine hother ?_
      obtain ⟨j, isOpen⟩ := call
      obtain rfl : isOpen = false := Bool.not_eq_true' _ ▸ hread.symm.trans hdown
      rw [falling, hphase]
    obtain ⟨hedge, hwaits⟩ := h.early hbefore
    cases hopen : call.isOpen with
    | true =>
      rw [hopen] at hread hvalue hswept
      have hgoes : ¬ (s.assignTap call).Shut call.index := fun hshut =>
        Bool.false_ne_true (hread.symm.trans hshut.1)
      refine ⟨fun hshut => absurd hshut hgoes, fun _ => ⟨hedge, fun hdown => ?_⟩, h.edge,
        fun hdone => ?_⟩
      · exact absurd (hvalue.symm.trans hdown) Bool.false_ne_true.symm
      · rw [hswept, Bool.not_true, Bool.and_false] at hdone
        exact absurd hdone Bool.false_ne_true
    | false =>
      rw [hopen] at hread hvalue hswept
      have hshut : (s.assignTap call).Shut call.index := ⟨hread, (Option.some_ne_none _).symm⟩
      refine ⟨fun _ => hvalue, fun hgoes => absurd hshut hgoes, h.edge,
        fun hdone => ⟨hshut, hedge, ?_⟩⟩
      rw [hswept, Bool.not_false, Bool.and_true] at hdone
      have hcall : call = ⟨call.index, false⟩ := by rw [← hopen]
      obtain ⟨hhand, hqueue⟩ := hserved rfl (hcall ▸ hphase) hdone
      -- what is queued came behind the drain, and none of that is owed to the tap
      refine List.countP_eq_zero.mpr fun item hitem => Bool.eq_false_iff.mp ?_
      rcases List.mem_append.mp hitem with hheld | hwaiting
      · exact hhand item (Option.mem_toList.mp hheld)
      · exact hqueue item hwaiting (hqueued.behind hdone item hwaiting)
  · have hother : s.falling ≠ some i := by
      rw [falling, hphase]
      obtain ⟨j, isOpen⟩ := call
      cases isOpen with
      | true => exact (Option.some_ne_none i).symm
      | false => exact fun heq => hne (Option.some.inj heq).symm
    refine h.of_same ?_ (Function.update_of_ne hne ..) rfl rfl (Function.update_of_ne hne ..)
    exact and_congr_right fun _ => iff_of_true (Option.some_ne_none i).symm hother

/-- A move in which every entry owed is served before its tap's flag falls, where it falls behind
the drain, keeps the edge. -/
theorem Edged.steps (h : s.Edged i) (horderly : s.Orderly) (hqueued : s.Queued) {m : CaptureMove}
    (hs : s.Steps m s') (hqueued' : s'.Queued) (hserved : s.ServedBeforeSweep i m) :
    s'.Edged i := by
  cases hs with
  | ignore | full | drop => exact ⟨h.shut, h.early, h.edge, h.swept⟩
  | queue hroom => exact h.queue _ hqueued'
  | take hhand hqueue =>
    refine h.of_same Iff.rfl rfl rfl ?_ rfl
    rw [pending, underWay_take hhand hqueue]
    rfl
  | serve hhand => exact h.serve hhand
  | call hphase hprogram => exact h.called hphase (horderly.unread hprogram)
  | drained | stamped => exact ⟨h.shut, h.early, h.edge, h.swept⟩
  | @announced call dropped hphase =>
    have hfalls : falling { s with
        phase := .sent call, wire := s.wire ++ [announce call dropped] } = s.falling := by
      simp only [falling, hphase]
      obtain ⟨j, isOpen⟩ := call
      cases isOpen with
      | true => rfl
      | false => rfl
    refine h.of_same ?_ rfl rfl rfl rfl
    rw [Shut, Shut, hfalls]
  | opened hphase => exact h.assigned horderly hqueued hphase hserved
  | @finished call hphase =>
    have htap : (s.table.assignTranscript call).tapOpen = s.table.tapOpen := by
      rw [TapTable.assignTranscript]
      split
      · rfl
      · rfl
    have hbefore : s.falling = none := by rw [falling, hphase]
    refine h.of_same ?_ (congrFun htap i) rfl rfl rfl
    rw [Shut, Shut, hbefore]
    rfl

/-! ## What is sent too early -/

/-- The entries for a tap that came before it was open for them and wait to be served. -/
def stale (s : Capture) (i : Nat) : Nat :=
  s.underWay.countP fun item => !item.owed i && s.table.isFor item.entry i

/-- A tap of a characteristic is sent no more of what came before it was open than there are
places for items: once it is open, whatever comes for it is owed to it. -/
structure Early (s : Capture) (i : Nat) : Prop where
  notify : s.table.transcriptTapIndex ≠ some i
  untouched : s.table.tapOpen i = false → s.counterRead i = false → s.late i = 0
  late : s.late i ≤ transcriptQueueDepth + 1
  stale : s.table.tapOpen i = true → s.late i + s.stale i ≤ transcriptQueueDepth + 1

/-- An entry that is for the tap and not owed to it is stale once it is queued. -/
theorem stale_enqueue (s : Capture) (entry : TranscriptEntry) (i : Nat) :
    (s.enqueue entry).stale i =
      s.stale i + (!s.table.owes entry i && s.table.isFor entry i).toNat := by
  rw [Capture.stale, underWay_enqueue, List.countP_append, List.countP_singleton]
  show s.stale i +
    (if (!s.table.owes entry i && s.table.isFor entry i) = true then 1 else 0) = _
  cases !s.table.owes entry i && s.table.isFor entry i with
  | false => rfl
  | true => rfl

/-- It is no longer when it is served. -/
theorem stale_serve {item : Item} (hhand : s.inHand = some item) :
    s.stale i = (s.serve item).stale i +
      if (!item.owed i && s.table.isFor item.entry i) = true then 1 else 0 := by
  rw [Capture.stale, underWay_serve hhand, List.countP_cons]
  rfl

/-- An open tap of a characteristic is owed all that is for it. -/
theorem Early.owes_eq (h : s.Early i) (entry : TranscriptEntry)
    (hopen : s.table.tapOpen i = true) : s.table.owes entry i = s.table.isFor entry i := by
  have hnot : (s.table.transcriptTapIndex == some i) = false := beq_eq_false_iff_ne.mpr h.notify
  rw [TapTable.owes, TapTable.captures, TapTable.transcribes, TapTable.isFor,
    TapTable.notifies_eq, hopen, hnot, Bool.and_false, Bool.false_or, Bool.and_true, Bool.true_and,
    Bool.or_false]

/-- An entry queued for an open tap is owed to it, and not stale. -/
theorem Early.queue (h : s.Early i) (entry : TranscriptEntry) :
    ((s.count entry).enqueue entry).Early i := by
  have hstale : ((s.count entry).enqueue entry).stale i =
      s.stale i + (!s.table.owes entry i && s.table.isFor entry i).toNat :=
    stale_enqueue (s.count entry) entry i
  refine ⟨h.notify, h.untouched, h.late, fun hopen => ?_⟩
  rw [hstale, h.owes_eq entry hopen, Bool.not_and_self]
  exact h.stale hopen

/-- A stale entry that is served to an open tap is late, and one stale entry less waits. -/
theorem Early.serve (h : s.Early i) {item : Item} (hhand : s.inHand = some item) :
    (s.serve item).Early i := by
  have hstale := stale_serve (i := i) hhand
  have hlate : (s.serve item).late i =
      s.late i + (s.table.tapOpen i && s.table.isFor item.entry i && !item.owed i).toNat := rfl
  have hbound := h.late
  cases hopen : s.table.tapOpen i with
  | false =>
    rw [hopen, Bool.false_and, Bool.false_and, Bool.toNat_false, Nat.add_zero] at hlate
    refine ⟨h.notify, fun _ hunread => hlate.trans (h.untouched hopen hunread),
      hlate.trans_le hbound, fun hup => ?_⟩
    exact absurd (hopen.symm.trans hup) Bool.false_ne_true
  | true =>
    have hroom := h.stale hopen
    have hmoved : (s.serve item).late i + (s.serve item).stale i = s.late i + s.stale i := by
      rw [hlate, hstale, hopen, Bool.true_and, Bool.and_comm]
      cases !item.owed i && s.table.isFor item.entry i with
      | false => rfl
      | true =>
        simp only [Bool.toNat_true, if_true]
        omega
    refine ⟨h.notify, fun hdown => ?_, by omega, fun _ => hmoved.trans_le hroom⟩
    exact absurd (hopen.symm.trans hdown) Bool.false_ne_true.symm

/-- A tap is not opened again behind the reading of its counter. -/
theorem Early.assigned (h : s.Early i) (hqueued : s.Queued) {call : TapCall}
    (hread : s.counterRead call.index = !call.isOpen) : (s.assignTap call).Early i := by
  rcases eq_or_ne i call.index with rfl | hne
  · have hvalue : (s.assignTap call).table.tapOpen call.index = call.isOpen :=
      Function.update_self ..
    cases hopen : call.isOpen with
    | false =>
      rw [hopen] at hread hvalue
      refine ⟨h.notify, fun _ hunread => ?_, h.late, fun hup => ?_⟩
      · exact absurd (hread.symm.trans hunread) Bool.false_ne_true.symm
      · exact absurd (hvalue.symm.trans hup) Bool.false_ne_true
    | true =>
      rw [hopen] at hread hvalue
      refine ⟨h.notify, fun hdown _ => ?_, h.late, fun _ => ?_⟩
      · exact absurd (hvalue.symm.trans hdown) Bool.false_ne_true.symm
      · change s.late call.index + s.stale call.index ≤ _
        cases hwas : s.table.tapOpen call.index with
        | false =>
          rw [h.untouched hwas hread, Nat.zero_add]
          exact hqueued.countP_le _
        | true => exact h.stale hwas
  · have hsame : (s.table.assignOpen call).tapOpen i = s.table.tapOpen i :=
      Function.update_of_ne hne ..
    exact ⟨h.notify, fun hdown => h.untouched (hsame.symm.trans hdown), h.late,
      fun hup => h.stale (hsame.symm.trans hup)⟩

/-- A move keeps the number of late and stale entries below the places there are. -/
theorem Early.steps (h : s.Early i) (horderly : s.Orderly) (hqueued : s.Queued) {m : CaptureMove}
    (hs : s.Steps m s') : s'.Early i := by
  cases hs with
  | ignore | full | drop | drained | stamped | announced =>
    exact ⟨h.notify, h.untouched, h.late, h.stale⟩
  | queue hroom => exact h.queue _
  | take hhand hqueue =>
    refine ⟨h.notify, h.untouched, h.late, fun hopen => ?_⟩
    rw [Capture.stale, underWay_take hhand hqueue]
    exact h.stale hopen
  | serve hhand => exact h.serve hhand
  | @call call program hphase hprogram =>
    rw [callTap]
    split
    · exact ⟨h.notify, h.untouched, h.late, h.stale⟩
    · refine ⟨h.notify, fun hclosed hunread => h.untouched hclosed ?_, h.late, h.stale⟩
      rcases eq_or_ne i call.index with rfl | hne
      · exact absurd ((Function.update_self ..).symm.trans hunread) Bool.false_ne_true.symm
      · exact (Function.update_of_ne hne ..).symm.trans hunread
  | @opened call hphase => exact h.assigned hqueued (horderly.current call (current_of_sent hphase))
  | @finished call hphase =>
    have hstale : ∀ item : Item, (s.table.assignTranscript call).isFor item.entry i =
        s.table.isFor item.entry i := fun item => isFor_assignTranscript ..
    have htable : (s.table.assignTranscript call).tapOpen = s.table.tapOpen ∧
        (s.table.assignTranscript call).transcriptTapIndex = s.table.transcriptTapIndex := by
      rw [TapTable.assignTranscript]
      split
      · exact ⟨rfl, rfl⟩
      · exact ⟨rfl, rfl⟩
    refine ⟨htable.2 ▸ h.notify, ?_, h.late, ?_⟩
    · rw [htable.1]
      exact h.untouched
    · rw [htable.1, Capture.stale]
      simp only [hstale]
      exact h.stale

/-! ## Whole runs -/

section

variable {answers : Answers} {study : StudyStart} {left : Leftover}

/-- What the study before left is owed to no tap of this one. -/
theorem owed_start {item : Item} (h : item ∈ (start answers study left).underWay) (i : Nat) :
    item.owed i = false := by
  rcases List.mem_append.mp h with hhand | hqueue
  · obtain ⟨_, _, rfl⟩ := Option.map_eq_some_iff.mp (Option.mem_toList.mp hhand)
    rfl
  · obtain ⟨_, _, rfl⟩ := List.mem_map.mp hqueue
    rfl

/-- Nothing is pending at the start. -/
theorem pending_start : (start answers study left).pending i = 0 :=
  List.countP_eq_zero.mpr fun _ hitem => Bool.eq_false_iff.mp (owed_start hitem i)

/-- The queue is empty. -/
theorem queued_start : (start answers study left).Queued where
  room := (List.length_map _).trans_le left.transcriptQ.fits
  addressed := fun _ hitem i howed =>
    absurd ((owed_start hitem i).symm.trans howed) Bool.false_ne_true
  behind := nofun

/-- Nothing is owed yet. -/
theorem balanced_start : (start answers study left).Balanced i := by
  rw [Balanced, pending_start]
  rfl

/-- No tap is open or has been closed. -/
theorem edged_start : (start answers study left).Edged i where
  shut := fun _ => rfl
  early := fun _ => ⟨rfl, fun _ => pending_start⟩
  edge := by
    rw [pending_start]
    exact Nat.zero_le _
  swept := nofun

/-- Nothing has come too early. -/
theorem early_start (hnotify : (loadStudyTaps study.streams.items).transcriptTapIndex ≠ some i) :
    (start answers study left).Early i where
  notify := hnotify
  untouched := fun _ _ => rfl
  late := Nat.zero_le _
  stale := nofun

/-- In every run whose closes leave nothing behind, the entries that came for a tap while it was
open and the drops reported for it, with those it was sent though they had come before it was
open, are its records, the drops on its counter, what met it closed and what is under way. Its
close carries that counter. A tap that `close_all_taps` closed has lost nothing at the edge;
what another one loses there fits the places for items, and so does what a tap of a
characteristic is sent too early. -/
theorem accounted (i : Nat)
    (h : Reaches advance (LeavesNothing i) (start answers study left) s) :
    s.captured i + s.reported i + s.late i =
        sentFor i s.wire + s.tapDropped i + s.edge i + s.pending i ∧
      (∀ dropped, .closed i dropped ∈ s.wire → dropped = UInt32.ofNat (s.tapDropped i)) ∧
      (s.swept i = true → s.edge i = 0 ∧ s.pending i = 0) ∧
      s.edge i ≤ transcriptQueueDepth + 1 ∧
      ((loadStudyTaps study.streams.items).transcriptTapIndex ≠ some i →
        s.late i ≤ transcriptQueueDepth + 1) := by
  have hinv : s.FlagSettled ∧ s.Queued ∧ s.Balanced i ∧ s.Reported i ∧ s.Edged i := by
    refine invariant_of_steps h
      (fun s => s.FlagSettled ∧ s.Queued ∧ s.Balanced i ∧ s.Reported i ∧ s.Edged i) ?_ ?_
    · exact ⟨⟨nofun, fun _ => TapTable.follows_loadStudyTaps study.streams.items⟩, queued_start,
        balanced_start, fun _ hclosing => hclosing.elim nofun nofun, edged_start⟩
    · rintro s s' m horderly ⟨hflag, hqueued, hbalanced, hreported, hedged⟩ ⟨hfinal, hserved⟩ hstep
      have hs := steps_of_advance hstep
      have hkept : s.counterRead i = true → s'.tapDropped i = s.tapDropped i := fun hread =>
        hfinal hread s' hstep
      have hqueued' := hqueued.steps hs
      exact ⟨hflag.steps hs, hqueued', hbalanced.steps horderly hflag hqueued hs hkept,
        hreported.steps horderly hs hkept, hedged.steps horderly hqueued hs hqueued' hserved⟩
  obtain ⟨-, -, hbalanced, hreported, hedged⟩ := hinv
  refine ⟨hbalanced, fun dropped hclosed => (hreported dropped (.inl hclosed)).2,
    fun hswept => (hedged.swept hswept).2, Nat.le_of_add_right_le hedged.edge, fun hnotify => ?_⟩
  have hearly : s.Queued ∧ s.Early i :=
    invariant_of_steps h (fun s => s.Queued ∧ s.Early i) ⟨queued_start, early_start hnotify⟩
      fun horderly hinv _ hstep =>
        have hs := steps_of_advance hstep
        ⟨hinv.1.steps hs, hinv.2.steps horderly hinv.1 hs⟩
  exact hearly.2.late

end

/-! ## The edge of a window -/

/-- A tap that was closed was sent, or had counted, what came for it. -/
def TapBalances (s : Capture) (i : Nat) : Prop :=
  ∀ dropped, .closed i dropped ∈ s.wire →
    s.captured i + s.reported i = sentFor i s.wire + dropped.toNat

/-- The dispatch thread is done and nothing is under way. -/
def Settled (s : Capture) : Prop := s.program = [] ∧ s.phase = .between ∧ s.underWay = []

/-- Two steps, a transcript of the whole study and a tap on the same characteristic for each of
the steps. -/
def edgeStudy : StudyStart :=
  { windowStudy with
    streams := .ofList [⟨6, .gattTranscript, .wholeStudy, zeroUuid⟩,
      ⟨7, .gattNotify, .steps 0 0, zeroUuid⟩, ⟨8, .gattNotify, .steps 1 1, zeroUuid⟩] }

/-- A notification comes in the first step and is still queued when the second one closes the
tap of the first and opens its own. -/
def edgeRun : List CaptureMove :=
  List.replicate 9 .dispatch ++ [.sink notification] ++ List.replicate 9 .dispatch ++
    [.dequeue, .serve] ++ List.replicate 9 .dispatch

/-- The first tap was open for the notification and is not sent it, the second one was not open
for it and is. -/
theorem edgeRun_unbalanced : ∃ s,
    Reaches advance (fun _ _ => True) (start passingAnswers edgeStudy nothingLeft) s ∧
    s.Settled ∧ (s.captured 1 = 1 ∧ ¬ s.TapBalances 1) ∧ s.captured 2 = 0 ∧ ¬ s.TapBalances 2 := by
  have hend : (play advance (fun _ _ => True) (start passingAnswers edgeStudy nothingLeft)
      edgeRun).map (fun s => ((s.program, s.phase, s.underWay.length), (s.captured 1, s.reported 1,
        sentFor 1 s.wire), (s.captured 2, s.reported 2, sentFor 2 s.wire),
        decide (.closed 1 0 ∈ s.wire ∧ .closed 2 0 ∈ s.wire))) =
      some (([], .between, 0), (1, 0, 0), (0, 0, 1), true) := by decide +kernel
  obtain ⟨s, hplay, hs⟩ := Option.map_eq_some_iff.mp hend
  simp only [Prod.mk.injEq, List.length_eq_zero_iff, decide_eq_true_eq] at hs
  obtain ⟨hdone, ⟨hcaptured, hreported, hsent⟩, ⟨hcaptured', hreported', hsent'⟩, hclosed, hclosed'⟩
    := hs
  refine ⟨s, reaches_of_play .start hplay, hdone, ⟨hcaptured, fun h => ?_⟩, hcaptured', fun h => ?_⟩
  · have hbalance := h 0 hclosed
    rw [hcaptured, hreported, hsent] at hbalance
    exact absurd hbalance (by decide)
  · have hbalance := h 0 hclosed'
    rw [hcaptured', hreported', hsent'] at hbalance
    exact absurd hbalance (by decide)

/-- The one is accounted for at the edge, the other is late and left nothing behind the drain. -/
theorem edgeRun_accounted :
    (∃ s, play advance (LeavesNothing 1) (start passingAnswers edgeStudy nothingLeft) edgeRun =
        some s ∧ s.edge 1 = 1 ∧ s.captured 1 + s.reported 1 + s.late 1 =
          sentFor 1 s.wire + s.tapDropped 1 + s.edge 1 + s.pending 1) ∧
      ∃ s, play advance (LeavesNothing 2) (start passingAnswers edgeStudy nothingLeft) edgeRun =
        some s ∧ s.late 2 = 1 ∧ s.captured 2 + s.reported 2 + s.late 2 =
          sentFor 2 s.wire + s.tapDropped 2 + s.edge 2 + s.pending 2 ∧
        (0 : UInt32) = UInt32.ofNat (s.tapDropped 2) ∧ (s.edge 2 = 0 ∧ s.pending 2 = 0) ∧
        s.late 2 ≤ transcriptQueueDepth + 1 := by
  have hedge : (play advance (LeavesNothing 1) (start passingAnswers edgeStudy nothingLeft)
      edgeRun).map (fun s => s.edge 1) = some 1 := by decide +kernel
  have hlate : (play advance (LeavesNothing 2) (start passingAnswers edgeStudy nothingLeft)
      edgeRun).map (fun s => (s.late 2, s.swept 2, decide (.closed 2 0 ∈ s.wire))) =
      some (1, true, true) := by decide +kernel
  obtain ⟨s, hplay, hs⟩ := Option.map_eq_some_iff.mp hedge
  obtain ⟨s', hplay', hs'⟩ := Option.map_eq_some_iff.mp hlate
  simp only [Prod.mk.injEq, decide_eq_true_eq] at hs'
  obtain ⟨hlate, hswept, hclosed⟩ := hs'
  obtain ⟨hbalance, -⟩ := accounted 1 (reaches_of_play .start hplay)
  obtain ⟨hbalance', hclose, hsweep, -, hbound⟩ := accounted 2 (reaches_of_play .start hplay')
  have hnotify : (loadStudyTaps edgeStudy.streams.items).transcriptTapIndex ≠ some 2 := by decide
  exact ⟨⟨s, hplay, hs, hbalance⟩, s', hplay', hlate, hbalance', hclose 0 hclosed, hsweep hswept,
    hbound hnotify⟩

end Capture

end DevBench.Bench
