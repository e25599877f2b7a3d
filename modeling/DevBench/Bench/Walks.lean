import DevBench.Bench.Capture

/-!
# The walks over the taps

`notify_tap_wants`, `charge_drop_to_taps`, `drop_sink_cb`, `transcript_sink_cb` and the section
of `transcript_tx_thread` (`main.c`), each with its own tests and its own loop over the table.
Two of them look at the flag kept for the transcript's tap, one at the table. They are for
the same taps in every state that calls of `set_tap_open` lead to.
-/

namespace DevBench.Bench

open DevBench.Core DevBench.Core.Traced DevBench.Eap DevBench.Wire

/-- What a walk does. -/
inductive TapEffect where
  /-- `transcript_dropped++` -/
  | lose
  /-- `tap_dropped[tap]++` -/
  | charge (tap : Nat)
  /-- A record is sent on the tap. -/
  | send (tap : Nat) (r : StreamRecord)
  deriving DecidableEq, Repr

/-- The tap something is done about. -/
def TapEffect.tap : TapEffect → Option Nat
  | lose => none
  | charge tap => some tap
  | send tap _ => some tap

namespace Walk

variable (t : TapTable)

/-- The loop of `notify_tap_wants`, from index `i` on. -/
def wantsLoop (uuid : Uuid) : Nat → List StreamTap → Bool
  | _, [] => false
  | i, tap :: taps =>
    if tap.sourceTag ≠ .gattNotify ∨ t.tapOpen i = false then wantsLoop uuid (i + 1) taps
    else if tap.characteristicUuid = uuid then true
    else wantsLoop uuid (i + 1) taps

/-- `notify_tap_wants`, with its loop. -/
def notifyTapWants (entry : TranscriptEntry) : Bool :=
  match entry.characteristicUuid with
  | none => false
  | some uuid =>
    if entry.kind ≠ bleGattEvtNotification ∧ entry.kind ≠ bleGattEvtIndication then false
    else wantsLoop t uuid 0 t.studyTaps

/-- The loop of `charge_drop_to_taps` and of `drop_sink_cb`. -/
def chargeLoop (uuid : Uuid) : Nat → List StreamTap → Traced TapEffect Unit
  | _, [] => pure ()
  | i, tap :: taps =>
    if tap.sourceTag ≠ .gattNotify ∨ t.tapOpen i = false then chargeLoop uuid (i + 1) taps
    else do
      when (tap.characteristicUuid = uuid) (emit (.charge i))
      chargeLoop uuid (i + 1) taps

/-- The transcript's tap in `charge_drop_to_taps`. -/
def chargeTranscript : Traced TapEffect Unit :=
  match t.transcriptTapIndex with
  | none => pure ()
  | some i => when (t.transcriptTapOpen = true) (emit (.charge i))

/-- The rest of it, behind its early returns. -/
def chargeNotified (entry : TranscriptEntry) : Traced TapEffect Unit :=
  match entry.characteristicUuid with
  | none => pure ()
  | some uuid =>
    if entry.kind ≠ bleGattEvtNotification ∧ entry.kind ≠ bleGattEvtIndication then pure ()
    else chargeLoop t uuid 0 t.studyTaps

/-- `charge_drop_to_taps`, with its loop. -/
def chargeDropToTaps (entry : TranscriptEntry) : Traced TapEffect Unit := do
  chargeTranscript t
  chargeNotified t entry

/-- `drop_sink_cb`, with its loop. -/
def dropSinkCb (uuid : Uuid) : Traced TapEffect Unit := chargeLoop t uuid 0 t.studyTaps

/-- The first test of `transcript_sink_cb`. -/
def accepts (entry : TranscriptEntry) : Bool :=
  !(t.transcriptTapOpen = false ∧ notifyTapWants t entry = false)

/-- `transcript_sink_cb` with the queue full or not: whether it puts the entry in, and what
it charges. -/
def transcriptSinkCb (queueFull : Bool) (entry : TranscriptEntry) : Traced TapEffect Bool :=
  if accepts t entry = false then pure false
  else if queueFull then do
    emit .lose
    chargeDropToTaps t entry
    return false
  else pure true

/-- A record is sent, or the lack of one counted. -/
def deliver (i : Nat) : Option StreamRecord → Traced TapEffect Unit
  | none => do
    emit .lose
    emit (.charge i)
  | some r => emit (.send i r)

/-- The loop of `transcript_tx_thread`. -/
def sendLoop (entry : TranscriptEntry) (uuid : Uuid) :
    Nat → List StreamTap → Traced TapEffect Unit
  | _, [] => pure ()
  | i, tap :: taps =>
    if tap.sourceTag ≠ .gattNotify ∨ t.tapOpen i = false then sendLoop entry uuid (i + 1) taps
    else if tap.characteristicUuid ≠ uuid then sendLoop entry uuid (i + 1) taps
    else do
      deliver i (TapTable.notifyRecord entry)
      sendLoop entry uuid (i + 1) taps

/-- The fan-out of `transcript_tx_thread`. -/
def sendNotified (entry : TranscriptEntry) : Traced TapEffect Unit :=
  match entry.characteristicUuid with
  | none => pure ()
  | some uuid =>
    when (entry.kind = bleGattEvtNotification ∨ entry.kind = bleGattEvtIndication)
      (sendLoop t entry uuid 0 t.studyTaps)

/-- The transcript's own record, if `want_transcript`. -/
def sendTranscript (entry : TranscriptEntry) : Traced TapEffect Unit :=
  match t.transcriptTapIndex with
  | none => pure ()
  | some i => when (t.tapOpen i = true) (deliver i (TapTable.transcriptRecord entry))

/-- The section of `transcript_tx_thread` under the lock. -/
def transcriptTxThread (entry : TranscriptEntry) : Traced TapEffect Unit := do
  sendNotified t entry
  sendTranscript t entry

/-! ## The loops -/

variable {t} {uuid : Uuid}

/-- The head of what is left is the element at the index. -/
private theorem of_drop_eq_cons {α : Type} {xs rest : List α} {i : Nat} {x : α}
    (h : xs.drop i = x :: rest) : xs[i]? = some x ∧ xs.drop (i + 1) = rest := by
  have hget := congrArg (fun ys => ys[0]?) h
  have htail := congrArg List.tail h
  rw [List.tail_drop] at htail
  exact ⟨by simpa using hget, htail⟩

/-- A tap that is skipped is not fed. -/
theorem feeds_of_skipped {i : Nat} {tap : StreamTap} (h : t.studyTaps[i]? = some tap)
    (hskip : tap.sourceTag ≠ .gattNotify ∨ t.tapOpen i = false) : t.feeds uuid i = false := by
  rw [TapTable.feeds, h]
  rcases hskip with hsource | hclosed
  · simp [hsource]
  · simp [hclosed]

/-- One that is not is fed what its characteristic notifies. -/
theorem feeds_of_kept {i : Nat} {tap : StreamTap} (h : t.studyTaps[i]? = some tap)
    (hskip : ¬ (tap.sourceTag ≠ .gattNotify ∨ t.tapOpen i = false)) :
    t.feeds uuid i = decide (tap.characteristicUuid = uuid) := by
  obtain ⟨hsource, hopen⟩ := not_or.mp hskip
  rw [TapTable.feeds, h, Bool.eq_iff_iff]
  simp [Decidable.not_not.mp hsource, Bool.eq_true_of_not_eq_false hopen]

/-- From an index on some tap wants it. -/
theorem wantsLoop_eq : ∀ (taps : List StreamTap) (i : Nat), t.studyTaps.drop i = taps →
    wantsLoop t uuid i taps = (List.range' i taps.length).any (t.feeds uuid)
  | [], _, _ => rfl
  | tap :: taps, i, h => by
    obtain ⟨htap, hrest⟩ := of_drop_eq_cons h
    have ih := wantsLoop_eq taps (i + 1) hrest
    rw [wantsLoop, List.length_cons, List.range'_succ, List.any_cons, ← ih]
    by_cases hskip : tap.sourceTag ≠ .gattNotify ∨ t.tapOpen i = false
    · rw [if_pos hskip, feeds_of_skipped htap hskip, Bool.false_or]
    · rw [if_neg hskip, feeds_of_kept htap hskip]
      by_cases huuid : tap.characteristicUuid = uuid
      · simp [huuid]
      · simp [huuid]

/-- From an index on every tap of the characteristic is charged. -/
theorem log_chargeLoop : ∀ (taps : List StreamTap) (i : Nat), t.studyTaps.drop i = taps →
    (chargeLoop t uuid i taps).log =
      ((List.range' i taps.length).filter (t.feeds uuid)).map .charge
  | [], _, _ => rfl
  | tap :: taps, i, h => by
    obtain ⟨htap, hrest⟩ := of_drop_eq_cons h
    have ih := log_chargeLoop taps (i + 1) hrest
    rw [chargeLoop, List.length_cons, List.range'_succ, List.filter_cons]
    by_cases hskip : tap.sourceTag ≠ .gattNotify ∨ t.tapOpen i = false
    · rw [if_pos hskip, feeds_of_skipped htap hskip, ih]
      rfl
    · rw [if_neg hskip, feeds_of_kept htap hskip, log_bind, ih]
      by_cases huuid : tap.characteristicUuid = uuid
      · simp [huuid, when]
      · simp [huuid, when]

/-- From an index on every one is sent a record. -/
theorem log_sendLoop (entry : TranscriptEntry) : ∀ (taps : List StreamTap) (i : Nat),
    t.studyTaps.drop i = taps →
      (sendLoop t entry uuid i taps).log =
        ((List.range' i taps.length).filter (t.feeds uuid)).flatMap fun i =>
          (deliver i (TapTable.notifyRecord entry)).log
  | [], _, _ => rfl
  | tap :: taps, i, h => by
    obtain ⟨htap, hrest⟩ := of_drop_eq_cons h
    have ih := log_sendLoop entry taps (i + 1) hrest
    rw [sendLoop, List.length_cons, List.range'_succ, List.filter_cons]
    by_cases hskip : tap.sourceTag ≠ .gattNotify ∨ t.tapOpen i = false
    · rw [if_pos hskip, feeds_of_skipped htap hskip, ih]
      rfl
    · rw [if_neg hskip, feeds_of_kept htap hskip]
      by_cases huuid : tap.characteristicUuid = uuid
      · rw [if_neg (not_not.mpr huuid), log_bind, ih]
        simp [huuid]
      · rw [if_pos huuid, ih]
        simp [huuid]

/-! ## What the walks are for -/

variable (t) {entry : TranscriptEntry}

/-- The data of a characteristic is for the taps that are fed by it. -/
theorem notifies_of_data (huuid : entry.characteristicUuid = some uuid)
    (hkind : entry.kind = bleGattEvtNotification ∨ entry.kind = bleGattEvtIndication) :
    t.notifies entry = t.feeds uuid := by
  funext i
  rw [TapTable.notifies, notifiedUuid, if_pos hkind, huuid]
  rfl

/-- Another entry is for the transcript alone. -/
theorem notifies_of_story (h : entry.characteristicUuid = none ∨
    ¬ (entry.kind = bleGattEvtNotification ∨ entry.kind = bleGattEvtIndication)) :
    t.notifies entry = fun _ => false := by
  funext i
  rw [TapTable.notifies, notifiedUuid]
  rcases h with huuid | hkind
  · simp [huuid]
  · rw [if_neg hkind]
    rfl

variable (entry)

/-- The loop wants what some tap wants. -/
theorem notifyTapWants_eq : notifyTapWants t entry = t.notifyTapWants entry := by
  unfold notifyTapWants TapTable.notifyTapWants
  cases huuid : entry.characteristicUuid with
  | none => simp [notifies_of_story t (.inl huuid)]
  | some uuid =>
    by_cases hkind : entry.kind = bleGattEvtNotification ∨ entry.kind = bleGattEvtIndication
    · have hloop := @wantsLoop_eq t uuid t.studyTaps 0 rfl
      have hother : ¬ (entry.kind ≠ bleGattEvtNotification ∧ entry.kind ≠ bleGattEvtIndication) :=
        fun h => hkind.elim h.1 h.2
      simp only [if_neg hother, notifies_of_data t huuid hkind, hloop, List.range_eq_range']
    · have hother := not_or.mp hkind
      simp [notifies_of_story t (.inr hkind), hother]

/-- The loop charges the taps of the characteristic. -/
theorem log_dropSinkCb (uuid : Uuid) :
    (dropSinkCb t uuid).log =
      ((List.range t.studyTaps.length).filter (t.feeds uuid)).map .charge := by
  rw [List.range_eq_range']
  exact log_chargeLoop t.studyTaps 0 rfl

/-- A drop is charged to the transcript's tap if the flag is up, and to the taps the entry
feeds. -/
theorem log_chargeDropToTaps :
    (chargeDropToTaps t entry).log =
      (t.transcriptTapIndex.toList.filter (fun _ => t.transcriptTapOpen) ++
        (List.range t.studyTaps.length).filter (t.notifies entry)).map .charge := by
  rw [chargeDropToTaps, log_bind, List.map_append]
  congr 1
  · unfold chargeTranscript
    cases t.transcriptTapIndex with
    | none => rfl
    | some i => cases t.transcriptTapOpen <;> rfl
  · unfold chargeNotified
    cases huuid : entry.characteristicUuid with
    | none => simp [notifies_of_story t (.inl huuid)]
    | some uuid =>
      by_cases hkind : entry.kind = bleGattEvtNotification ∨ entry.kind = bleGattEvtIndication
      · have hother : ¬ (entry.kind ≠ bleGattEvtNotification ∧
            entry.kind ≠ bleGattEvtIndication) := fun h => hkind.elim h.1 h.2
        simp only [if_neg hother, notifies_of_data t huuid hkind]
        exact log_dropSinkCb t uuid
      · have hother := not_or.mp hkind
        simp [notifies_of_story t (.inr hkind), hother]

/-- The fan-out delivers the raw value to the taps the entry feeds. -/
theorem log_sendNotified :
    (sendNotified t entry).log =
      ((List.range t.studyTaps.length).filter (t.notifies entry)).flatMap fun i =>
        (deliver i (TapTable.notifyRecord entry)).log := by
  unfold sendNotified
  cases huuid : entry.characteristicUuid with
  | none => simp [notifies_of_story t (.inl huuid)]
  | some uuid =>
    by_cases hkind : entry.kind = bleGattEvtNotification ∨ entry.kind = bleGattEvtIndication
    · rw [notifies_of_data t huuid hkind, List.range_eq_range']
      simp only [when, if_pos hkind]
      exact log_sendLoop entry t.studyTaps 0 rfl
    · simp [notifies_of_story t (.inr hkind), when, hkind]

/-- The TX thread delivers to the taps it serves. -/
theorem log_transcriptTxThread (h : t.Loaded) :
    (transcriptTxThread t entry).log =
      (t.served entry).flatMap fun i => (deliver i (t.recordFor entry i)).log := by
  rw [transcriptTxThread, log_bind, TapTable.served, List.flatMap_append, log_sendNotified]
  congr 1
  · apply List.flatMap_congr
    intro i hi
    have hindex : t.transcriptTapIndex ≠ some i := by
      intro hindex
      have hnotifies := (List.mem_filter.mp hi).2
      rw [h.notifies_eq_false hindex] at hnotifies
      exact Bool.false_ne_true hnotifies
    rw [TapTable.recordFor, if_neg hindex]
  · unfold sendTranscript
    cases hindex : t.transcriptTapIndex with
    | none => rfl
    | some i =>
      have hrecord : t.recordFor entry i = TapTable.transcriptRecord entry := by
        rw [TapTable.recordFor, if_pos hindex]
      cases hopen : t.tapOpen i with
      | false => simp [hopen, when]
      | true => simp [hopen, when, hrecord]

/-- A record is sent, or lost, or charged to its tap. -/
theorem mem_log_deliver {i : Nat} {record : Option StreamRecord} {effect : TapEffect} :
    effect ∈ (deliver i record).log →
      effect = .lose ∨ effect = .charge i ∨ ∃ r, effect = .send i r := by
  cases record with
  | none =>
    intro h
    rcases List.mem_cons.mp h with rfl | h
    · exact .inl rfl
    · exact .inr (.inl (List.mem_singleton.mp h))
  | some r =>
    intro h
    exact .inr (.inr ⟨r, List.mem_singleton.mp h⟩)

/-- The TX thread sends the tap a record of the entry, or charges it for the lack of one. -/
def Delivers (i : Nat) : Prop :=
  (∃ r, .send i r ∈ (transcriptTxThread t entry).log) ∨
    .charge i ∈ (transcriptTxThread t entry).log

variable {t} {entry}

/-- An entry is delivered to the taps it is served to. -/
theorem delivers_iff (h : t.Loaded) {i : Nat} : Delivers t entry i ↔ i ∈ t.served entry := by
  unfold Delivers
  rw [log_transcriptTxThread t entry h]
  constructor
  · have hmem : ∀ effect, effect ≠ .lose → effect.tap = some i →
        effect ∈ (t.served entry).flatMap (fun i => (deliver i (t.recordFor entry i)).log) →
          i ∈ t.served entry := by
      intro effect hlose htap heffect
      obtain ⟨j, hj, hdeliver⟩ := List.mem_flatMap.mp heffect
      rcases mem_log_deliver hdeliver with rfl | rfl | ⟨r, rfl⟩
      · exact absurd rfl hlose
      · exact Option.some.inj htap ▸ hj
      · exact Option.some.inj htap ▸ hj
    rintro (⟨r, hsend⟩ | hcharge)
    · exact hmem _ (by simp) rfl hsend
    · exact hmem _ (by simp) rfl hcharge
  · intro hi
    cases hrecord : t.recordFor entry i with
    | none =>
      right
      apply List.mem_flatMap.mpr
      exact ⟨i, hi, by simp [hrecord, deliver]⟩
    | some r =>
      left
      refine ⟨r, List.mem_flatMap.mpr ⟨i, hi, ?_⟩⟩
      simp [hrecord, deliver]

/-- A drop is charged to the taps the sink sees open for the entry. -/
theorem charge_mem_iff {i : Nat} :
    .charge i ∈ (chargeDropToTaps t entry).log ↔ t.captures entry i = true := by
  rw [log_chargeDropToTaps, List.mem_map_of_injective fun _ _ => TapEffect.charge.inj,
    List.mem_append, List.mem_filter, List.mem_filter, List.mem_range, Option.mem_toList,
    TapTable.captures, Bool.or_eq_true, TapTable.transcribes, Bool.and_eq_true, beq_iff_eq]
  exact or_congr and_comm ⟨fun h => h.2, fun h => ⟨TapTable.lt_of_notifies h, h⟩⟩

end Walk

/-! ## The transcript's flag -/

namespace TapTable

/-- The flag says what the table says of the transcript's tap, if there is one. -/
def Follows (t : TapTable) : Prop := t.transcriptTapOpen = t.transcriptTapIndex.any t.tapOpen

/-- The transcript tap is looked for once the taps are loaded. -/
theorem follows_loadStudyTaps (streams : List StreamTap) : (loadStudyTaps streams).Follows := by
  unfold Follows loadStudyTaps
  cases streams.findIdx? (·.sourceTag = .gattTranscript) <;> rfl

/-- It is looked for again when one is opened or closed. -/
theorem Follows.setTapOpen {t : TapTable} (h : t.Follows) (call : TapCall) :
    (t.setTapOpen call).Follows := by
  unfold Follows TapTable.setTapOpen TapTable.assignTranscript TapTable.assignOpen at *
  by_cases hindex : t.transcriptTapIndex = some call.index
  · simp [hindex]
  · simp only [if_neg hindex, h]
    cases hother : t.transcriptTapIndex with
    | none => rfl
    | some i =>
      have hne : i ≠ call.index := fun heq => hindex (heq ▸ hother)
      simp [Function.update_of_ne hne]

/-- The taps are those that were loaded. -/
theorem Loaded.setTapOpen {t : TapTable} (h : t.Loaded) (call : TapCall) :
    (t.setTapOpen call).Loaded :=
  Loaded.assignTranscript (t := t.assignOpen call) h

/-- Both survive any calls. -/
theorem Follows.calls (calls : List TapCall) : ∀ {t : TapTable}, t.Loaded → t.Follows →
    (calls.foldl TapTable.setTapOpen t).Loaded ∧ (calls.foldl TapTable.setTapOpen t).Follows := by
  induction calls with
  | nil =>
    intro t hloaded hfollows
    exact ⟨hloaded, hfollows⟩
  | cons call calls ih =>
    intro t hloaded hfollows
    exact ih (hloaded.setTapOpen call) (hfollows.setTapOpen call)

/-- Where the flag follows, what the sink sees open is what the TX thread serves. -/
theorem Follows.captures_iff {t : TapTable} (h : t.Follows) {entry : TranscriptEntry} {i : Nat} :
    t.captures entry i = true ↔ i ∈ t.served entry := by
  rw [mem_served, captures, Bool.or_eq_true, or_comm, transcribes, Bool.and_eq_true, beq_iff_eq, h]
  apply or_congr_right
  constructor
  · rintro ⟨hopen, hindex⟩
    rw [hindex] at hopen
    exact ⟨hindex, hopen⟩
  · rintro ⟨hindex, hopen⟩
    rw [hindex]
    exact ⟨hopen, rfl⟩

end TapTable

/-! ## The walks agree -/

namespace Walk

variable {t : TapTable} {entry : TranscriptEntry}

/-- The sink accepts what it sees a tap open for. -/
theorem accepts_iff (h : t.Follows) :
    accepts t entry = true ↔ ∃ i, t.captures entry i = true := by
  unfold accepts
  rw [notifyTapWants_eq]
  constructor
  · intro haccepts
    by_contra hnone
    have hcaptures : ∀ i, t.captures entry i = false := fun i =>
      Bool.eq_false_iff.mpr fun hi => hnone ⟨i, hi⟩
    have hwants : t.notifyTapWants entry = false := by
      apply List.any_eq_false.mpr
      intro i _ hi
      have hi' := hcaptures i
      rw [TapTable.captures, hi, Bool.or_true] at hi'
      exact absurd hi' (by simp)
    have hclosed : t.transcriptTapOpen = false := by
      cases hindex : t.transcriptTapIndex with
      | none => rw [h, hindex, Option.any_none]
      | some i =>
        have hi := hcaptures i
        rw [TapTable.captures, Bool.or_eq_false_iff, TapTable.transcribes, hindex] at hi
        simpa using hi.1
    simp [hwants, hclosed] at haccepts
  · rintro ⟨i, hi⟩
    simp only [Bool.not_eq_true', decide_eq_false_iff_not]
    rintro ⟨hclosed, hwants⟩
    rw [TapTable.captures_of_ignored hclosed hwants] at hi
    exact Bool.false_ne_true hi

/-- Where the flag follows, the taps charged for a drop are those the TX thread would
deliver to, and the sink accepts an entry exactly when there is one. -/
theorem agree (hloaded : t.Loaded) (hfollows : t.Follows) :
    (∀ i, .charge i ∈ (chargeDropToTaps t entry).log ↔ Delivers t entry i) ∧
      (accepts t entry = true ↔ ∃ i, Delivers t entry i) := by
  have hdelivers : ∀ i, t.captures entry i = true ↔ Delivers t entry i := fun i =>
    hfollows.captures_iff.trans (delivers_iff hloaded).symm
  constructor
  · intro i
    exact charge_mem_iff.trans (hdelivers i)
  · exact (accepts_iff hfollows).trans (exists_congr hdelivers)

end Walk

/-- In every state that calls of `set_tap_open` lead to from a loaded table. -/
theorem walks_agree (streams : List StreamTap) (calls : List TapCall) (entry : TranscriptEntry) :
    let t := calls.foldl TapTable.setTapOpen (loadStudyTaps streams)
    t.Follows ∧
      (∀ i, .charge i ∈ (Walk.chargeDropToTaps t entry).log ↔ Walk.Delivers t entry i) ∧
      (Walk.accepts t entry = true ↔ ∃ i, Walk.Delivers t entry i) := by
  obtain ⟨hloaded, hfollows⟩ := TapTable.Follows.calls calls
    (TapTable.loaded_loadStudyTaps streams) (TapTable.follows_loadStudyTaps streams)
  exact ⟨hfollows, Walk.agree hloaded hfollows⟩

namespace Walk

variable {t : TapTable} {entry : TranscriptEntry}

/-- A tap is charged once for a drop. -/
theorem nodup_log_chargeDropToTaps (h : t.Loaded) : (chargeDropToTaps t entry).log.Nodup := by
  rw [log_chargeDropToTaps]
  apply List.Nodup.map fun _ _ => TapEffect.charge.inj
  apply List.nodup_append.mpr
  refine ⟨?_, List.nodup_range.filter _, ?_⟩
  · apply List.Nodup.filter
    cases t.transcriptTapIndex with
    | none => exact List.nodup_nil
    | some i => exact List.nodup_singleton i
  · rintro i hi j hj rfl
    have hindex := Option.mem_toList.mp (List.mem_filter.mp hi).1
    have hnotifies := (List.mem_filter.mp hj).2
    rw [h.notifies_eq_false hindex] at hnotifies
    exact Bool.false_ne_true hnotifies

/-- As often as `tap_dropped` counts it. -/
theorem count_log_chargeDropToTaps (h : t.Loaded) (i : Nat) :
    (chargeDropToTaps t entry).log.count (.charge i) = t.chargeDropToTaps entry i := by
  rw [(nodup_log_chargeDropToTaps h).count, h.chargeDropToTaps_eq, if_congr charge_mem_iff rfl rfl]
  cases t.captures entry i <;> rfl

/-- What the bridge drops of a characteristic is charged to the taps its data would have
been delivered to, less the transcript's. -/
theorem charge_mem_dropSinkCb_iff (h : t.Loaded) {uuid : Uuid}
    (huuid : entry.characteristicUuid = some uuid)
    (hkind : entry.kind = bleGattEvtNotification ∨ entry.kind = bleGattEvtIndication) {i : Nat} :
    .charge i ∈ (dropSinkCb t uuid).log ↔ Delivers t entry i ∧ t.transcriptTapIndex ≠ some i := by
  have hdrop : .charge i ∈ (dropSinkCb t uuid).log ↔ t.notifies entry i = true := by
    rw [log_dropSinkCb, List.mem_map_of_injective fun _ _ => TapEffect.charge.inj,
      List.mem_filter, List.mem_range, notifies_of_data t huuid hkind]
    constructor
    · exact fun hi => hi.2
    · intro hi
      rw [← notifies_of_data t huuid hkind] at hi
      exact ⟨TapTable.lt_of_notifies hi, notifies_of_data t huuid hkind ▸ hi⟩
  rw [hdrop, delivers_iff h, TapTable.mem_served]
  constructor
  · intro hi
    refine ⟨.inl hi, fun hindex => ?_⟩
    rw [h.notifies_eq_false hindex] at hi
    exact Bool.false_ne_true hi
  · rintro ⟨hi | ⟨hindex, _⟩, hne⟩
    · exact hi
    · exact absurd hindex hne

end Walk

/-! ## The three threads -/

/-- The message an effect sends. -/
def TapEffect.sent : TapEffect → Option WireEvent
  | send tap r => some (.record tap r)
  | _ => none

namespace Capture

variable {s s' : Capture}

/-- What deliveries to some taps count and send. -/
theorem log_flatMap_deliver (record : Nat → Option StreamRecord) (taps : List StreamTap)
    (xs : List Nat) :
    let log := xs.flatMap fun i => (Walk.deliver i (record i)).log
    let lost := xs.filter fun i => (record i).isNone
    log.filterMap TapEffect.sent =
        xs.flatMap (fun i => match record i with
          | some r => sendMessageLocked taps (.record i r)
          | none => []) ∧
      log.count .lose = lost.length ∧ ∀ i, log.count (.charge i) = lost.count i := by
  induction xs with
  | nil => simp
  | cons x xs ih =>
    obtain ⟨hsent, hlose, hcharge⟩ := ih
    simp only [List.flatMap_cons, List.filterMap_append, List.count_append, hsent, hlose, hcharge]
    cases hrecord : record x with
    | none =>
      simp [Walk.deliver, hrecord, TapEffect.sent, List.count_cons, Nat.add_comm]
    | some r =>
      simp [Walk.deliver, hrecord, TapEffect.sent, sendMessageLocked_eq]

/-- The section of the TX thread does what its walk does. -/
theorem serve_eq (h : s.table.Loaded) (item : Item) :
    let log := (Walk.transcriptTxThread s.table item.entry).log
    (s.serve item).wire = s.wire ++ log.filterMap TapEffect.sent ∧
      (s.serve item).transcriptDropped = s.transcriptDropped + log.count .lose ∧
      ∀ i, (s.serve item).tapDropped i = s.tapDropped i + log.count (.charge i) := by
  obtain ⟨hsent, hlose, hcharge⟩ := log_flatMap_deliver (s.table.recordFor item.entry)
    s.table.studyTaps (s.table.served item.entry)
  simp only [Walk.log_transcriptTxThread _ _ h, hsent, hlose, hcharge]
  exact ⟨rfl, rfl, fun i => rfl⟩

/-- The sink does what its walk does. -/
theorem transcriptSinkCb_eq (h : s.table.Loaded) (entry : TranscriptEntry) :
    let walk := Walk.transcriptSinkCb s.table (decide (transcriptQueueDepth ≤ s.transcriptQ.length))
      entry
    (s.transcriptSinkCb entry).transcriptQ =
        s.transcriptQ ++ (if walk.value then [s.itemOf entry] else []) ∧
      (s.transcriptSinkCb entry).transcriptDropped =
        s.transcriptDropped + walk.log.count .lose ∧
      ∀ i, (s.transcriptSinkCb entry).tapDropped i =
        s.tapDropped i + walk.log.count (.charge i) := by
  have htable : (s.count entry).table = s.table := rfl
  unfold Capture.transcriptSinkCb Walk.transcriptSinkCb Walk.accepts
  simp only [Walk.notifyTapWants_eq, htable]
  by_cases hclosed : s.table.transcriptTapOpen = false ∧ s.table.notifyTapWants entry = false
  · simp [hclosed, count]
  · simp only [hclosed, if_false, decide_false, Bool.not_false, Bool.true_eq_false]
    have hqueue : (s.count entry).transcriptQ = s.transcriptQ := rfl
    by_cases hroom : s.transcriptQ.length < transcriptQueueDepth
    · have hfull : ¬ transcriptQueueDepth ≤ s.transcriptQ.length := Nat.not_le.mpr hroom
      simp only [hqueue, hroom, hfull, if_true, decide_false, Bool.false_eq_true, if_false]
      exact ⟨rfl, rfl, fun i => rfl⟩
    · have hfull : transcriptQueueDepth ≤ s.transcriptQ.length := Nat.not_lt.mp hroom
      have hquiet : (Walk.chargeDropToTaps s.table entry).log.count .lose = 0 := by
        rw [Walk.log_chargeDropToTaps, List.count_eq_zero]
        simp
      simp only [hqueue, hroom, hfull, if_false, decide_true, if_true, log_bind, value_bind,
        log_emit, log_pure, value_pure, List.append_nil, List.singleton_append, List.count_cons,
        hquiet, Walk.count_log_chargeDropToTaps h, Bool.false_eq_true]
      exact ⟨rfl, rfl, fun i => by simp [charge, count]⟩

/-- The flag follows, or will with the assignment that is left. -/
structure FlagSettled (s : Capture) : Prop where
  assigned : ∀ call, s.phase = .assigned call → (s.table.assignTranscript call).Follows
  other : (∀ call, s.phase ≠ .assigned call) → s.table.Follows

/-- A flag is settled behind every move. -/
theorem FlagSettled.steps {m : CaptureMove} (h : s.FlagSettled) (hs : s.Steps m s') :
    s'.FlagSettled := by
  cases hs with
  | ignore | queue | full | drop | take | serve => exact ⟨h.assigned, h.other⟩
  | call hphase hprogram =>
    have hfollows : s.table.Follows := h.other fun call heq => by simp [hphase] at heq
    rw [callTap]
    split
    · exact ⟨fun call heq => by simp at heq, fun _ => hfollows⟩
    · exact ⟨fun call heq => by simp at heq, fun _ => hfollows⟩
  | drained hphase | stamped hphase =>
    have hfollows : s.table.Follows := h.other fun call heq => by simp [hphase] at heq
    exact ⟨h.assigned, fun _ => hfollows⟩
  | announced hphase =>
    have hfollows : s.table.Follows := h.other fun call heq => by simp [hphase] at heq
    exact ⟨fun call heq => by simp at heq, fun _ => hfollows⟩
  | @opened call hphase =>
    have hfollows : s.table.Follows := h.other fun call heq => by simp [hphase] at heq
    refine ⟨fun call' heq => ?_, fun hother => absurd rfl (hother call)⟩
    obtain rfl := DispatchPhase.assigned.inj heq
    exact hfollows.setTapOpen call
  | finished hphase => exact ⟨fun call heq => by simp at heq, fun _ => h.assigned _ hphase⟩

/-- In every state of a study but between the two assignments of `set_tap_open`, whatever
the threads have done, the walks agree. -/
theorem agree_of_reaches {answers : Answers} {study : StudyStart} {left : Leftover}
    {ok : Capture → CaptureMove → Prop} (h : Reaches advance ok (start answers study left) s)
    (hphase : ∀ call, s.phase ≠ .assigned call) (entry : TranscriptEntry) :
    (∀ i, .charge i ∈ (Walk.chargeDropToTaps s.table entry).log ↔
        Walk.Delivers s.table entry i) ∧
      (Walk.accepts s.table entry = true ↔ ∃ i, Walk.Delivers s.table entry i) := by
  have hstart : (start answers study left).Orderly ∧ (start answers study left).FlagSettled :=
    ⟨orderly_start answers study left,
      nofun, fun _ => TapTable.follows_loadStudyTaps study.streams.items⟩
  have hinv : s.Orderly ∧ s.FlagSettled :=
    h.invariant (fun s => s.Orderly ∧ s.FlagSettled) hstart fun s s' m hs _ hmove =>
      ⟨hs.1.steps (steps_of_advance hmove), hs.2.steps (steps_of_advance hmove)⟩
  exact Walk.agree hinv.1.loaded (hinv.2.other hphase)

end Capture

end DevBench.Bench
