import DevBench.Wire.Entries

/-!
# What the bench only sends

Stream messages and transcript entries, for which the bench has no decoder. A frame is the
stuffing of a body, a body begins with its tag and is a prefix code behind it, and so no two
messages share a frame.
-/

namespace DevBench.Wire

open DevBench.Core DevBench.Core.Emit DevBench.Core.Stuffing DevBench.Eap

/-! ## Bodies -/

/-- The messages of a stream. -/
def Message.IsStream : Message → Prop
  | streamOpen _ | streamChunkBatch _ | streamClose _ => True
  | hello _ | helloAck _ | logLine _ | studyStart _ | stepResult _ | studyDone _ => False

/-- What is emitted of a record. -/
def recordBytes (r : StreamRecord) : List UInt8 :=
  pcWriteVarint r.rxUtcMs.toNat ++ pcWriteBytes r.bytes.items

/-- The fields of a `StreamChunkBatch`. -/
def batchBytes (m : StreamChunkBatch) : List UInt8 :=
  [m.id] ++ seqBytes recordBytes m.records.items

/-- The fields of a `StreamClose`. -/
def closeBytes (m : StreamClose) : List UInt8 := [m.id] ++ pcWriteVarint m.dropped.toNat

/-- The tag of a stream message. -/
def Message.streamTag : Message → Nat
  | streamOpen _ => 2
  | streamChunkBatch _ => 3
  | streamClose _ => 4
  | hello _ | helloAck _ | logLine _ | studyStart _ | stepResult _ | studyDone _ => 0

/-- What is emitted behind it. -/
def Message.streamFields : Message → List UInt8
  | streamOpen id => [id]
  | streamChunkBatch m => batchBytes m
  | streamClose m => closeBytes m
  | hello _ | helloAck _ | logLine _ | studyStart _ | stepResult _ | studyDone _ => []

/-- A stream message: its tag and its fields. -/
def Message.streamBytes (m : Message) : List UInt8 := pcWriteVarint m.streamTag ++ m.streamFields

theorem emits_streamBytes {m : Message} (h : m.IsStream) :
    Emits m.streamBytes (encodeBody m) := by
  cases m with
  | streamOpen id => exact (emits_writeVarint 2).bind (emits_put _)
  | streamChunkBatch m =>
    exact (emits_writeVarint 3).bind ((emits_put _).bind ((emits_writeVarint _).bind
      (emits_forM m.records.items fun _ _ => (emits_writeVarint _).bind (emits_put _))))
  | streamClose m =>
    exact (emits_writeVarint 4).bind ((emits_put _).bind (emits_writeVarint _))
  | hello _ | helloAck _ | logLine _ | studyStart _ | stepResult _ | studyDone _ => exact h.elim

theorem prefixCode_record : PrefixCode recordBytes := by
  intro a b r t heq
  simp only [recordBytes, List.append_assoc] at heq
  obtain ⟨htime, heq⟩ := prefixCode_uint64 _ _ _ _ heq
  obtain ⟨hbytes, hrt⟩ := prefixCode_payload (by decide) _ _ _ _ heq
  refine ⟨?_, hrt⟩
  cases a
  cases b
  rw [StreamRecord.mk.injEq]
  exact ⟨htime, hbytes⟩

theorem prefixCode_batch : PrefixCode batchBytes := by
  intro a b r t heq
  simp only [batchBytes, List.append_assoc] at heq
  obtain ⟨hid, heq⟩ := prefixCode_byte _ _ _ _ heq
  have hlen : ∀ m : StreamChunkBatch, m.records.items.length < 2 ^ 64 := fun m =>
    Nat.lt_of_le_of_lt m.records.fits (by decide)
  obtain ⟨hrecords, hrt⟩ :=
    prefixCode_record.counted prefixCodeOn_pcWriteVarint (hlen a) (hlen b) heq
  refine ⟨?_, hrt⟩
  cases a
  cases b
  rw [StreamChunkBatch.mk.injEq]
  exact ⟨hid, Slots.ext hrecords⟩

theorem prefixCode_close : PrefixCode closeBytes := by
  intro a b r t heq
  simp only [closeBytes, List.append_assoc] at heq
  obtain ⟨hid, heq⟩ := prefixCode_byte _ _ _ _ heq
  obtain ⟨hdropped, hrt⟩ := prefixCode_uint32 _ _ _ _ heq
  refine ⟨?_, hrt⟩
  cases a
  cases b
  rw [StreamClose.mk.injEq]
  exact ⟨hid, hdropped⟩

/-- Bodies differ in their tags, or behind them. -/
theorem prefixCodeOn_streamBytes : PrefixCodeOn {m | m.IsStream} Message.streamBytes := by
  have hlt : ∀ m : Message, m.streamTag < 2 ^ 64 := fun m => by cases m <;> simp [Message.streamTag]
  intro a ha b hb r t heq
  rw [Message.streamBytes, Message.streamBytes, List.append_assoc, List.append_assoc] at heq
  obtain ⟨htag, heq⟩ := prefixCodeOn_pcWriteVarint _ (hlt a) _ (hlt b) _ _ heq
  cases a with
  | streamOpen id =>
    cases b with
    | streamOpen id' =>
      obtain ⟨rfl, hrt⟩ := prefixCode_byte id id' r t heq
      exact ⟨rfl, hrt⟩
    | streamChunkBatch _ | streamClose _ => exact absurd htag (by simp [Message.streamTag])
    | hello _ | helloAck _ | logLine _ | studyStart _ | stepResult _ | studyDone _ => exact hb.elim
  | streamChunkBatch m =>
    cases b with
    | streamChunkBatch m' =>
      obtain ⟨rfl, hrt⟩ := prefixCode_batch m m' r t heq
      exact ⟨rfl, hrt⟩
    | streamOpen _ | streamClose _ => exact absurd htag (by simp [Message.streamTag])
    | hello _ | helloAck _ | logLine _ | studyStart _ | stepResult _ | studyDone _ => exact hb.elim
  | streamClose m =>
    cases b with
    | streamClose m' =>
      obtain ⟨rfl, hrt⟩ := prefixCode_close m m' r t heq
      exact ⟨rfl, hrt⟩
    | streamOpen _ | streamChunkBatch _ => exact absurd htag (by simp [Message.streamTag])
    | hello _ | helloAck _ | logLine _ | studyStart _ | stepResult _ | studyDone _ => exact hb.elim
  | hello _ | helloAck _ | logLine _ | studyStart _ | stepResult _ | studyDone _ => exact ha.elim

/-! ## Frames -/

/-- A body that fits the decoder's buffer is read back from its stuffing. -/
theorem cobsEncode_inj {bs cs : List UInt8} (h : cobsEncode bs = cobsEncode cs) : bs = cs := by
  let cap := max bs.length cs.length
  have hbs : cobsDecode (cobsEncode bs) cap = .ok bs :=
    cobsDecode_stuffed (stuffed_cobsEncode bs) (Nat.le_max_left _ _)
  have hcs : cobsDecode (cobsEncode cs) cap = .ok cs :=
    cobsDecode_stuffed (stuffed_cobsEncode cs) (Nat.le_max_right _ _)
  rw [h, hcs] at hbs
  exact (Except.ok.inj hbs).symm

/-- Two stream messages have a frame in common only if they are one, two entries their bytes
only if they are, and no entry's bytes begin with another's. -/
theorem sent_unambiguous :
    (∀ (m m' : Message) (outCap outCap' : Nat) (frame : List UInt8), m.IsStream → m'.IsStream →
      dbmEncodeFrame m outCap = some frame → dbmEncodeFrame m' outCap' = some frame → m = m') ∧
    (∀ (e e' : TranscriptEntry) (outCap outCap' : Nat) (bs : List UInt8),
      dbmEncodeTranscriptEntry e outCap = some bs →
      dbmEncodeTranscriptEntry e' outCap' = some bs → e = e') ∧
    ∀ (e e' : TranscriptEntry) (outCap outCap' : Nat) (bs bs' : List UInt8),
      dbmEncodeTranscriptEntry e outCap = some bs →
      dbmEncodeTranscriptEntry e' outCap' = some bs' → bs <+: bs' → bs = bs' := by
  have hentry : ∀ {e : TranscriptEntry} {outCap : Nat} {bs : List UInt8},
      dbmEncodeTranscriptEntry e outCap = some bs → bs = e.bytes := fun h => by
    rw [dbmEncodeTranscriptEntry_eq] at h
    exact (Option.some.inj (Option.ite_none_right_eq_some.mp h).2).symm
  refine ⟨?_, ?_, ?_⟩
  · intro m m' outCap outCap' frame hm hm' h h'
    obtain ⟨hframe, -⟩ := dbmEncodeFrame_eq_some (emits_streamBytes hm) h
    obtain ⟨hframe', -⟩ := dbmEncodeFrame_eq_some (emits_streamBytes hm') h'
    have hbody := cobsEncode_inj (List.append_cancel_right (hframe.symm.trans hframe'))
    have heq : m.streamBytes ++ [] = m'.streamBytes ++ [] := by rw [hbody]
    exact (prefixCodeOn_streamBytes m hm m' hm' _ _ heq).1
  · intro e e' outCap outCap' bs h h'
    exact TranscriptEntry.prefixCode_bytes.injective ((hentry h).symm.trans (hentry h'))
  · intro e e' outCap outCap' bs bs' h h' hprefix
    rw [hentry h, hentry h'] at hprefix ⊢
    rw [TranscriptEntry.prefixCode_bytes.eq_of_prefix hprefix]

/-- A notification without labels. -/
def bareNotification (payload : List UInt8) : TranscriptEntry :=
  ⟨0, 1, bleGattEvtNotification, none, none, 0, .clamp payload⟩

/-- The opening of a tap is not its closing, and an entry does not begin one with more payload. -/
theorem sent_unambiguous_bare :
    (∃ frame, dbmEncodeFrame (.streamClose ⟨1, 0⟩) 64 = some frame ∧
      dbmEncodeFrame (.streamOpen 1) 64 ≠ some frame) ∧
    ∃ bs bs', dbmEncodeTranscriptEntry (bareNotification [7]) 64 = some bs ∧
      dbmEncodeTranscriptEntry (bareNotification [7, 8]) 64 = some bs' ∧ ¬ bs <+: bs' := by
  obtain ⟨hframes, hentries, hbegins⟩ := sent_unambiguous
  constructor
  · have hsome : (dbmEncodeFrame (.streamClose ⟨1, 0⟩) 64).isSome = true := by decide +kernel
    obtain ⟨frame, hframe⟩ := Option.isSome_iff_exists.mp hsome
    refine ⟨frame, hframe, fun hopen => ?_⟩
    have hsame :=
      hframes (.streamClose ⟨1, 0⟩) (.streamOpen 1) 64 64 frame trivial trivial hframe hopen
    cases hsame
  · have hsome : (dbmEncodeTranscriptEntry (bareNotification [7]) 64).isSome = true ∧
        (dbmEncodeTranscriptEntry (bareNotification [7, 8]) 64).isSome = true := by decide +kernel
    obtain ⟨bs, hbs⟩ := Option.isSome_iff_exists.mp hsome.1
    obtain ⟨bs', hbs'⟩ := Option.isSome_iff_exists.mp hsome.2
    refine ⟨bs, bs', hbs, hbs', fun hprefix => ?_⟩
    obtain rfl := hbegins _ _ _ _ _ _ hbs hbs' hprefix
    exact absurd (hentries _ _ _ _ _ hbs hbs') (by decide)

end DevBench.Wire
