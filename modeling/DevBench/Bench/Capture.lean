import DevBench.Bench.TapCalls
import DevBench.Core.Machine
import DevBench.Link.Capacity
import DevBench.Wire.Transcript
import Mathlib.Data.List.Nodup

/-!
# Capturing records

One study as three threads see it: the bridge hands over GATT events, the transcript TX
thread takes them from a queue and sends them as records, the dispatch thread opens and
closes the taps. Whatever a thread does under the link's lock is one move; whatever it
assigns outside the lock is another.
-/

namespace DevBench.Bench

open DevBench.Core DevBench.Core.Emit DevBench.Eap DevBench.Wire

/-- `TRANSCRIPT_QUEUE_DEPTH`. -/
abbrev transcriptQueueDepth : Nat := 16

/-! ## Which taps an entry is for -/

/-- The characteristic an entry carries data of. -/
def notifiedUuid (entry : TranscriptEntry) : Option Uuid :=
  if entry.kind = bleGattEvtNotification ∨ entry.kind = bleGattEvtIndication then
    entry.characteristicUuid
  else none

namespace TapTable

/-- The transcript's index points at a transcript tap. -/
def Loaded (t : TapTable) : Prop :=
  ∀ i tap, t.transcriptTapIndex = some i → t.studyTaps[i]? = some tap →
    tap.sourceTag = .gattTranscript

/-- The taps of a study are loaded with all closed. -/
theorem loaded_loadStudyTaps (streams : List StreamTap) : (loadStudyTaps streams).Loaded := by
  intro i tap hindex htap
  obtain ⟨hlt, hfound, _⟩ := List.findIdx?_eq_some_iff_getElem.mp hindex
  obtain ⟨_, rfl⟩ := List.getElem?_eq_some_iff.mp htap
  exact of_decide_eq_true hfound

/-- The transcript tap is one of those that were loaded. -/
theorem Loaded.assignTranscript {t : TapTable} {call : TapCall} (h : t.Loaded) :
    (t.assignTranscript call).Loaded := by
  rw [TapTable.assignTranscript]
  split
  · exact h
  · exact h

/-- The tap at an index is open and named the characteristic. -/
def feeds (t : TapTable) (uuid : Uuid) (i : Nat) : Bool :=
  match t.studyTaps[i]? with
  | some tap => tap.sourceTag == .gattNotify && t.tapOpen i && tap.characteristicUuid == uuid
  | none => false

/-- The same for the characteristic of an entry, if it has one. -/
def notifies (t : TapTable) (entry : TranscriptEntry) (i : Nat) : Bool :=
  (notifiedUuid entry).any fun uuid => t.feeds uuid i

/-- `notify_tap_wants`. -/
def notifyTapWants (t : TapTable) (entry : TranscriptEntry) : Bool :=
  (List.range t.studyTaps.length).any (t.notifies entry)

/-- The tap is the transcript's and the sink sees it open. -/
def transcribes (t : TapTable) (i : Nat) : Bool :=
  t.transcriptTapOpen && t.transcriptTapIndex == some i

/-- What `charge_drop_to_taps` adds to the counter of a tap. -/
def chargeDropToTaps (t : TapTable) (entry : TranscriptEntry) (i : Nat) : Nat :=
  (t.transcribes i).toNat + (t.notifies entry i).toNat

/-- The sink sees the tap open for the entry. -/
def captures (t : TapTable) (entry : TranscriptEntry) (i : Nat) : Bool :=
  t.transcribes i || t.notifies entry i

/-- The taps the TX thread finds open for an entry, in the order it serves them. -/
def served (t : TapTable) (entry : TranscriptEntry) : List Nat :=
  (List.range t.studyTaps.length).filter (t.notifies entry) ++
    t.transcriptTapIndex.toList.filter t.tapOpen

/-- The raw value, if it fits a record. -/
def notifyRecord (entry : TranscriptEntry) : Option StreamRecord :=
  if entry.payload.items.length > dbmMaxStreamChunkBytes then none
  else some ⟨entry.rxUtcMs, .clamp entry.payload.items⟩

/-- The whole entry, if its encoding fits a record. -/
def transcriptRecord (entry : TranscriptEntry) : Option StreamRecord :=
  (dbmEncodeTranscriptEntry entry dbmMaxStreamChunkBytes).map fun bytes =>
    ⟨entry.rxUtcMs, .clamp bytes⟩

/-- The record the TX thread builds of an entry for a tap it serves. -/
def recordFor (t : TapTable) (entry : TranscriptEntry) (i : Nat) : Option StreamRecord :=
  if t.transcriptTapIndex = some i then transcriptRecord entry else notifyRecord entry

variable {t : TapTable} {entry : TranscriptEntry} {i : Nat}

/-- An entry of another characteristic is not for the tap. -/
theorem notifies_eq_false (h : ∀ uuid, t.feeds uuid i = false) : t.notifies entry i = false := by
  rw [notifies]
  cases notifiedUuid entry with
  | none => rfl
  | some uuid => exact h uuid

/-- A transcript tap is not fed by a characteristic. -/
theorem Loaded.notifies_eq_false (h : t.Loaded) (hindex : t.transcriptTapIndex = some i) :
    t.notifies entry i = false := by
  refine TapTable.notifies_eq_false fun uuid => ?_
  rw [feeds]
  split
  · next tap htap =>
    rw [h i tap hindex htap]
    rfl
  · rfl

/-- An entry is lost to a tap at most once. -/
theorem Loaded.chargeDropToTaps_eq (h : t.Loaded) (entry : TranscriptEntry) (i : Nat) :
    t.chargeDropToTaps entry i = (t.captures entry i).toNat := by
  rw [chargeDropToTaps, captures]
  cases htranscribes : t.transcribes i with
  | false => rw [Bool.false_or, Bool.toNat_false, Nat.zero_add]
  | true =>
    have hindex : t.transcriptTapIndex = some i := by
      rw [transcribes, Bool.and_eq_true, beq_iff_eq] at htranscribes
      exact htranscribes.2
    rw [h.notifies_eq_false hindex]
    rfl

/-- Only taps of the study are fed. -/
theorem lt_of_notifies (h : t.notifies entry i = true) : i < t.studyTaps.length := by
  by_contra hge
  have hfeeds : ∀ uuid, t.feeds uuid i = false := by
    intro uuid
    rw [feeds, List.getElem?_eq_none (Nat.not_lt.mp hge)]
  rw [notifies_eq_false hfeeds] at h
  exact absurd h Bool.false_ne_true

/-- An entry the sink ignores is captured for no tap. -/
theorem captures_of_ignored (htranscript : t.transcriptTapOpen = false)
    (hwants : t.notifyTapWants entry = false) : t.captures entry i = false := by
  have hnotifies : t.notifies entry i = false := by
    by_contra h
    have hnotifies := Bool.eq_true_of_not_eq_false h
    exact absurd hnotifies
      (List.any_eq_false.mp hwants i (List.mem_range.mpr (lt_of_notifies hnotifies)))
  rw [captures, transcribes, htranscript, hnotifies]
  rfl

/-- An entry goes to the taps of its characteristic, and to the transcript's while that is open. -/
theorem mem_served : i ∈ t.served entry ↔
    t.notifies entry i = true ∨ t.transcriptTapIndex = some i ∧ t.tapOpen i = true := by
  rw [served, List.mem_append, List.mem_filter, List.mem_filter, List.mem_range,
    Option.mem_toList]
  exact or_congr ⟨fun h => h.2, fun h => ⟨lt_of_notifies h, h⟩⟩ Iff.rfl

/-- A tap is served an entry once. -/
theorem Loaded.nodup_served (h : t.Loaded) : (t.served entry).Nodup := by
  refine List.nodup_append.mpr ⟨List.nodup_range.filter _, ?_, ?_⟩
  · refine List.Nodup.filter _ ?_
    cases t.transcriptTapIndex with
    | none => exact List.nodup_nil
    | some i => exact List.nodup_singleton i
  · rintro i hi j hj rfl
    have hindex := Option.mem_toList.mp (List.mem_filter.mp hj).1
    have hnotifies := (List.mem_filter.mp hi).2
    rw [h.notifies_eq_false hindex] at hnotifies
    exact absurd hnotifies Bool.false_ne_true

/-- The tap is for the data the entry carries, open or not. -/
def names (t : TapTable) (entry : TranscriptEntry) (i : Nat) : Bool :=
  (notifiedUuid entry).any fun uuid => t.studyTaps[i]?.any fun tap =>
    tap.sourceTag == .gattNotify && tap.characteristicUuid == uuid

/-- To one of the former while it is open. -/
theorem notifies_eq (t : TapTable) (entry : TranscriptEntry) (i : Nat) :
    t.notifies entry i = (t.names entry i && t.tapOpen i) := by
  rw [notifies, names]
  cases notifiedUuid entry with
  | none => rfl
  | some uuid =>
    simp only [Option.any_some, feeds]
    cases t.studyTaps[i]? with
    | none => rfl
    | some tap => exact Bool.and_right_comm ..

/-- The tap is for the entry, open or not: it is the transcript's or names its data. -/
def isFor (t : TapTable) (entry : TranscriptEntry) (i : Nat) : Bool :=
  t.names entry i || t.transcriptTapIndex == some i

/-- The TX thread serves an entry to the open ones of the taps it is for. -/
theorem mem_served_iff : i ∈ t.served entry ↔ t.tapOpen i = true ∧ t.isFor entry i = true := by
  rw [mem_served, notifies_eq, isFor, Bool.and_eq_true, Bool.or_eq_true, beq_iff_eq]
  tauto

/-- So to open taps alone. -/
theorem tapOpen_of_mem_served (h : i ∈ t.served entry) : t.tapOpen i = true :=
  (mem_served_iff.mp h).1

/-- The tap is open for the entry: its flag is up and the sink sees it open. -/
def owes (t : TapTable) (entry : TranscriptEntry) (i : Nat) : Bool :=
  t.tapOpen i && t.captures entry i

/-- A tap that is open for an entry is one the entry is for. -/
theorem isFor_of_owes (h : t.owes entry i = true) : t.isFor entry i = true := by
  rw [owes, captures, transcribes, notifies_eq] at h
  rw [isFor]
  simp only [Bool.and_eq_true, Bool.or_eq_true] at h ⊢
  tauto

end TapTable

/-! ## What is sent -/

/-- A message about the tap of an index. -/
inductive WireEvent where
  | opened (tap : Nat)
  | record (tap : Nat) (r : StreamRecord)
  | closed (tap : Nat) (dropped : UInt32)
  deriving DecidableEq, Repr

/-- `study_taps[index].id`. -/
def tapId (taps : List StreamTap) (index : Nat) : UInt8 := (taps[index]?.map (·.id)).getD 0

/-- The message an event on the wire is. -/
def WireEvent.message (taps : List StreamTap) : WireEvent → Message
  | opened i => .streamOpen (tapId taps i)
  | record i r => .streamChunkBatch ⟨tapId taps i, ⟨[r], Nat.succ_le_succ (Nat.zero_le 3)⟩⟩
  | closed i dropped => .streamClose ⟨tapId taps i, dropped⟩

/-- `send_message_locked`: what does not encode is not sent. -/
def sendMessageLocked (taps : List StreamTap) (e : WireEvent) : List WireEvent :=
  if (dbmEncodeFrame (e.message taps) dbmMaxOutboundFrameLen).isSome then [e] else []

/-- Every message about a tap is sent. -/
theorem sendMessageLocked_eq (taps : List StreamTap) (e : WireEvent) :
    sendMessageLocked taps e = [e] := by
  have houtbound : Link.Outbound (e.message taps) := by cases e <;> trivial
  obtain ⟨bs, hbs, hlen⟩ := Link.exists_emits_encodeBody houtbound
  have hraw : bs.length ≤ dbmMaxRawLen := hlen.trans (by decide)
  have hframe : bs.length + bs.length / 254 + 3 ≤ dbmMaxOutboundFrameLen :=
    Nat.le_trans (show _ ≤ 3043 by omega) (by decide)
  rw [sendMessageLocked, if_pos (isSome_dbmEncodeFrame hbs hraw hframe)]

/-- The record of a tap is sent if there is one. -/
def TapTable.sendRecord (t : TapTable) (entry : TranscriptEntry) (i : Nat) : List WireEvent :=
  match t.recordFor entry i with
  | some r => sendMessageLocked t.studyTaps (.record i r)
  | none => []

/-! ## The three threads -/

/-- What the dispatch thread does about the taps. -/
inductive TapOp where
  | call (call : TapCall)
  /-- The wait for the queue to be empty. -/
  | drain
  /-- `transcript_step_index = i`. -/
  | stamp (i : Nat)
  deriving DecidableEq, Repr

/-- What a call of the dispatcher is to the taps. -/
def Act.tapOp : Act → Option TapOp
  | setTapOpen tap isOpen _ => some (.call ⟨tap, isOpen⟩)
  | drain => some .drain
  | stampStep i => some (.stamp i)
  | _ => none

/-- What the dispatch thread does about the taps of a study. -/
def tapProgram (answers : Answers) (study : StudyStart) : List TapOp :=
  (runStudy answers study).log.filterMap Act.tapOp

/-- The opening or closing it is, if it is one. -/
def TapOp.tapCall : TapOp → Option TapCall
  | call c => some c
  | _ => none

/-- The calls left in a program. -/
def callsIn (program : List TapOp) : List TapCall := program.filterMap TapOp.tapCall

/-- Where the dispatch thread is. -/
inductive DispatchPhase where
  /-- Between two operations. -/
  | between
  /-- In `set_tap_open`, with the counter it was given. -/
  | called (call : TapCall) (dropped : UInt32)
  /-- Behind its section under the lock. -/
  | sent (call : TapCall)
  /-- Behind the assignment to `tap_open`. -/
  | assigned (call : TapCall)
  deriving DecidableEq, Repr

/-- `struct transcript_item`. -/
structure Item where
  stepIndex : UInt32
  entry : TranscriptEntry
  /-- Not the program's, nor is the next one: the taps that were open for the entry when it
  came. -/
  owed : Nat → Bool
  /-- It came behind the wait for the queue to be empty. -/
  sinceDrain : Bool

/-- An item of the study before is owed to no tap of this one. -/
def Item.disowned (item : Item) : Item :=
  { item with owed := fun _ => false, sinceDrain := false }

/-- The statics of `main.c` the threads share, with what the threads hold themselves.
A counter is a `uint32_t`; what is sent of it are its low 32 bits. The fields from
`captured` on are not the program's: they record by tap what happened. -/
structure Capture where
  table : TapTable
  tapDropped : Nat → Nat
  transcriptDropped : Nat
  transcriptStepIndex : UInt32
  transcriptQ : List Item
  /-- What the TX thread took from the queue and has not served yet. -/
  inHand : Option Item
  program : List TapOp
  phase : DispatchPhase
  wire : List WireEvent
  /-- The entries that came while the tap was open for them. -/
  captured : Nat → Nat
  /-- The drops the bridge reported while the tap was open for them. -/
  reported : Nat → Nat
  /-- The entries for the tap that met it open but had come before it was. -/
  late : Nat → Nat
  /-- The entries captured for the tap that met it closed. -/
  edge : Nat → Nat
  /-- The counter was read for the tap's close. -/
  counterRead : Nat → Bool
  /-- The dispatch thread has waited for the queue to be empty. -/
  drained : Bool
  /-- The tap was closed behind that, by `close_all_taps`. -/
  swept : Nat → Bool

/-- What happens next. -/
inductive CaptureMove where
  /-- The bridge calls `transcript_sink_cb`. -/
  | sink (entry : TranscriptEntry)
  /-- The bridge calls `drop_sink_cb`. -/
  | dropSink (uuid : Uuid)
  /-- The TX thread takes an item. -/
  | dequeue
  /-- The TX thread's section under the lock. -/
  | serve
  /-- The dispatch thread goes on. -/
  | dispatch
  deriving DecidableEq, Repr

namespace Capture

/-- Losses are added to the counters of the taps. -/
def charge (s : Capture) (losses : Nat → Nat) : Capture :=
  { s with tapDropped := fun i => s.tapDropped i + losses i }

/-- An entry comes for the taps that are open for it. -/
def count (s : Capture) (entry : TranscriptEntry) : Capture :=
  { s with captured := fun i => s.captured i + (s.table.owes entry i).toNat }

/-- The item `transcript_sink_cb` queues, owed to the taps that are open for its entry. -/
def itemOf (s : Capture) (entry : TranscriptEntry) : Item :=
  ⟨s.transcriptStepIndex, entry, s.table.owes entry, s.drained⟩

/-- `k_msgq_put` of an entry. -/
def enqueue (s : Capture) (entry : TranscriptEntry) : Capture :=
  { s with transcriptQ := s.transcriptQ ++ [s.itemOf entry] }

/-- `transcript_sink_cb`. -/
def transcriptSinkCb (s : Capture) (entry : TranscriptEntry) : Capture :=
  let s := s.count entry
  if s.table.transcriptTapOpen = false ∧ s.table.notifyTapWants entry = false then s
  else if s.transcriptQ.length < transcriptQueueDepth then s.enqueue entry
  else
    { s with transcriptDropped := s.transcriptDropped + 1 }.charge
      (s.table.chargeDropToTaps entry)

/-- `drop_sink_cb`. -/
def dropSinkCb (s : Capture) (uuid : Uuid) : Capture :=
  let losses := fun i => (s.table.feeds uuid i).toNat
  { s with reported := fun i => s.reported i + losses i }.charge losses

/-- The section of `transcript_tx_thread`: every tap it serves gets its record, or a loss. What
is late or at the edge is told by the flag of the tap alone. -/
def serve (s : Capture) (item : Item) : Capture :=
  let served := s.table.served item.entry
  let lost := served.filter fun i => (s.table.recordFor item.entry i).isNone
  { s with
    inHand := none
    transcriptDropped := s.transcriptDropped + lost.length
    wire := s.wire ++ served.flatMap (s.table.sendRecord item.entry)
    late := fun i =>
      s.late i + (s.table.tapOpen i && s.table.isFor item.entry i && !item.owed i).toNat
    edge := fun i => s.edge i + (!s.table.tapOpen i && item.owed i).toNat }.charge
      fun i => lost.count i

/-- What `set_tap_open` sends. -/
def announce (call : TapCall) (dropped : UInt32) : WireEvent :=
  if call.isOpen then .opened call.index else .closed call.index dropped

/-- The dispatch thread reads the counter of a tap it is about to close. -/
def callTap (s : Capture) (call : TapCall) : Capture :=
  if call.isOpen then { s with phase := .called call 0 }
  else { s with
    phase := .called call (UInt32.ofNat (s.tapDropped call.index))
    counterRead := Function.update s.counterRead call.index true }

/-- The flag of a tap follows what was sent. -/
def assignTap (s : Capture) (call : TapCall) : Capture :=
  { s with
    phase := .assigned call
    table := s.table.assignOpen call
    swept := Function.update s.swept call.index (s.drained && !call.isOpen) }

/-- The dispatch thread goes on by one operation, or by one part of `set_tap_open`. -/
def dispatch (s : Capture) : Option Capture :=
  match s.phase with
  | .called call dropped =>
    some { s with
      phase := .sent call
      wire := s.wire ++ sendMessageLocked s.table.studyTaps (announce call dropped) }
  | .sent call => some (s.assignTap call)
  | .assigned call => some { s with phase := .between, table := s.table.assignTranscript call }
  | .between =>
    match s.program with
    | [] => none
    | .call call :: program => some ({ s with program := program }.callTap call)
    | .drain :: program =>
      if s.transcriptQ = [] then some { s with program := program, drained := true } else none
    | .stamp i :: program =>
      some { s with program := program, transcriptStepIndex := UInt32.ofNat i }

/-- A move of the sinks, the transmitting thread or the dispatcher. -/
def advance (s : Capture) : CaptureMove → Option Capture
  | .sink entry => some (s.transcriptSinkCb entry)
  | .dropSink uuid => some (s.dropSinkCb uuid)
  | .dequeue =>
    match s.inHand, s.transcriptQ with
    | none, item :: rest => some { s with inHand := some item, transcriptQ := rest }
    | _, _ => none
  | .serve => s.inHand.map s.serve
  | .dispatch => s.dispatch

/-- What a move can do: one case for each way a thread goes on. -/
inductive Steps (s : Capture) : CaptureMove → Capture → Prop
  | ignore {entry : TranscriptEntry}
    (hclosed : s.table.transcriptTapOpen = false ∧ s.table.notifyTapWants entry = false) :
    Steps s (.sink entry) (s.count entry)
  | queue {entry : TranscriptEntry} (hroom : s.transcriptQ.length < transcriptQueueDepth) :
    Steps s (.sink entry) ((s.count entry).enqueue entry)
  | full {entry : TranscriptEntry} :
    Steps s (.sink entry) ({ s.count entry with
      transcriptDropped := s.transcriptDropped + 1 }.charge (s.table.chargeDropToTaps entry))
  | drop {uuid : Uuid} : Steps s (.dropSink uuid) (s.dropSinkCb uuid)
  | take {item : Item} {rest : List Item} (hhand : s.inHand = none)
    (hqueue : s.transcriptQ = item :: rest) :
    Steps s .dequeue { s with inHand := some item, transcriptQ := rest }
  | serve {item : Item} (hhand : s.inHand = some item) : Steps s .serve (s.serve item)
  | call {call : TapCall} {program : List TapOp} (hphase : s.phase = .between)
    (hprogram : s.program = .call call :: program) :
    Steps s .dispatch ({ s with program := program }.callTap call)
  | drained {program : List TapOp} (hphase : s.phase = .between)
    (hprogram : s.program = .drain :: program) (hqueue : s.transcriptQ = []) :
    Steps s .dispatch { s with program := program, drained := true }
  | stamped {i : Nat} {program : List TapOp} (hphase : s.phase = .between)
    (hprogram : s.program = .stamp i :: program) :
    Steps s .dispatch { s with program := program, transcriptStepIndex := UInt32.ofNat i }
  | announced {call : TapCall} {dropped : UInt32} (hphase : s.phase = .called call dropped) :
    Steps s .dispatch { s with
      phase := .sent call
      wire := s.wire ++ [announce call dropped] }
  | opened {call : TapCall} (hphase : s.phase = .sent call) :
    Steps s .dispatch (s.assignTap call)
  | finished {call : TapCall} (hphase : s.phase = .assigned call) :
    Steps s .dispatch { s with phase := .between, table := s.table.assignTranscript call }

/-- A move does one of these. -/
theorem steps_of_advance {s s' : Capture} {m : CaptureMove} (h : s.advance m = some s') :
    s.Steps m s' := by
  cases m with
  | sink entry =>
    obtain rfl := Option.some.inj h
    rw [transcriptSinkCb]
    split
    · next hclosed => exact .ignore hclosed
    · split
      · next hroom => exact .queue hroom
      · exact .full
  | dropSink uuid =>
    obtain rfl := Option.some.inj h
    exact .drop
  | dequeue =>
    simp only [advance] at h
    split at h
    · next item rest hhand hqueue =>
      obtain rfl := Option.some.inj h
      exact .take hhand hqueue
    · exact absurd h (by simp)
  | serve =>
    obtain ⟨item, hhand, rfl⟩ := Option.map_eq_some_iff.mp h
    exact .serve hhand
  | dispatch =>
    simp only [advance, dispatch, sendMessageLocked_eq] at h
    split at h
    · next hphase =>
      obtain rfl := Option.some.inj h
      exact .announced hphase
    · next hphase =>
      obtain rfl := Option.some.inj h
      exact .opened hphase
    · next hphase =>
      obtain rfl := Option.some.inj h
      exact .finished hphase
    · next hphase =>
      split at h
      · exact absurd h (by simp)
      · next hprogram =>
        obtain rfl := Option.some.inj h
        exact .call hphase hprogram
      · next hprogram =>
        obtain ⟨hqueue, hsome⟩ := Option.ite_none_right_eq_some.mp h
        obtain rfl := Option.some.inj hsome
        exact .drained hphase hprogram hqueue
      · next hprogram =>
        obtain rfl := Option.some.inj h
        exact .stamped hphase hprogram

/-- What the study before left behind. -/
structure Leftover where
  transcriptStepIndex : UInt32
  transcriptQ : Slots Item transcriptQueueDepth
  inHand : Option Item

/-- The state behind `load_study_taps`. -/
def start (answers : Answers) (study : StudyStart) (left : Leftover) : Capture where
  table := loadStudyTaps study.streams.items
  tapDropped := fun _ => 0
  transcriptDropped := 0
  transcriptStepIndex := left.transcriptStepIndex
  transcriptQ := left.transcriptQ.items.map Item.disowned
  inHand := left.inHand.map Item.disowned
  program := tapProgram answers study
  phase := .between
  wire := []
  captured := fun _ => 0
  reported := fun _ => 0
  late := fun _ => 0
  edge := fun _ => 0
  counterRead := fun _ => false
  drained := false
  swept := fun _ => false

/-! ## The order of the calls -/

/-- A record is sent where one is made. -/
theorem mem_sendRecord {t : TapTable} {entry : TranscriptEntry} {i : Nat} {e : WireEvent} :
    e ∈ t.sendRecord entry i ↔ ∃ r, t.recordFor entry i = some r ∧ e = .record i r := by
  rw [TapTable.sendRecord]
  cases t.recordFor entry i with
  | none => simp
  | some r => simp [sendMessageLocked_eq]

/-- What was queued and is not served. -/
def underWay (s : Capture) : List Item := s.inHand.toList ++ s.transcriptQ

/-- An entry that is queued is the last under way. -/
theorem underWay_enqueue (s : Capture) (entry : TranscriptEntry) :
    (s.enqueue entry).underWay = s.underWay ++ [s.itemOf entry] := (List.append_assoc ..).symm

/-- One that is taken from the queue stays under way. -/
theorem underWay_take {s : Capture} {item : Item} {rest : List Item} (hhand : s.inHand = none)
    (hqueue : s.transcriptQ = item :: rest) :
    ({ s with inHand := some item, transcriptQ := rest } : Capture).underWay = s.underWay := by
  rw [underWay, underWay, hhand, hqueue]
  rfl

/-- The one in hand is the first, and no longer under way when it is served. -/
theorem underWay_serve {s : Capture} {item : Item} (hhand : s.inHand = some item) :
    s.underWay = item :: (s.serve item).underWay := by
  rw [underWay, hhand]
  rfl

/-- A close is announced by the call that closes, with its counter. -/
theorem announce_eq_closed {call : TapCall} {dropped dropped' : UInt32} {i : Nat}
    (h : announce call dropped = .closed i dropped') : call = ⟨i, false⟩ ∧ dropped = dropped' := by
  obtain ⟨j, isOpen⟩ := call
  cases isOpen with
  | false =>
    obtain ⟨rfl, rfl⟩ := WireEvent.closed.inj h
    exact ⟨rfl, rfl⟩
  | true => exact absurd h nofun

/-- The call the dispatch thread is in. -/
def current (s : Capture) : Option TapCall :=
  match s.phase with
  | .between => none
  | .called call _ | .sent call | .assigned call => some call

/-- The call that was announced is the one being made. -/
theorem current_of_sent {s : Capture} {call : TapCall} (h : s.phase = .sent call) :
    s.current = some call := by
  rw [current, h]

/-- A tap whose counter was read for its close is not called for again. -/
structure Orderly (s : Capture) : Prop where
  loaded : s.table.Loaded
  once : ClosedOnce (callsIn s.program)
  left : ∀ i, s.counterRead i = true → ∀ call ∈ callsIn s.program, call.index ≠ i
  current : ∀ call, s.current = some call → s.counterRead call.index = !call.isOpen
  closed : ∀ i dropped, .closed i dropped ∈ s.wire → s.counterRead i = true

/-- At the start nothing has been announced. -/
theorem orderly_start (answers : Answers) (study : StudyStart) (left : Leftover) :
    (start answers study left).Orderly where
  loaded := TapTable.loaded_loadStudyTaps _
  once := by
    have hcalls : callsIn (tapProgram answers study) = callsOf (runStudy answers study).log := by
      rw [callsIn, tapProgram, List.filterMap_filterMap, callsOf]
      congr 1
      funext act
      cases act <;> rfl
    exact hcalls ▸ closedOnce_runStudy answers study
  left := nofun
  current := nofun
  closed := nofun

/-- The next tap called for was not called for to be closed before. -/
theorem Orderly.unread {s : Capture} (h : s.Orderly) {call : TapCall} {program : List TapOp}
    (hprogram : s.program = .call call :: program) : s.counterRead call.index = false := by
  refine Bool.eq_false_iff.mpr fun hread => h.left _ hread call ?_ rfl
  rw [hprogram]
  exact List.mem_cons_self

/-- A move announces what it closes or opens in order. -/
theorem Orderly.steps {s s' : Capture} {m : CaptureMove} (h : s.Orderly) (hs : s.Steps m s') :
    s'.Orderly := by
  cases hs with
  | ignore | queue | full | drop | take => exact ⟨h.loaded, h.once, h.left, h.current, h.closed⟩
  | serve hhand =>
    refine ⟨h.loaded, h.once, h.left, h.current, fun i dropped hclosed => ?_⟩
    rcases List.mem_append.mp hclosed with hbefore | hnew
    · exact h.closed i dropped hbefore
    · obtain ⟨j, _, hevent⟩ := List.mem_flatMap.mp hnew
      obtain ⟨_, _, heq⟩ := mem_sendRecord.mp hevent
      exact absurd heq nofun
  | @call call program hphase hprogram =>
    have hcalls : callsIn s.program = call :: callsIn program := by
      rw [hprogram]
      rfl
    obtain ⟨hlast, honce⟩ := List.pairwise_cons.mp (hcalls ▸ h.once)
    have hleft : ∀ i, s.counterRead i = true → ∀ b ∈ call :: callsIn program, b.index ≠ i :=
      hcalls ▸ h.left
    have hunread := h.unread hprogram
    rw [callTap]
    split
    · next hopen =>
      refine ⟨h.loaded, honce, fun i hread b hb => hleft i hread b (List.mem_cons_of_mem _ hb), ?_,
        h.closed⟩
      rintro call' hcurrent
      obtain rfl := Option.some.inj hcurrent
      rw [hopen]
      exact hunread
    · next hopen =>
      have hclose : call.isOpen = false := Bool.eq_false_iff.mpr hopen
      refine ⟨h.loaded, honce, fun i hread b hb => ?_, ?_, fun i dropped hclosed => ?_⟩
      · rcases eq_or_ne i call.index with rfl | hne
        · exact hlast b hb hclose
        · have hbefore : s.counterRead i = true := (Function.update_of_ne hne _ _).symm.trans hread
          exact hleft i hbefore b (List.mem_cons_of_mem _ hb)
      · rintro call' hcurrent
        obtain rfl := Option.some.inj hcurrent
        rw [hclose]
        exact Function.update_self ..
      · rcases eq_or_ne i call.index with rfl | hne
        · exact Function.update_self ..
        · exact (Function.update_of_ne hne _ _).trans (h.closed i dropped hclosed)
  | @drained program hphase hprogram =>
    have hcalls : callsIn s.program = callsIn program := by
      rw [hprogram]
      rfl
    exact ⟨h.loaded, hcalls ▸ h.once, hcalls ▸ h.left, h.current, h.closed⟩
  | @stamped i program hphase hprogram =>
    have hcalls : callsIn s.program = callsIn program := by
      rw [hprogram]
      rfl
    exact ⟨h.loaded, hcalls ▸ h.once, hcalls ▸ h.left, h.current, h.closed⟩
  | @announced call dropped hphase =>
    have hcurrent : s.current = some call := by rw [Capture.current, hphase]
    refine ⟨h.loaded, h.once, h.left, fun call' hcall => h.current call' (hcurrent.trans hcall),
      fun i dropped' hclosed => ?_⟩
    rcases List.mem_append.mp hclosed with hbefore | hnew
    · exact h.closed i dropped' hbefore
    · obtain ⟨rfl, _⟩ := announce_eq_closed (List.mem_singleton.mp hnew).symm
      exact h.current _ hcurrent
  | @opened call hphase =>
    have hcurrent := current_of_sent hphase
    exact ⟨h.loaded, h.once, h.left, fun call' hcall => h.current call' (hcurrent.trans hcall),
      h.closed⟩
  | finished hphase => exact ⟨h.loaded.assignTranscript, h.once, h.left, nofun, h.closed⟩

/-- What every orderly move keeps holds in every state reached. -/
theorem invariant_of_steps {answers : Answers} {study : StudyStart} {left : Leftover}
    {ok : Capture → CaptureMove → Prop} {s : Capture}
    (h : Reaches advance ok (start answers study left) s) (inv : Capture → Prop)
    (hstart : inv (start answers study left))
    (hsteps : ∀ {s s' m}, s.Orderly → inv s → ok s m → s.advance m = some s' → inv s') :
    inv s := by
  refine (h.invariant (fun s => s.Orderly ∧ inv s) ⟨orderly_start answers study left, hstart⟩
    fun s s' m hinv hok hstep => ?_).2
  exact ⟨hinv.1.steps (steps_of_advance hstep), hsteps hinv.1 hinv.2 hok hstep⟩

/-! ## A study with a window -/

/-- A step that discovers and never fails the study. -/
def discoverStep : Step := ⟨.copy [], .gattDiscover, 0, true, 0⟩

/-- A characteristic. -/
def zeroUuid : Uuid := Vector.replicate 16 0

/-- Two steps, and a tap on a characteristic for the first of them. -/
def windowStudy : StudyStart where
  steps := .ofList [discoverStep, discoverStep]
  stepsCrc := 0
  stepsCrcValid := true
  streams := .ofList [⟨7, .gattNotify, .steps 0 0, zeroUuid⟩]
  streamsCrc := 0
  streamsCrcValid := true
  hasUnsupportedAction := false
  devBenchLogLevel := 3
  protocols := .empty
  protocolsCrc := 0
  protocolsCrcValid := true

/-- An empty notification of the characteristic. -/
def notification : TranscriptEntry := ⟨0, 0, bleGattEvtNotification, none, some zeroUuid, 0, .empty⟩

/-- Nothing is left of an earlier study. -/
def nothingLeft : Leftover := ⟨0, .empty, none⟩

end Capture

end DevBench.Bench
