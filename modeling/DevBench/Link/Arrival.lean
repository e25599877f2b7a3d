import DevBench.Link.Capacity
import DevBench.Link.Overruns

/-!
# From the wire to the messages

The handler cuts what arrives into chunks, the ring holds it, and the reader takes it out
byte by byte whenever it comes to run. Whatever the interleaving, the messages returned are
those of the frames read, in order; rubbish in front of a delimiter, if it is nothing that
decodes, neither adds to them nor costs anything behind it.
-/

namespace DevBench.Link

open DevBench.Core DevBench.Core.Traced DevBench.Wire

variable {w : Width}

theorem receive_append (w : Width) (r : Receiver) (events events' : List RxEvent) :
    (receive w r (events ++ events')).value = (receive w (receive w r events).value events').value ∧
      (receive w r (events ++ events')).log =
        (receive w r events).log ++ (receive w (receive w r events).value events').log := by
  induction events generalizing r with
  | nil => exact ⟨rfl, rfl⟩
  | cons ev events ih =>
    obtain ⟨hvalue, hlog⟩ := ih (receiveStep w r ev).value
    simp only [List.cons_append, receive, value_bind, log_bind]
    exact ⟨hvalue, by rw [hlog, List.append_assoc]⟩

theorem receive_singleton (w : Width) (r : Receiver) (ev : RxEvent) :
    (receive w r [ev]).value = (receiveStep w r ev).value ∧
      (receive w r [ev]).log = (receiveStep w r ev).log := by
  simp only [receive, value_bind, log_bind, value_pure, log_pure, List.append_nil, and_self]

/-- What an onlooker keeps of the bytes of a run. -/
structure Intake where
  /-- What the handler read from the UART. -/
  arrived : List UInt8
  /-- What it put into the ring. -/
  stored : List UInt8
  /-- How many bytes it discarded. -/
  lost : Nat

/-- Nothing has arrived. -/
def Intake.none : Intake := ⟨[], [], 0⟩

/-- Only an interrupt takes bytes in. -/
def takeIn (s : LinkRx) (m : RxMove) (i : Intake) : Intake :=
  match m with
  | .interrupt chunk =>
    ⟨i.arrived ++ chunk.items, i.stored ++ chunk.items.take (s.stored chunk),
      i.lost + s.overrunBy chunk⟩
  | .readByte => i
  | .readOverruns => i

/-- The ring takes as much of a chunk as it has room for. -/
theorem ring_linkUartIsr (s : LinkRx) (chunk : Slots UInt8 linkRxChunkBytes) :
    (s.linkUartIsr chunk).ring.items = s.ring.items ++ chunk.items.take (s.stored chunk) := by
  have hfits := s.ring.fits
  have htake : (s.linkUartIsr chunk).ring.items =
      (s.ring.items ++ chunk.items).take linkRxRingBytes := rfl
  rw [htake, List.take_append, List.take_of_length_le hfits, LinkRx.stored]
  congr 1
  rcases Nat.le_total (linkRxRingBytes - s.ring.items.length) chunk.items.length with hle | hle
  · rw [Nat.min_eq_left hle]
  · rw [Nat.min_eq_right hle, List.take_of_length_le hle, List.take_length]

/-- The reader has been given some events, and what is stored was read or is in the ring. -/
structure ReadOf (w : Width) (s : LinkRx) (i : Intake) (events : List RxEvent) : Prop where
  receiver : (receive w .start events).value = s.receiver
  acts : (receive w .start events).log = s.acts
  bytes : bytesOf events ++ s.ring.items = i.stored

theorem ReadOf.turn {s : LinkRx} {i : Intake} {events : List RxEvent}
    (h : ReadOf w s i events) (s₁ : LinkRx) (hreceiver : s₁.receiver = s.receiver)
    (hacts : s₁.acts = s.acts) {ev : RxEvent}
    (hbytes : bytesOf (events ++ [ev]) ++ s₁.ring.items = i.stored) :
    ReadOf w (s₁.turn w ev) i (events ++ [ev]) := by
  obtain ⟨hvalue, hlog⟩ := receive_append w .start events [ev]
  obtain ⟨hvalue', hlog'⟩ := receive_singleton w (receive w .start events).value ev
  refine ⟨?_, ?_, hbytes⟩
  · rw [hvalue, hvalue', h.receiver, LinkRx.turn, hreceiver]
  · rw [hlog, hlog', h.acts, h.receiver, LinkRx.turn, hreceiver, hacts]

theorem bytesOf_append (events events' : List RxEvent) :
    bytesOf (events ++ events') = bytesOf events ++ bytesOf events' := List.filterMap_append

/-- What a byte taken from the ring leaves in it. -/
theorem linkRxByte_eq_some {ring ring' : Slots UInt8 linkRxRingBytes} {byte : UInt8}
    (h : LinkRx.linkRxByte ring = some (byte, ring')) : ring.items = byte :: ring'.items := by
  obtain ⟨items, hfits⟩ := ring
  cases items with
  | nil => cases h
  | cons head rest =>
    obtain ⟨rfl, rfl⟩ := Prod.mk.inj (Option.some.inj h)
    rfl

/-- One move keeps the account of the bytes. -/
theorem ReadOf.step {s s' : LinkRx} {i : Intake} {m : RxMove} {events : List RxEvent}
    (h : ReadOf w s i events) (hstep : step w s m = some s') :
    ∃ events', ReadOf w s' (takeIn s m i) events' := by
  rcases step_cases hstep with ⟨chunk, rfl, rfl⟩ | ⟨rfl, -, rfl⟩ |
    ⟨byte, ring, rfl, hbyte, rfl⟩ | ⟨rfl, rfl⟩
  · refine ⟨events, h.receiver, h.acts, ?_⟩
    rw [ring_linkUartIsr, takeIn, ← List.append_assoc, h.bytes]
  · exact ⟨events, h.receiver, h.acts, h.bytes⟩
  · refine ⟨events ++ [.byte byte], h.turn { s with ring := ring } rfl rfl ?_⟩
    rw [bytesOf_append, List.append_assoc, ← h.bytes, linkRxByte_eq_some hbyte]
    rfl
  · refine ⟨events ++ [.idle s.linkRxOverruns], h.turn { s with idle := false } rfl rfl ?_⟩
    rw [bytesOf_append, List.append_assoc, ← h.bytes]
    rfl

/-- While no byte is discarded, what arrived is what is stored. -/
theorem lost_takeIn {s : LinkRx} {i : Intake} (h : i.lost = 0 → i.stored = i.arrived)
    (m : RxMove) : (takeIn s m i).lost = 0 → (takeIn s m i).stored = (takeIn s m i).arrived := by
  cases m with
  | interrupt chunk =>
    intro hlost
    have hnone : i.lost = 0 ∧ s.overrunBy chunk = 0 := Nat.add_eq_zero_iff.mp hlost
    have hall : chunk.items.length ≤ s.stored chunk := Nat.le_of_sub_eq_zero hnone.2
    change i.stored ++ chunk.items.take (s.stored chunk) = i.arrived ++ chunk.items
    rw [List.take_of_length_le hall, h hnone.1]
  | readByte => exact h
  | readOverruns => exact h

/-! ## Frames on the wire -/

/-- What stands between two delimiters: the frame of a message as the bench's own encoder has it,
that of a study as a host declares it, or anything else. -/
inductive Piece where
  | frame (m : Message) (bytes : List UInt8)
  | study (d : StudyDecl)
  | rubbish (run : List UInt8)

namespace Piece

/-- A piece as it arrives, up to its delimiter. -/
def bytes : Piece → List UInt8
  | frame _ bytes => bytes
  | study d => studyFrame d
  | rubbish run => run ++ [0]

/-- A frame is encoded from its message and small enough to be received. Rubbish does not
decode; of an overlong run that has to be said of its tail, which the reader takes for all of
it. -/
def Sound (w : Width) : Piece → Prop
  | frame m bytes => m.Shared ∧ (∃ outCap, dbmEncodeFrame m outCap = some bytes) ∧
      bytes.length ≤ dbmMaxInboundFrameLen + 1
  | study d => d.Declared ∧ (studyBody d).length ≤ dbmMaxRawLen ∧
      (studyFrame d).length ≤ dbmMaxInboundFrameLen + 1
  | rubbish run => 0 ∉ run ∧ dbmDecodeFrame w (lastBytes run) = none

/-- The message it carries. -/
def message : Piece → Option Message
  | frame m _ => some m.received
  | study d => some (.studyStart d.kept)
  | rubbish _ => none

end Piece

/-- A frame is its stuffed body and the delimiter. -/
theorem frame_eq (w : Width) {m : Message} (hm : m.Shared) {outCap : Nat} {frame : List UInt8}
    (h : dbmEncodeFrame m outCap = some frame) :
    ∃ run, frame = run ++ [0] ∧ 0 ∉ run ∧ dbmDecodeFrame w run = some m.received := by
  obtain ⟨bs, hemits, -⟩ := encodeBody_decodeBody hm
  obtain ⟨hframe, -⟩ := dbmEncodeFrame_eq_some hemits h
  refine ⟨cobsEncode bs, hframe, (stuffed_cobsEncode bs).zero_notMem, ?_⟩
  have hdecode := dbmDecodeFrame_dbmEncodeFrame w hm h
  rwa [hframe, List.dropLast_concat] at hdecode

/-- So is that of a study. -/
theorem studyFrame_eq (w : Width) {d : StudyDecl} (hd : d.Declared)
    (hraw : (studyBody d).length ≤ dbmMaxRawLen) :
    ∃ run, studyFrame d = run ++ [0] ∧ 0 ∉ run ∧
      dbmDecodeFrame w run = some (.studyStart d.kept) := by
  have hne : studyBody d ≠ [] := List.append_ne_nil_of_left_ne_nil (pcWriteVarint_ne_nil 6) _
  exact ⟨cobsEncode (studyBody d), rfl, (stuffed_cobsEncode _).zero_notMem,
    dbmDecodeFrame_cobsEncode w (reads_decodeBody_studyStart hd) hne hraw⟩

/-- A run the receive buffer has room for is decoded whole. -/
theorem dbmDecodeFrame_lastBytes {run : List UInt8} {m : Message}
    (hsmall : (run ++ [0]).length ≤ dbmMaxInboundFrameLen + 1)
    (hdecode : dbmDecodeFrame w run = some m) : dbmDecodeFrame w (lastBytes run) = some m := by
  have hfits : run.length ≤ dbmMaxInboundFrameLen := by
    rw [List.length_append, List.length_singleton] at hsmall
    exact Nat.le_of_succ_le_succ hsmall
  rw [lastBytes_of_le hfits, hdecode]

/-- A piece is one run of the stream. -/
theorem Piece.Sound.run {piece : Piece} (h : piece.Sound w) :
    ∃ run, piece.bytes = run ++ [0] ∧ 0 ∉ run ∧
      dbmDecodeFrame w (lastBytes run) = piece.message := by
  cases piece with
  | frame m bytes =>
    obtain ⟨hm, ⟨outCap, hencode⟩, hsmall⟩ := h
    obtain ⟨run, rfl, hrun, hdecode⟩ := frame_eq w hm hencode
    exact ⟨run, rfl, hrun, dbmDecodeFrame_lastBytes hsmall hdecode⟩
  | study d =>
    obtain ⟨hd, hraw, hsmall⟩ := h
    obtain ⟨run, hbytes, hrun, hdecode⟩ := studyFrame_eq w hd hraw
    rw [hbytes] at hsmall
    exact ⟨run, hbytes, hrun, dbmDecodeFrame_lastBytes hsmall hdecode⟩
  | rubbish run => exact ⟨run, rfl, h⟩

/-- The runs of a stream of pieces decode to the messages they carry. -/
theorem decode_pieces {pieces : List Piece} (hpieces : ∀ piece ∈ pieces, piece.Sound w)
    {post : List UInt8} (hpost : 0 ∉ post) :
    ((runs 0 (pieces.flatMap Piece.bytes ++ post)).filterMap fun run =>
      dbmDecodeFrame w (lastBytes run)) = pieces.filterMap Piece.message := by
  induction pieces with
  | nil =>
    rw [List.flatMap_nil, List.nil_append, runs_of_notMem hpost]
    rfl
  | cons piece pieces ih =>
    obtain ⟨hpiece, hpieces⟩ := List.forall_mem_cons.mp hpieces
    obtain ⟨run, hbytes, hrun, hdecode⟩ := hpiece.run
    have hruns : runs 0 ((piece :: pieces).flatMap Piece.bytes ++ post) =
        run :: runs 0 (pieces.flatMap Piece.bytes ++ post) := by
      rw [List.flatMap_cons, hbytes]
      simp only [List.append_assoc, List.singleton_append]
      exact runs_append hrun _
    rw [hruns, List.filterMap_cons, List.filterMap_cons, hdecode, ih hpieces]

/-- However the bytes are cut into chunks and whenever the reader runs: once the pieces of a
stream have been read, the messages returned are those of the frames among them, in order and
each once. As long as nothing is discarded that stream is what arrived. -/
theorem messages_arrive {moves : List RxMove} {s : LinkRx} {i : Intake}
    (hplay : play (watched (step w) takeIn) (fun _ _ => True) (LinkRx.boot, Intake.none) moves =
      some (s, i)) :
    (i.lost = 0 → i.stored = i.arrived) ∧
      ∀ (pieces : List Piece) (post : List UInt8), (∀ piece ∈ pieces, piece.Sound w) →
        0 ∉ post →
        i.stored = pieces.flatMap Piece.bytes ++ post ++ s.ring.items →
        delivered s.acts = pieces.filterMap Piece.message := by
  have hreaches := reaches_of_play .start hplay
  constructor
  · refine hreaches.invariant (fun x => x.2.lost = 0 → x.2.stored = x.2.arrived)
      (fun _ => rfl) ?_
    intro x x' m hx _ hstep
    obtain ⟨s', -, rfl⟩ := Option.map_eq_some_iff.mp hstep
    exact lost_takeIn hx m
  · intro pieces post hpieces hpost hstored
    obtain ⟨events, hread⟩ : ∃ events, ReadOf w s i events := by
      refine hreaches.invariant (fun x => ∃ events, ReadOf w x.1 x.2 events)
        ⟨[], rfl, rfl, rfl⟩ ?_
      rintro x x' m ⟨events, hx⟩ - hstep
      obtain ⟨s', hs', rfl⟩ := Option.map_eq_some_iff.mp hstep
      exact hx.step hs'
    have hbytes : bytesOf events = pieces.flatMap Piece.bytes ++ post :=
      List.append_cancel_right (hread.bytes.trans hstored)
    rw [← hread.acts, delivered_eq, hbytes, decode_pieces hpieces hpost]

/-- A greeting behind two bytes of noise, in two chunks with a look at the ring in between. -/
def noisyGreeting : List RxMove :=
  [.interrupt (.ofList [7, 7, 0, 1, 2]), .readByte, .interrupt (.ofList [25, 1, 0]), .readByte,
    .readByte, .readByte, .readByte, .readByte, .readByte, .readByte]

theorem messages_arrive_noisyGreeting : ∃ s i,
    play (watched (step width32) takeIn) (fun _ _ => True) (LinkRx.boot, Intake.none)
      noisyGreeting = some (s, i) ∧ delivered s.acts = [.hello ⟨25, 0⟩] := by
  refine ⟨_, _, rfl, ?_⟩
  have hpieces : ∀ piece ∈ [Piece.rubbish [7, 7], Piece.frame (.hello ⟨25, 0⟩) [1, 2, 25, 1, 0]],
      piece.Sound width32 := by
    intro piece hpiece
    rcases List.mem_cons.mp hpiece with rfl | hpiece
    · exact ⟨by decide, by decide +kernel⟩
    · obtain rfl := List.mem_singleton.mp hpiece
      refine ⟨trivial, ⟨64, ?_⟩, by decide⟩
      decide +kernel
  have harrive := (@messages_arrive width32 noisyGreeting _ _ rfl).2 _ [] hpieces
    List.not_mem_nil rfl
  rw [harrive]
  rfl

end DevBench.Link
