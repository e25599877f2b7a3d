import DevBench.Wire.Encode

/-!
# The round trip

A message the two sides share is decoded from its own frame to what was sent of
it. The frame is a stuffing of a body the encoder emitted whole, the body is the
grammar's, and the decoder is known on the grammar.
-/

namespace DevBench.Wire

open DevBench.Core DevBench.Core.Reader DevBench.Core.Emit DevBench.Core.Stuffing DevBench.Eap

/-- The messages both sides decode, with declared discriminants throughout. -/
def Message.Shared : Message → Prop
  | hello _ | helloAck _ | logLine _ | studyDone _ => True
  | studyStart m =>
    (∀ s ∈ m.steps.items, s.action.Declared) ∧ m.devBenchLogLevel.toNat ≤ dbmLogLevelDbg
  | stepResult r =>
    r.outcome.tag.toNat ≤ 2 ∧ (∀ l ∈ r.securityLevel, l.toNat ≤ dbmSecurityL4) ∧
      ∀ p ∈ r.protocol, p.outcome.tag.toNat ≤ 2
  | streamOpen _ | streamChunkBatch _ | streamClose _ => False

/-- What arrives of a message: its strings up to their terminator, and of a study the
steps, their seal and the log level. -/
def Message.received : Message → Message
  | helloAck m => helloAck m.sent
  | logLine text => logLine text.trimmed
  | studyStart m => studyStart {
      steps := m.steps.map Step.sent
      stepsCrc := m.stepsCrc
      stepsCrcValid := dbmCrc32 m.sent.stepsBytes == m.stepsCrc
      streams := .empty
      streamsCrc := 0
      streamsCrcValid := true
      hasUnsupportedAction := false
      devBenchLogLevel := m.devBenchLogLevel
      protocols := .empty
      protocolsCrc := 0
      protocolsCrcValid := true }
  | stepResult r => stepResult r.sent
  | m => m

/-! ## Bodies -/

theorem Outcome.sent_declared {o : Outcome} (h : o.tag.toNat ≤ 2) : o.sent.Declared := by
  refine ⟨h, fun hne => ?_⟩
  have htag : o.tag ≠ 1 := hne
  simp only [Outcome.sent, htag, if_false]
  rfl

theorem StepResult.sent_declared {r : StepResult} (houtcome : r.outcome.tag.toNat ≤ 2)
    (hlevel : ∀ l ∈ r.securityLevel, l.toNat ≤ dbmSecurityL4)
    (hprotocol : ∀ p ∈ r.protocol, p.outcome.tag.toNat ≤ 2) : r.sent.Declared where
  outcome := Outcome.sent_declared houtcome
  securityLevel := hlevel
  protocol := by
    intro p hp
    obtain ⟨q, hq, rfl⟩ := Option.mem_map.mp hp
    exact Outcome.sent_declared (hprotocol q hq)

theorem Action.sent_declared {a : Action} (h : a.Declared) : a.sent.Declared := by
  cases a <;> exact h

theorem StudyStart.sent_declared {m : StudyStart}
    (hsteps : ∀ s ∈ m.steps.items, s.action.Declared)
    (hlog : m.devBenchLogLevel.toNat ≤ dbmLogLevelDbg) : m.sent.Declared where
  actions := by
    intro d hd
    obtain ⟨s, hs, rfl⟩ := List.mem_map.mp hd
    exact Action.sent_declared (hsteps s hs)
  logLevel := hlog
  protocols := Nat.zero_le _

/-- The bench keeps of a sent study what the message says arrives. -/
theorem StudyStart.kept_sent (m : StudyStart) :
    Message.studyStart m.sent.kept = (Message.studyStart m).received := by
  have hsteps : m.sent.steps.map StepDecl.step = m.steps.map Step.sent :=
    Slots.ext (List.map_map ..)
  have hstreams : m.sent.streams.map TapDecl.kept = .empty := Slots.ext rfl
  have hprotocols : (m.sent.protocols.map fun p => p.decl.kept) = .empty := Slots.ext rfl
  have hnone : (dbmCrc32 [] == (0 : UInt32)) = true := by decide
  simp only [Message.received, StudyDecl.kept, hsteps, hstreams, hprotocols]
  rw [show m.sent.streamsBytes = [] from rfl, show m.sent.protocolsBytes = [] from rfl]
  simp only [StudyStart.sent, hnone]

/-- For every shared message there is one byte string the encoder emits and the
decoder reads. -/
theorem encodeBody_decodeBody {m : Message} (hm : m.Shared) :
    ∃ bs, Emits bs (encodeBody m) ∧ Reads bs decodeBody m.received ∧ bs ≠ [] := by
  have htag : ∀ (n : Nat) (bs : List UInt8), pcWriteVarint n ++ bs ≠ [] := fun n bs =>
    List.append_ne_nil_of_left_ne_nil (pcWriteVarint_ne_nil n) bs
  cases m with
  | hello m =>
    exact ⟨pcWriteVarint 0 ++ m.bytes,
      (emits_writeVarint 0).bind ((emits_writeVarint _).bind (emits_writeVarint _)),
      (reads_pcReadVarint (by decide)).bind ((reads_readHello m).map Message.hello), htag _ _⟩
  | helloAck m =>
    exact ⟨pcWriteVarint 1 ++ m.sent.bytes,
      (emits_writeVarint 1).bind ((emits_writeVarint _).bind ((emits_put [_]).bind
        ((emits_put _).bind (emits_put _)))),
      (reads_pcReadVarint (by decide)).bind ((reads_readHelloAck m.sent).map Message.helloAck),
      htag _ _⟩
  | logLine text =>
    exact ⟨pcWriteVarint 5 ++ pcWriteBytes text.str, (emits_writeVarint 5).bind (emits_put _),
      (reads_pcReadVarint (by decide)).bind
        ((reads_pcReadStr_charArray text.trimmed (by decide)).map Message.logLine), htag _ _⟩
  | studyStart m =>
    have hreads := (reads_readStudyStart (StudyStart.sent_declared hm.1 hm.2)).map
      Message.studyStart
    rw [StudyStart.kept_sent] at hreads
    exact ⟨pcWriteVarint 6 ++ m.sent.bytes,
      (emits_writeVarint 6).bind (emits_encodeStudyStart m),
      (reads_pcReadVarint (by decide)).bind hreads, htag _ _⟩
  | stepResult r =>
    have hdeclared := StepResult.sent_declared hm.1 hm.2.1 hm.2.2
    exact ⟨pcWriteVarint 7 ++ r.sent.bytes,
      (emits_writeVarint 7).bind (emits_encodeStepResult r),
      (reads_pcReadVarint (by decide)).bind
        ((reads_readStepResult hdeclared).map Message.stepResult), htag _ _⟩
  | studyDone completed =>
    have hreads := (reads_byte (boolByte completed)).map fun b => Message.studyDone (b ≠ 0)
    rw [boolByte_ne_zero] at hreads
    exact ⟨pcWriteVarint 8 ++ [boolByte completed], (emits_writeVarint 8).bind (emits_put _),
      (reads_pcReadVarint (by decide)).bind hreads, htag _ _⟩
  | streamOpen id => exact hm.elim
  | streamChunkBatch m => exact hm.elim
  | streamClose m => exact hm.elim

/-! ## Frames -/

/-- A body that is not empty and fits is decoded from its stuffing. -/
theorem dbmDecodeFrame_cobsEncode (w : Width) {raw : List UInt8} {m : Message}
    (hreads : Reads raw decodeBody m) (hne : raw ≠ []) (hlen : raw.length ≤ dbmMaxRawLen) :
    dbmDecodeFrame w (cobsEncode raw) = some m := by
  have hstuffed := stuffed_cobsEncode raw
  have hsize := hstuffed.length_le
  have hraw : raw.length ≤ 12312 := hlen
  have hinput : ¬ ((cobsEncode raw).length = 0 ∨ (cobsEncode raw).length > dbmMaxFrameLen) := by
    rintro (h | h)
    · exact hstuffed.ne_nil (List.length_eq_zero_iff.mp h)
    · have : 12362 < (cobsEncode raw).length := h
      omega
  have hbody : ¬ (raw.length = 0 ∨ raw.length > dbmMaxRawLen) := by
    rintro (h | h)
    · exact hne (List.length_eq_zero_iff.mp h)
    · exact absurd hlen (Nat.not_le.mpr h)
  rw [dbmDecodeFrame, if_neg hinput, cobsDecode_stuffed hstuffed hlen]
  simp only [dif_neg hbody]
  exact (hreads _ [] [] (by simp)).value

/-- What `dbm_encode_frame` returns is the stuffed body with its delimiter. -/
theorem dbmEncodeFrame_eq_some {m : Message} {outCap : Nat} {frame bs : List UInt8}
    (hbs : Emits bs (encodeBody m)) (h : dbmEncodeFrame m outCap = some frame) :
    frame = cobsEncode bs ++ [0] ∧ bs.length ≤ dbmMaxRawLen := by
  rw [dbmEncodeFrame] at h
  cases hrun : encodeBody m dbmMaxRawLen [] with
  | none =>
    rw [hrun] at h
    exact absurd h (by simp)
  | some result =>
    obtain ⟨u, raw⟩ := result
    rw [hrun] at h
    obtain ⟨rfl, hlen⟩ := hbs.of_eq_some hrun
    simp only at h
    split at h
    · exact absurd h (by simp)
    · exact ⟨(Option.some.inj h).symm, hlen⟩

/-- A body that fits its buffer is sent if the frame has room for its stuffing. -/
theorem isSome_dbmEncodeFrame {m : Message} {outCap : Nat} {bs : List UInt8}
    (hbs : Emits bs (encodeBody m)) (hlen : bs.length ≤ dbmMaxRawLen)
    (hcap : bs.length + bs.length / 254 + 3 ≤ outCap) : (dbmEncodeFrame m outCap).isSome := by
  have hrun : encodeBody m dbmMaxRawLen [] = some ((), bs) := by
    rw [hbs _ _ (Nat.zero_le _), List.length_nil, Nat.zero_add, if_pos hlen, List.nil_append]
  rw [dbmEncodeFrame, hrun]
  simp only
  rw [if_neg (Nat.not_lt.mpr hcap)]
  rfl

/-- A shared message is decoded from its frame, less the delimiter, to what was sent. -/
theorem dbmDecodeFrame_dbmEncodeFrame (w : Width) {m : Message} (hm : m.Shared) {outCap : Nat}
    {frame : List UInt8} (h : dbmEncodeFrame m outCap = some frame) :
    dbmDecodeFrame w frame.dropLast = some m.received := by
  obtain ⟨bs, hemits, hreads, hne⟩ := encodeBody_decodeBody hm
  obtain ⟨rfl, hlen⟩ := dbmEncodeFrame_eq_some hemits h
  rw [List.dropLast_concat]
  exact dbmDecodeFrame_cobsEncode w hreads hne hlen

/-- A study whose one step connects to a named peer. Its seal is wrong. -/
def connectStudy : StudyStart where
  steps := .ofList [⟨.copy (ascii "connect"), .bleConnect 0 (some ⟨#v[1, 2, 3, 4, 5, 6], 1⟩)
    (some (.copy (ascii "peer"))), 5000, false, 0⟩]
  stepsCrc := 7
  stepsCrcValid := true
  streams := .empty
  streamsCrc := 0
  streamsCrcValid := true
  hasUnsupportedAction := false
  devBenchLogLevel := 3
  protocols := .empty
  protocolsCrc := 0
  protocolsCrcValid := true

theorem connectStudy_shared : (Message.studyStart connectStudy).Shared :=
  ⟨fun s hs => by rw [List.mem_singleton.mp hs]; trivial, by decide⟩

theorem dbmDecodeFrame_connectStudy :
    dbmDecodeFrame width32
      ((dbmEncodeFrame (.studyStart connectStudy) 64).get (by decide +kernel)).dropLast =
    some (Message.studyStart connectStudy).received :=
  dbmDecodeFrame_dbmEncodeFrame _ connectStudy_shared (Option.some_get _).symm

end DevBench.Wire
