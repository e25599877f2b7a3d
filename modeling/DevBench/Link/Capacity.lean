import DevBench.Link.Receive
import DevBench.Wire.Sizes
import DevBench.Wire.StudyStart

/-!
# What the buffers hold

The buffers of the link are sized by formulas over the disclosed caps
(`serial_protocol.h`). Every message the bench sends fits the outbound one. A study
fits the inbound ones exactly when its steps stay within their shared budget, and a
step that writes a full payload under a long name takes more than its share of it.
-/

namespace DevBench.Link

open DevBench.Core DevBench.Core.Emit DevBench.Core.Stuffing DevBench.Core.Traced DevBench.Wire
  DevBench.Eap

/-! ## Outbound -/

/-- What the bench sends. -/
def Outbound : Message → Prop
  | .hello _ | .studyStart _ => False
  | .helloAck _ | .streamOpen _ | .streamChunkBatch _ | .streamClose _ | .logLine _
  | .stepResult _ | .studyDone _ => True

/-- A stamp, a length and up to 256 bytes. -/
theorem emits_encodeRecord (r : StreamRecord) :
    Emits (pcWriteVarint r.rxUtcMs.toNat ++ pcWriteBytes r.bytes.items) (encodeRecord r) :=
  (emits_writeVarint _).bind (emits_put _)

/-- The encoder emits no more than the largest result with its tag. -/
theorem exists_emits_encodeBody {m : Message} (h : Outbound m) :
    ∃ bs, Emits bs (encodeBody m) ∧ bs.length ≤ 3029 := by
  have htag : ∀ n < 128, varintSize n = 1 := fun n => varintSize_of_lt
  cases m with
  | hello m => exact h.elim
  | studyStart m => exact h.elim
  | helloAck m =>
    refine ⟨_, (emits_writeVarint 1).bind ((emits_writeVarint _).bind ((emits_put [_]).bind
      ((emits_put _).bind (emits_put _)))), ?_⟩
    have hversion := varintSize_uint32 m.schemaVersion
    have hfirmware : m.firmwareVersion.str.length < 33 := m.firmwareVersion.length_str_lt
    have hhardware : m.hardwareId.str.length < 33 := m.hardwareId.length_str_lt
    simp only [List.length_append, List.length_singleton, length_varint, length_pcWriteBytes]
    rw [stringSize_of_lt (hfirmware.trans (by decide)),
      stringSize_of_lt (hhardware.trans (by decide)), htag 1 (by decide)]
    omega
  | streamOpen id =>
    refine ⟨_, (emits_writeVarint 2).bind (emits_put [_]), ?_⟩
    simp only [List.length_append, List.length_singleton, length_varint]
    rw [htag 2 (by decide)]
    omega
  | streamChunkBatch m =>
    refine ⟨_, (emits_writeVarint 3).bind ((emits_put [_]).bind ((emits_writeVarint _).bind
      (emits_forM m.records.items fun r _ => emits_encodeRecord r))), ?_⟩
    have hrecords : (seqBytes (fun r : StreamRecord =>
        pcWriteVarint r.rxUtcMs.toNat ++ pcWriteBytes r.bytes.items) m.records.items).length ≤
          1 + 4 * 268 := length_seqBytes_le m.records (by decide) fun r => by
        have hstamp := varintSize_le_ten r.rxUtcMs.toNat
        have hbytes : stringSize r.bytes.items.length ≤ 2 + 256 :=
          stringSize_le r.bytes.fits (by decide)
        simp only [List.length_append, length_varint, length_pcWriteBytes]
        omega
    rw [seqBytes, List.length_append] at hrecords
    rw [List.length_append, List.length_append, List.length_append, length_varint 3,
      htag 3 (by decide), List.length_singleton]
    omega
  | streamClose m =>
    refine ⟨_, (emits_writeVarint 4).bind ((emits_put [_]).bind (emits_writeVarint _)), ?_⟩
    have hdropped := varintSize_uint32 m.dropped
    simp only [List.length_append, List.length_singleton, length_varint]
    rw [htag 4 (by decide)]
    omega
  | logLine text =>
    refine ⟨_, (emits_writeVarint 5).bind (emits_put _), ?_⟩
    have htext : stringSize text.str.length ≤ 2 + 128 :=
      stringSize_le (Nat.le_of_lt_succ text.length_str_lt) (by decide)
    simp only [List.length_append, length_varint, length_pcWriteBytes]
    rw [htag 5 (by decide)]
    omega
  | stepResult r =>
    refine ⟨_, (emits_writeVarint 7).bind (emits_encodeStepResult r), ?_⟩
    have hresult := length_stepResult_le r.sent
    rw [List.length_append, length_varint, htag 7 (by decide)]
    omega
  | studyDone completed =>
    refine ⟨_, (emits_writeVarint 8).bind (emits_put [_]), ?_⟩
    simp only [List.length_append, List.length_singleton, length_varint]
    rw [htag 8 (by decide)]
    omega

/-- No message the bench sends is dropped for its size. -/
theorem isSome_dbmEncodeFrame_outbound {m : Message} (h : Outbound m) :
    (dbmEncodeFrame m dbmMaxOutboundFrameLen).isSome := by
  obtain ⟨bs, hbs, hlen⟩ := exists_emits_encodeBody h
  have hraw : bs.length ≤ dbmMaxRawLen := hlen.trans (by decide)
  have hframe : bs.length + bs.length / 254 + 3 ≤ dbmMaxOutboundFrameLen :=
    Nat.le_trans (show _ ≤ 3043 by omega) (by decide)
  exact isSome_dbmEncodeFrame hbs hraw hframe

/-- A failure with the longest reason. -/
def longFailure : Outcome := ⟨1, .copy (List.replicate dbmMaxFailReasonLen 0x78)⟩

/-- A result with every optional part at its largest. -/
def fullestResult : StepResult where
  stepIndex := 0xFFFFFFFF
  stepName := .copy (List.replicate dbmMaxNameLen 0x6E)
  outcome := longFailure
  capturedData := some (.clamp (List.replicate dbmMaxPayloadLen 1))
  gattServices := some (.clamp (List.replicate dbmMaxDiscoveredServices
    ⟨Vector.replicate 16 2, .clamp (List.replicate dbmMaxCharsPerService
      ⟨Vector.replicate 16 3, 0x10⟩)⟩))
  securityLevel := some 0xFF
  protocol := some ⟨.copy (List.replicate maxStateNameLen 0x73), longFailure⟩

theorem isSome_dbmEncodeFrame_fullestResult :
    (dbmEncodeFrame (.stepResult fullestResult) dbmMaxOutboundFrameLen).isSome :=
  isSome_dbmEncodeFrame_outbound trivial

/-! ## Inbound -/

/-- What `decode_body` is given for a study. -/
def studyBody (d : StudyDecl) : List UInt8 := pcWriteVarint 6 ++ d.bytes

/-- The frame of a study, with its delimiter. -/
def studyFrame (d : StudyDecl) : List UInt8 := cobsEncode (studyBody d) ++ [0]

/-- Neither the receiver nor the decoder refuses the study for its size. -/
structure Receivable (d : StudyDecl) : Prop where
  raw : (studyBody d).length ≤ dbmMaxRawLen
  inboundRaw : (studyBody d).length ≤ dbmMaxInboundRawLen
  frame : (studyFrame d).length ≤ dbmMaxFrameLen
  inboundFrame : (studyFrame d).length ≤ dbmMaxInboundFrameLen
  decoded : ∀ w, dbmDecodeFrame w (cobsEncode (studyBody d)) = some (.studyStart d.kept)
  received : ∀ w, delivered (receive w .start ((studyFrame d).map .byte)).log =
    [.studyStart d.kept]

/-- The steps, the protocols and the three seals stay within what the buffer has for
them, which is all of it less the tag, three counts and the log level. -/
def Fits (d : StudyDecl) : Prop :=
  (d.steps.items.map StepDecl.size).sum + d.protocolsBytes.length +
    (varintSize d.stepsCrc.toNat + varintSize d.streamsCrc.toNat +
      varintSize d.protocolsCrc.toNat) + 5 ≤ dbmMaxRawLen

theorem length_studyBody {d : StudyDecl} (hd : d.Declared) (hstreams : d.streams = .empty) :
    (studyBody d).length = (d.steps.items.map StepDecl.size).sum + d.protocolsBytes.length +
      (varintSize d.stepsCrc.toNat + varintSize d.streamsCrc.toNat +
        varintSize d.protocolsCrc.toNat) + 5 := by
  have hsteps : d.stepsBytes.length = (d.steps.items.map StepDecl.size).sum := by
    rw [StudyDecl.stepsBytes, List.length_flatMap]
    exact congrArg List.sum (List.map_congr_left fun s _ => length_step s)
  have hstreamsBytes : d.streamsBytes.length = 0 := by
    rw [StudyDecl.streamsBytes, hstreams]
    rfl
  have hnone : d.streams.items.length = 0 := by
    rw [hstreams]
    rfl
  have hcount : d.steps.items.length < 128 := Nat.lt_of_le_of_lt d.steps.fits (by decide)
  have hprotocols : d.protocols.items.length < 128 :=
    Nat.lt_of_le_of_lt d.protocols.fits (by decide)
  have hlog : d.devBenchLogLevel.toNat < 128 := Nat.lt_of_le_of_lt hd.logLevel (by decide)
  simp only [studyBody, StudyDecl.bytes, List.length_append, length_varint, hsteps, hstreamsBytes,
    hnone, varintSize_of_lt hcount, varintSize_of_lt hprotocols, varintSize_of_lt hlog,
    varintSize_of_lt (show 6 < 128 by decide), varintSize_of_lt (show 0 < 128 by decide)]
  omega

/-- A study without taps is receivable exactly when its steps stay within the budget. -/
theorem receivable_iff {d : StudyDecl} (hd : d.Declared) (hstreams : d.streams = .empty) :
    Receivable d ↔ Fits d := by
  have hlength := length_studyBody hd hstreams
  constructor
  · intro h
    have hraw := h.raw
    rwa [hlength] at hraw
  · intro h
    have hraw : (studyBody d).length ≤ dbmMaxRawLen := by rwa [hlength]
    have hlen : (studyBody d).length ≤ 12312 := hraw
    have hstuffed := stuffed_cobsEncode (studyBody d)
    have hsize := hstuffed.length_le
    have hframe : (studyFrame d).length ≤ 12362 := by
      rw [studyFrame, List.length_append, List.length_singleton]
      omega
    have hinbound : (studyFrame d).length ≤ dbmMaxInboundFrameLen := hframe.trans (by decide)
    have hne : (studyBody d) ≠ [] := List.append_ne_nil_of_left_ne_nil (pcWriteVarint_ne_nil 6) _
    have hdecoded : ∀ w, dbmDecodeFrame w (cobsEncode (studyBody d)) = some (.studyStart d.kept) :=
      fun w => dbmDecodeFrame_cobsEncode w (reads_decodeBody_studyStart hd) hne hraw
    have hruns : runs 0 (studyFrame d) = [cobsEncode (studyBody d)] := by
      rw [studyFrame, runs_append hstuffed.zero_notMem, runs_of_notMem List.not_mem_nil]
    have hlast : lastBytes (cobsEncode (studyBody d)) = cobsEncode (studyBody d) := by
      apply lastBytes_of_le
      rw [studyFrame, List.length_append, List.length_singleton] at hinbound
      omega
    refine ⟨hraw, hraw.trans (by decide), hframe, hinbound, hdecoded, fun w => ?_⟩
    rw [delivered_eq, bytesOf_map_byte, hruns, List.filterMap_cons, hlast, hdecoded]
    rfl

/-- Steps that each keep to a bound keep to sixteen times it. -/
private theorem sum_size_le {d : StudyDecl} {bound : Nat}
    (h : ∀ s ∈ d.steps.items, s.size ≤ bound) :
    (d.steps.items.map StepDecl.size).sum ≤ d.steps.items.length * bound :=
  calc (d.steps.items.map StepDecl.size).sum
      ≤ (d.steps.items.map StepDecl.size).length • bound :=
        List.sum_le_card_nsmul _ _ (by simpa using h)
    _ = d.steps.items.length * bound := by rw [List.length_map, Nat.nsmul_eq_mul]

/-- What is left beside the other parts of a study is room enough for its steps. -/
theorem fits_of_sum_le {d : StudyDecl} (hd : d.Declared)
    (h : (d.steps.items.map StepDecl.size).sum ≤ 16 * 576) : Fits d := by
  have hprotocols : d.protocolsBytes.length ≤ 3072 := hd.protocols
  have hsteps := varintSize_uint32 d.stepsCrc
  have hstreams := varintSize_uint32 d.streamsCrc
  have hseal := varintSize_uint32 d.protocolsCrc
  show _ ≤ 12312
  omega

/-- Steps that each keep to their share of the buffer fit it together. -/
theorem fits_of_forall_size_le {d : StudyDecl} (hd : d.Declared)
    (h : ∀ s ∈ d.steps.items, s.size ≤ dbmMaxPayloadLen + 64) : Fits d := by
  have hsum : (d.steps.items.map StepDecl.size).sum ≤ d.steps.items.length * 576 := sum_size_le h
  have hcount : d.steps.items.length ≤ 16 := d.steps.fits
  exact fits_of_sum_le hd (hsum.trans (Nat.mul_le_mul_right 576 hcount))

/-- Fifteen steps without service UUIDs fit, whatever they carry. -/
theorem fits_of_length_le {d : StudyDecl} (hd : d.Declared)
    (huuids : ∀ s ∈ d.steps.items, s.serviceUuids = []) (h : d.steps.items.length ≤ 15) :
    Fits d := by
  have hsum : (d.steps.items.map StepDecl.size).sum ≤ d.steps.items.length * 592 :=
    sum_size_le fun s hs => StepDecl.size_le (huuids s hs)
  have hlen : d.steps.items.length * 592 ≤ 15 * 592 := Nat.mul_le_mul_right 592 h
  exact fits_of_sum_le hd (hsum.trans (hlen.trans (by decide)))

/-- Every field at its limit: 592 bytes. -/
def fullestStep : StepDecl where
  step := {
    name := .copy (List.replicate dbmMaxNameLen 0x77)
    action := .dataExchange (Vector.replicate 16 1) (Vector.replicate 16 2)
      (.write (.clamp (List.replicate dbmMaxPayloadLen 3)))
    timeoutMs := 0xFFFFFFFF
    continueOnFail := false
    delayBeforeMs := 0xFFFFFFFF }
  serviceUuids := []

/-- A protocol of nothing but a name of 1500 bytes. -/
def longNamedProtocol : Named ProtocolDecl :=
  ⟨List.replicate 1500 0x70, ⟨.empty, .empty, .empty, .empty⟩⟩

/-- Sixteen such steps and two such protocols, less than the protocols may take. -/
def fullestStudy : StudyDecl where
  steps := .clamp (List.replicate dbmMaxStepsPerStudy fullestStep)
  stepsCrc := 0
  streams := .empty
  streamsCrc := 0
  devBenchLogLevel := 0
  protocols := .clamp (List.replicate dbmMaxProtocolsPerStudy longNamedProtocol)
  protocolsCrc := 0

theorem size_fullestStep : fullestStep.size = 592 := by
  have htime : varintSize (0xFFFFFFFF : UInt32).toNat = 5 := by decide +kernel
  have hpayload : stringSize 512 = 514 := by decide +kernel
  have haction : fullestStep.step.action.size 0 = 547 := by
    simp only [fullestStep, Action.size, GattOperation.size, Slots.clamp, List.take_replicate,
      List.length_replicate, Nat.min_self, hpayload]
  have hname : fullestStep.step.name.bytes.length = 32 := by
    simp only [fullestStep, CharArray.copy, List.take_replicate, List.length_replicate,
      Nat.min_self]
  simp only [StepDecl.size, hname, show fullestStep.serviceUuids = [] from rfl, List.length_nil,
    haction, show fullestStep.step.timeoutMs = 0xFFFFFFFF from rfl,
    show fullestStep.step.delayBeforeMs = 0xFFFFFFFF from rfl, htime]

theorem length_fullestStudy_protocols : fullestStudy.protocolsBytes.length = 3012 := by
  have hname : stringSize 1500 = 1502 := by decide +kernel
  have hlength : (longNamedProtocol.bytes ProtocolDecl.bytes).length = 1506 := by
    rw [Named.bytes, List.length_append, length_pcWriteBytes]
    simp only [longNamedProtocol, List.length_replicate, hname]
    rfl
  have hitems : fullestStudy.protocols.items = [longNamedProtocol, longNamedProtocol] := rfl
  rw [StudyDecl.protocolsBytes, hitems]
  simp only [List.flatMap_cons, List.flatMap_nil, List.length_append, hlength, List.length_nil]

theorem fullestStudy_declared : fullestStudy.Declared where
  actions := by
    intro s hs
    rw [List.eq_of_mem_replicate (List.mem_of_mem_take hs)]
    trivial
  logLevel := Nat.zero_le _
  protocols := length_fullestStudy_protocols.trans_le (by decide)

theorem length_fullestStudy : (studyBody fullestStudy).length = 12492 := by
  have hzero : varintSize (0 : UInt32).toNat = 1 := varintSize_of_lt (by decide)
  have hitems : fullestStudy.steps.items = List.replicate 16 fullestStep := rfl
  rw [length_studyBody fullestStudy_declared rfl, length_fullestStudy_protocols, hitems,
    List.map_replicate, List.sum_replicate, size_fullestStep]
  simp only [fullestStudy, hzero]
  rfl

/-- A study within every disclosed cap is accepted by the decoder of bodies, and its
frame is refused for its size. -/
theorem fullestStudy_refused :
    fullestStudy.Declared ∧ fullestStudy.streams = .empty ∧
      (∀ i : Input, i.bytes = studyBody fullestStudy →
        (decodeBody i 0).value = some (.studyStart fullestStudy.kept)) ∧
      (∀ w, dbmDecodeFrame w (cobsEncode (studyBody fullestStudy)) = none) ∧
      ¬ Receivable fullestStudy := by
  have hlength := length_fullestStudy
  refine ⟨fullestStudy_declared, rfl, fun i hi => value_decodeBody fullestStudy_declared hi,
    fun w => ?_, fun h => ?_⟩
  · have hframe := (stuffed_cobsEncode (studyBody fullestStudy)).length_lt
    have hlong : (cobsEncode (studyBody fullestStudy)).length > dbmMaxFrameLen :=
      Nat.lt_trans (show 12362 < (studyBody fullestStudy).length by omega) hframe
    rw [dbmDecodeFrame, if_pos (.inr hlong)]
  · have hraw : (studyBody fullestStudy).length ≤ 12312 := h.raw
    omega

/-- Two steps at every limit, and nothing else. -/
def twoStepStudy : StudyDecl :=
  { fullestStudy with
    steps := .ofList [fullestStep, fullestStep]
    protocols := .empty }

theorem twoStepStudy_fits : Fits twoStepStudy := by
  have hzero : varintSize (0 : UInt32).toNat = 1 := varintSize_of_lt (by decide)
  have hitems : twoStepStudy.steps.items = [fullestStep, fullestStep] := rfl
  have hprotocols : twoStepStudy.protocolsBytes = [] := rfl
  rw [Fits, hitems, hprotocols]
  simp only [List.map_cons, List.map_nil, List.sum_cons, List.sum_nil, size_fullestStep]
  simp only [twoStepStudy, fullestStudy, hzero]
  decide

theorem receivable_twoStepStudy : Receivable twoStepStudy :=
  (receivable_iff {
    actions := by
      intro s hs
      rcases List.mem_cons.mp hs with rfl | hs
      · trivial
      · rw [List.mem_singleton.mp hs]
        trivial
    logLevel := Nat.zero_le _
    protocols := Nat.zero_le _ } rfl).mpr twoStepStudy_fits

end DevBench.Link
