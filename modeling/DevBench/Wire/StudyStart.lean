import DevBench.Wire.Walk

/-!
# Accepting a study

A study as a host encodes it, each seal taken over the concatenated encodings of
its elements, is accepted whole: every kept field is recovered and all three seals
are found valid.
-/

namespace DevBench.Wire

open DevBench.Core DevBench.Core.Reader DevBench.Eap

/-- Every seal is the CRC-32 of the elements it stands behind. -/
structure StudyDecl.Sealed (d : StudyDecl) : Prop where
  steps : d.stepsCrc = dbmCrc32 d.stepsBytes
  streams : d.streamsCrc = dbmCrc32 d.streamsBytes
  protocols : d.protocolsCrc = dbmCrc32 d.protocolsBytes

theorem reads_decodeBody_studyStart {d : StudyDecl} (h : d.Declared) :
    Reads (pcWriteVarint 6 ++ d.bytes) decodeBody (.studyStart d.kept) :=
  (reads_pcReadVarint (by decide)).bind ((reads_readStudyStart h).map Message.studyStart)

/-- Seals taken over the elements are found valid. -/
theorem StudyDecl.Sealed.kept_eq {d : StudyDecl} (h : d.Sealed) :
    d.kept = { d.kept with
      stepsCrcValid := true, streamsCrcValid := true, protocolsCrcValid := true } := by
  have hsteps : (dbmCrc32 d.stepsBytes == d.stepsCrc) = true := by rw [h.steps, beq_self_eq_true]
  have hstreams : (dbmCrc32 d.streamsBytes == d.streamsCrc) = true := by
    rw [h.streams, beq_self_eq_true]
  have hprotocols : (dbmCrc32 d.protocolsBytes == d.protocolsCrc) = true := by
    rw [h.protocols, beq_self_eq_true]
  simp only [StudyDecl.kept, hsteps, hstreams, hprotocols]

/-- The body of a declared study is accepted, whatever the seals in it are worth. -/
theorem value_decodeBody {d : StudyDecl} (h : d.Declared) {i : Input}
    (hi : i.bytes = pcWriteVarint 6 ++ d.bytes) :
    (decodeBody i 0).value = some (.studyStart d.kept) := by
  have hrun : RunsTo i 0 decodeBody (0 + (pcWriteVarint 6 ++ d.bytes).length)
      (.studyStart d.kept) :=
    reads_decodeBody_studyStart h i [] [] (by simpa using hi)
  exact hrun.value

/-- The body of a declared and sealed study is accepted with everything the bench
keeps of it, on any machine that can hold it. -/
theorem decodeBody_study {d : StudyDecl} (hd : d.Declared) (hs : d.Sealed) {i : Input}
    (hi : i.bytes = pcWriteVarint 6 ++ d.bytes) :
    (decodeBody i 0).value = some (.studyStart { d.kept with
      stepsCrcValid := true, streamsCrcValid := true, protocolsCrcValid := true }) := by
  rw [← hs.kept_eq]
  exact value_decodeBody hd hi

/-- One advertise step, one signal tap and one protocol with a frame and two states. -/
def advertiseStudy : StudyDecl :=
  let steps : Slots StepDecl dbmMaxStepsPerStudy :=
    .ofList [⟨⟨.copy (ascii "adv"), .bleAdvertise (some (.copy (ascii "peer"))) 100, 5000,
      true, 0⟩, [Vector.replicate 16 0x18]⟩]
  let streams : Slots TapDecl dbmMaxStreamsPerStudy :=
    .ofList [⟨3, ascii "adc", .signal (ascii "vbus"), .samples 1 2 0, .steps 0 1⟩]
  let protocols : Slots (Named ProtocolDecl) dbmMaxProtocolsPerStudy :=
    .ofList [⟨ascii "pump", {
      sources := .ofList [⟨ascii "ctrl", ⟨Vector.replicate 16 1, Vector.replicate 16 2⟩⟩]
      frames := .ofList [⟨ascii "chunk", ⟨0, some ⟨0, .ofList [2]⟩, .ofList [⟨ascii "len", ⟨1, 3⟩⟩],
        .ofList [⟨ascii "payload", ⟨3, none⟩⟩]⟩⟩]
      session := .ofList [⟨ascii "received", -1⟩]
      states := .ofList [
        ⟨.copy (ascii "pumping"), .active (some ⟨0, .ofList [⟨0, .literal (-2)⟩], true⟩)
          (.ofList [⟨0, .ofList [⟨0, .add (.session 0) (.spanLen 0)⟩],
            .ofList [⟨⟨.session 0, .ge, .field 0⟩, 1⟩], some 0⟩]) (some ⟨1500, 2, 1⟩)⟩,
        ⟨.copy (ascii "done"), .terminal .pass⟩] }⟩]
  { steps := steps
    stepsCrc := dbmCrc32 (steps.items.flatMap StepDecl.bytes)
    streams := streams
    streamsCrc := dbmCrc32 (streams.items.flatMap TapDecl.bytes)
    devBenchLogLevel := 3
    protocols := protocols
    protocolsCrc := dbmCrc32 (protocols.items.flatMap (Named.bytes ProtocolDecl.bytes)) }

theorem advertiseStudy_declared : advertiseStudy.Declared where
  actions := by
    intro s hs
    rw [List.mem_singleton.mp hs]
    trivial
  logLevel := by decide
  protocols := by decide +kernel

theorem advertiseStudy_sealed : advertiseStudy.Sealed := ⟨rfl, rfl, rfl⟩

/-- Its body on a 32-bit machine. -/
def advertiseBody : Input :=
  { width32 with
    bytes := pcWriteVarint 6 ++ advertiseStudy.bytes
    fits := by decide +kernel }

theorem decodeBody_advertiseBody :
    (decodeBody advertiseBody 0).value = some (.studyStart { advertiseStudy.kept with
      stepsCrcValid := true, streamsCrcValid := true, protocolsCrcValid := true }) :=
  decodeBody_study advertiseStudy_declared advertiseStudy_sealed rfl

end DevBench.Wire
