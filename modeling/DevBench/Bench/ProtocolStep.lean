import DevBench.Eap.Subscripts
import DevBench.Wire.StudyStart

/-!
# Running a protocol of a received study

What the bench checks before it runs a `RunProtocol` step, and what that is worth: the
protocol and its entry state were decoded, the targets of its transitions are raw bytes
of the frame.
-/

namespace DevBench.Bench

open DevBench.Core DevBench.Core.Traced DevBench.Core.Reader DevBench.Eap DevBench.Wire

/-- The reason `protocol_index_valid` fails a step for, if it does. -/
def protocolIndexFault (study : StudyStart) (protocol entryState : UInt8) :
    Option (List UInt8) :=
  match study.protocols.items[protocol.toNat]? with
  | none =>
    some (ascii ("step names protocol " ++ toString protocol.toNat ++ "; this study carries " ++
      toString study.protocols.items.length))
  | some defn =>
    if entryState.toNat ≥ defn.states.items.length then
      some (ascii ("protocol " ++ toString protocol.toNat ++ " has no state " ++
        toString entryState.toNat))
    else none

/-- `protocol_index_valid`. -/
def protocolIndexValid (study : StudyStart) (protocol entryState : UInt8) : Bool :=
  (protocolIndexFault study protocol entryState).isNone

/-- A step passes when its protocol and the state it enters were decoded. -/
theorem protocolIndexValid_iff {study : StudyStart} {protocol entryState : UInt8} :
    protocolIndexValid study protocol entryState = true ↔
      ∃ defn, study.protocols.items[protocol.toNat]? = some defn ∧
        entryState.toNat < defn.states.items.length := by
  simp only [protocolIndexValid, protocolIndexFault]
  cases study.protocols.items[protocol.toNat]? with
  | none => simp
  | some defn =>
    by_cases h : entryState.toNat ≥ defn.states.items.length
    · simp [h]
    · simp [h, Nat.lt_of_not_le h]

/-- A body the decoder accepts carries a step that passes its check, for this protocol
and entry state. -/
def Runnable (i : Input) (defn : ProtocolDef) (entryState : UInt8) : Prop :=
  ∃ study step protocol, (decodeBody i 0).value = some (.studyStart study) ∧
    step ∈ study.steps.items ∧ step.action = .runProtocol protocol entryState ∧
    protocolIndexValid study protocol entryState = true ∧
    study.protocols.items[protocol.toNat]? = some defn

theorem Runnable.entry_lt {i : Input} {defn : ProtocolDef} {entryState : UInt8}
    (h : Runnable i defn entryState) : entryState.toNat < defn.states.items.length := by
  obtain ⟨study, step, protocol, _, _, _, hvalid, hdefn⟩ := h
  obtain ⟨defn', hdefn', hlt⟩ := protocolIndexValid_iff.mp hvalid
  exact Option.some.inj (hdefn.symm.trans hdefn') ▸ hlt

/-- The run stays in decoded states, and the interpreter in its tables. -/
def StaysInRange (defn : ProtocolDef) (entryState : UInt8) (events : List Event) : Prop :=
  (∀ run ∈ (playRun defn entryState events).value, run.StateInRange) ∧
    (playRun defn entryState events).Logs Subscript.InRange

instance (defn : ProtocolDef) (entryState : UInt8) (events : List Event) :
    Decidable (StaysInRange defn entryState events) :=
  inferInstanceAs (Decidable ((∀ _ ∈ _, _) ∧ ∀ _ ∈ _, _))

/-- A run of a received protocol stays in range exactly when no event takes a transition
declared with an undecoded target; a protocol without such a transition always does. -/
theorem staysInRange_iff {i : Input} {defn : ProtocolDef} {entryState : UInt8}
    (h : Runnable i defn entryState) (events : List Event) :
    (StaysInRange defn entryState events ↔
      ∀ start ∈ eapRunStart defn entryState,
        TargetsDecoded (eapRunEnter start).value.1 events) ∧
    (defn.Closed → StaysInRange defn entryState events) := by
  have hiff := playRun_inRange h.entry_lt events
  refine ⟨hiff, fun hclosed => hiff.mpr ?_⟩
  intro start hstart
  have hinit : start.defn = defn ∧ start.state = entryState := by
    simp only [eapRunStart, if_neg (Nat.not_le.mpr h.entry_lt), Option.mem_some_iff] at hstart
    exact ⟨hstart ▸ rfl, hstart ▸ rfl⟩
  obtain ⟨hdefn, hstate, _⟩ := onEntered_spec { start with retries := 0 }
  refine targetsDecoded_of_closed events ?_ ?_
  · rw [eapRunEnter, hdefn, hinit.1]
    exact hclosed
  · rw [EapRun.StateInRange, EapRun.statesLen, eapRunEnter, hdefn, hstate, hinit.1, hinit.2]
    exact h.entry_lt

/-- A protocol of one state, whose one frame sends it to a state it does not have. -/
def jumpProtocol : ProtocolDecl where
  sources := .empty
  frames := .ofList [⟨[], ⟨0, none, .empty, .empty⟩⟩]
  session := .empty
  states := .ofList [⟨.copy (ascii "idle"),
    .active none (.ofList [⟨0, .empty, .empty, some 200⟩]) none⟩]

/-- The study that runs it, sealed as a host would. -/
def jumpStudy : StudyDecl :=
  let steps : Slots StepDecl dbmMaxStepsPerStudy :=
    .ofList [⟨⟨.copy (ascii "jump"), .runProtocol 0 0, 1000, false, 0⟩, []⟩]
  let protocols : Slots (Named ProtocolDecl) dbmMaxProtocolsPerStudy :=
    .ofList [⟨ascii "jump", jumpProtocol⟩]
  { steps := steps
    stepsCrc := dbmCrc32 (steps.items.flatMap StepDecl.bytes)
    streams := .empty
    streamsCrc := dbmCrc32 []
    devBenchLogLevel := 0
    protocols := protocols
    protocolsCrc := dbmCrc32 (protocols.items.flatMap (Named.bytes ProtocolDecl.bytes)) }

theorem jumpStudy_declared : jumpStudy.Declared where
  actions := by
    intro s hs
    rw [List.mem_singleton.mp hs]
    trivial
  logLevel := by decide
  protocols := by decide +kernel

/-- Its body on a 32-bit machine. -/
def jumpBody : Input :=
  { width32 with
    bytes := pcWriteVarint 6 ++ jumpStudy.bytes
    fits := by decide +kernel }

theorem runnable_jumpBody : Runnable jumpBody jumpProtocol.kept 0 :=
  ⟨jumpStudy.kept, _, 0, value_decodeBody jumpStudy_declared rfl, List.mem_singleton_self _,
    rfl, rfl, rfl⟩

/-- The first notification takes it to state 200, and the next call subscripts with that. -/
theorem jumpBody_leaves_range :
    Runnable jumpBody jumpProtocol.kept 0 ∧
      ¬ StaysInRange jumpProtocol.kept 0 [.notify 0 []] ∧
      ⟨.states, 200, 1⟩ ∈ (playRun jumpProtocol.kept 0 [.notify 0 []]).log :=
  ⟨runnable_jumpBody, by decide +kernel, by decide +kernel⟩

/-- A timeout leaves it where it is. -/
theorem jumpBody_timeout_inRange : StaysInRange jumpProtocol.kept 0 [.timeout] :=
  (staysInRange_iff runnable_jumpBody [.timeout]).1.mpr (by decide +kernel)

end DevBench.Bench
