import DevBench.Wire.Decode

/-!
# The wire grammar

What a study and a result look like as bytes, element by element in the order the
decoder's comments give. The declarations are the host's values: they carry the
names, the stream encodings and the service UUIDs a bench walks past, and `kept`
is what it keeps of each. Types the bench keeps whole are their own declarations.
-/

namespace DevBench

open DevBench.Core DevBench.Wire

/-! ## Scalars and containers -/

namespace Wire

/-- Small magnitudes first: 0, -1, 1, -2, … are numbered 0, 1, 2, 3, …. -/
def zigzag (value : Int64) : Nat :=
  if 0 ≤ value.toInt then 2 * value.toInt.toNat else 2 * (-value.toInt - 1).toNat + 1

/-- A flag is one byte. -/
def boolByte (b : Bool) : UInt8 := if b then 1 else 0

/-- An absent value is one byte, a present one follows another. -/
def optionBytes {α : Type} (enc : α → List UInt8) : Option α → List UInt8
  | none => [0]
  | some a => 1 :: enc a

/-- A count and that many elements. -/
def seqBytes {α : Type} (enc : α → List UInt8) (xs : List α) : List UInt8 :=
  pcWriteVarint xs.length ++ xs.flatMap enc

end Wire

/-! ## Protocol manifests -/

namespace Eap

/-- An operand: its discriminant and its value or index. -/
def Operand.bytes : Operand → List UInt8
  | literal value => pcWriteVarint 0 ++ pcWriteVarint (zigzag value)
  | field index => pcWriteVarint 1 ++ [index]
  | session index => pcWriteVarint 2 ++ [index]
  | spanLen index => pcWriteVarint 3 ++ [index]

/-- An expression: its discriminant and one operand or two. -/
def Expr.bytes : Expr → List UInt8
  | term a => pcWriteVarint 0 ++ a.bytes
  | add a b => pcWriteVarint 1 ++ (a.bytes ++ b.bytes)

/-- The discriminant of a comparison. -/
def CompareOp.code : CompareOp → Nat
  | eq => 0
  | ne => 1
  | lt => 2
  | le => 3
  | gt => 4
  | ge => 5

/-- The operator stands between its operands. -/
def Condition.bytes (c : Condition) : List UInt8 :=
  c.lhs.bytes ++ (pcWriteVarint c.op.code ++ c.rhs.bytes)

/-- The variable, and the expression it takes its value from. -/
def Remember.bytes (r : Remember) : List UInt8 := r.var :: r.value.bytes

/-- A condition and its target. -/
def GuardedGoto.bytes (g : GuardedGoto) : List UInt8 := g.cond.bytes ++ [g.gotoState]

/-- An arm: its frame, what is remembered, its guards and the state it goes to otherwise. -/
def EventArm.bytes (a : EventArm) : List UInt8 :=
  a.frame :: (seqBytes Remember.bytes a.remember.items ++
    (seqBytes GuardedGoto.bytes a.guards.items ++ optionBytes (fun s => [s]) a.otherwise))

/-- The type of a field and its value. -/
def WriteField.bytes (f : WriteField) : List UInt8 := pcWriteVarint f.ty.toNat ++ f.value.bytes

/-- A write: its source, its fields and whether it asks for a response. -/
def Write.bytes (w : Write) : List UInt8 :=
  w.source :: (seqBytes WriteField.bytes w.fields.items ++ [boolByte w.withResponse])

/-- The time, the retries and the target. -/
def TimeoutArm.bytes (t : TimeoutArm) : List UInt8 :=
  pcWriteVarint t.afterMs.toNat ++ ([t.retry] ++ [t.gotoState])

/-- The discriminant of an outcome. -/
def TerminalOutcome.code : TerminalOutcome → Nat
  | pass => 0
  | fail => 1

/-- An active state with its arms, or a terminal one with its outcome. -/
def StateKind.bytes : StateKind → List UInt8
  | active onEnter onEvent onTimeout =>
    pcWriteVarint 0 ++ (optionBytes Write.bytes onEnter ++
      (seqBytes EventArm.bytes onEvent.items ++ optionBytes TimeoutArm.bytes onTimeout))
  | terminal outcome => pcWriteVarint 1 ++ pcWriteVarint outcome.code

/-- A name and a kind. -/
def State.bytes (s : State) : List UInt8 := pcWriteBytes s.name.bytes ++ s.kind.bytes

/-- An offset and the bytes expected there. -/
def Select.bytes (s : Select) : List UInt8 :=
  pcWriteVarint s.offset.toNat ++ pcWriteBytes s.eq.items

/-- A declaration with the name the bench does not keep. -/
structure Named (α : Type) where
  name : List UInt8
  decl : α
  deriving DecidableEq, Repr

namespace Named

variable {α : Type}

/-- A name and what it names. -/
def bytes (enc : α → List UInt8) (d : Named α) : List UInt8 := pcWriteBytes d.name ++ enc d.decl

end Named

/-- The offset and the type of a field. -/
def ScalarRead.bytes (r : ScalarRead) : List UInt8 :=
  pcWriteVarint r.offset.toNat ++ pcWriteVarint r.ty.toNat

/-- The offset of a span, and its length if it is not open-ended. -/
def SpanRead.bytes (r : SpanRead) : List UInt8 :=
  pcWriteVarint r.offset.toNat ++ optionBytes (fun n : UInt16 => pcWriteVarint n.toNat) r.len

/-- `FrameDef`, less its own name. -/
structure FrameDecl where
  source : UInt8
  select : Option Select
  fields : Slots (Named ScalarRead) maxFrameFields
  spans : Slots (Named SpanRead) maxFrameSpans
  deriving DecidableEq, Repr

/-- A frame: its source, its selector, its fields and its spans. -/
def FrameDecl.bytes (f : FrameDecl) : List UInt8 :=
  f.source :: (optionBytes Select.bytes f.select ++
    (seqBytes (Named.bytes ScalarRead.bytes) f.fields.items ++
      seqBytes (Named.bytes SpanRead.bytes) f.spans.items))

/-- A frame without the names in it. -/
def FrameDecl.kept (f : FrameDecl) : Frame :=
  ⟨f.source, f.select, f.fields.map Named.decl, f.spans.map Named.decl⟩

/-- The two UUIDs of a source. -/
def Source.bytes (s : Source) : List UInt8 :=
  s.serviceUuid.toList ++ s.characteristicUuid.toList

/-- `ProtocolDef`, less its own name. -/
structure ProtocolDecl where
  sources : Slots (Named Source) maxSourcesPerProtocol
  frames : Slots (Named FrameDecl) maxFramesPerProtocol
  session : Slots (Named Int64) maxSessionVars
  states : Slots State maxStatesPerProtocol
  deriving DecidableEq, Repr

/-- A protocol: its sources, frames, session variables and states. -/
def ProtocolDecl.bytes (p : ProtocolDecl) : List UInt8 :=
  seqBytes (Named.bytes Source.bytes) p.sources.items ++
    (seqBytes (Named.bytes FrameDecl.bytes) p.frames.items ++
      (seqBytes (Named.bytes fun v : Int64 => pcWriteVarint (zigzag v)) p.session.items ++
        seqBytes State.bytes p.states.items))

/-- A protocol without the names of all but its states. -/
def ProtocolDecl.kept (p : ProtocolDecl) : ProtocolDef :=
  ⟨p.sources.map Named.decl, p.frames.map fun f => f.decl.kept, p.session.map Named.decl,
    p.states⟩

end Eap

open DevBench.Eap

namespace Wire

/-! ## Stream taps -/

/-- `StreamSource`. -/
inductive SourceDecl where
  | gattNotify (service characteristic : Uuid)
  | powerFrontEnd (sampleHz : UInt32)
  | gattTranscript
  | devBenchLog
  | signal (name : List UInt8)
  deriving DecidableEq, Repr

/-- The source of a tap, with what belongs to it. -/
def SourceDecl.bytes : SourceDecl → List UInt8
  | gattNotify service characteristic =>
    pcWriteVarint 0 ++ (service.toList ++ characteristic.toList)
  | powerFrontEnd sampleHz => pcWriteVarint 1 ++ pcWriteVarint sampleHz.toNat
  | gattTranscript => pcWriteVarint 2
  | devBenchLog => pcWriteVarint 3
  | signal name => pcWriteVarint 4 ++ pcWriteBytes name

/-- The tag kept, and the characteristic of a `GattNotify` source. -/
def SourceDecl.kept : SourceDecl → StreamSourceTag × Uuid
  | gattNotify _ characteristic => (.gattNotify, characteristic)
  | powerFrontEnd _ => (.powerFrontEnd, Vector.replicate 16 0)
  | gattTranscript => (.gattTranscript, Vector.replicate 16 0)
  | devBenchLog => (.devBenchLog, Vector.replicate 16 0)
  | signal _ => (.signal, Vector.replicate 16 0)

/-- `StreamEncoding`; `layout` and `unit` are discriminants. -/
inductive EncodingDecl where
  | raw
  | text
  | samples (layout unit : UInt32) (channelId : UInt8)
  | gattTranscript
  | outpostTrace
  | struct (decoder : UInt8)
  deriving DecidableEq, Repr

/-- The encoding of a tap, with what belongs to it. -/
def EncodingDecl.bytes : EncodingDecl → List UInt8
  | raw => pcWriteVarint 0
  | text => pcWriteVarint 1
  | samples layout unit channelId =>
    pcWriteVarint 2 ++ (pcWriteVarint layout.toNat ++ (pcWriteVarint unit.toNat ++ [channelId]))
  | gattTranscript => pcWriteVarint 3
  | outpostTrace => pcWriteVarint 4
  | struct decoder => pcWriteVarint 5 ++ [decoder]

/-- The whole study, or the first step and the last. -/
def StreamScope.bytes : StreamScope → List UInt8
  | wholeStudy => pcWriteVarint 0
  | steps scopeFrom scopeTo =>
    pcWriteVarint 1 ++ (pcWriteVarint scopeFrom.toNat ++ pcWriteVarint scopeTo.toNat)

/-- `StreamTap`. -/
structure TapDecl where
  id : UInt8
  name : List UInt8
  source : SourceDecl
  encoding : EncodingDecl
  scope : StreamScope
  deriving DecidableEq, Repr

/-- A tap, field by field. -/
def TapDecl.bytes (t : TapDecl) : List UInt8 :=
  t.id :: (pcWriteBytes t.name ++ (t.source.bytes ++ (t.encoding.bytes ++ t.scope.bytes)))

/-- A tap without its name and its encoding. -/
def TapDecl.kept (t : TapDecl) : StreamTap := ⟨t.id, t.source.kept.1, t.scope, t.source.kept.2⟩

/-! ## Steps -/

/-- An operation, with its payload or its time. -/
def GattOperation.bytes : GattOperation → List UInt8
  | read => pcWriteVarint 0
  | write payload => pcWriteVarint 1 ++ pcWriteBytes payload.items
  | notify timeoutMs => pcWriteVarint 2 ++ pcWriteVarint timeoutMs.toNat
  | indicate timeoutMs => pcWriteVarint 3 ++ pcWriteVarint timeoutMs.toNat
  | subscribe => pcWriteVarint 4
  | streamCapture => pcWriteVarint 5

/-- The two UUIDs of a target. -/
def GattTarget.bytes (t : GattTarget) : List UInt8 :=
  t.serviceUuid.toList ++ t.characteristicUuid.toList

/-- An address and its kind. -/
def TargetAddress.bytes (t : TargetAddress) : List UInt8 :=
  t.address.toList ++ pcWriteVarint t.kind.toNat

/-- The discriminant of an action. -/
def Action.tag : Action → Nat
  | bleAdvertise .. => 0
  | bleConnect .. => 1
  | dataExchange .. => 2
  | gattDiscover => 3
  | gattMonitorAll => 4
  | gattMonitorStart => 5
  | gattMonitorStop => 6
  | bleSecurity .. => 7
  | bleUnbond => 8
  | gattMonitorSelected .. => 9
  | gattMonitorSelectedStart .. => 10
  | runProtocol .. => 11

/-- The fields of an action. Only an advertise action has service UUIDs. -/
def Action.fields (serviceUuids : List Uuid) : Action → List UInt8
  | bleAdvertise localName advIntervalMs =>
    optionBytes (fun s => pcWriteBytes s.bytes) localName ++
      (seqBytes Vector.toList serviceUuids ++ pcWriteVarint advIntervalMs.toNat)
  | bleConnect role target targetName =>
    pcWriteVarint role.toNat ++ (optionBytes TargetAddress.bytes target ++
      optionBytes (fun s => pcWriteBytes s.bytes) targetName)
  | dataExchange service characteristic operation =>
    service.toList ++ characteristic.toList ++ operation.bytes
  | bleSecurity level => pcWriteVarint level.toNat
  | gattMonitorSelected targets => seqBytes GattTarget.bytes targets.items
  | gattMonitorSelectedStart targets => seqBytes GattTarget.bytes targets.items
  | runProtocol protocol entryState => [protocol] ++ [entryState]
  | gattDiscover | gattMonitorAll | gattMonitorStart | gattMonitorStop | bleUnbond => []

/-- A security level is one of four; every other discriminant is kept as it comes. -/
def Action.Declared : Action → Prop
  | bleSecurity level => level.toNat ≤ dbmSecurityL4
  | _ => True

/-- A step with the service UUIDs of an advertise action, which the bench does not keep. -/
structure StepDecl where
  step : Step
  serviceUuids : List Uuid
  deriving DecidableEq, Repr

/-- A step, field by field. -/
def StepDecl.bytes (d : StepDecl) : List UInt8 :=
  pcWriteBytes d.step.name.bytes ++ (pcWriteVarint d.step.action.tag ++
    (d.step.action.fields d.serviceUuids ++ (pcWriteVarint d.step.timeoutMs.toNat ++
      (boolByte d.step.continueOnFail :: pcWriteVarint d.step.delayBeforeMs.toNat))))

/-! ## Studies -/

/-- `StudyStart` as it is sent, with whatever three seals the sender put in. -/
structure StudyDecl where
  steps : Slots StepDecl dbmMaxStepsPerStudy
  stepsCrc : UInt32
  streams : Slots TapDecl dbmMaxStreamsPerStudy
  streamsCrc : UInt32
  devBenchLogLevel : UInt8
  protocols : Slots (Named ProtocolDecl) dbmMaxProtocolsPerStudy
  protocolsCrc : UInt32
  deriving DecidableEq, Repr

namespace StudyDecl

/-- The bytes the first seal covers. -/
def stepsBytes (d : StudyDecl) : List UInt8 := d.steps.items.flatMap StepDecl.bytes

/-- The bytes the second seal covers. -/
def streamsBytes (d : StudyDecl) : List UInt8 := d.streams.items.flatMap TapDecl.bytes

/-- The bytes the third seal covers. -/
def protocolsBytes (d : StudyDecl) : List UInt8 :=
  d.protocols.items.flatMap (Named.bytes ProtocolDecl.bytes)

/-- A study: its steps, taps and protocols, each list in front of its seal. -/
def bytes (d : StudyDecl) : List UInt8 :=
  pcWriteVarint d.steps.items.length ++ (d.stepsBytes ++ (pcWriteVarint d.stepsCrc.toNat ++
    ((pcWriteVarint d.streams.items.length ++ (d.streamsBytes ++
        pcWriteVarint d.streamsCrc.toNat)) ++
      (pcWriteVarint d.devBenchLogLevel.toNat ++
        (pcWriteVarint d.protocols.items.length ++ (d.protocolsBytes ++
          pcWriteVarint d.protocolsCrc.toNat))))))

/-- Values every host declares and this firmware can hold. -/
structure Declared (d : StudyDecl) : Prop where
  actions : ∀ s ∈ d.steps.items, s.step.action.Declared
  logLevel : d.devBenchLogLevel.toNat ≤ dbmLogLevelDbg
  protocols : d.protocolsBytes.length ≤ dbmMaxProtocolsWireLen

/-- What the bench keeps, with a verdict on each seal. -/
def kept (d : StudyDecl) : StudyStart where
  steps := d.steps.map StepDecl.step
  stepsCrc := d.stepsCrc
  stepsCrcValid := dbmCrc32 d.stepsBytes == d.stepsCrc
  streams := d.streams.map TapDecl.kept
  streamsCrc := d.streamsCrc
  streamsCrcValid := dbmCrc32 d.streamsBytes == d.streamsCrc
  hasUnsupportedAction := false
  devBenchLogLevel := d.devBenchLogLevel
  protocols := d.protocols.map fun p => p.decl.kept
  protocolsCrc := d.protocolsCrc
  protocolsCrcValid := dbmCrc32 d.protocolsBytes == d.protocolsCrc

end StudyDecl

/-! ## Results and greetings -/

/-- An outcome sends its reason for a failure only. -/
def Outcome.bytes (o : Outcome) : List UInt8 :=
  pcWriteVarint o.tag.toNat ++ (if o.tag = 1 then pcWriteBytes o.failReason.bytes else [])

/-- The tag is one of three and a reason stands beside a failure only. -/
def Outcome.Declared (o : Outcome) : Prop :=
  o.tag.toNat ≤ 2 ∧ (o.tag ≠ 1 → o.failReason.bytes = [])

/-- A UUID and the properties. -/
def CharacteristicInfo.bytes (c : CharacteristicInfo) : List UInt8 :=
  c.uuid.toList ++ [c.properties]

/-- A service and its characteristics. -/
def ServiceInfo.bytes (s : ServiceInfo) : List UInt8 :=
  s.uuid.toList ++ seqBytes CharacteristicInfo.bytes s.characteristics.items

/-- The name of the last state, and the outcome. -/
def ProtocolOutcome.bytes (p : ProtocolOutcome) : List UInt8 :=
  pcWriteBytes p.finalState.bytes ++ p.outcome.bytes

/-- A result, field by field; what was not captured is one byte. -/
def StepResult.bytes (r : StepResult) : List UInt8 :=
  pcWriteVarint r.stepIndex.toNat ++ (pcWriteBytes r.stepName.bytes ++ (r.outcome.bytes ++
    (optionBytes (fun p => pcWriteBytes p.items) r.capturedData ++
      (optionBytes (fun s => seqBytes ServiceInfo.bytes s.items) r.gattServices ++
        (optionBytes (fun l : UInt8 => pcWriteVarint l.toNat) r.securityLevel ++
          optionBytes ProtocolOutcome.bytes r.protocol)))))

/-- Values the decoder does not refuse. -/
structure StepResult.Declared (r : StepResult) : Prop where
  outcome : r.outcome.Declared
  securityLevel : ∀ l ∈ r.securityLevel, l.toNat ≤ dbmSecurityL4
  protocol : ∀ p ∈ r.protocol, p.outcome.Declared

/-- The schema version, and the host's time. -/
def Hello.bytes (m : Hello) : List UInt8 :=
  pcWriteVarint m.schemaVersion.toNat ++ pcWriteVarint m.hostUtcMs.toNat

/-- The schema version, whether it is the host's, and two strings. -/
def HelloAck.bytes (m : HelloAck) : List UInt8 :=
  pcWriteVarint m.schemaVersion.toNat ++ (boolByte m.compatible ::
    (pcWriteBytes m.firmwareVersion.bytes ++ pcWriteBytes m.hardwareId.bytes))

end Wire

end DevBench
