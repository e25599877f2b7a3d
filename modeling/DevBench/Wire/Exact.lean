import DevBench.Wire.Grammar

/-!
# What a kept field says

Each kept field is set beside the number that stands for it in the body. A count or
a discriminant the decoder tests is that number, the log level is that number
clamped, and a field stored by a cast is that number if it fits the field.
-/

namespace DevBench.Wire

open DevBench.Core DevBench.Core.Reader DevBench.Eap

variable {α : Type}

/-- A statement about what stands between two indices of a buffer. -/
abbrev Placed (α : Type) : Type := Input → Nat → Nat → α → Prop

/-- The bytes from `p` to `q` spell the number. -/
def VarintAt : Placed Nat := fun i p q v =>
  ∃ pre bs post, i.bytes = pre ++ bs ++ post ∧ p = pre.length ∧ q = p + bs.length ∧
    Leb128.Encodes bs v

/-- A field is the number spelled, if that fits so many bits. -/
def FieldAt (bits : Nat) : Placed Nat := fun i p q n =>
  ∃ v, VarintAt i p q v ∧ (v < 2 ^ bits → n = v)

/-! ## Containers -/

/-- One element after the other. -/
inductive SeqAt (R : Placed α) (i : Input) : Nat → Nat → List α → Prop
  | nil {p : Nat} : SeqAt R i p p []
  | cons {p q r : Nat} {x : α} {xs : List α} (hx : R i p q x) (hxs : SeqAt R i q r xs) :
      SeqAt R i p r (x :: xs)

/-- A count and that many elements. -/
def SlotsAt (R : Placed α) {capacity : Nat} : Placed (Slots α capacity) := fun i p q xs =>
  ∃ r, FieldAt 64 i p r xs.items.length ∧ SeqAt R i r q xs.items

/-- A byte that says whether a value follows. -/
def OptionAt (R : Placed α) : Placed (Option α)
  | i, p, q, none => RunsTo i p byte q 0
  | i, p, q, some a => ∃ r b, RunsTo i p byte r b ∧ b ≠ 0 ∧ R i r q a

/-- A count and that many bytes. -/
def PayloadAt {capacity : Nat} : Placed (Slots UInt8 capacity) := fun i p q bytes =>
  RunsTo i p (readPayload capacity) q bytes ∧ ∃ r, FieldAt 64 i p r bytes.items.length

/-! ## Stream taps -/

/-- The discriminant of a source. -/
def StreamSourceTag.code : StreamSourceTag → Nat
  | gattNotify => 0
  | powerFrontEnd => 1
  | gattTranscript => 2
  | devBenchLog => 3
  | signal => 4

/-- What follows the discriminant is walked, and only the characteristic kept. -/
def StreamSourceAt : Placed (StreamSourceTag × Uuid) := fun i p q source =>
  RunsTo i p readStreamSource q source ∧ ∃ r, FieldAt 64 i p r source.1.code

/-- A discriminant, and the range of steps where there is one. -/
def StreamScopeAt : Placed StreamScope
  | i, p, q, .wholeStudy => FieldAt 64 i p q 0
  | i, p, q, .steps scopeFrom scopeTo => ∃ r s, FieldAt 64 i p r 1 ∧
      FieldAt 32 i r s scopeFrom.toNat ∧ FieldAt 32 i s q scopeTo.toNat

/-- The id, the source and the scope; name and encoding are walked over. -/
def StreamTapAt : Placed StreamTap := fun i p q tap =>
  ∃ p₁ p₂ p₃ p₄, RunsTo i p byte p₁ tap.id ∧ RunsTo i p₁ (pcSkipLenPrefixed 1) p₂ () ∧
    StreamSourceAt i p₂ p₃ (tap.sourceTag, tap.characteristicUuid) ∧
    RunsTo i p₃ skipStreamEncoding p₄ () ∧ StreamScopeAt i p₄ q tap.scope

/-! ## Protocol manifests -/

/-- A discriminant, and a literal or an index. -/
def OperandAt : Placed Operand
  | i, p, q, .literal value => ∃ r, FieldAt 64 i p r 0 ∧ RunsTo i r pcReadZigzag q value
  | i, p, q, .field index => ∃ r, FieldAt 64 i p r 1 ∧ RunsTo i r byte q index
  | i, p, q, .session index => ∃ r, FieldAt 64 i p r 2 ∧ RunsTo i r byte q index
  | i, p, q, .spanLen index => ∃ r, FieldAt 64 i p r 3 ∧ RunsTo i r byte q index

/-- A discriminant, and one operand or two. -/
def ExprAt : Placed Expr
  | i, p, q, .term a => ∃ r, FieldAt 64 i p r 0 ∧ OperandAt i r q a
  | i, p, q, .add a b => ∃ r s, FieldAt 64 i p r 1 ∧ OperandAt i r s a ∧ OperandAt i s q b

/-- An operand, the code of a comparison, an operand. -/
def ConditionAt : Placed Condition := fun i p q c =>
  ∃ r s, OperandAt i p r c.lhs ∧ FieldAt 64 i r s c.op.code ∧ OperandAt i s q c.rhs

/-- The code of a type, which is cast, and an operand. -/
def WriteFieldAt : Placed WriteField := fun i p q f =>
  ∃ r, FieldAt 8 i p r f.ty.toNat ∧ OperandAt i r q f.value

/-- The source is a byte, and the response a byte that is not zero. -/
def WriteAt : Placed Write := fun i p q w =>
  ∃ r s b, RunsTo i p byte r w.source ∧ SlotsAt WriteFieldAt i r s w.fields ∧
    RunsTo i s byte q b ∧ w.withResponse = (b ≠ 0)

/-- The variable is a byte. -/
def RememberAt : Placed Remember := fun i p q m =>
  ∃ r, RunsTo i p byte r m.var ∧ ExprAt i r q m.value

/-- The target is a byte. -/
def GuardedGotoAt : Placed GuardedGoto := fun i p q g =>
  ∃ r, ConditionAt i p r g.cond ∧ RunsTo i r byte q g.gotoState

/-- The frame is a byte, and the last target may be missing. -/
def EventArmAt : Placed EventArm := fun i p q a =>
  ∃ p₁ p₂ p₃, RunsTo i p byte p₁ a.frame ∧ SlotsAt RememberAt i p₁ p₂ a.remember ∧
    SlotsAt GuardedGotoAt i p₂ p₃ a.guards ∧ RunsTo i p₃ (pcReadOption byte) q a.otherwise

/-- The two bytes behind the time are no numbers. -/
def TimeoutArmAt : Placed TimeoutArm := fun i p q t =>
  RunsTo i p readTimeoutArm q t ∧ ∃ r, FieldAt 32 i p r t.afterMs.toNat

/-- A discriminant, and what an active or a terminal state has. -/
def StateKindAt : Placed StateKind
  | i, p, q, .active onEnter onEvent onTimeout => ∃ p₁ p₂ p₃, FieldAt 64 i p p₁ 0 ∧
      OptionAt WriteAt i p₁ p₂ onEnter ∧ SlotsAt EventArmAt i p₂ p₃ onEvent ∧
      OptionAt TimeoutArmAt i p₃ q onTimeout
  | i, p, q, .terminal outcome => ∃ r, FieldAt 64 i p r 1 ∧ FieldAt 64 i r q outcome.code

/-- A name and a kind. -/
def StateAt : Placed State := fun i p q s =>
  ∃ r, RunsTo i p (pcReadStr (maxStateNameLen + 1)) r s.name ∧ StateKindAt i r q s.kind

/-- An offset, which is cast, and the bytes to be found there. -/
def SelectAt : Placed Select := fun i p q s =>
  ∃ r, FieldAt 16 i p r s.offset.toNat ∧ PayloadAt i r q s.eq

/-- Offset and type are cast; the name is walked over. -/
def ScalarReadAt : Placed ScalarRead := fun i p q f =>
  ∃ r s, RunsTo i p (pcSkipLenPrefixed 1) r () ∧ FieldAt 16 i r s f.offset.toNat ∧
    FieldAt 8 i s q f.ty.toNat

/-- The length is cast, where there is one. -/
def SpanReadAt : Placed SpanRead := fun i p q f =>
  ∃ r s, RunsTo i p (pcSkipLenPrefixed 1) r () ∧ FieldAt 16 i r s f.offset.toNat ∧
    OptionAt (fun i p q (len : UInt16) => FieldAt 16 i p q len.toNat) i s q f.len

/-- The source is a byte; the name is walked over. -/
def FrameAt : Placed Frame := fun i p q f =>
  ∃ p₁ p₂ p₃ p₄, RunsTo i p (pcSkipLenPrefixed 1) p₁ () ∧ RunsTo i p₁ byte p₂ f.source ∧
    OptionAt SelectAt i p₂ p₃ f.select ∧ SlotsAt ScalarReadAt i p₃ p₄ f.fields ∧
    SlotsAt SpanReadAt i p₄ q f.spans

/-- The four arrays of a protocol, behind its name. -/
def ProtocolDefAt : Placed ProtocolDef := fun i p q d =>
  ∃ p₁ p₂ p₃ p₄, RunsTo i p (pcSkipLenPrefixed 1) p₁ () ∧
    SlotsAt (fun i p q s => RunsTo i p readSource q s) i p₁ p₂ d.sources ∧
    SlotsAt FrameAt i p₂ p₃ d.frames ∧
    SlotsAt (fun i p q v => RunsTo i p readSessionInitial q v) i p₃ p₄ d.sessionInitial ∧
    SlotsAt StateAt i p₄ q d.states

/-! ## Studies -/

/-- A discriminant, and a payload or a time. -/
def GattOperationAt : Placed GattOperation
  | i, p, q, .read => FieldAt 64 i p q 0
  | i, p, q, .write payload => ∃ r, FieldAt 64 i p r 1 ∧ PayloadAt i r q payload
  | i, p, q, .notify timeoutMs =>
    ∃ r, FieldAt 64 i p r 2 ∧ FieldAt 32 i r q timeoutMs.toNat
  | i, p, q, .indicate timeoutMs =>
    ∃ r, FieldAt 64 i p r 3 ∧ FieldAt 32 i r q timeoutMs.toNat
  | i, p, q, .subscribe => FieldAt 64 i p q 4
  | i, p, q, .streamCapture => FieldAt 64 i p q 5

/-- The kind of an address is cast. -/
def TargetAddressAt : Placed TargetAddress := fun i p q t =>
  ∃ r s, RunsTo i p (require 6) r () ∧ RunsTo i r (take 6) s t.address ∧
    FieldAt 8 i s q t.kind.toNat

/-- A count and that many pairs of UUIDs. -/
def GattTargetsAt : Placed (Slots GattTarget dbmMaxMonitorTargets) := fun i p q targets =>
  RunsTo i p readGattTargets q targets ∧ ∃ r, FieldAt 64 i p r targets.items.length

/-- The fields behind the tag of an action. -/
def ActionAt : Placed Action
  | i, p, q, .bleAdvertise localName advIntervalMs => ∃ r s,
      RunsTo i p (pcReadOption (pcReadStr (dbmMaxLocalNameLen + 1))) r localName ∧
      RunsTo i r (pcSkipLenPrefixed 16) s () ∧ FieldAt 16 i s q advIntervalMs.toNat
  | i, p, q, .bleConnect role target targetName => ∃ r s, FieldAt 8 i p r role.toNat ∧
      OptionAt TargetAddressAt i r s target ∧
      RunsTo i s (pcReadOption (pcReadStr (dbmMaxLocalNameLen + 1))) q targetName
  | i, p, q, .dataExchange service characteristic operation => ∃ r,
      RunsTo i p pcReadUuidPair r (service, characteristic) ∧ GattOperationAt i r q operation
  | i, p, q, .bleSecurity level => FieldAt 64 i p q level.toNat ∧ level.toNat ≤ dbmSecurityL4
  | i, p, q, .gattMonitorSelected targets => GattTargetsAt i p q targets
  | i, p, q, .gattMonitorSelectedStart targets => GattTargetsAt i p q targets
  | i, p, q, .runProtocol protocol entryState => ∃ r s, RunsTo i p (require 2) r () ∧
      RunsTo i r next s protocol ∧ RunsTo i s next q entryState
  | _, p, q, .gattDiscover => p = q
  | _, p, q, .gattMonitorAll => p = q
  | _, p, q, .gattMonitorStart => p = q
  | _, p, q, .gattMonitorStop => p = q
  | _, p, q, .bleUnbond => p = q

/-- A step that is kept whole. -/
def StepAt : Placed Step := fun i p q s =>
  ∃ p₁ p₂ p₃ p₄ p₅ b, RunsTo i p (pcReadStr (dbmMaxNameLen + 1)) p₁ s.name ∧
    FieldAt 64 i p₁ p₂ s.action.tag ∧ ActionAt i p₂ p₃ s.action ∧
    FieldAt 32 i p₃ p₄ s.timeoutMs.toNat ∧ RunsTo i p₄ byte p₅ b ∧
    s.continueOnFail = (b ≠ 0) ∧ FieldAt 32 i p₅ q s.delayBeforeMs.toNat

/-- A counted list and its seal. -/
def SealedAt (R : Placed α) : Placed (List α × UInt32) := fun i p q list =>
  ∃ r s, FieldAt 64 i p r list.1.length ∧ SeqAt R i r s list.1 ∧ FieldAt 32 i s q list.2.toNat

/-- An unknown level is clamped. -/
def LogLevelAt : Placed UInt8 := fun i p q level =>
  ∃ v, VarintAt i p q v ∧ (v < 2 ^ 64 → level.toNat = min v dbmLogLevelDbg)

/-- Of an unsupported study only the steps before the unknown action are kept. -/
def StudyStartAt : Placed StudyStart := fun i p q m =>
  if m.hasUnsupportedAction then
    ∃ r s count, FieldAt 64 i p r count ∧ SeqAt StepAt i r s m.steps.items ∧
      m.steps.items.length < count ∧ m.streams = .empty ∧ m.protocols = .empty
  else
    ∃ p₁ p₂ p₃, SealedAt StepAt i p p₁ (m.steps.items, m.stepsCrc) ∧
      SealedAt StreamTapAt i p₁ p₂ (m.streams.items, m.streamsCrc) ∧
      LogLevelAt i p₂ p₃ m.devBenchLogLevel ∧
      SealedAt ProtocolDefAt i p₃ q (m.protocols.items, m.protocolsCrc)

/-- The level of the log is clamped. -/
def HelloAt : Placed Hello := fun i p q m =>
  ∃ r, FieldAt 32 i p r m.schemaVersion.toNat ∧ FieldAt 64 i r q m.hostUtcMs.toNat

/-- The tag and the fields of a message the bench acts on. -/
def ReceivedAt (i : Input) : Message → Prop
  | .hello m => ∃ p q, FieldAt 32 i 0 p 0 ∧ HelloAt i p q m
  | .studyStart m => ∃ p q, FieldAt 32 i 0 p 6 ∧ StudyStartAt i p q m
  | _ => True

/-! ## Numbers -/

/-- A successful loop has crossed the bytes of a number and kept its low 64 bits. -/
theorem varintAt_of_loop {i : Input} : ∀ {rounds result shift p q n : Nat}, shift < 64 →
    result < 2 ^ shift → RunsTo i p (pcReadVarintLoop rounds result shift) q n →
      ∃ v, VarintAt i p q v ∧ n = (result + v * 2 ^ shift) % 2 ^ 64
  | 0, _, _, _, _, _, _, _, h => absurd h not_runsTo_fail
  | rounds + 1, result, shift, p, q, n, hshift, hres, h => by
    obtain ⟨r, b, hb, h⟩ := runsTo_bind.mp h
    obtain ⟨pre, post, hbytes, rfl, rfl⟩ := hb.byte
    have hb' := b.toNat_lt
    rw [Leb128.byte_and_127, Leb128.or_shiftLeft_mod hres (Nat.le_of_lt hshift)] at h
    by_cases hlast : b.toNat < 128
    · rw [if_pos ((Leb128.byte_and_128 b).mpr hlast)] at h
      obtain ⟨rfl, rfl⟩ := h.pure
      refine ⟨b.toNat, ⟨pre, [b], post, by simp [hbytes], rfl, rfl, .last hlast⟩, ?_⟩
      rw [Nat.mod_eq_of_lt hlast]
    · rw [if_neg (fun hzero => hlast ((Leb128.byte_and_128 b).mp hzero))] at h
      by_cases hend : shift + 7 ≥ 64
      · rw [if_pos hend] at h
        exact absurd h not_runsTo_fail
      · rw [if_neg hend] at h
        have hgroup : b.toNat % 128 = b.toNat - 128 := by omega
        have hpow : 2 ^ (shift + 7) = 128 * 2 ^ shift := by rw [Nat.pow_add, Nat.mul_comm]
        have hjoined : result + b.toNat % 128 * 2 ^ shift < 2 ^ (shift + 7) := by
          have hle : b.toNat % 128 * 2 ^ shift ≤ 127 * 2 ^ shift :=
            Nat.mul_le_mul_right _ (by omega)
          omega
        have hword : 2 ^ (shift + 7) ≤ 2 ^ 64 := Nat.pow_le_pow_right (by decide) (by omega)
        rw [Nat.mod_eq_of_lt (hjoined.trans_le hword)] at h
        obtain ⟨v, ⟨pre', bs, post', hbytes', hpre', rfl, hv⟩, rfl⟩ :=
          varintAt_of_loop (by omega) hjoined h
        have hsame : pre' = pre ++ [b] ∧ bs ++ post' = post := by
          apply List.append_inj
          · rw [← List.append_assoc, ← hbytes', hbytes, List.append_assoc, List.singleton_append]
          · simp [← hpre']
        obtain ⟨rfl, rfl⟩ := hsame
        refine ⟨b.toNat - 128 + 128 * v, ⟨pre, b :: bs, post', by simp [hbytes], rfl, ?_,
          .more (by omega) hv⟩, ?_⟩
        · rw [List.length_cons]
          omega
        · rw [hpow, hgroup]
          ring_nf

/-- A number that was read stands there. -/
theorem fieldAt_of_runsTo {i : Input} {p q n : Nat} (h : RunsTo i p pcReadVarint q n) :
    FieldAt 64 i p q n := by
  obtain ⟨v, hv, rfl⟩ := varintAt_of_loop (by decide) (by decide) h
  refine ⟨v, hv, fun hlt => ?_⟩
  rw [Nat.zero_add, Nat.pow_zero, Nat.mul_one, Nat.mod_eq_of_lt hlt]

/-- A number kept in a narrower field. -/
theorem FieldAt.cast {i : Input} {p q n : Nat} (h : FieldAt 64 i p q n) {bits : Nat}
    (hbits : bits ≤ 64) : FieldAt bits i p q (n % 2 ^ bits) := by
  obtain ⟨v, hv, hn⟩ := h
  refine ⟨v, hv, fun hlt => ?_⟩
  rw [hn (hlt.trans_le (Nat.pow_le_pow_right (by decide) hbits)), Nat.mod_eq_of_lt hlt]

/-- Cast to eight bits it is the number, if that fits. -/
theorem fieldAt_readVarint8 {i : Input} {p q : Nat} {f : UInt8} (h : RunsTo i p readVarint8 q f) :
    FieldAt 8 i p q f.toNat := by
  obtain ⟨n, hn, rfl⟩ := h.map
  rw [UInt8.toNat_ofNat']
  exact (fieldAt_of_runsTo hn).cast (by decide)

/-- The same for sixteen bits. -/
theorem fieldAt_readVarint16 {i : Input} {p q : Nat} {f : UInt16}
    (h : RunsTo i p readVarint16 q f) : FieldAt 16 i p q f.toNat := by
  obtain ⟨n, hn, rfl⟩ := h.map
  rw [UInt16.toNat_ofNat']
  exact (fieldAt_of_runsTo hn).cast (by decide)

/-- The same for thirty-two bits. -/
theorem fieldAt_readVarint32 {i : Input} {p q : Nat} {f : UInt32}
    (h : RunsTo i p readVarint32 q f) : FieldAt 32 i p q f.toNat := by
  obtain ⟨n, hn, rfl⟩ := h.map
  rw [UInt32.toNat_ofNat']
  exact (fieldAt_of_runsTo hn).cast (by decide)

/-- The same for sixty-four bits. -/
theorem fieldAt_readVarint64 {i : Input} {p q : Nat} {f : UInt64}
    (h : RunsTo i p readVarint64 q f) : FieldAt 64 i p q f.toNat := by
  obtain ⟨n, hn, rfl⟩ := h.map
  rw [UInt64.toNat_ofNat']
  exact (fieldAt_of_runsTo hn).cast (by decide)

/-! ## The readers of containers -/

/-- Elements that were read one after the other stand one behind the other. -/
theorem seqAt_of_fill {R : Placed α} {m : Reader α} {i : Input}
    (hR : ∀ {p q x}, RunsTo i p m q x → R i p q x) {capacity : Nat} :
    ∀ {count offset p q : Nat} {xs : {xs : List α // xs.length = count}},
      RunsTo i p (fill m capacity offset count) q xs → SeqAt R i p q xs.1
  | 0, _, _, _, _, h => by
    obtain ⟨rfl, rfl⟩ := h.pure
    exact .nil
  | count + 1, _, _, _, _, h => by
    obtain ⟨_, x, hx, h⟩ := runsTo_bind.mp h.record
    obtain ⟨xs, hxs, rfl⟩ := h.map
    exact .cons (hR hx) (seqAt_of_fill hR hxs)

/-- Behind their count. -/
theorem slotsAt_of_runsTo {R : Placed α} {m : Reader α} {i : Input}
    (hR : ∀ {p q x}, RunsTo i p m q x → R i p q x) {capacity p q : Nat} {xs : Slots α capacity}
    (h : RunsTo i p (pcReadSlots capacity m) q xs) : SlotsAt R i p q xs := by
  obtain ⟨r, len, hlen, h⟩ := runsTo_bind.mp h
  by_cases hcap : len ≤ capacity
  · rw [dif_pos hcap] at h
    obtain ⟨items, hitems, rfl⟩ := h.map
    refine ⟨r, ?_, seqAt_of_fill hR hitems⟩
    rw [items.2]
    exact fieldAt_of_runsTo hlen
  · rw [dif_neg hcap] at h
    exact absurd h not_runsTo_fail

/-- A value was read where the byte was not zero. -/
theorem optionAt_of_runsTo {R : Placed α} {m : Reader α} {i : Input}
    (hR : ∀ {p q x}, RunsTo i p m q x → R i p q x) {p q : Nat} {o : Option α}
    (h : RunsTo i p (pcReadOption m) q o) : OptionAt R i p q o := by
  obtain ⟨r, b, hb, h⟩ := runsTo_bind.mp h
  by_cases hpresent : b ≠ 0
  · rw [if_pos hpresent] at h
    obtain ⟨a, ha, rfl⟩ := h.map
    exact ⟨r, b, hb, hpresent, hR ha⟩
  · rw [if_neg hpresent] at h
    obtain ⟨rfl, rfl⟩ := h.pure
    rw [not_ne_iff.mp hpresent] at hb
    exact hb

/-- The length of a payload stands in front of it. -/
theorem payloadAt_of_runsTo {capacity : Nat} {i : Input} {p q : Nat}
    {bytes : Slots UInt8 capacity} (h : RunsTo i p (readPayload capacity) q bytes) :
    PayloadAt i p q bytes := by
  refine ⟨h, ?_⟩
  obtain ⟨r, len, hlen, h⟩ := runsTo_bind.mp h
  by_cases hcap : len ≤ capacity
  · rw [dif_pos hcap] at h
    obtain ⟨_, _, _, h⟩ := runsTo_bind.mp h
    obtain ⟨_, bytes, _, h⟩ := runsTo_bind.mp h
    obtain ⟨_, _, rfl⟩ := h.map
    refine ⟨r, ?_⟩
    rw [Vector.length_toList]
    exact fieldAt_of_runsTo hlen
  · rw [dif_neg hcap] at h
    exact absurd h not_runsTo_fail

/-! ## The readers of taps -/

/-- A source that was read is told by its discriminant. -/
theorem streamSourceAt_of_runsTo {i : Input} {p q : Nat} {source : StreamSourceTag × Uuid}
    (h : RunsTo i p readStreamSource q source) : StreamSourceAt i p q source := by
  refine ⟨h, ?_⟩
  obtain ⟨r, tag, htag, h⟩ := runsTo_bind.mp h
  refine ⟨r, ?_⟩
  split at h
  · obtain ⟨_, _, _, h⟩ := runsTo_bind.mp h
    obtain ⟨_, _, _, h⟩ := runsTo_bind.mp h
    obtain ⟨_, _, rfl⟩ := h.map
    exact fieldAt_of_runsTo htag
  · obtain ⟨_, _, rfl⟩ := h.map
    exact fieldAt_of_runsTo htag
  · obtain ⟨-, rfl⟩ := h.pure
    exact fieldAt_of_runsTo htag
  · obtain ⟨-, rfl⟩ := h.pure
    exact fieldAt_of_runsTo htag
  · obtain ⟨_, _, rfl⟩ := h.map
    exact fieldAt_of_runsTo htag
  · exact absurd h not_runsTo_fail

/-- So is a scope. -/
theorem streamScopeAt_of_runsTo {i : Input} {p q : Nat} {scope : StreamScope}
    (h : RunsTo i p readStreamScope q scope) : StreamScopeAt i p q scope := by
  obtain ⟨r, tag, htag, h⟩ := runsTo_bind.mp h
  split at h
  · obtain ⟨rfl, rfl⟩ := h.pure
    exact fieldAt_of_runsTo htag
  · obtain ⟨s, _, hfrom, h⟩ := runsTo_bind.mp h
    obtain ⟨_, hto, rfl⟩ := h.map
    exact ⟨r, s, fieldAt_of_runsTo htag, fieldAt_readVarint32 hfrom, fieldAt_readVarint32 hto⟩
  · exact absurd h not_runsTo_fail

/-- The parts of a tap stand in the order they are read in. -/
theorem streamTapAt_of_runsTo {i : Input} {p q : Nat} {tap : StreamTap}
    (h : RunsTo i p pcReadStreamTap q tap) : StreamTapAt i p q tap := by
  obtain ⟨p₁, _, hid, h⟩ := runsTo_bind.mp h
  obtain ⟨p₂, _, hname, h⟩ := runsTo_bind.mp h
  obtain ⟨p₃, _, hsource, h⟩ := runsTo_bind.mp h
  obtain ⟨p₄, _, hencoding, h⟩ := runsTo_bind.mp h
  obtain ⟨_, hscope, rfl⟩ := h.map
  exact ⟨p₁, p₂, p₃, p₄, hid, hname, streamSourceAt_of_runsTo hsource, hencoding,
    streamScopeAt_of_runsTo hscope⟩

/-! ## The readers of manifests -/

/-- An operand is told by its discriminant. -/
theorem operandAt_of_runsTo {i : Input} {p q : Nat} {o : Operand}
    (h : RunsTo i p pcReadEapOperand q o) : OperandAt i p q o := by
  obtain ⟨r, kind, hkind, h⟩ := runsTo_bind.mp h
  split at h
  · obtain ⟨_, hvalue, rfl⟩ := h.map
    exact ⟨r, fieldAt_of_runsTo hkind, hvalue⟩
  · obtain ⟨_, hindex, rfl⟩ := h.map
    exact ⟨r, fieldAt_of_runsTo hkind, hindex⟩
  · obtain ⟨_, hindex, rfl⟩ := h.map
    exact ⟨r, fieldAt_of_runsTo hkind, hindex⟩
  · obtain ⟨_, hindex, rfl⟩ := h.map
    exact ⟨r, fieldAt_of_runsTo hkind, hindex⟩
  · exact absurd h not_runsTo_fail

/-- So is an expression. -/
theorem exprAt_of_runsTo {i : Input} {p q : Nat} {e : Expr} (h : RunsTo i p pcReadEapExpr q e) :
    ExprAt i p q e := by
  obtain ⟨r, kind, hkind, h⟩ := runsTo_bind.mp h
  obtain ⟨s, a, ha, h⟩ := runsTo_bind.mp h
  split at h
  · obtain ⟨rfl, rfl⟩ := h.pure
    exact ⟨r, fieldAt_of_runsTo hkind, operandAt_of_runsTo ha⟩
  · obtain ⟨b, hb, rfl⟩ := h.map
    exact ⟨r, s, fieldAt_of_runsTo hkind, operandAt_of_runsTo ha, operandAt_of_runsTo hb⟩
  · exact absurd h not_runsTo_fail

/-- A comparison has one code. -/
theorem compareOp_eq_some {n : Nat} {op : CompareOp} (h : compareOp n = some op) :
    op.code = n := by
  unfold compareOp at h
  split at h <;> cases h <;> rfl

/-- The parts of a condition. -/
theorem conditionAt_of_runsTo {i : Input} {p q : Nat} {c : Condition}
    (h : RunsTo i p pcReadEapCondition q c) : ConditionAt i p q c := by
  obtain ⟨r, lhs, hlhs, h⟩ := runsTo_bind.mp h
  obtain ⟨s, n, hn, h⟩ := runsTo_bind.mp h
  split at h
  · next op hop =>
    obtain ⟨rhs, hrhs, rfl⟩ := h.map
    refine ⟨r, s, operandAt_of_runsTo hlhs, ?_, operandAt_of_runsTo hrhs⟩
    rw [compareOp_eq_some hop]
    exact fieldAt_of_runsTo hn
  · exact absurd h not_runsTo_fail

/-- The parts of a field to be written. -/
theorem writeFieldAt_of_runsTo {i : Input} {p q : Nat} {f : WriteField}
    (h : RunsTo i p readWriteField q f) : WriteFieldAt i p q f := by
  obtain ⟨r, ty, hty, h⟩ := runsTo_bind.mp h
  obtain ⟨value, hvalue, rfl⟩ := h.map
  exact ⟨r, fieldAt_readVarint8 hty, operandAt_of_runsTo hvalue⟩

/-- The parts of a write. -/
theorem writeAt_of_runsTo {i : Input} {p q : Nat} {w : Write}
    (h : RunsTo i p pcReadEapWrite q w) : WriteAt i p q w := by
  obtain ⟨r, source, hsource, h⟩ := runsTo_bind.mp h
  obtain ⟨s, fields, hfields, h⟩ := runsTo_bind.mp h
  obtain ⟨b, hb, rfl⟩ := h.map
  exact ⟨r, s, b, hsource, slotsAt_of_runsTo writeFieldAt_of_runsTo hfields, hb, by simp⟩

/-- The parts of an assignment. -/
theorem rememberAt_of_runsTo {i : Input} {p q : Nat} {m : Remember}
    (h : RunsTo i p readRemember q m) : RememberAt i p q m := by
  obtain ⟨r, var, hvar, h⟩ := runsTo_bind.mp h
  obtain ⟨value, hvalue, rfl⟩ := h.map
  exact ⟨r, hvar, exprAt_of_runsTo hvalue⟩

/-- The parts of a guard. -/
theorem guardedGotoAt_of_runsTo {i : Input} {p q : Nat} {g : GuardedGoto}
    (h : RunsTo i p readGuardedGoto q g) : GuardedGotoAt i p q g := by
  obtain ⟨r, cond, hcond, h⟩ := runsTo_bind.mp h
  obtain ⟨target, htarget, rfl⟩ := h.map
  exact ⟨r, conditionAt_of_runsTo hcond, htarget⟩

/-- The parts of an arm. -/
theorem eventArmAt_of_runsTo {i : Input} {p q : Nat} {a : EventArm}
    (h : RunsTo i p pcReadEapEventArm q a) : EventArmAt i p q a := by
  obtain ⟨p₁, frame, hframe, h⟩ := runsTo_bind.mp h
  obtain ⟨p₂, remember, hremember, h⟩ := runsTo_bind.mp h
  obtain ⟨p₃, guards, hguards, h⟩ := runsTo_bind.mp h
  obtain ⟨otherwise, hotherwise, rfl⟩ := h.map
  exact ⟨p₁, p₂, p₃, hframe, slotsAt_of_runsTo rememberAt_of_runsTo hremember,
    slotsAt_of_runsTo guardedGotoAt_of_runsTo hguards, hotherwise⟩

/-- The time of a timeout stands in front. -/
theorem timeoutArmAt_of_runsTo {i : Input} {p q : Nat} {t : TimeoutArm}
    (h : RunsTo i p readTimeoutArm q t) : TimeoutArmAt i p q t := by
  refine ⟨h, ?_⟩
  obtain ⟨r, afterMs, hafter, h⟩ := runsTo_bind.mp h
  obtain ⟨_, _, _, h⟩ := runsTo_bind.mp h
  obtain ⟨_, _, _, h⟩ := runsTo_bind.mp h
  obtain ⟨_, _, rfl⟩ := h.map
  exact ⟨r, fieldAt_readVarint32 hafter⟩

/-- The kind of a state is told by its discriminant. -/
theorem stateAt_of_runsTo {i : Input} {p q : Nat} {s : State}
    (h : RunsTo i p pcReadEapState q s) : StateAt i p q s := by
  obtain ⟨r, name, hname, h⟩ := runsTo_bind.mp h
  obtain ⟨p₁, kind, hkind, h⟩ := runsTo_bind.mp h
  split at h
  · obtain ⟨_, outcome, houtcome, h⟩ := runsTo_bind.mp h
    split at h
    · obtain ⟨rfl, rfl⟩ := h.pure
      exact ⟨r, hname, p₁, fieldAt_of_runsTo hkind, fieldAt_of_runsTo houtcome⟩
    · obtain ⟨rfl, rfl⟩ := h.pure
      exact ⟨r, hname, p₁, fieldAt_of_runsTo hkind, fieldAt_of_runsTo houtcome⟩
    · exact absurd h not_runsTo_fail
  · obtain ⟨p₂, onEnter, henter, h⟩ := runsTo_bind.mp h
    obtain ⟨p₃, onEvent, hevent, h⟩ := runsTo_bind.mp h
    obtain ⟨onTimeout, htimeout, rfl⟩ := h.map
    exact ⟨r, hname, p₁, p₂, p₃, fieldAt_of_runsTo hkind,
      optionAt_of_runsTo writeAt_of_runsTo henter, slotsAt_of_runsTo eventArmAt_of_runsTo hevent,
      optionAt_of_runsTo timeoutArmAt_of_runsTo htimeout⟩
  · exact absurd h not_runsTo_fail

/-- The parts of what selects a frame. -/
theorem selectAt_of_runsTo {i : Input} {p q : Nat} {s : Select} (h : RunsTo i p readSelect q s) :
    SelectAt i p q s := by
  obtain ⟨r, offset, hoffset, h⟩ := runsTo_bind.mp h
  obtain ⟨bytes, hbytes, rfl⟩ := h.map
  exact ⟨r, fieldAt_readVarint16 hoffset, payloadAt_of_runsTo hbytes⟩

/-- The parts of a scalar. -/
theorem scalarReadAt_of_runsTo {i : Input} {p q : Nat} {f : ScalarRead}
    (h : RunsTo i p readScalarRead q f) : ScalarReadAt i p q f := by
  obtain ⟨r, _, hname, h⟩ := runsTo_bind.mp h
  obtain ⟨s, offset, hoffset, h⟩ := runsTo_bind.mp h
  obtain ⟨ty, hty, rfl⟩ := h.map
  exact ⟨r, s, hname, fieldAt_readVarint16 hoffset, fieldAt_readVarint8 hty⟩

/-- The parts of a span. -/
theorem spanReadAt_of_runsTo {i : Input} {p q : Nat} {f : SpanRead}
    (h : RunsTo i p readSpanRead q f) : SpanReadAt i p q f := by
  obtain ⟨r, _, hname, h⟩ := runsTo_bind.mp h
  obtain ⟨s, offset, hoffset, h⟩ := runsTo_bind.mp h
  obtain ⟨len, hlen, rfl⟩ := h.map
  exact ⟨r, s, hname, fieldAt_readVarint16 hoffset, optionAt_of_runsTo fieldAt_readVarint16 hlen⟩

/-- The parts of a frame. -/
theorem frameAt_of_runsTo {i : Input} {p q : Nat} {f : Frame} (h : RunsTo i p pcReadEapFrame q f) :
    FrameAt i p q f := by
  obtain ⟨p₁, _, hname, h⟩ := runsTo_bind.mp h
  obtain ⟨p₂, source, hsource, h⟩ := runsTo_bind.mp h
  obtain ⟨p₃, select, hselect, h⟩ := runsTo_bind.mp h
  obtain ⟨p₄, fields, hfields, h⟩ := runsTo_bind.mp h
  obtain ⟨spans, hspans, rfl⟩ := h.map
  exact ⟨p₁, p₂, p₃, p₄, hname, hsource, optionAt_of_runsTo selectAt_of_runsTo hselect,
    slotsAt_of_runsTo scalarReadAt_of_runsTo hfields,
    slotsAt_of_runsTo spanReadAt_of_runsTo hspans⟩

/-- The arrays of a protocol. -/
theorem protocolDefAt_of_runsTo {i : Input} {p q : Nat} {d : ProtocolDef}
    (h : RunsTo i p pcReadProtocolDef q d) : ProtocolDefAt i p q d := by
  obtain ⟨p₁, _, hname, h⟩ := runsTo_bind.mp h
  obtain ⟨p₂, sources, hsources, h⟩ := runsTo_bind.mp h
  obtain ⟨p₃, frames, hframes, h⟩ := runsTo_bind.mp h
  obtain ⟨p₄, session, hsession, h⟩ := runsTo_bind.mp h
  obtain ⟨states, hstates, rfl⟩ := h.map
  exact ⟨p₁, p₂, p₃, p₄, hname, slotsAt_of_runsTo id hsources,
    slotsAt_of_runsTo frameAt_of_runsTo hframes, slotsAt_of_runsTo id hsession,
    slotsAt_of_runsTo stateAt_of_runsTo hstates⟩

/-! ## The readers of studies -/

/-- An operation is told by its discriminant. -/
theorem gattOperationAt_of_runsTo {i : Input} {p q : Nat} {o : GattOperation}
    (h : RunsTo i p readGattOperation q o) : GattOperationAt i p q o := by
  obtain ⟨r, kind, hkind, h⟩ := runsTo_bind.mp h
  split at h
  · obtain ⟨rfl, rfl⟩ := h.pure
    exact fieldAt_of_runsTo hkind
  · obtain ⟨_, hpayload, rfl⟩ := h.map
    exact ⟨r, fieldAt_of_runsTo hkind, payloadAt_of_runsTo hpayload⟩
  · obtain ⟨_, htimeout, rfl⟩ := h.map
    exact ⟨r, fieldAt_of_runsTo hkind, fieldAt_readVarint32 htimeout⟩
  · obtain ⟨_, htimeout, rfl⟩ := h.map
    exact ⟨r, fieldAt_of_runsTo hkind, fieldAt_readVarint32 htimeout⟩
  · obtain ⟨rfl, rfl⟩ := h.pure
    exact fieldAt_of_runsTo hkind
  · obtain ⟨rfl, rfl⟩ := h.pure
    exact fieldAt_of_runsTo hkind
  · exact absurd h not_runsTo_fail

/-- The parts of an address. -/
theorem targetAddressAt_of_runsTo {i : Input} {p q : Nat} {t : TargetAddress}
    (h : RunsTo i p readTargetAddress q t) : TargetAddressAt i p q t := by
  obtain ⟨r, _, hroom, h⟩ := runsTo_bind.mp h
  obtain ⟨s, address, haddress, h⟩ := runsTo_bind.mp h
  obtain ⟨kind, hkind, rfl⟩ := h.map
  exact ⟨r, s, hroom, haddress, fieldAt_readVarint8 hkind⟩

/-- The targets stand behind their count. -/
theorem gattTargetsAt_of_runsTo {i : Input} {p q : Nat}
    {targets : Slots GattTarget dbmMaxMonitorTargets} (h : RunsTo i p readGattTargets q targets) :
    GattTargetsAt i p q targets := by
  refine ⟨h, ?_⟩
  obtain ⟨r, len, hlen, h⟩ := runsTo_bind.mp h
  by_cases hcap : len ≤ dbmMaxMonitorTargets
  · rw [dif_pos hcap] at h
    obtain ⟨_, _, _, h⟩ := runsTo_bind.mp h
    obtain ⟨items, _, rfl⟩ := h.map
    refine ⟨r, ?_⟩
    rw [items.2]
    exact fieldAt_of_runsTo hlen
  · rw [dif_neg hcap] at h
    exact absurd h not_runsTo_fail

/-- A level that was read is the number, and one of the levels. -/
theorem securityLevelAt_of_runsTo {i : Input} {p q : Nat} {level : UInt8}
    (h : RunsTo i p readSecurityLevel q level) :
    FieldAt 64 i p q level.toNat ∧ level.toNat ≤ dbmSecurityL4 := by
  obtain ⟨r, n, hn, h⟩ := runsTo_bind.mp h
  by_cases hlevel : n ≤ dbmSecurityL4
  · rw [if_pos hlevel] at h
    obtain ⟨rfl, rfl⟩ := h.pure
    have hbyte : (UInt8.ofNat n).toNat = n := toNat_ofNat_of_lt (hlevel.trans_lt (by decide))
    rw [hbyte]
    exact ⟨fieldAt_of_runsTo hn, hlevel⟩
  · rw [if_neg hlevel] at h
    exact absurd h not_runsTo_fail

/-- A known action has the tag it was read under. -/
theorem actionAt_of_runsTo {i : Input} {p q tag : Nat} {action : Action}
    (h : RunsTo i p (readAction tag) q (some action)) :
    action.tag = tag ∧ ActionAt i p q action := by
  unfold readAction at h
  split at h
  · obtain ⟨r, name, hname, h⟩ := runsTo_bind.mp h
    obtain ⟨s, _, huuids, h⟩ := runsTo_bind.mp h
    obtain ⟨interval, hinterval, haction⟩ := h.map
    cases haction
    exact ⟨rfl, r, s, hname, huuids, fieldAt_readVarint16 hinterval⟩
  · obtain ⟨r, role, hrole, h⟩ := runsTo_bind.mp h
    obtain ⟨s, target, htarget, h⟩ := runsTo_bind.mp h
    obtain ⟨name, hname, haction⟩ := h.map
    cases haction
    exact ⟨rfl, r, s, fieldAt_readVarint8 hrole,
      optionAt_of_runsTo targetAddressAt_of_runsTo htarget, hname⟩
  · obtain ⟨r, uuids, huuids, h⟩ := runsTo_bind.mp h
    obtain ⟨operation, hoperation, haction⟩ := h.map
    cases haction
    exact ⟨rfl, r, huuids, gattOperationAt_of_runsTo hoperation⟩
  · obtain ⟨rfl, haction⟩ := h.pure
    cases haction
    exact ⟨rfl, rfl⟩
  · obtain ⟨rfl, haction⟩ := h.pure
    cases haction
    exact ⟨rfl, rfl⟩
  · obtain ⟨rfl, haction⟩ := h.pure
    cases haction
    exact ⟨rfl, rfl⟩
  · obtain ⟨rfl, haction⟩ := h.pure
    cases haction
    exact ⟨rfl, rfl⟩
  · obtain ⟨level, hlevel, haction⟩ := h.map
    cases haction
    exact ⟨rfl, securityLevelAt_of_runsTo hlevel⟩
  · obtain ⟨rfl, haction⟩ := h.pure
    cases haction
    exact ⟨rfl, rfl⟩
  · obtain ⟨targets, htargets, haction⟩ := h.map
    cases haction
    exact ⟨rfl, gattTargetsAt_of_runsTo htargets⟩
  · obtain ⟨targets, htargets, haction⟩ := h.map
    cases haction
    exact ⟨rfl, gattTargetsAt_of_runsTo htargets⟩
  · obtain ⟨r, _, hroom, h⟩ := runsTo_bind.mp h
    obtain ⟨s, protocol, hprotocol, h⟩ := runsTo_bind.mp h
    obtain ⟨entry, hentry, haction⟩ := h.map
    cases haction
    exact ⟨rfl, r, s, hroom, hprotocol, hentry⟩
  · obtain ⟨-, haction⟩ := h.pure
    cases haction

/-- A step that was kept has an action that was read by its tag. -/
theorem stepAt_of_runsTo {i : Input} {p q : Nat} {s : Step} (h : RunsTo i p readStep q (some s)) :
    StepAt i p q s := by
  obtain ⟨p₁, name, hname, h⟩ := runsTo_bind.mp h
  obtain ⟨p₂, tag, htag, h⟩ := runsTo_bind.mp h
  obtain ⟨p₃, action, haction, h⟩ := runsTo_bind.mp h
  cases action with
  | none =>
    obtain ⟨-, hnone⟩ := h.pure
    cases hnone
  | some action =>
    obtain ⟨p₄, timeoutMs, htimeout, h⟩ := runsTo_bind.mp h
    obtain ⟨p₅, b, hb, h⟩ := runsTo_bind.mp h
    obtain ⟨delayBeforeMs, hdelay, hstep⟩ := h.map
    cases hstep
    obtain ⟨rfl, hfields⟩ := actionAt_of_runsTo haction
    exact ⟨p₁, p₂, p₃, p₄, p₅, b, hname, fieldAt_of_runsTo htag, hfields,
      fieldAt_readVarint32 htimeout, hb, by simp, fieldAt_readVarint32 hdelay⟩

/-- The loop keeps the steps before the first one it does not know. -/
theorem seqAt_of_readSteps {i : Input} : ∀ {count index p q : Nat}
    {r : {r : List Step × Bool // r.1.length ≤ count}}, RunsTo i p (readSteps index count) q r →
      ∃ s, SeqAt StepAt i p s r.1.1 ∧ (r.1.2 = false → s = q ∧ r.1.1.length = count) ∧
        (r.1.2 = true → r.1.1.length < count)
  | 0, _, p, _, _, h => by
    obtain ⟨rfl, rfl⟩ := h.pure
    exact ⟨p, .nil, fun _ => ⟨rfl, rfl⟩, nofun⟩
  | count + 1, _, p, _, _, h => by
    obtain ⟨_, step, hstep, h⟩ := runsTo_bind.mp h.record
    cases step with
    | none =>
      obtain ⟨-, rfl⟩ := h.pure
      exact ⟨p, .nil, nofun, fun _ => Nat.succ_pos count⟩
    | some step =>
      obtain ⟨rest, hrest, rfl⟩ := h.map
      obtain ⟨s, hseq, hall, hsome⟩ := seqAt_of_readSteps hrest
      refine ⟨s, .cons (stepAt_of_runsTo hstep) hseq, fun hflag => ?_, fun hflag => ?_⟩
      · obtain ⟨hs, hlen⟩ := hall hflag
        exact ⟨hs, congrArg Nat.succ hlen⟩
      · exact Nat.succ_lt_succ (hsome hflag)

/-- Behind what is sealed stands its checksum. -/
theorem sealedAt_of_readSeal {R : Placed α} {i : Input} {p r s q start : Nat} {xs : List α}
    {crc : UInt32 × Bool} (hlen : FieldAt 64 i p r xs.length) (hxs : SeqAt R i r s xs)
    (h : RunsTo i s (readSeal start) q crc) : SealedAt R i p q (xs, crc.1) := by
  obtain ⟨t, v, hv, h⟩ := runsTo_bind.mp h.position
  obtain ⟨bytes, hbytes, rfl⟩ := h.map
  obtain ⟨ht, -⟩ := hbytes.unique ⟨_, rfl⟩
  rw [ht]
  exact ⟨r, s, hlen, hxs, fieldAt_readVarint32 hv⟩

/-- So it does behind the taps. -/
theorem sealedAt_of_readStreams {i : Input} {p q : Nat}
    {r : Slots StreamTap dbmMaxStreamsPerStudy × UInt32 × Bool}
    (h : RunsTo i p readStreams q r) : SealedAt StreamTapAt i p q (r.1.items, r.2.1) := by
  obtain ⟨start, len, hlen, h⟩ := runsTo_bind.mp h
  by_cases hcap : len ≤ dbmMaxStreamsPerStudy
  · rw [dif_pos hcap] at h
    obtain ⟨stop, streams, hstreams, h⟩ := runsTo_bind.mp h.position
    obtain ⟨crc, hcrc, rfl⟩ := h.map
    refine sealedAt_of_readSeal ?_ (seqAt_of_fill streamTapAt_of_runsTo hstreams) hcrc
    rw [streams.2]
    exact fieldAt_of_runsTo hlen
  · rw [dif_neg hcap] at h
    exact absurd h not_runsTo_fail

/-- And behind the protocols. -/
theorem sealedAt_of_readProtocols {i : Input} {p q : Nat}
    {r : Slots ProtocolDef dbmMaxProtocolsPerStudy × UInt32 × Bool}
    (h : RunsTo i p readProtocols q r) : SealedAt ProtocolDefAt i p q (r.1.items, r.2.1) := by
  obtain ⟨start, len, hlen, h⟩ := runsTo_bind.mp h
  by_cases hcap : len ≤ dbmMaxProtocolsPerStudy
  · rw [dif_pos hcap] at h
    obtain ⟨stop, protocols, hprotocols, h⟩ := runsTo_bind.mp h.position
    have h := h.position.buffer
    split at h
    · exact absurd h not_runsTo_fail
    · obtain ⟨crc, hcrc, rfl⟩ := h.map
      refine sealedAt_of_readSeal ?_ (seqAt_of_fill protocolDefAt_of_runsTo hprotocols) hcrc
      rw [protocols.2]
      exact fieldAt_of_runsTo hlen
  · rw [dif_neg hcap] at h
    exact absurd h not_runsTo_fail

/-- The clamped level fits its byte. -/
theorem logLevelAt_of_runsTo {i : Input} {p q n : Nat} (h : RunsTo i p pcReadVarint q n) :
    LogLevelAt i p q (UInt8.ofNat (min n dbmLogLevelDbg)) := by
  obtain ⟨v, hv, hn⟩ := fieldAt_of_runsTo h
  refine ⟨v, hv, fun hlt => ?_⟩
  rw [hn hlt, toNat_ofNat_of_lt ((Nat.min_le_right v dbmLogLevelDbg).trans_lt (by decide))]

/-- The parts of a study stand in the order they are read in. -/
theorem studyStartAt_of_runsTo {i : Input} {p q : Nat} {m : StudyStart}
    (h : RunsTo i p readStudyStart q m) : StudyStartAt i p q m := by
  obtain ⟨start, count, hcount, h⟩ := runsTo_bind.mp h
  by_cases hcap : count ≤ dbmMaxStepsPerStudy
  · rw [dif_pos hcap] at h
    obtain ⟨stop, steps, hsteps, h⟩ := runsTo_bind.mp h.position
    obtain ⟨s, hseq, hall, hsome⟩ := seqAt_of_readSteps hsteps
    cases hflag : steps.1.2 with
    | true =>
      rw [hflag] at h
      obtain ⟨-, rfl⟩ := h.pure
      exact ⟨start, s, count, fieldAt_of_runsTo hcount, hseq, hsome hflag, rfl, rfl⟩
    | false =>
      rw [hflag] at h
      obtain ⟨rfl, hlen⟩ := hall hflag
      obtain ⟨p₁, crc, hcrc, h⟩ := runsTo_bind.mp h
      obtain ⟨p₂, streams, hstreams, h⟩ := runsTo_bind.mp h
      obtain ⟨p₃, level, hlevel, h⟩ := runsTo_bind.mp h
      obtain ⟨protocols, hprotocols, rfl⟩ := h.map
      refine ⟨p₁, p₂, p₃, sealedAt_of_readSeal ?_ hseq hcrc, sealedAt_of_readStreams hstreams,
        logLevelAt_of_runsTo hlevel, sealedAt_of_readProtocols hprotocols⟩
      rw [hlen]
      exact fieldAt_of_runsTo hcount
  · rw [dif_neg hcap] at h
    exact absurd h not_runsTo_fail

/-- So do those of a hello. -/
theorem helloAt_of_runsTo {i : Input} {p q : Nat} {m : Hello} (h : RunsTo i p readHello q m) :
    HelloAt i p q m := by
  obtain ⟨r, schema, hschema, h⟩ := runsTo_bind.mp h
  obtain ⟨utc, hutc, rfl⟩ := h.map
  exact ⟨r, fieldAt_readVarint32 hschema, fieldAt_readVarint64 hutc⟩

/-- Every field kept of an accepted Hello or StudyStart is the number that stands for
it, if that fits; a tested one is declared whatever stands there, and a log level is
clamped. -/
theorem receivedAt_of_decodeBody {i : Input} {m : Message}
    (h : (decodeBody i 0).value = some m) : ReceivedAt i m := by
  obtain ⟨p, tag, htag, h⟩ := runsTo_bind.mp (runsTo_of_value h)
  have hcode : FieldAt 32 i 0 p (tag % 2 ^ 32) := (fieldAt_of_runsTo htag).cast (by decide)
  split at h
  · next hzero =>
    rw [hzero] at hcode
    obtain ⟨_, hhello, rfl⟩ := h.map
    exact ⟨p, _, hcode, helloAt_of_runsTo hhello⟩
  · obtain ⟨_, _, rfl⟩ := h.map
    trivial
  · obtain ⟨_, _, rfl⟩ := h.map
    trivial
  · next hsix =>
    rw [hsix] at hcode
    obtain ⟨_, hstudy, rfl⟩ := h.map
    exact ⟨p, _, hcode, studyStartAt_of_runsTo hstudy⟩
  · obtain ⟨_, _, rfl⟩ := h.map
    trivial
  · obtain ⟨_, _, rfl⟩ := h.map
    trivial
  · exact absurd h not_runsTo_fail

/-- A greeting of schema 2 ^ 32 + 25. -/
def wideHelloBody : Input :=
  { width32 with
    bytes := [0, 0x99, 0x80, 0x80, 0x80, 0x10, 0]
    fits := by decide }

/-- A study without steps that asks for log level 7. -/
def loudBody : Input :=
  { width32 with
    bytes := [6, 0, 0, 0, 0, 7, 0, 0]
    fits := by decide }

/-- Log level 7 is kept as 4, by design; schema 2 ^ 32 + 25 is kept as 25. -/
theorem decodeBody_narrows :
    VarintAt loudBody 5 6 7 ∧
    (∃ m, (decodeBody loudBody 0).value = some (.studyStart m) ∧ m.devBenchLogLevel = 4) ∧
    VarintAt wideHelloBody 1 6 (2 ^ 32 + 25) ∧
    (decodeBody wideHelloBody 0).value = some (.hello ⟨25, 0⟩) := by
  have hlevel : Leb128.Encodes [7] 7 := .last (show (7 : UInt8).toNat < 128 by decide)
  have hschema : Leb128.Encodes [0x99, 0x80, 0x80, 0x80, 0x10] (2 ^ 32 + 25) :=
    .more (by decide) (.more (by decide) (.more (by decide) (.more (by decide)
      (.last (by decide)))))
  refine ⟨⟨[6, 0, 0, 0, 0], [7], [0, 0], rfl, rfl, rfl, hlevel⟩, ?_,
    ⟨[0], [0x99, 0x80, 0x80, 0x80, 0x10], [0], rfl, rfl, rfl, hschema⟩, by decide +kernel⟩
  refine ⟨⟨.empty, 0, true, .empty, 0, true, false, 4, .empty, 0, true⟩, ?_, rfl⟩
  decide +kernel

/-- The level of that study is the clamped one. -/
theorem receivedAt_loudBody :
    ReceivedAt loudBody (.studyStart ⟨.empty, 0, true, .empty, 0, true, false, 4, .empty, 0,
      true⟩) :=
  receivedAt_of_decodeBody (by decide +kernel)

end DevBench.Wire
