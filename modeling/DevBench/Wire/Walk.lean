import DevBench.Wire.Grammar

/-!
# The decoder on the grammar

For each declaration of the wire grammar, the reader that stands for it in the
decoder consumes exactly its bytes and returns what the bench keeps of it. One
lemma for each production, composed field by field; the seals are checked by a
look back over the elements just read.
-/

namespace DevBench.Wire

open DevBench.Core DevBench.Core.Reader DevBench.Eap

/-! ## Scalars -/

/-- A folded number fits sixty-four bits. -/
theorem zigzag_lt (value : Int64) : zigzag value < 2 ^ 64 := by
  have hlo := value.le_toInt
  have hhi := value.toInt_lt
  unfold zigzag
  split <;> omega

/-- Halving a zigzag number, and the bit shifted out of it. -/
private theorem shiftRight_one_ofNat {n bit : Nat} (hn : n < 2 ^ 63) (hbit : bit < 2) :
    UInt64.ofNat (2 * n + bit) >>> 1 = UInt64.ofNat n ∧
      UInt64.ofNat (2 * n + bit) &&& 1 = UInt64.ofNat bit := by
  have hraw : (UInt64.ofNat (2 * n + bit)).toNat = 2 * n + bit :=
    UInt64.toNat_ofNat_of_lt' (by simp only [UInt64.size]; omega)
  constructor
  · apply UInt64.toNat_inj.mp
    rw [UInt64.toNat_shiftRight, hraw,
      UInt64.toNat_ofNat_of_lt' (by simp only [UInt64.size]; omega)]
    simp only [UInt64.reduceToNat, Nat.reduceMod, Nat.shiftRight_eq_div_pow, Nat.pow_one]
    omega
  · apply UInt64.toNat_inj.mp
    rw [UInt64.toNat_and, hraw, UInt64.toNat_ofNat_of_lt' (by simp only [UInt64.size]; omega)]
    simp only [UInt64.reduceToNat, Nat.and_one_is_mod]
    omega

/-- The decoder's shift and exclusive or undo the numbering by magnitude. -/
theorem unzigzag_zigzag (value : Int64) : unzigzag (UInt64.ofNat (zigzag value)) = value := by
  have hlo := value.le_toInt
  have hhi := value.toInt_lt
  unfold zigzag unzigzag
  apply Int64.toInt_inj.mp
  split
  · next h =>
    obtain ⟨hs, hb⟩ := @shiftRight_one_ofNat value.toInt.toNat 0 (by omega) (by omega)
    have hmask : (-(UInt64.ofNat 0).toInt64 : Int64) = 0 := by decide
    rw [Nat.add_zero] at hs hb
    rw [hs, hb, hmask, Int64.xor_zero]
    show (Int64.ofNat value.toInt.toNat).toInt = _
    rw [Int64.toInt_ofNat_of_lt (by omega)]
    omega
  · next h =>
    obtain ⟨hs, hb⟩ := @shiftRight_one_ofNat (-value.toInt - 1).toNat 1 (by omega) (by omega)
    have hmask : (-(UInt64.ofNat 1).toInt64 : Int64) = -1 := by decide
    rw [hs, hb, hmask, Int64.xor_neg_one, Int64.toInt_not]
    show (-(Int64.ofNat (-value.toInt - 1).toNat).toInt - 1).bmod (2 ^ 64) = _
    rw [Int64.toInt_ofNat_of_lt (by omega), Int.bmod_eq_of_le (by omega) (by omega)]
    omega

/-- A signed number is unfolded. -/
theorem reads_pcReadZigzag (value : Int64) :
    Reads (pcWriteVarint (zigzag value)) pcReadZigzag value := by
  have h := (reads_pcReadVarint (zigzag_lt value)).map fun raw => unzigzag (UInt64.ofNat raw)
  rwa [unzigzag_zigzag] at h

/-- A number that fits eight bits is kept by the cast. -/
theorem reads_readVarint8 (v : UInt8) : Reads (pcWriteVarint v.toNat) readVarint8 v := by
  have hv : v.toNat < 2 ^ 64 := by have := v.toNat_lt; omega
  have h := (reads_pcReadVarint hv).map UInt8.ofNat
  rwa [UInt8.ofNat_toNat] at h

/-- The same for sixteen bits. -/
theorem reads_readVarint16 (v : UInt16) : Reads (pcWriteVarint v.toNat) readVarint16 v := by
  have hv : v.toNat < 2 ^ 64 := by have := v.toNat_lt; omega
  have h := (reads_pcReadVarint hv).map UInt16.ofNat
  rwa [UInt16.ofNat_toNat] at h

/-- The same for thirty-two bits. -/
theorem reads_readVarint32 (v : UInt32) : Reads (pcWriteVarint v.toNat) readVarint32 v := by
  have hv : v.toNat < 2 ^ 64 := by have := v.toNat_lt; omega
  have h := (reads_pcReadVarint hv).map UInt32.ofNat
  rwa [UInt32.ofNat_toNat] at h

/-- The same for sixty-four bits. -/
theorem reads_readVarint64 (v : UInt64) : Reads (pcWriteVarint v.toNat) readVarint64 v := by
  have h := (reads_pcReadVarint v.toNat_lt).map UInt64.ofNat
  rwa [UInt64.ofNat_toNat] at h

/-- A discriminant is below 128. -/
private theorem reads_code (n : Fin 128) : Reads (pcWriteVarint n) pcReadVarint n.val :=
  reads_pcReadVarint (by omega)

/-- A variant without fields is its discriminant. -/
private theorem reads_unit {α : Type} {f : Nat → Reader α} {a : α} (n : Fin 128)
    (hf : f n = pure a) : Reads (pcWriteVarint n) (pcReadVarint >>= f) a := by
  have h' : Reads (pcWriteVarint n ++ []) (pcReadVarint >>= f) a :=
    (reads_code n).bind (by rw [hf]; exact reads_pure a)
  rwa [List.append_nil] at h'

/-- A flag is the byte that is not zero. -/
theorem boolByte_ne_zero (b : Bool) : (decide (boolByte b ≠ 0)) = b := by cases b <;> rfl

/-- A value or none, as the byte in front of it says. -/
theorem reads_pcReadOption {α γ : Type} {m : Reader α} {enc : γ → List UInt8} {dec : γ → α}
    (o : Option γ) (h : ∀ x ∈ o, Reads (enc x) m (dec x)) :
    Reads (optionBytes enc o) (pcReadOption m) (o.map dec) := by
  cases o with
  | none => exact reads_pcReadOption_none m
  | some x => exact reads_pcReadOption_some (h x rfl)

/-- An optional field the reader returns as it was declared. -/
theorem reads_pcReadOption_self {α : Type} {m : Reader α} {enc : α → List UInt8} (o : Option α)
    (h : ∀ x ∈ o, Reads (enc x) m x) : Reads (optionBytes enc o) (pcReadOption m) o := by
  have h' : Reads (optionBytes enc o) (pcReadOption m) (o.map id) := reads_pcReadOption o h
  rwa [Option.map_id] at h'

/-- A counted sequence the reader returns as it was declared. -/
theorem reads_pcReadSlots_self {α : Type} {capacity : Nat} {m : Reader α}
    {enc : α → List UInt8} (xs : Slots α capacity) (hcap : capacity < 2 ^ 64)
    (h : ∀ x ∈ xs.items, Reads (enc x) m x) :
    Reads (seqBytes enc xs.items) (pcReadSlots capacity m) xs := by
  have h' : Reads (seqBytes enc xs.items) (pcReadSlots capacity m) (xs.map id) :=
    reads_pcReadSlots xs hcap h
  have hid : xs.map id = xs := Slots.ext (List.map_id _)
  rwa [hid] at h'

/-- A name is stepped over, however long it is. -/
theorem reads_pcSkipLenPrefixed_name (name : List UInt8) :
    Reads (pcWriteBytes name) (pcSkipLenPrefixed 1) () := by
  apply Reads.of_length
  intro hlen
  rw [pcWriteBytes, List.length_append] at hlen
  exact reads_pcSkipLenPrefixed (by omega) (by decide) (Nat.mul_one _).symm

/-- A named declaration is read as the declaration alone. -/
theorem reads_named {α γ : Type} {enc : γ → List UInt8} {m : Reader α} {a : α} (d : Named γ)
    (h : Reads (enc d.decl) m a) : Reads (d.bytes enc) (pcSkipLenPrefixed 1 >>= fun _ => m) a :=
  (reads_pcSkipLenPrefixed_name d.name).bind h

/-- A string that fits its array is kept whole. -/
theorem reads_pcReadStr_charArray {capacity : Nat} (s : CharArray capacity)
    (hcap : capacity < 2 ^ 64) : Reads (pcWriteBytes s.bytes) (pcReadStr capacity) s :=
  reads_pcReadStr s.fits hcap

/-- So is a payload. -/
theorem reads_readPayload {capacity : Nat} (p : Slots UInt8 capacity) (hcap : capacity < 2 ^ 64) :
    Reads (pcWriteBytes p.items) (readPayload capacity) p := by
  refine (reads_pcReadVarint (p.fits.trans_lt hcap)).bind ?_
  rw [dif_pos p.fits]
  apply Reads.requireWide _ (Nat.le_refl _)
  apply Reads.copy
  exact (reads_skip p.items).map _

/-! ## Stream taps -/

/-- Of a source its tag and characteristic are kept. -/
theorem reads_readStreamSource (s : SourceDecl) : Reads s.bytes readStreamSource s.kept := by
  cases s with
  | gattNotify service characteristic =>
    refine (reads_code 0).bind ?_
    apply Reads.require _ (by simp)
    have hskip : Reads (service.toList ++ characteristic.toList)
        (skip 32 >>= fun _ => pure (StreamSourceTag.gattNotify, characteristic))
        (.gattNotify, characteristic) := by
      have h := (reads_skip (service.toList ++ characteristic.toList)).map fun _ =>
        (StreamSourceTag.gattNotify, characteristic)
      rwa [List.length_append, Vector.length_toList, Vector.length_toList] at h
    have hcopy : Reads (service.toList ++ characteristic.toList ++ [])
        (copyAhead service.toList.length 16 0 16 >>= fun c =>
          skip 32 >>= fun _ => pure (StreamSourceTag.gattNotify, c))
        (.gattNotify, characteristic) := Reads.copyAhead characteristic (by simpa using hskip)
    rwa [List.append_nil, Vector.length_toList] at hcopy
  | powerFrontEnd sampleHz =>
    have hv : sampleHz.toNat < 2 ^ 64 := by have := sampleHz.toNat_lt; omega
    exact (reads_code 1).bind ((reads_pcReadVarint hv).map _)
  | gattTranscript => exact reads_unit 2 rfl
  | devBenchLog => exact reads_unit 3 rfl
  | signal name => exact (reads_code 4).bind ((reads_pcSkipLenPrefixed_name name).map _)

/-- An encoding is walked to its end. -/
theorem reads_skipStreamEncoding (e : EncodingDecl) : Reads e.bytes skipStreamEncoding () := by
  cases e with
  | raw => exact reads_unit 0 rfl
  | text => exact reads_unit 1 rfl
  | samples layout unit channelId =>
    have hl : layout.toNat < 2 ^ 64 := by have := layout.toNat_lt; omega
    have hu : unit.toNat < 2 ^ 64 := by have := unit.toNat_lt; omega
    exact (reads_code 2).bind ((reads_pcReadVarint hl).bind
      ((reads_pcReadVarint hu).bind ((reads_byte channelId).map _)))
  | gattTranscript => exact reads_unit 3 rfl
  | outpostTrace => exact reads_unit 4 rfl
  | struct decoder => exact (reads_code 5).bind ((reads_byte decoder).map _)

/-- A scope is kept whole. -/
theorem reads_readStreamScope (s : StreamScope) : Reads s.bytes readStreamScope s := by
  cases s with
  | wholeStudy => exact reads_unit 0 rfl
  | steps scopeFrom scopeTo =>
    exact (reads_code 1).bind ((reads_readVarint32 scopeFrom).bind
      ((reads_readVarint32 scopeTo).map _))

/-- A tap, without its name and encoding. -/
theorem reads_pcReadStreamTap (t : TapDecl) : Reads t.bytes pcReadStreamTap t.kept :=
  Reads.byte_cons ((reads_pcSkipLenPrefixed_name t.name).bind
    ((reads_readStreamSource t.source).bind ((reads_skipStreamEncoding t.encoding).bind
      ((reads_readStreamScope t.scope).map _))))

/-! ## Protocol manifests -/

/-- An operand is kept whole. -/
theorem reads_pcReadEapOperand (o : Operand) : Reads o.bytes pcReadEapOperand o := by
  cases o with
  | literal value => exact (reads_code 0).bind ((reads_pcReadZigzag value).map _)
  | field index => exact (reads_code 1).bind ((reads_byte index).map _)
  | session index => exact (reads_code 2).bind ((reads_byte index).map _)
  | spanLen index => exact (reads_code 3).bind ((reads_byte index).map _)

/-- So is an expression. -/
theorem reads_pcReadEapExpr (e : Expr) : Reads e.bytes pcReadEapExpr e := by
  cases e with
  | term a => exact (reads_code 0).bind ((reads_pcReadEapOperand a).map _)
  | add a b =>
    exact (reads_code 1).bind ((reads_pcReadEapOperand a).bind
      ((reads_pcReadEapOperand b).map _))

/-- A comparison is told by its code. -/
theorem compareOp_code (op : CompareOp) : compareOp op.code = some op := by cases op <;> rfl

/-- A condition, operand by operand. -/
theorem reads_pcReadEapCondition (c : Condition) : Reads c.bytes pcReadEapCondition c := by
  have hcode : c.op.code < 128 := by cases c.op <;> decide
  refine (reads_pcReadEapOperand c.lhs).bind ((reads_code ⟨_, hcode⟩).bind ?_)
  rw [compareOp_code]
  exact (reads_pcReadEapOperand c.rhs).map _

/-- An assignment to a session variable. -/
theorem reads_readRemember (r : Remember) : Reads r.bytes readRemember r :=
  Reads.byte_cons ((reads_pcReadEapExpr r.value).map _)

/-- A guard with its target. -/
theorem reads_readGuardedGoto (g : GuardedGoto) : Reads g.bytes readGuardedGoto g :=
  (reads_pcReadEapCondition g.cond).bind ((reads_byte g.gotoState).map _)

/-- An arm with all its guards. -/
theorem reads_pcReadEapEventArm (a : EventArm) : Reads a.bytes pcReadEapEventArm a :=
  Reads.byte_cons
    ((reads_pcReadSlots_self a.remember (by decide) fun r _ => reads_readRemember r).bind
      ((reads_pcReadSlots_self a.guards (by decide) fun g _ => reads_readGuardedGoto g).bind
        ((reads_pcReadOption_self a.otherwise fun s _ => reads_byte s).map _)))

/-- A field of a write. -/
theorem reads_readWriteField (f : WriteField) : Reads f.bytes readWriteField f :=
  (reads_readVarint8 f.ty).bind ((reads_pcReadEapOperand f.value).map _)

/-- A write with all its fields. -/
theorem reads_pcReadEapWrite (w : Write) : Reads w.bytes pcReadEapWrite w := by
  refine Reads.byte_cons
    ((reads_pcReadSlots_self w.fields (by decide) fun f _ => reads_readWriteField f).bind ?_)
  have h := (reads_byte (boolByte w.withResponse)).map fun b =>
    (⟨w.source, w.fields, b ≠ 0⟩ : Write)
  rwa [boolByte_ne_zero] at h

/-- A timeout with its retries. -/
theorem reads_readTimeoutArm (t : TimeoutArm) : Reads t.bytes readTimeoutArm t := by
  refine (reads_readVarint32 t.afterMs).bind (Reads.require ?_ (by simp))
  exact (reads_next t.retry).bind ((reads_next t.gotoState).map _)

/-- A state, whose kind says what follows its name. -/
theorem reads_pcReadEapState (s : State) : Reads s.bytes pcReadEapState s := by
  obtain ⟨name, kind⟩ := s
  refine (reads_pcReadStr_charArray name (by decide)).bind ?_
  cases kind with
  | active onEnter onEvent onTimeout =>
    exact (reads_code 0).bind
      ((reads_pcReadOption_self onEnter fun w _ => reads_pcReadEapWrite w).bind
        ((reads_pcReadSlots_self onEvent (by decide) fun a _ => reads_pcReadEapEventArm a).bind
          ((reads_pcReadOption_self onTimeout fun t _ => reads_readTimeoutArm t).map _)))
  | terminal outcome =>
    refine (reads_code 1).bind ?_
    cases outcome with
    | pass => exact reads_unit 0 rfl
    | fail => exact reads_unit 1 rfl

/-- What selects a frame. -/
theorem reads_readSelect (s : Select) : Reads s.bytes readSelect s :=
  (reads_readVarint16 s.offset).bind ((reads_readPayload s.eq (by decide)).map _)

/-- A scalar of a frame, without its name. -/
theorem reads_readScalarRead (r : Named ScalarRead) :
    Reads (r.bytes ScalarRead.bytes) readScalarRead r.decl :=
  reads_named r ((reads_readVarint16 r.decl.offset).bind ((reads_readVarint8 r.decl.ty).map _))

/-- A span of a frame, without its name. -/
theorem reads_readSpanRead (r : Named SpanRead) :
    Reads (r.bytes SpanRead.bytes) readSpanRead r.decl :=
  reads_named r ((reads_readVarint16 r.decl.offset).bind
    ((reads_pcReadOption_self r.decl.len fun n _ => reads_readVarint16 n).map _))

/-- A frame, without its name. -/
theorem reads_pcReadEapFrame (f : Named FrameDecl) :
    Reads (f.bytes FrameDecl.bytes) pcReadEapFrame f.decl.kept :=
  reads_named f (Reads.byte_cons
    ((reads_pcReadOption_self f.decl.select fun s _ => reads_readSelect s).bind
      ((reads_pcReadSlots f.decl.fields (by decide) fun r _ => reads_readScalarRead r).bind
        ((reads_pcReadSlots f.decl.spans (by decide) fun r _ => reads_readSpanRead r).map _))))

/-- A source, without its name. -/
theorem reads_readSource (s : Named Source) : Reads (s.bytes Source.bytes) readSource s.decl :=
  reads_named s ((reads_pcReadUuidPair s.decl.serviceUuid s.decl.characteristicUuid).map _)

/-- The value a session variable starts with, without its name. -/
theorem reads_readSessionInitial (v : Named Int64) :
    Reads (v.bytes fun v : Int64 => pcWriteVarint (zigzag v)) readSessionInitial v.decl :=
  reads_named v (reads_pcReadZigzag v.decl)

/-- A protocol, without the names the firmware has no use for. -/
theorem reads_pcReadProtocolDef (p : Named ProtocolDecl) :
    Reads (p.bytes ProtocolDecl.bytes) pcReadProtocolDef p.decl.kept :=
  reads_named p
    ((reads_pcReadSlots p.decl.sources (by decide) fun s _ => reads_readSource s).bind
      ((reads_pcReadSlots p.decl.frames (by decide) fun f _ => reads_pcReadEapFrame f).bind
        ((reads_pcReadSlots p.decl.session (by decide) fun v _ => reads_readSessionInitial v).bind
          ((reads_pcReadSlots_self p.decl.states (by decide) fun s _ =>
            reads_pcReadEapState s).map _))))

/-! ## Steps -/

/-- An operation with what it carries. -/
theorem reads_readGattOperation (o : GattOperation) : Reads o.bytes readGattOperation o := by
  cases o with
  | read => exact reads_unit 0 rfl
  | write payload =>
    exact (reads_code 1).bind ((reads_readPayload payload (by decide)).map _)
  | notify timeoutMs => exact (reads_code 2).bind ((reads_readVarint32 timeoutMs).map _)
  | indicate timeoutMs =>
    exact (reads_code 3).bind ((reads_readVarint32 timeoutMs).map _)
  | subscribe => exact reads_unit 4 rfl
  | streamCapture => exact reads_unit 5 rfl

/-- An address with its kind. -/
theorem reads_readTargetAddress (t : TargetAddress) : Reads t.bytes readTargetAddress t := by
  apply Reads.require _ (by simp [TargetAddress.bytes])
  exact (reads_take t.address).bind ((reads_readVarint8 t.kind).map _)

/-- A service and a characteristic. -/
theorem reads_readGattTarget (t : GattTarget) : Reads t.bytes readGattTarget t :=
  (reads_take t.serviceUuid).bind ((reads_take t.characteristicUuid).map _)

/-- Elements of one size take that many bytes each. -/
theorem length_flatMap_of_forall {α β : Type} {enc : α → List β} {n : Nat} (xs : List α)
    (h : ∀ x, (enc x).length = n) : (xs.flatMap enc).length = xs.length * n := by
  induction xs with
  | nil => exact (Nat.zero_mul n).symm
  | cons x xs ih =>
    rw [List.flatMap_cons, List.length_append, h x, ih, List.length_cons, Nat.succ_mul,
      Nat.add_comm]

/-- As many as are counted. -/
theorem reads_readGattTargets (ts : Slots GattTarget dbmMaxMonitorTargets) :
    Reads (seqBytes GattTarget.bytes ts.items) readGattTargets ts := by
  refine (reads_pcReadVarint (ts.fits.trans_lt (by decide))).bind ?_
  rw [dif_pos ts.fits]
  have hlen : (ts.items.flatMap GattTarget.bytes).length = ts.items.length * 32 :=
    length_flatMap_of_forall ts.items fun t => by simp [GattTarget.bytes]
  apply Reads.require _ (Nat.le_of_eq hlen.symm)
  have h := (reads_fill dbmMaxMonitorTargets ts.items 0 fun t _ => reads_readGattTarget t).map
    fun xs => (⟨xs.1, by rw [xs.2]; exact ts.fits⟩ : Slots GattTarget dbmMaxMonitorTargets)
  simp only [List.map_id'] at h
  exact h

/-- A level that exists. -/
theorem reads_readSecurityLevel {level : UInt8} (h : level.toNat ≤ dbmSecurityL4) :
    Reads (pcWriteVarint level.toNat) readSecurityLevel level := by
  have hlt : level.toNat < 128 := by have : level.toNat ≤ 3 := h; omega
  exact reads_unit ⟨_, hlt⟩ (by rw [if_pos h, UInt8.ofNat_toNat])

/-- The service UUIDs are stepped over, sixteen bytes for each one counted. -/
theorem reads_pcSkipLenPrefixed_uuids (uuids : List Uuid) :
    Reads (seqBytes Vector.toList uuids) (pcSkipLenPrefixed 16) () := by
  have hlen : (uuids.flatMap Vector.toList).length = uuids.length * 16 :=
    length_flatMap_of_forall uuids fun u => u.length_toList
  apply Reads.of_length
  intro hfits
  rw [seqBytes, List.length_append, hlen] at hfits
  exact reads_pcSkipLenPrefixed (by omega) (by decide) hlen

/-- One case for each of the twelve actions. -/
theorem reads_readAction (uuids : List Uuid) {a : Action} (h : a.Declared) :
    Reads (a.fields uuids) (readAction a.tag) (some a) := by
  have hname : ∀ s : Option (CharArray (dbmMaxLocalNameLen + 1)),
      Reads (optionBytes (fun s => pcWriteBytes s.bytes) s)
        (pcReadOption (pcReadStr (dbmMaxLocalNameLen + 1))) s := fun s =>
    reads_pcReadOption_self s fun n _ => reads_pcReadStr_charArray n (by decide)
  cases a with
  | bleAdvertise localName advIntervalMs =>
    exact (hname localName).bind ((reads_pcSkipLenPrefixed_uuids uuids).bind
      ((reads_readVarint16 advIntervalMs).map _))
  | bleConnect role target targetName =>
    exact (reads_readVarint8 role).bind
      ((reads_pcReadOption_self target fun t _ => reads_readTargetAddress t).bind
        ((hname targetName).map _))
  | dataExchange service characteristic operation =>
    exact (reads_pcReadUuidPair service characteristic).bind
      ((reads_readGattOperation operation).map _)
  | gattDiscover => exact reads_pure _
  | gattMonitorAll => exact reads_pure _
  | gattMonitorStart => exact reads_pure _
  | gattMonitorStop => exact reads_pure _
  | bleSecurity level => exact (reads_readSecurityLevel h).map _
  | bleUnbond => exact reads_pure _
  | gattMonitorSelected targets => exact (reads_readGattTargets targets).map _
  | gattMonitorSelectedStart targets => exact (reads_readGattTargets targets).map _
  | runProtocol protocol entryState =>
    apply Reads.require _ (by simp [Action.fields])
    exact (reads_next protocol).bind ((reads_next entryState).map _)

/-- A step whose action the firmware has. -/
theorem reads_readStep {d : StepDecl} (h : d.step.action.Declared) :
    Reads d.bytes readStep (some d.step) := by
  have htag : d.step.action.tag < 128 := by cases d.step.action <;> simp [Action.tag]
  refine (reads_pcReadStr_charArray d.step.name (by decide)).bind ((reads_code ⟨_, htag⟩).bind
    ((reads_readAction d.serviceUuids h).bind
      ((reads_readVarint32 d.step.timeoutMs).bind (Reads.byte_cons ?_))))
  simp only [boolByte_ne_zero]
  exact (reads_readVarint32 d.step.delayBeforeMs).map _

/-- A list of declared steps is read to its end. -/
theorem reads_readSteps : ∀ (ds : List StepDecl) (index : Nat),
    (∀ d ∈ ds, d.step.action.Declared) →
    Reads (ds.flatMap StepDecl.bytes) (readSteps index ds.length)
      ⟨(ds.map StepDecl.step, false), Nat.le_of_eq (List.length_map _)⟩
  | [], _, _ => reads_pure _
  | d :: ds, index, h => by
      have hd := reads_readStep (h d List.mem_cons_self)
      have hds := reads_readSteps ds (index + 1) fun e he => h e (List.mem_cons_of_mem _ he)
      rw [List.flatMap_cons]
      exact Reads.bind_nil (reads_record _) (hd.bind (hds.map _))

/-! ## Seals and studies -/

/-- A seal is held against the bytes between the index noted and its own. -/
theorem readsSince_readSeal (bs : List UInt8) (crc : UInt32) :
    ReadsSince bs (pcWriteVarint crc.toNat) readSeal (crc, dbmCrc32 bs == crc) := by
  intro i pre post hi
  have hcrc := reads_readVarint32 crc i (pre ++ bs) post hi
  have hspan : ∀ p, RunsTo i p (spanned pre.length (pre.length + bs.length)) p bs :=
    runsTo_spanned (by simpa using hi : i.bytes = pre ++ bs ++ (pcWriteVarint crc.toNat ++ post))
  rw [List.length_append] at hcrc
  exact (runsTo_position i _).bind (hcrc.bind ((hspan _).bind (runsTo_pure i _ _)))

/-- The seal is held against the checksum of the taps as they stand in the body. -/
theorem reads_readStreams (ts : Slots TapDecl dbmMaxStreamsPerStudy) (crc : UInt32) :
    Reads (pcWriteVarint ts.items.length ++ (ts.items.flatMap TapDecl.bytes ++
        pcWriteVarint crc.toNat)) readStreams
      (ts.map TapDecl.kept, crc, dbmCrc32 (ts.items.flatMap TapDecl.bytes) == crc) := by
  refine (reads_pcReadVarint (ts.fits.trans_lt (by decide))).bind ?_
  rw [dif_pos ts.fits]
  apply Reads.position
  refine ReadsSince.bind (reads_fill dbmMaxStreamsPerStudy ts.items 0 fun t _ =>
    reads_pcReadStreamTap t) ?_
  exact (readsSince_readSeal _ crc).map _

/-- So is that of the protocols, which must not be longer than their cap. -/
theorem reads_readProtocols (ps : Slots (Named ProtocolDecl) dbmMaxProtocolsPerStudy)
    (crc : UInt32)
    (h : (ps.items.flatMap (Named.bytes ProtocolDecl.bytes)).length ≤ dbmMaxProtocolsWireLen) :
    Reads (pcWriteVarint ps.items.length ++ (ps.items.flatMap (Named.bytes ProtocolDecl.bytes) ++
        pcWriteVarint crc.toNat)) readProtocols
      (ps.map fun p => p.decl.kept, crc,
        dbmCrc32 (ps.items.flatMap (Named.bytes ProtocolDecl.bytes)) == crc) := by
  refine (reads_pcReadVarint (ps.fits.trans_lt (by decide))).bind ?_
  rw [dif_pos ps.fits]
  apply Reads.position
  refine ReadsSince.bind (reads_fill dbmMaxProtocolsPerStudy ps.items 0 fun p _ =>
    reads_pcReadProtocolDef p) ?_
  intro i pre post hi
  refine (runsTo_position i _).bind ((runsTo_buffer i _).bind ?_)
  have hl := i.len_lt
  simp only [Input.len, hi, List.length_append] at hl
  have hsub : i.sub (pre.length + (ps.items.flatMap (Named.bytes ProtocolDecl.bytes)).length)
      pre.length = (ps.items.flatMap (Named.bytes ProtocolDecl.bytes)).length := by
    rw [Input.sub, ← Nat.add_assoc, Nat.add_right_comm, Nat.add_sub_cancel, Nat.add_mod_left,
      Nat.mod_eq_of_lt (by omega)]
  simp only [List.nil_append, hsub, Nat.not_lt.mpr h, if_false]
  exact (readsSince_readSeal _ crc).map _ i pre post hi

/-- Every declared study is accepted, and what the bench documents that it keeps is
kept. -/
theorem reads_readStudyStart {d : StudyDecl} (h : d.Declared) :
    Reads d.bytes readStudyStart d.kept := by
  refine (reads_pcReadVarint (d.steps.fits.trans_lt (by decide))).bind ?_
  rw [dif_pos d.steps.fits]
  apply Reads.position
  refine ReadsSince.bind (reads_readSteps d.steps.items 0 h.actions) ?_
  have hlog : d.devBenchLogLevel.toNat < 128 := by
    have : d.devBenchLogLevel.toNat ≤ 4 := h.logLevel
    omega
  have hclamp : UInt8.ofNat (min d.devBenchLogLevel.toNat dbmLogLevelDbg) = d.devBenchLogLevel := by
    rw [Nat.min_eq_left h.logLevel, UInt8.ofNat_toNat]
  simp only [Bool.false_eq_true, if_false]
  refine (readsSince_readSeal _ d.stepsCrc).bind_reads
    ((reads_readStreams d.streams d.streamsCrc).bind ((reads_code ⟨_, hlog⟩).bind ?_))
  simp only [hclamp]
  exact (reads_readProtocols d.protocols d.protocolsCrc h.protocols).map _

/-! ## Results and greetings -/

/-- An outcome that is declared. -/
theorem reads_readOutcome {o : Outcome} (h : o.Declared) : Reads o.bytes readOutcome o := by
  obtain ⟨tag, failReason⟩ := o
  obtain ⟨htag, hreason⟩ := h
  have hcases : tag = 0 ∨ tag = 1 ∨ tag = 2 := by
    simp only [← UInt8.toNat_inj]
    have : tag.toNat ≤ 2 := htag
    simp only [UInt8.reduceToNat]
    omega
  have hlt : tag.toNat < 128 := by have : tag.toNat ≤ 2 := htag; omega
  refine (reads_code ⟨_, hlt⟩).bind ?_
  rcases hcases with rfl | rfl | rfl
  · have he : failReason = ⟨[], by decide⟩ :=
      CharArray.ext (hreason (show (0 : UInt8) ≠ 1 by decide))
    rw [he]
    exact reads_pure _
  · exact (reads_pcReadStr_charArray failReason (by decide)).map _
  · have he : failReason = ⟨[], by decide⟩ :=
      CharArray.ext (hreason (show (2 : UInt8) ≠ 1 by decide))
    rw [he]
    exact reads_pure _

/-- A characteristic with its properties. -/
theorem reads_readCharacteristicInfo (c : CharacteristicInfo) :
    Reads c.bytes readCharacteristicInfo c := by
  apply Reads.require _ (by simp [CharacteristicInfo.bytes])
  exact (reads_take c.uuid).bind ((reads_next c.properties).map _)

/-- A service with its characteristics. -/
theorem reads_readServiceInfo (s : ServiceInfo) : Reads s.bytes readServiceInfo s := by
  apply Reads.require _ (by simp [ServiceInfo.bytes])
  exact (reads_take s.uuid).bind
    ((reads_pcReadSlots_self s.characteristics (by decide) fun c _ =>
      reads_readCharacteristicInfo c).map _)

/-- What a protocol came to. -/
theorem reads_readProtocolOutcome {p : ProtocolOutcome} (h : p.outcome.Declared) :
    Reads p.bytes readProtocolOutcome p :=
  (reads_pcReadStr_charArray p.finalState (by decide)).bind ((reads_readOutcome h).map _)

/-- What a step came to, with all it brought along. -/
theorem reads_readStepResult {r : StepResult} (h : r.Declared) :
    Reads r.bytes readStepResult r :=
  (reads_readVarint32 r.stepIndex).bind
    ((reads_pcReadStr_charArray r.stepName (by decide)).bind
      ((reads_readOutcome h.outcome).bind
        ((reads_pcReadOption_self r.capturedData fun p _ => reads_readPayload p (by decide)).bind
          ((reads_pcReadOption_self r.gattServices fun s _ =>
            reads_pcReadSlots_self s (by decide) fun x _ => reads_readServiceInfo x).bind
              ((reads_pcReadOption_self r.securityLevel fun l hl =>
                reads_readSecurityLevel (h.securityLevel l hl)).bind
                  ((reads_pcReadOption_self r.protocol fun p hp =>
                    reads_readProtocolOutcome (h.protocol p hp)).map _))))))

/-- A hello is kept whole. -/
theorem reads_readHello (m : Hello) : Reads m.bytes readHello m :=
  (reads_readVarint32 m.schemaVersion).bind ((reads_readVarint64 m.hostUtcMs).map _)

/-- So is the answer. -/
theorem reads_readHelloAck (m : HelloAck) : Reads m.bytes readHelloAck m := by
  refine (reads_readVarint32 m.schemaVersion).bind (Reads.byte_cons ?_)
  simp only [boolByte_ne_zero]
  exact (reads_pcReadStr_charArray m.firmwareVersion (by decide)).bind
    ((reads_pcReadStr_charArray m.hardwareId (by decide)).map _)

end DevBench.Wire
