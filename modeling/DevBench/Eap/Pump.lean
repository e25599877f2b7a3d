import DevBench.Eap.Residence

/-!
# Pump loops

A pump acknowledges every chunk of a download until it has as many bytes as it expects.
Its state adds the length of what follows a header to a variable, leaves when that has
reached a second one, and otherwise enters itself again, which sends the
acknowledgement. Over any chunks the variable is the saturated sum of their lengths, and
every chunk before the last is answered by one write.
-/

namespace DevBench.Eap

open DevBench.Core DevBench.Core.Traced

/-! ## Saturated sums -/

theorem toInt_saturatingAdd (a b : Int64) :
    (saturatingAdd a b).toInt =
      max Int64.minValue.toInt (min Int64.maxValue.toInt (a.toInt + b.toInt)) := by
  have ha := a.toInt_lt
  have ha' := a.le_toInt
  have hb := b.toInt_lt
  have hb' := b.le_toInt
  have hzero : (0 : Int64).toInt = 0 := rfl
  have hexact : ∀ x : Int, -2 ^ 63 ≤ x → x < 2 ^ 63 → x.bmod (2 ^ 64) = x := fun x hle hlt =>
    Int.bmod_eq_of_le (by omega) (by omega)
  unfold saturatingAdd
  by_cases hover : b > 0 ∧ a > Int64.maxValue - b
  · obtain ⟨hpos, hlarge⟩ := hover
    rw [if_pos ⟨hpos, hlarge⟩]
    rw [gt_iff_lt, Int64.lt_iff_toInt_lt, hzero] at hpos
    rw [gt_iff_lt, Int64.lt_iff_toInt_lt, Int64.toInt_sub, Int64.toInt_maxValue,
      hexact _ (by omega) (by omega)] at hlarge
    rw [Int64.toInt_maxValue, Int64.toInt_minValue]
    omega
  · rw [if_neg hover]
    by_cases hunder : b < 0 ∧ a < Int64.minValue - b
    · obtain ⟨hneg, hsmall⟩ := hunder
      rw [if_pos ⟨hneg, hsmall⟩]
      rw [Int64.lt_iff_toInt_lt, hzero] at hneg
      rw [Int64.lt_iff_toInt_lt, Int64.toInt_sub, Int64.toInt_minValue,
        hexact _ (by omega) (by omega)] at hsmall
      rw [Int64.toInt_maxValue, Int64.toInt_minValue]
      omega
    · rw [if_neg hunder]
      have hhigh : a.toInt + b.toInt < 2 ^ 63 := by
        by_contra hge
        refine hover ⟨?_, ?_⟩
        · rw [gt_iff_lt, Int64.lt_iff_toInt_lt, hzero]
          omega
        · rw [gt_iff_lt, Int64.lt_iff_toInt_lt, Int64.toInt_sub, Int64.toInt_maxValue,
            hexact _ (by omega) (by omega)]
          omega
      have hlow : -2 ^ 63 ≤ a.toInt + b.toInt := by
        by_contra hlt
        refine hunder ⟨?_, ?_⟩
        · rw [Int64.lt_iff_toInt_lt, hzero]
          omega
        · rw [Int64.lt_iff_toInt_lt, Int64.toInt_sub, Int64.toInt_minValue,
            hexact _ (by omega) (by omega)]
          omega
      rw [Int64.toInt_add, hexact _ hlow hhigh, Int64.toInt_maxValue, Int64.toInt_minValue]
      omega

/-- What a list of chunks adds to a variable, each from its offset on. -/
def pumped (offset : Nat) (start : Int64) (chunks : List (List UInt8)) : Int64 :=
  chunks.foldl (fun r chunk => saturatingAdd r (Int64.ofNat (chunk.length - offset))) start

/-- The variable is the exact sum, as far as it holds that. -/
theorem toInt_pumped (offset : Nat) (start : Int64) (chunks : List (List UInt8))
    (hfits : ∀ chunk ∈ chunks, chunk.length < 2 ^ 63) :
    (pumped offset start chunks).toInt = min Int64.maxValue.toInt
      (start.toInt + ((chunks.map fun chunk => chunk.length - offset).sum : Nat)) := by
  induction chunks generalizing start with
  | nil =>
    have hstart := start.toInt_lt
    rw [List.map_nil, List.sum_nil, Int64.toInt_maxValue]
    change start.toInt = _
    omega
  | cons chunk chunks ih =>
    have hstart := start.le_toInt
    obtain ⟨hchunk, hchunks⟩ := List.forall_mem_cons.mp hfits
    have hadded : (Int64.ofNat (chunk.length - offset)).toInt = (chunk.length - offset : Nat) :=
      Int64.toInt_ofNat_of_lt (by omega)
    have hstep : pumped offset start (chunk :: chunks) = pumped offset
        (saturatingAdd start (Int64.ofNat (chunk.length - offset))) chunks := rfl
    rw [hstep, ih _ hchunks, toInt_saturatingAdd, hadded, List.map_cons, List.sum_cons,
      Int64.toInt_maxValue, Int64.toInt_minValue]
    omega

/-! ## The loop -/

/-- The parts of a pump: its state, the frame it takes with the span it counts, the two
variables, the state it leaves to, and what it writes and waits for. -/
structure Pump where
  state : UInt8
  index : UInt8
  frame : Frame
  span : UInt8
  offset : UInt16
  received : UInt8
  expected : UInt8
  done : UInt8
  write : Write
  arms : Slots EventArm maxEventArmsPerState
  timeout : Option TimeoutArm

namespace Pump

variable {pump : Pump} {defn : ProtocolDef} {run : EapRun}

/-- The protocol has the pump: its first arm on the frame adds what follows the offset
to `received`, leaves when that is `expected` or more, and else enters the state again. -/
structure In (pump : Pump) (defn : ProtocolDef) : Prop where
  active : ∃ state, defn.states.items[pump.state.toNat]? = some state ∧
    state.kind = .active (some pump.write) pump.arms pump.timeout
  operands : ∀ f ∈ pump.write.fields.items, f.value.Standing defn.sessionInitial.items.length
  types : ∀ f ∈ pump.write.fields.items, scalarIsInteger f.ty = true
  span : pump.frame.spans.items[pump.span.toNat]? = some ⟨pump.offset, none⟩
  arm : ∃ arm, (pump.arms.items.find? fun a => a.frame.toNat = pump.index.toNat) = some arm ∧
    arm.remember.items = [⟨pump.received, .add (.session pump.received) (.spanLen pump.span)⟩] ∧
    arm.guards.items = [⟨⟨.session pump.received, .ge, .session pump.expected⟩, pump.done⟩] ∧
    arm.otherwise = some pump.state
  declared : pump.received.toNat < defn.sessionInitial.items.length ∧
    pump.expected.toNat < defn.sessionInitial.items.length
  distinct : pump.received ≠ pump.expected
  leaves : pump.done ≠ pump.state

/-- The chunk reaches to the offset and is taken for the frame of the pump. -/
structure Takes (pump : Pump) (defn : ProtocolDef) (chunk : List UInt8) : Prop where
  long : pump.offset.toNat ≤ chunk.length
  selects : (selectFrame defn pump.frame.source chunk).value =
    some (pump.index.toNat, pump.frame)

/-- A chunk from the source of the pump's frame. -/
def notify (pump : Pump) (chunk : List UInt8) : Event := .notify pump.frame.source chunk

/-- The run is in the state of the pump, and has the session but for what was received. -/
structure Pumping (pump : Pump) (defn : ProtocolDef) (session : List Int64) (r : Int64)
    (run : EapRun) : Prop where
  protocol : run.defn = defn
  place : run.state = pump.state
  unfinished : run.finished = false
  count : run.session = session.set pump.received.toNat r
  full : session.length = defn.sessionInitial.items.length

theorem evalOperand_session (run : EapRun) (frame : Option Frame) (payload : List UInt8)
    (index : UInt8) (h : index.toNat < run.sessionLen) :
    (evalOperand (.session index) run frame payload).value =
      some (run.session.getD index.toNat 0) := by
  simp only [evalOperand, if_neg (Nat.not_le.mpr h), value_bind, value_pure]

/-- The length of an open-ended span. -/
theorem evalOperand_spanLen (hp : pump.In defn) (run : EapRun) {chunk : List UInt8}
    (hchunk : pump.Takes defn chunk) :
    (evalOperand (.spanLen pump.span) run (some pump.frame) chunk).value =
      some (Int64.ofNat (chunk.length - pump.offset.toNat)) := by
  simp only [evalOperand, hp.span, value_bind, if_neg (Nat.not_lt.mpr hchunk.long), value_pure]

theorem evalExpr_add {a b : Operand} {frame : Option Frame} {payload : List UInt8} {v w : Int64}
    (ha : (evalOperand a run frame payload).value = some v)
    (hb : (evalOperand b run frame payload).value = some w) :
    (evalExpr (.add a b) run frame payload).value = some (saturatingAdd v w) := by
  simp only [evalExpr, value_bind, ha, hb, value_pure, Option.map_some]

theorem evalCondition_some {c : Condition} {frame : Option Frame} {payload : List UInt8}
    {v w : Int64} (hl : (evalOperand c.lhs run frame payload).value = some v)
    (hr : (evalOperand c.rhs run frame payload).value = some w) :
    (evalCondition c run frame payload).value = c.op.holds v w := by
  simp only [evalCondition, value_bind, hl, hr, value_pure]

/-- The count behind a chunk. -/
def counted (pump : Pump) (r : Int64) (chunk : List UInt8) : Int64 :=
  saturatingAdd r (Int64.ofNat (chunk.length - pump.offset.toNat))

/-- A chunk is counted before the guard looks at the count. -/
theorem notifyTarget_eq (hp : pump.In defn) {session : List Int64} {r : Int64}
    (h : pump.Pumping defn session r run) {chunk : List UInt8} (hchunk : pump.Takes defn chunk) :
    (notifyTarget run pump.arms.items pump.frame.source chunk).value =
      ({ run with session := session.set pump.received.toNat (pump.counted r chunk) },
        some (if session.getD pump.expected.toNat 0 ≤ pump.counted r chunk then pump.done
          else pump.state)) := by
  obtain ⟨arm, harm, hremember, hguards, hotherwise⟩ := hp.arm
  obtain ⟨hreceived, hexpected⟩ := hp.declared
  have hcount : run.sessionLen = defn.sessionInitial.items.length := by
    rw [EapRun.sessionLen, h.protocol]
  have hselects := hchunk.selects
  rw [← h.protocol] at hselects
  have hget : ∀ v, (session.set pump.received.toNat v).getD pump.received.toNat 0 = v := by
    intro v
    rw [List.getD_eq_getElem?_getD, List.getElem?_set_self (by rw [h.full]; exact hreceived),
      Option.getD_some]
  have hremembered : (applyRemembers pump.frame chunk arm.remember.items run).value =
      { run with session := session.set pump.received.toNat (pump.counted r chunk) } := by
    have hvalue := evalOperand_session run (some pump.frame) chunk pump.received
      (hcount ▸ hreceived)
    rw [h.count, hget] at hvalue
    have hsum := evalExpr_add hvalue (evalOperand_spanLen hp run hchunk)
    simp only [hremember, applyRemembers, value_bind, hsum, hcount, if_pos hreceived, value_pure,
      h.count, List.set_set, counted]
  have hguard : (evalCondition ⟨.session pump.received, .ge, .session pump.expected⟩
      { run with session := session.set pump.received.toNat (pump.counted r chunk) }
      (some pump.frame) chunk).value =
        decide (session.getD pump.expected.toNat 0 ≤ pump.counted r chunk) := by
    have hne : pump.received.toNat ≠ pump.expected.toNat := fun h =>
      hp.distinct (UInt8.toNat_inj.mp h)
    have hl := evalOperand_session
      { run with session := session.set pump.received.toNat (pump.counted r chunk) }
      (some pump.frame) chunk pump.received (hcount ▸ hreceived)
    have hr := evalOperand_session
      { run with session := session.set pump.received.toNat (pump.counted r chunk) }
      (some pump.frame) chunk pump.expected (hcount ▸ hexpected)
    rw [hget] at hl
    rw [List.getD_eq_getElem?_getD, List.getElem?_set_ne hne, ← List.getD_eq_getElem?_getD] at hr
    exact evalCondition_some hl hr
  simp only [notifyTarget, value_bind, hselects, harm, hremembered, hguards, firstGuard, hguard,
    hotherwise, value_pure]
  by_cases hle : session.getD pump.expected.toNat 0 ≤ pump.counted r chunk
  · simp only [hle, decide_true, if_true, value_pure]
    rfl
  · simp only [hle, decide_false, Bool.false_eq_true, if_false, value_pure]
    rfl

theorem currentState (hp : pump.In defn) (hdefn : run.defn = defn)
    (hstate : run.state = pump.state) :
    run.currentState.value.kind = .active (some pump.write) pump.arms pump.timeout := by
  obtain ⟨state, hget, hkind⟩ := hp.active
  have hat : run.At state := by
    rw [EapRun.At, hdefn, hstate]
    exact hget
  rw [hat.currentState, hkind]

/-- Once the chunk is counted the machine leaves or enters the state again. -/
theorem onEvent_notify (hp : pump.In defn) {session : List Int64} {r : Int64}
    (h : pump.Pumping defn session r run) {chunk : List UInt8} (hchunk : pump.Takes defn chunk) :
    (eapRunOnEvent run (pump.notify chunk)).value =
      (gotoState
        { run with session := session.set pump.received.toNat (pump.counted r chunk) }
        (if session.getD pump.expected.toNat 0 ≤ pump.counted r chunk then pump.done
          else pump.state)).value := by
  have hkind := currentState hp h.protocol h.place
  rw [notify, onEvent_active h.unfinished hkind]
  simp only [onNotify, value_bind, hkind, notifyTarget_eq hp h hchunk]

/-- Too few bytes: the state is entered again and acknowledges the count. -/
theorem onEvent_again (hp : pump.In defn) {session : List Int64} {r : Int64}
    (h : pump.Pumping defn session r run) {chunk : List UInt8} (hchunk : pump.Takes defn chunk)
    (hfew : pump.counted r chunk < session.getD pump.expected.toNat 0) :
    pump.Pumping defn session (pump.counted r chunk)
        (eapRunOnEvent run (pump.notify chunk)).value.1 ∧
      (eapRunOnEvent run (pump.notify chunk)).value.2 =
        .write pump.write.source pump.write.withResponse
          (pump.write.payload (session.set pump.received.toNat (pump.counted r chunk)))
          (deadlineOf pump.timeout) := by
  have hencodable : ∀ w ∈ some pump.write, w.Encodable run.sessionLen := by
    intro w hw
    rw [← Option.some.inj hw, EapRun.sessionLen, h.protocol]
    exact Write.encodable_of_standing hp.operands hp.types
  have hkind := currentState hp
    (show EapRun.defn { run with state := pump.state } = defn from h.protocol) rfl
  have hentered := onEntered_active
    { run with
      session := session.set pump.received.toNat (pump.counted r chunk)
      state := pump.state
      retries := 0 } hkind hencodable
  rw [onEvent_notify hp h hchunk, if_neg (Int64.not_le.mpr hfew), gotoState, eapRunEnter, hentered]
  exact ⟨⟨h.protocol, rfl, h.unfinished, rfl, h.full⟩, rfl⟩

/-- The chunks so far have been too few. -/
theorem Pumping.after (hp : pump.In defn) {session : List Int64} {r : Int64}
    (h : pump.Pumping defn session r run) {chunks : List (List UInt8)}
    (hchunks : ∀ chunk ∈ chunks, pump.Takes defn chunk)
    (hfew : ∀ k < chunks.length,
      pumped pump.offset.toNat r (chunks.take (k + 1)) < session.getD pump.expected.toNat 0) :
    pump.Pumping defn session (pumped pump.offset.toNat r chunks)
      (run.after (chunks.map pump.notify)) := by
  induction chunks generalizing run r with
  | nil => exact h
  | cons chunk chunks ih =>
    obtain ⟨hchunk, hrest⟩ := List.forall_mem_cons.mp hchunks
    have hfirst := (onEvent_again hp h hchunk (hfew 0 (Nat.succ_pos _))).1
    exact ih hfirst hrest fun k hk => hfew (k + 1) (Nat.succ_lt_succ hk)

/-- What was received behind some chunks. -/
def total (pump : Pump) (session : List Int64) (chunks : List (List UInt8)) : Int64 :=
  pumped pump.offset.toNat (session.getD pump.received.toNat 0) chunks

/-- Up to the first chunk that completes what is expected every chunk is answered by one
write, under the sum so far; that one moves the machine on, with the sum and all else as
it was. -/
theorem pump_law (hp : pump.In defn) {start : EapRun} (hdefn : start.defn = defn)
    (hstate : start.state = pump.state) (hunfinished : start.finished = false)
    (hfull : start.session.length = start.sessionLen) {ps : List (List UInt8)}
    (htakes : ∀ chunk ∈ ps, pump.Takes defn chunk) {chunks rest : List (List UInt8)}
    {chunk : List UInt8} (hps : ps = chunks ++ chunk :: rest)
    (hfew : ∀ k < chunks.length, pump.total start.session (chunks.take (k + 1)) <
      start.session.getD pump.expected.toNat 0) :
    let before := start.after (chunks.map pump.notify)
    let result := (eapRunOnEvent before (pump.notify chunk)).value
    let r := pump.total start.session (chunks ++ [chunk])
    let session := start.session.set pump.received.toNat r
    before.state = pump.state ∧ result.1.session = session ∧
    (r < start.session.getD pump.expected.toNat 0 → result.1.state = pump.state ∧
      result.2 = .write pump.write.source pump.write.withResponse (pump.write.payload session)
        (deadlineOf pump.timeout)) ∧
    (start.session.getD pump.expected.toNat 0 ≤ r →
      FreshEntry { before with session := session } pump.done result) ∧
    ((∀ c ∈ chunks ++ [chunk], c.length < 2 ^ 63) → r.toInt = min Int64.maxValue.toInt
      ((start.session.getD pump.received.toNat 0).toInt +
        (((chunks ++ [chunk]).map fun c => c.length - pump.offset.toNat).sum : Nat))) := by
  intro before result r session
  obtain ⟨hreceived, -⟩ := hp.declared
  have hlen : start.session.length = defn.sessionInitial.items.length := by
    rw [hfull, EapRun.sessionLen, hdefn]
  have hsame : start.session.set pump.received.toNat
      (start.session.getD pump.received.toNat 0) = start.session := by
    rw [List.getD_eq_getElem _ _ (hlen ▸ hreceived), List.set_getElem_self]
  have hstart : pump.Pumping defn start.session (start.session.getD pump.received.toNat 0) start :=
    ⟨hdefn, hstate, hunfinished, hsame.symm, hlen⟩
  have hbefore := hstart.after hp
    (fun c hc => htakes c (by rw [hps]; exact List.mem_append_left _ hc)) hfew
  have hchunk : pump.Takes defn chunk := htakes chunk (by
    rw [hps]
    exact List.mem_append_right _ List.mem_cons_self)
  have hr : pump.counted (pumped pump.offset.toNat
      (start.session.getD pump.received.toNat 0) chunks) chunk = r := by
    simp only [r, total, pumped, List.foldl_append, List.foldl_cons, List.foldl_nil]
    rfl
  have hevent := onEvent_notify hp hbefore hchunk
  rw [hr] at hevent
  refine ⟨hbefore.place, ?_, ?_, ?_, toInt_pumped _ _ _⟩
  · change (eapRunOnEvent before (pump.notify chunk)).value.1.session = session
    rw [hevent]
    exact onEntered_session _
  · intro hless
    obtain ⟨hafter, hstep⟩ := onEvent_again hp hbefore hchunk (by rwa [hr])
    rw [hr] at hstep
    exact ⟨hafter.place, hstep⟩
  · intro hle
    change FreshEntry _ _ (eapRunOnEvent before (pump.notify chunk)).value
    rw [hevent, if_pos hle]
    exact freshEntry_gotoState _ _

/-- Four bytes are expected, each chunk behind one byte of header. -/
def fourBytes : Pump where
  state := 0
  index := 0
  frame := ⟨0, none, .empty, .ofList [⟨1, none⟩]⟩
  span := 0
  offset := 1
  received := 1
  expected := 0
  done := 1
  write := ⟨0, .ofList [⟨0, .session 1⟩], false⟩
  arms := .ofList [⟨0, .ofList [⟨1, .add (.session 1) (.spanLen 0)⟩],
    .ofList [⟨⟨.session 1, .ge, .session 0⟩, 1⟩], some 0⟩]
  timeout := none

/-- The protocol of that pump, which passes. -/
def fourBytesDef : ProtocolDef where
  sources := .empty
  frames := .ofList [fourBytes.frame]
  sessionInitial := .ofList [4, 0]
  states := .ofList [
    ⟨.copy (ascii "pumping"), .active (some fourBytes.write) fourBytes.arms none⟩,
    ⟨.copy (ascii "done"), .terminal .pass⟩]

/-- The second chunk of two bytes completes the four. -/
theorem pump_law_fourBytes :
    let before := EapRun.after ⟨fourBytesDef, [4, 0], 0, 0, false⟩ [fourBytes.notify [9, 1, 2]]
    let result := (eapRunOnEvent before (fourBytes.notify [9, 3, 4])).value
    before.state = 0 ∧ result.1.session = [4, 4] ∧
      FreshEntry { before with session := [4, 4] } 1 result := by
  have hp : fourBytes.In fourBytesDef := by
    refine ⟨⟨_, rfl, rfl⟩, ?_, ?_, rfl, ⟨_, rfl, rfl, rfl, rfl⟩, by decide, by decide, by decide⟩
    · intro f hf
      rw [List.mem_singleton.mp hf]
      exact (by decide : 1 < 2)
    · intro f hf
      rw [List.mem_singleton.mp hf]
      rfl
  have htakes : ∀ chunk ∈ [[9, 1, 2], [9, 3, 4]], fourBytes.Takes fourBytesDef chunk := by
    intro chunk hchunk
    rcases List.mem_cons.mp hchunk with rfl | hchunk
    · exact ⟨by decide, rfl⟩
    · rw [List.mem_singleton.mp hchunk]
      exact ⟨by decide, rfl⟩
  have hfew : ∀ k < [[9, 1, 2]].length, fourBytes.total [4, 0] ([[9, 1, 2]].take (k + 1)) <
      ([4, 0] : List Int64).getD fourBytes.expected.toNat 0 := by
    intro k hk
    obtain rfl : k = 0 := Nat.lt_one_iff.mp hk
    decide +kernel
  have hps : ([[9, 1, 2], [9, 3, 4]] : List (List UInt8)) = [[9, 1, 2]] ++ [9, 3, 4] :: [] := rfl
  have hstart : EapRun.defn ⟨fourBytesDef, [4, 0], 0, 0, false⟩ = fourBytesDef := rfl
  obtain ⟨hplace, hsession, -, hdone, -⟩ := pump_law hp hstart rfl rfl rfl htakes hps hfew
  have htotal : fourBytes.total [4, 0] ([[9, 1, 2]] ++ [[9, 3, 4]]) = 4 := by decide +kernel
  rw [htotal] at hsession hdone
  exact ⟨hplace, hsession, hdone (by decide +kernel)⟩

end Pump

end DevBench.Eap
