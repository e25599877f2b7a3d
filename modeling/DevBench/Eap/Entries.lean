import DevBench.Eap.Verdicts

/-!
# Entering a state

Without a frame an operand has a value if it is a literal or a declared session
variable, and a write can be encoded if all of its operands are and its types are
integers that fit the buffer. Entering an active state, for the first time or for a
retry, then returns the write with the current values, and otherwise ends the run.
-/

namespace DevBench.Eap

open DevBench.Core DevBench.Core.Traced

variable {run : EapRun}

/-! ## Writes -/

/-- A literal, or one of so many session variables: it has a value without a frame. -/
def Operand.Standing (count : Nat) : Operand → Prop
  | literal _ => True
  | session index => index.toNat < count
  | field _ => False
  | spanLen _ => False

/-- The value of a standing operand. -/
def Operand.standingValue (session : List Int64) : Operand → Int64
  | literal value => value
  | .session index => session.getD index.toNat 0
  | field _ => 0
  | spanLen _ => 0

theorem evalOperand_none_eq_some {op : Operand} {payload : List UInt8} {v : Int64} :
    (evalOperand op run none payload).value = some v ↔
      op.Standing run.sessionLen ∧ v = op.standingValue run.session := by
  cases op with
  | literal value =>
    simp only [evalOperand, value_pure, Option.some.injEq, Operand.Standing,
      Operand.standingValue, true_and]
    exact eq_comm
  | session index =>
    simp only [evalOperand, Operand.Standing, Operand.standingValue]
    by_cases h : index.toNat ≥ run.sessionLen
    · simp [h, Nat.not_lt.mpr h]
    · simp only [if_neg h, value_bind, value_pure, Option.some.injEq, Nat.not_le.mp h, true_and]
      exact eq_comm
  | field index => simp [evalOperand, Operand.Standing]
  | spanLen index => simp [evalOperand, Operand.Standing]

/-- The bytes of a value in a type, at the width of the type. -/
def scalarBytes (ty : UInt8) (value : Int64) : List UInt8 :=
  (List.range (scalarWidth ty)).map fun i =>
    let shift := if scalarIsBigEndian ty then (scalarWidth ty - 1 - i) * 8 else i * 8
    (value.toUInt64 >>> UInt64.ofNat shift).toUInt8

theorem length_scalarBytes (ty : UInt8) (value : Int64) :
    (scalarBytes ty value).length = scalarWidth ty := by
  rw [scalarBytes, List.length_map, List.length_range]

theorem scalarWriteI64_eq_some {ty : UInt8} {value : Int64} {outCap : Nat} {bytes : List UInt8} :
    scalarWriteI64 ty value outCap = some bytes ↔
      scalarIsInteger ty = true ∧ scalarWidth ty ≤ outCap ∧ bytes = scalarBytes ty value := by
  simp only [scalarWriteI64]
  by_cases hinteger : scalarIsInteger ty = true
  · have hwidth : scalarWidth ty ≠ 0 := fun h => by
      rw [scalarIsInteger_of_width h] at hinteger
      cases hinteger
    by_cases hroom : outCap < scalarWidth ty
    · simp [hinteger, hroom, Nat.not_le.mpr hroom]
    · simp only [hwidth, hinteger, hroom, not_true_eq_false, or_self, if_false, Option.some.injEq,
        Nat.not_lt.mp hroom, true_and]
      exact eq_comm
  · simp [hinteger]

/-- What a field adds to the payload. -/
def WriteField.sent (session : List Int64) (f : WriteField) : List UInt8 :=
  scalarBytes f.ty (f.value.standingValue session)

/-- The payload of a write under a session. -/
def Write.payload (w : Write) (session : List Int64) : List UInt8 :=
  w.fields.items.flatMap (WriteField.sent session)

/-- Operands that stand, integer types, and a payload within the buffer. -/
structure Write.Encodable (w : Write) (count : Nat) : Prop where
  operands : ∀ f ∈ w.fields.items, f.value.Standing count
  types : ∀ f ∈ w.fields.items, scalarIsInteger f.ty = true
  room : (w.fields.items.map fun f => scalarWidth f.ty).sum ≤ maxWritePayloadLen

/-- The fields are encoded if each has a value and an integer type and all of them fit. -/
theorem encodeFields_eq_some {outCap : Nat} {bytes : List UInt8} (fields : List WriteField)
    {out : List UInt8} (hout : out.length ≤ outCap) :
    (encodeFields run none [] outCap fields out).value = some bytes ↔
      (∀ f ∈ fields, f.value.Standing run.sessionLen ∧ scalarIsInteger f.ty = true) ∧
      out.length + (fields.map fun f => scalarWidth f.ty).sum ≤ outCap ∧
      bytes = out ++ fields.flatMap (WriteField.sent run.session) := by
  induction fields generalizing out with
  | nil =>
    simp only [encodeFields, value_pure, Option.some.injEq, List.not_mem_nil, false_imp_iff,
      implies_true, List.map_nil, List.sum_nil, Nat.add_zero, hout, List.flatMap_nil,
      List.append_nil, true_and]
    exact eq_comm
  | cons f fields ih =>
    simp only [encodeFields, value_bind, List.forall_mem_cons, List.map_cons, List.sum_cons,
      List.flatMap_cons]
    by_cases hstands : f.value.Standing run.sessionLen
    · have hvalue : (evalOperand f.value run none []).value =
          some (f.value.standingValue run.session) :=
        evalOperand_none_eq_some.mpr ⟨hstands, rfl⟩
      simp only [hvalue]
      by_cases hfits : scalarIsInteger f.ty = true ∧ scalarWidth f.ty ≤ outCap - out.length
      · have hwritten : scalarWriteI64 f.ty (f.value.standingValue run.session)
            (outCap - out.length) = some (f.sent run.session) :=
          scalarWriteI64_eq_some.mpr ⟨hfits.1, hfits.2, rfl⟩
        have hlen : (out ++ f.sent run.session).length = out.length + scalarWidth f.ty := by
          rw [List.length_append, WriteField.sent, length_scalarBytes]
        have hroom : (out ++ f.sent run.session).length ≤ outCap := by omega
        simp only [hwritten, ih hroom, hlen, hstands, hfits.1, true_and, List.append_assoc,
          Nat.add_assoc]
      · have hrefused : scalarWriteI64 f.ty (f.value.standingValue run.session)
            (outCap - out.length) = none := by
          rw [Option.eq_none_iff_forall_ne_some]
          intro written hwritten
          obtain ⟨hinteger, hroom, -⟩ := scalarWriteI64_eq_some.mp hwritten
          exact hfits ⟨hinteger, hroom⟩
        simp only [hrefused, value_pure, reduceCtorEq, false_iff]
        rintro ⟨⟨⟨-, hinteger⟩, -⟩, hroom, -⟩
        exact hfits ⟨hinteger, by omega⟩
    · have hnone : (evalOperand f.value run none []).value = none := by
        rw [Option.eq_none_iff_forall_ne_some]
        intro v hv
        exact hstands (evalOperand_none_eq_some.mp hv).1
      simp only [hnone, value_pure, hstands, false_and, reduceCtorEq]

/-- A write is encoded to its payload if and only if it can be. -/
theorem encodeWrite_eq_some {w : Write} {bytes : List UInt8} :
    (encodeWrite w run none [] maxWritePayloadLen).value = some bytes ↔
      w.Encodable run.sessionLen ∧ bytes = w.payload run.session := by
  rw [encodeWrite, encodeFields_eq_some w.fields.items (Nat.zero_le _)]
  simp only [List.length_nil, Nat.zero_add, List.nil_append]
  constructor
  · rintro ⟨hfields, hroom, rfl⟩
    exact ⟨⟨fun f hf => (hfields f hf).1, fun f hf => (hfields f hf).2, hroom⟩, rfl⟩
  · rintro ⟨hw, rfl⟩
    exact ⟨fun f hf => ⟨hw.operands f hf, hw.types f hf⟩, hw.room, rfl⟩

theorem encodeWrite_eq_none {w : Write} :
    (encodeWrite w run none [] maxWritePayloadLen).value = none ↔
      ¬ w.Encodable run.sessionLen := by
  rw [Option.eq_none_iff_forall_ne_some]
  constructor
  · intro h hw
    exact h _ (encodeWrite_eq_some.mpr ⟨hw, rfl⟩)
  · intro h bytes hbytes
    exact h (encodeWrite_eq_some.mp hbytes).1

theorem scalarWidth_le (ty : UInt8) : scalarWidth ty ≤ 8 := by
  unfold scalarWidth
  split <;> decide

/-- The buffer has room for the widest field in every place. -/
theorem Write.encodable_of_standing {w : Write} {count : Nat}
    (hoperands : ∀ f ∈ w.fields.items, f.value.Standing count)
    (htypes : ∀ f ∈ w.fields.items, scalarIsInteger f.ty = true) : w.Encodable count := by
  refine ⟨hoperands, htypes, ?_⟩
  have hsum : ∀ fields : List WriteField,
      (fields.map fun f => scalarWidth f.ty).sum ≤ fields.length * 8 := by
    intro fields
    induction fields with
    | nil => exact Nat.zero_le _
    | cons f fields ih =>
      have hwidth := scalarWidth_le f.ty
      rw [List.map_cons, List.sum_cons, List.length_cons]
      omega
  exact (hsum _).trans (Nat.mul_le_mul_right 8 w.fields.fits)

/-- The payload depends on the variables the write names and on nothing else. -/
theorem Write.payload_congr {w : Write} {session session' : List Int64}
    (h : ∀ f ∈ w.fields.items, ∀ index, f.value = .session index →
      session.getD index.toNat 0 = session'.getD index.toNat 0) :
    w.payload session = w.payload session' := by
  apply List.flatMap_congr
  intro f hf
  rw [WriteField.sent, WriteField.sent]
  congr 1
  cases hvalue : f.value with
  | session index => exact h f hf index hvalue
  | _ => rfl

/-! ## Entering -/

/-- What entering an active state says to do next. -/
def entryStep (onEnter : Option Write) (onTimeout : Option TimeoutArm) (session : List Int64) :
    EapStep :=
  match onEnter with
  | none => .wait (deadlineOf onTimeout)
  | some w => .write w.source w.withResponse (w.payload session) (deadlineOf onTimeout)

/-- An active state whose write can be encoded is entered without touching the run. -/
theorem onEntered_active (run : EapRun) {onEnter : Option Write}
    {arms : Slots EventArm maxEventArmsPerState} {timeout : Option TimeoutArm}
    (hkind : run.currentState.value.kind = .active onEnter arms timeout)
    (hencodable : ∀ w ∈ onEnter, w.Encodable run.sessionLen) :
    (onEntered run).value = (run, entryStep onEnter timeout run.session) := by
  simp only [onEntered, value_bind, hkind]
  cases onEnter with
  | none => rfl
  | some w =>
    have hpayload : (encodeWrite w run none [] maxWritePayloadLen).value =
        some (w.payload run.session) := encodeWrite_eq_some.mpr ⟨hencodable w rfl, rfl⟩
    simp only [value_bind, hpayload]
    rfl

end DevBench.Eap
