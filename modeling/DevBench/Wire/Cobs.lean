import DevBench.Core.Stuffing

/-!
# Framing

`cobs_encode` and `cobs_decode` (`serial_protocol.c`). The encoder writes each
block behind a slot it fills in once the block is closed; its output is the
stuffing of its input. The decoder undoes any stuffing that fits its buffer.
-/

namespace DevBench.Wire

open DevBench.Core.Stuffing

/-! ## Encoding -/

/-- The locals of `cobs_encode`; the write index is the length of what is written. -/
structure CobsState where
  output : List UInt8
  /-- Where the code of the open block will be stored. -/
  codeIndex : Nat
  code : UInt8

/-- Store the code of the open block and leave a slot for the next one. -/
def CobsState.close (s : CobsState) : CobsState :=
  ⟨s.output.set s.codeIndex s.code ++ [0], s.output.length, 1⟩

/-- One round of the loop of `cobs_encode`. -/
def cobsStep (s : CobsState) (byte : UInt8) : CobsState :=
  if byte = 0 then s.close
  else
    let s : CobsState := ⟨s.output ++ [byte], s.codeIndex, s.code + 1⟩
    if s.code = 0xFF then s.close else s

/-- `cobs_encode`. -/
def cobsEncode (input : List UInt8) : List UInt8 :=
  let s := input.foldl cobsStep ⟨[0], 0, 1⟩
  s.output.set s.codeIndex s.code

/-- The closed blocks of the output stuff a prefix of the input, and the open block
holds the rest of it. -/
structure CobsState.Holds (s : CobsState) (input closed plain block : List UInt8) : Prop where
  input_eq : input = plain ++ block
  output_eq : s.output = closed ++ 0 :: block
  codeIndex_eq : s.codeIndex = closed.length
  code_eq : s.code = blockCode block
  zero_notMem : 0 ∉ block
  closed_stuffed : ∀ bs cs, Stuffed bs cs → Stuffed (closed ++ bs) (plain ++ cs)

/-- Storing the code completes the open block. -/
theorem CobsState.Holds.set {s : CobsState} {input closed plain block : List UInt8}
    (h : s.Holds input closed plain block) :
    s.output.set s.codeIndex s.code = closed ++ blockCode block :: block := by
  rw [h.output_eq, h.codeIndex_eq, h.code_eq, List.set_append_right _ _ (Nat.le_refl _),
    Nat.sub_self, List.set_cons_zero]

/-- A block closed by the bytes `more` of the input, none or a zero. -/
theorem CobsState.Holds.close {s : CobsState} {input closed plain block more : List UInt8}
    (h : s.Holds input closed plain block)
    (hmore : ∀ bs cs, Stuffed bs cs →
      Stuffed (blockCode block :: (block ++ bs)) (block ++ (more ++ cs))) :
    s.close.Holds (input ++ more) (closed ++ blockCode block :: block)
      (plain ++ (block ++ more)) [] where
  input_eq := by rw [h.input_eq, List.append_nil, List.append_assoc]
  output_eq := by rw [CobsState.close, h.set]
  codeIndex_eq := by simp [CobsState.close, h.output_eq]
  code_eq := by rw [CobsState.close]; rfl
  zero_notMem := List.not_mem_nil
  closed_stuffed := by
    intro bs cs hs
    have hs' := h.closed_stuffed _ _ (hmore bs cs hs)
    simpa using hs'

/-- A byte pushed on the open block. -/
theorem CobsState.Holds.push {s : CobsState} {input closed plain block : List UInt8}
    (h : s.Holds input closed plain block) {byte : UInt8} (hb : byte ≠ 0) :
    CobsState.Holds ⟨s.output ++ [byte], s.codeIndex, s.code + 1⟩ (input ++ [byte]) closed plain
      (block ++ [byte]) where
  input_eq := by rw [h.input_eq, List.append_assoc]
  output_eq := by simp [h.output_eq]
  codeIndex_eq := h.codeIndex_eq
  code_eq := by
    rw [h.code_eq, blockCode, blockCode, List.length_append, List.length_singleton,
      UInt8.ofNat_add (block.length + 1) 1]
    rfl
  zero_notMem := by
    rw [List.mem_append, List.mem_singleton, not_or]
    exact ⟨h.zero_notMem, hb.symm⟩
  closed_stuffed := h.closed_stuffed

/-- One round of the loop keeps the open block short of full. -/
theorem CobsState.Holds.step {s : CobsState} {input closed plain block : List UInt8}
    (h : s.Holds input closed plain block) (hlen : block.length < 254) (byte : UInt8) :
    ∃ closed plain block, (cobsStep s byte).Holds (input ++ [byte]) closed plain block ∧
      block.length < 254 := by
  by_cases hb : byte = 0
  · subst hb
    have hclose : s.close.Holds (input ++ [0]) _ _ [] :=
      h.close fun bs cs hs => .zero h.zero_notMem hlen hs
    exact ⟨_, _, [], hclose, by decide⟩
  · have hpush := h.push hb
    have hlen' : (block ++ [byte]).length ≤ 254 := by
      rw [List.length_append, List.length_singleton]
      omega
    by_cases hfull : (block ++ [byte]).length = 254
    · have hcode : s.code + 1 = 0xFF := by
        have hc := hpush.code_eq
        simp only at hc
        rw [hc]
        exact (blockCode_eq_255 hlen').mpr hfull
      have hclose : CobsState.Holds _ (input ++ [byte] ++ []) _ _ [] :=
        hpush.close fun bs cs hs => .full hpush.zero_notMem hfull hs
      rw [List.append_nil] at hclose
      have hstep : cobsStep s byte =
          CobsState.close ⟨s.output ++ [byte], s.codeIndex, s.code + 1⟩ := by
        simp only [cobsStep, hb, hcode, if_true, if_false]
      rw [← hstep] at hclose
      exact ⟨_, _, [], hclose, by decide⟩
    · have hcode : s.code + 1 ≠ 0xFF := by
        intro hc
        have hc' := hpush.code_eq
        simp only at hc'
        exact hfull ((blockCode_eq_255 hlen').mp (hc'.symm.trans hc))
      refine ⟨closed, plain, block ++ [byte], ?_, by omega⟩
      simpa only [cobsStep, hb, hcode, if_false] using hpush

/-- The whole loop. -/
theorem holds_foldl : ∀ (rest : List UInt8) {s : CobsState} {input closed plain block : List UInt8},
    s.Holds input closed plain block → block.length < 254 →
      ∃ closed plain block, (rest.foldl cobsStep s).Holds (input ++ rest) closed plain block ∧
        block.length < 254
  | [], s, input, closed, plain, block, h, hlen => ⟨closed, plain, block, by simpa using h, hlen⟩
  | byte :: rest, s, input, closed, plain, block, h, hlen => by
    obtain ⟨closed', plain', block', h', hlen'⟩ := h.step hlen byte
    have hrest := holds_foldl rest h' hlen'
    rwa [List.append_assoc] at hrest

/-- The encoder's output is a stuffing of its input. -/
theorem stuffed_cobsEncode (input : List UInt8) : Stuffed (cobsEncode input) input := by
  have hinit : CobsState.Holds ⟨[0], 0, 1⟩ [] [] [] [] :=
    ⟨rfl, rfl, rfl, rfl, List.not_mem_nil, fun _ _ hs => hs⟩
  obtain ⟨closed, plain, block, h, hlen⟩ := holds_foldl input hinit (by decide)
  have hlast := h.closed_stuffed _ _ (.last h.zero_notMem hlen)
  rw [← h.input_eq, ← h.set] at hlast
  exact hlast

/-! ## Decoding -/

/-- Why the decoder gives up. The source returns 0 for the first two; the third
stands for a read past the end of the input. -/
inductive CobsFault where
  | malformed
  | full
  | outOfRange
  deriving DecidableEq, Repr

/-- The copy loop of `cobs_decode`: what is left of the input, and the output. -/
def cobsCopy (outputCap : Nat) : Nat → List UInt8 → List UInt8 →
    Except CobsFault (List UInt8 × List UInt8)
  | 0, input, output => .ok (input, output)
  | count + 1, input, output =>
    if output.length ≥ outputCap then .error .full
    else match input with
      | [] => .error .outOfRange
      | byte :: input => cobsCopy outputCap count input (output ++ [byte])

/-- The outer loop of `cobs_decode`. A round reads at least the code byte, so as many
rounds as there are bytes are enough. -/
def cobsDecodeLoop (outputCap : Nat) : Nat → List UInt8 → List UInt8 →
    Except CobsFault (List UInt8)
  | 0, _, output => .ok output
  | _ + 1, [], output => .ok output
  | rounds + 1, code :: input, output =>
    if code = 0 ∨ (code.toNat > input.length + 1 ∧ code ≠ 1) then .error .malformed
    else
      match cobsCopy outputCap (code.toNat - 1) input output with
      | .error fault => .error fault
      | .ok (input, output) =>
        if code ≠ 0xFF ∧ input ≠ [] then
          if output.length ≥ outputCap then .error .full
          else cobsDecodeLoop outputCap rounds input (output ++ [0])
        else cobsDecodeLoop outputCap rounds input output

/-- `cobs_decode`. -/
def cobsDecode (input : List UInt8) (outputCap : Nat) : Except CobsFault (List UInt8) :=
  cobsDecodeLoop outputCap input.length input []

/-- A block that is there is copied whole, or the buffer is too small for it. -/
theorem cobsCopy_eq {outputCap : Nat} : ∀ (count : Nat) (input output : List UInt8),
    count ≤ input.length → output.length ≤ outputCap →
    cobsCopy outputCap count input output =
      if outputCap < output.length + count then .error .full
      else .ok (input.drop count, output ++ input.take count)
  | 0, input, output, _, hcap => by simp [cobsCopy, Nat.not_lt.mpr hcap]
  | count + 1, [], output, hlen, _ => absurd hlen (by simp)
  | count + 1, byte :: input, output, hlen, hcap => by
    rw [List.length_cons] at hlen
    by_cases hfull : output.length ≥ outputCap
    · have hover : outputCap < output.length + (count + 1) := by omega
      simp only [cobsCopy, hfull, hover, if_true]
    · have hroom : (output ++ [byte]).length ≤ outputCap := by
        rw [List.length_append, List.length_singleton]
        omega
      have hrest := cobsCopy_eq count input (output ++ [byte]) (by omega) hroom
      rw [List.length_append, List.length_singleton] at hrest
      simp only [cobsCopy, hfull, if_false, hrest, List.drop_succ_cons, List.take_succ_cons,
        List.append_assoc, List.singleton_append, Nat.add_assoc, Nat.add_comm 1 count]

/-- One round of the outer loop takes a block and what is read behind it, if there are
such bytes and they fit. -/
theorem cobsDecodeLoop_cons {outputCap rounds : Nat} {code : UInt8} {input output : List UInt8}
    (hcap : output.length ≤ outputCap) :
    cobsDecodeLoop outputCap (rounds + 1) (code :: input) output =
      if code = 0 ∨ input.length < code.toNat - 1 then .error .malformed
      else
        let rest := input.drop (code.toNat - 1)
        let output := output ++ (input.take (code.toNat - 1) ++ separator code rest)
        if outputCap < output.length then .error .full
        else cobsDecodeLoop outputCap rounds rest output := by
  have htest : (code = 0 ∨ (code.toNat > input.length + 1 ∧ code ≠ 1)) ↔
      (code = 0 ∨ input.length < code.toNat - 1) := by
    constructor
    · rintro (h | ⟨h, _⟩)
      · exact .inl h
      · exact .inr (by omega)
    · rintro (h | h)
      · exact .inl h
      · refine .inr ⟨by omega, ?_⟩
        rintro rfl
        simp at h
  rw [cobsDecodeLoop, if_congr htest rfl rfl]
  by_cases hbad : code = 0 ∨ input.length < code.toNat - 1
  · rw [if_pos hbad, if_pos hbad]
  · have hlen : code.toNat - 1 ≤ input.length := Nat.not_lt.mp (not_or.mp hbad).2
    have htake : (input.take (code.toNat - 1)).length = code.toNat - 1 := by
      rw [List.length_take, Nat.min_eq_left hlen]
    rw [if_neg hbad, if_neg hbad, cobsCopy_eq _ _ _ hlen hcap]
    by_cases hfull : outputCap < output.length + (code.toNat - 1)
    · have hover : outputCap < output.length + ((code.toNat - 1) +
          (separator code (input.drop (code.toNat - 1))).length) := by omega
      simp only [hfull, if_true, List.length_append, htake, hover]
    · simp only [hfull, if_false]
      by_cases hsep : code ≠ 0xFF ∧ input.drop (code.toNat - 1) ≠ []
      · simp only [separator, if_pos hsep, List.length_append, htake, List.length_singleton,
          List.append_assoc]
        exact if_congr (by omega) rfl rfl
      · simp only [separator, if_neg hsep, List.length_append, htake, List.append_nil,
          if_neg hfull]

/-- The decoder returns what its input is taken for, if that fits. -/
theorem cobsDecodeLoop_eq_ok_iff {outputCap : Nat} : ∀ (rounds : Nat) (input output : List UInt8),
    input.length ≤ rounds → output.length ≤ outputCap → ∀ out,
      cobsDecodeLoop outputCap rounds input output = .ok out ↔
        ∃ cs, Unstuffs input cs ∧ out = output ++ cs ∧ out.length ≤ outputCap
  | rounds, [], output, _, hcap, out => by
    have hloop : cobsDecodeLoop outputCap rounds [] output = .ok output := by
      cases rounds <;> rfl
    rw [hloop]
    constructor
    · intro h
      cases h
      exact ⟨[], .nil, (List.append_nil _).symm, hcap⟩
    · rintro ⟨cs, hcs, rfl, _⟩
      cases hcs
      rw [List.append_nil]
  | 0, code :: input, output, hrounds, _, _ => absurd hrounds (by simp)
  | rounds + 1, code :: input, output, hrounds, hcap, out => by
    rw [cobsDecodeLoop_cons hcap]
    by_cases hbad : code = 0 ∨ input.length < code.toNat - 1
    · rw [if_pos hbad]
      constructor
      · intro h
        cases h
      · rintro ⟨cs, hcs, _⟩
        obtain ⟨hne, hlen, _⟩ := unstuffs_cons_iff.mp hcs
        exact absurd hbad (not_or.mpr ⟨hne, Nat.not_lt.mpr hlen⟩)
    · obtain ⟨hne, hlen⟩ := not_or.mp hbad
      rw [if_neg hbad]
      simp only [unstuffs_cons_iff]
      by_cases hfull : outputCap < (output ++ (input.take (code.toNat - 1) ++
          separator code (input.drop (code.toNat - 1)))).length
      · rw [if_pos hfull]
        constructor
        · intro h
          cases h
        · rintro ⟨cs, ⟨_, _, tail, _, rfl⟩, rfl, hout⟩
          simp only [List.length_append] at hfull hout
          omega
      · have hdrop : (input.drop (code.toNat - 1)).length ≤ rounds := by
          rw [List.length_cons] at hrounds
          rw [List.length_drop]
          omega
        rw [if_neg hfull,
          cobsDecodeLoop_eq_ok_iff rounds _ _ hdrop (Nat.not_lt.mp hfull)]
        constructor
        · rintro ⟨tail, htail, rfl, hout⟩
          exact ⟨_, ⟨hne, Nat.not_lt.mp hlen, tail, htail, rfl⟩, by simp, hout⟩
        · rintro ⟨cs, ⟨_, _, tail, htail, rfl⟩, rfl, hout⟩
          exact ⟨tail, htail, by simp, hout⟩

/-- Exactly the inputs that are taken for bytes that fit are decoded, and to those. -/
theorem cobsDecode_eq_ok_iff {input cs : List UInt8} {outputCap : Nat} :
    cobsDecode input outputCap = .ok cs ↔ Unstuffs input cs ∧ cs.length ≤ outputCap := by
  rw [cobsDecode, cobsDecodeLoop_eq_ok_iff _ _ _ (Nat.le_refl _) (Nat.zero_le _)]
  simp

/-- The decoder reads nothing behind its input. -/
theorem cobsDecodeLoop_ne_outOfRange {outputCap : Nat} :
    ∀ (rounds : Nat) (input output : List UInt8), output.length ≤ outputCap →
      cobsDecodeLoop outputCap rounds input output ≠ .error .outOfRange
  | 0, input, output, _ => by simp [cobsDecodeLoop]
  | rounds + 1, [], output, _ => by simp [cobsDecodeLoop]
  | rounds + 1, code :: input, output, hcap => by
    rw [cobsDecodeLoop_cons hcap]
    split
    · simp
    · simp only
      split
      · simp
      next hfits => exact cobsDecodeLoop_ne_outOfRange rounds _ _ (Nat.not_lt.mp hfits)

/-- Any stuffing of bytes that fit the buffer is decoded to them. -/
theorem cobsDecode_stuffed {bs cs : List UInt8} {outputCap : Nat} (h : Stuffed bs cs)
    (hcap : cs.length ≤ outputCap) : cobsDecode bs outputCap = .ok cs :=
  cobsDecode_eq_ok_iff.mpr ⟨h.unstuffs, hcap⟩

end DevBench.Wire
