import DevBench.Core.Buffers
import DevBench.Wire.RoundTrip

/-!
# Framing in place

`cobs_encode`, `cobs_decode` and `dbm_encode_frame` with the indices they use and the
buffers they are handed. Every access is checked against its buffer: whatever the
bytes are, none is outside, and what is returned and stored is what the functions on
lists compute.
-/

namespace DevBench.Wire

open DevBench.Core.Buffers DevBench.Core.Stuffing

/-! ## Encoding -/

/-- The locals of `cobs_encode`, and its output buffer. -/
structure EncodeWalk where
  readIndex : Nat
  writeIndex : Nat
  codeIndex : Nat
  code : UInt8
  output : List UInt8

/-- `output[code_index] = code`, and the next code gets the slot at `write_index++`. -/
def EncodeWalk.close (s : EncodeWalk) : Except Fault EncodeWalk := do
  let output ← store s.output s.codeIndex s.code
  return ⟨s.readIndex, s.writeIndex + 1, s.writeIndex, 1, output⟩

/-- One round of the loop. -/
def encodeRound (input : List UInt8) (s : EncodeWalk) : Except Fault EncodeWalk := do
  let byte ← load input s.readIndex
  if byte = 0 then EncodeWalk.close { s with readIndex := s.readIndex + 1 }
  else
    let output ← store s.output s.writeIndex byte
    let s : EncodeWalk := ⟨s.readIndex + 1, s.writeIndex + 1, s.codeIndex, s.code + 1, output⟩
    if s.code = 0xFF then s.close else return s

/-- The loop of `cobs_encode`, as many rounds as are given. -/
def encodeRounds (input : List UInt8) : Nat → EncodeWalk → Except Fault EncodeWalk
  | 0, s => if s.readIndex < input.length then .error .rounds else .ok s
  | rounds + 1, s =>
    if s.readIndex < input.length then do encodeRounds input rounds (← encodeRound input s)
    else .ok s

/-- What `cobs_encode` returns, and what it leaves in the output buffer. -/
def cobsEncodeInto (input output : List UInt8) : Except Fault (Nat × List UInt8) := do
  let s ← encodeRounds input input.length ⟨0, 1, 0, 1, output⟩
  let output ← store s.output s.codeIndex s.code
  return (s.writeIndex, output)

/-- The walk has `rest` in front of it and has stored what the walk `t` on lists has, but
for the slot of the open block. The buffer held `buffer` before. -/
structure EncodeWalk.At (s : EncodeWalk) (input rest buffer : List UInt8) (t : CobsState) :
    Prop where
  read : Ahead input s.readIndex rest
  writeIndex_eq : s.writeIndex = t.output.length
  codeIndex_eq : s.codeIndex = t.codeIndex
  code_eq : s.code = t.code
  slot : ∃ before block stale, t.output = before ++ 0 :: block ∧ t.codeIndex = before.length ∧
    s.output = before ++ stale :: (block ++ buffer.drop t.output.length)

/-- What is behind an index of the buffer starts with the byte there. -/
private theorem exists_drop_eq_cons {buffer : List UInt8} {n : Nat} (h : n < buffer.length) :
    ∃ stale, buffer.drop n = stale :: buffer.drop (n + 1) :=
  ⟨_, List.drop_eq_getElem_cons h⟩

namespace EncodeWalk.At

variable {s : EncodeWalk} {input rest buffer : List UInt8} {t : CobsState} {byte : UInt8}

/-- One byte read. -/
theorem skip (h : s.At input (byte :: rest) buffer t) :
    EncodeWalk.At { s with readIndex := s.readIndex + 1 } input rest buffer t :=
  ⟨h.read.next, h.writeIndex_eq, h.codeIndex_eq, h.code_eq, h.slot⟩

/-- Storing the code fills the slot of the open block. -/
theorem store_code (h : s.At input rest buffer t) :
    store s.output s.codeIndex s.code =
      .ok (t.output.set t.codeIndex t.code ++ buffer.drop t.output.length) := by
  obtain ⟨before, block, stale, hout, hcode, hbuffer⟩ := h.slot
  rw [h.codeIndex_eq, h.code_eq, hbuffer, hcode, store_append, hout]
  simp

/-- A block closed, where the buffer has room for the next slot. -/
theorem close (h : s.At input rest buffer t) (hroom : t.output.length < buffer.length) :
    ∃ s', s.close = .ok s' ∧ s'.At input rest buffer t.close := by
  obtain ⟨stale, hstale⟩ := exists_drop_eq_cons hroom
  have hclose : s.close = .ok ⟨s.readIndex, s.writeIndex + 1, s.writeIndex, 1,
      t.output.set t.codeIndex t.code ++ buffer.drop t.output.length⟩ := by
    rw [EncodeWalk.close, h.store_code]
    rfl
  refine ⟨_, hclose, h.read, ?_, ?_, rfl, ?_⟩
  · simp [CobsState.close, h.writeIndex_eq]
  · simp [CobsState.close, h.writeIndex_eq]
  · refine ⟨t.output.set t.codeIndex t.code, [], stale, rfl, ?_, ?_⟩
    · simp [CobsState.close]
    · simp [CobsState.close, hstale]

/-- A byte pushed on the open block, where the buffer has room for it. -/
theorem push (h : s.At input rest buffer t) (hroom : t.output.length < buffer.length)
    (b : UInt8) :
    ∃ stored, store s.output s.writeIndex b = .ok stored ∧
      EncodeWalk.At ⟨s.readIndex, s.writeIndex + 1, s.codeIndex, s.code + 1, stored⟩ input rest
        buffer ⟨t.output ++ [b], t.codeIndex, t.code + 1⟩ := by
  obtain ⟨before, block, stale, hout, hcode, hbuffer⟩ := h.slot
  obtain ⟨next, hnext⟩ := exists_drop_eq_cons hroom
  have hwrite : s.writeIndex = (before ++ stale :: block).length := by
    rw [h.writeIndex_eq, hout]
    simp
  have hstore : store s.output s.writeIndex b =
      .ok (before ++ stale :: block ++ b :: buffer.drop (t.output.length + 1)) := by
    have hsplit : s.output =
        before ++ stale :: block ++ next :: buffer.drop (t.output.length + 1) := by
      rw [hbuffer, hnext]
      simp
    rw [hsplit, hwrite]
    exact store_append _ _ _ _
  refine ⟨_, hstore, h.read, ?_, h.codeIndex_eq, by simp [h.code_eq], ?_⟩
  · simp [h.writeIndex_eq]
  · exact ⟨before, block ++ [b], stale, by simp [hout], hcode, by simp⟩

end EncodeWalk.At

theorem lt_length_cobsStep (t : CobsState) (byte : UInt8) :
    t.output.length < (cobsStep t byte).output.length := by
  unfold cobsStep
  simp only
  split
  · simp [CobsState.close]
  · split
    · simp only [CobsState.close, List.length_append, List.length_set, List.length_singleton]
      omega
    · simp

theorem length_le_foldl_cobsStep (rest : List UInt8) (t : CobsState) :
    t.output.length ≤ (rest.foldl cobsStep t).output.length := by
  induction rest generalizing t with
  | nil => exact Nat.le_refl _
  | cons byte rest ih => exact Nat.le_trans (Nat.le_of_lt (lt_length_cobsStep t byte)) (ih _)

/-- A round stores what it does on lists, where the buffer has room for that. -/
theorem EncodeWalk.At.round {s : EncodeWalk} {input rest buffer : List UInt8} {t : CobsState}
    {byte : UInt8} (h : s.At input (byte :: rest) buffer t)
    (hroom : (cobsStep t byte).output.length ≤ buffer.length) :
    ∃ s', encodeRound input s = .ok s' ∧ s'.At input rest buffer (cobsStep t byte) := by
  have hmore := Nat.lt_of_lt_of_le (lt_length_cobsStep t byte) hroom
  rw [encodeRound, h.read.load_cons]
  rw [cobsStep] at hroom ⊢
  simp only [bind, Except.bind]
  by_cases hb : byte = 0
  · rw [if_pos hb, if_pos hb]
    exact h.skip.close hmore
  · rw [if_neg hb] at hroom
    rw [if_neg hb, if_neg hb]
    obtain ⟨stored, hstore, hpush⟩ := h.skip.push hmore byte
    simp only at hstore
    simp only [hstore, h.code_eq] at hroom hpush ⊢
    by_cases hfull : t.code + 1 = 0xFF
    · rw [if_pos hfull] at hroom
      rw [if_pos hfull, if_pos hfull]
      apply hpush.close
      simp only [CobsState.close, List.length_append, List.length_set, List.length_singleton]
        at hroom ⊢
      omega
    · rw [if_neg hfull, if_neg hfull]
      exact ⟨_, rfl, hpush⟩

/-- The loop stores what it does on lists, within as many rounds as there are bytes. -/
theorem EncodeWalk.At.rounds {input buffer : List UInt8} : ∀ (rest : List UInt8) {s : EncodeWalk}
    {t : CobsState}, s.At input rest buffer t →
      (rest.foldl cobsStep t).output.length ≤ buffer.length →
        ∃ s', encodeRounds input rest.length s = .ok s' ∧
          s'.At input [] buffer (rest.foldl cobsStep t)
  | [], s, t, h, _ => by
    have hend : ¬ s.readIndex < input.length := fun hlt => h.read.lt_iff.mp hlt rfl
    exact ⟨s, by rw [List.length_nil, encodeRounds, if_neg hend], h⟩
  | byte :: rest, s, t, h, hroom => by
    have hmore : s.readIndex < input.length := h.read.lt_iff.mpr (List.cons_ne_nil _ _)
    rw [List.foldl_cons] at hroom ⊢
    obtain ⟨s₁, hround, h₁⟩ := h.round (Nat.le_trans (length_le_foldl_cobsStep rest _) hroom)
    rw [List.length_cons, encodeRounds, if_pos hmore, hround]
    exact h₁.rounds rest hroom

/-- In a buffer with room for what the encoder computes it is what the encoder stores and
returns the length of. -/
theorem cobsEncodeInto_eq {input output : List UInt8}
    (hroom : (cobsEncode input).length ≤ output.length) :
    cobsEncodeInto input output =
      .ok ((cobsEncode input).length,
        cobsEncode input ++ output.drop (cobsEncode input).length) := by
  have hlen : (cobsEncode input).length = (input.foldl cobsStep ⟨[0], 0, 1⟩).output.length := by
    simp [cobsEncode]
  have hpos : 0 < output.length :=
    Nat.lt_of_lt_of_le (List.length_pos_iff.mpr (stuffed_cobsEncode input).ne_nil) hroom
  obtain ⟨stale, hstale⟩ := exists_drop_eq_cons hpos
  have hstart : EncodeWalk.At ⟨0, 1, 0, 1, output⟩ input input output ⟨[0], 0, 1⟩ :=
    ⟨ahead_zero input, rfl, rfl, rfl, [], [], stale, rfl, rfl, by simpa using hstale⟩
  rw [hlen] at hroom ⊢
  obtain ⟨s, hrun, hat⟩ := hstart.rounds input hroom
  rw [cobsEncodeInto, hrun]
  simp only [bind, Except.bind, hat.store_code, hat.writeIndex_eq, pure, Except.pure]
  rfl

/-! ## Decoding -/

/-- The locals of `cobs_decode`, and its output buffer of `output_cap` bytes. -/
structure DecodeWalk where
  readIndex : Nat
  writeIndex : Nat
  output : List UInt8

/-- How a part of `cobs_decode` ends: the walk goes on, or `return 0` leaves the output
buffer as it is. -/
inductive Exit where
  | on (s : DecodeWalk)
  | zero (output : List UInt8)

/-- `output[write_index++] = byte`, behind its test. -/
def DecodeWalk.put (s : DecodeWalk) (byte : Except Fault UInt8) (readIndex : Nat) :
    Except Fault Exit :=
  if s.writeIndex ≥ s.output.length then .ok (.zero s.output)
  else do
    let output ← store s.output s.writeIndex (← byte)
    return .on ⟨readIndex, s.writeIndex + 1, output⟩

/-- The copy loop, `count` rounds of it to go. -/
def copyBlock (input : List UInt8) : Nat → DecodeWalk → Except Fault Exit
  | 0, s => .ok (.on s)
  | count + 1, s => do
    match ← s.put (load input s.readIndex) (s.readIndex + 1) with
    | .zero output => return .zero output
    | .on s => copyBlock input count s

/-- One round of the outer loop. -/
def decodeRound (input : List UInt8) (s : DecodeWalk) : Except Fault Exit := do
  let code ← load input s.readIndex
  if code = 0 ∨ (s.readIndex + code.toNat > input.length ∧ code ≠ 1) then
    return .zero s.output
  else
    match ← copyBlock input (code.toNat - 1) { s with readIndex := s.readIndex + 1 } with
    | .zero output => return .zero output
    | .on s =>
      if code ≠ 0xFF ∧ s.readIndex ≠ input.length then s.put (.ok 0) s.readIndex
      else return .on s

/-- The outer loop. -/
def decodeRounds (input : List UInt8) : Nat → DecodeWalk → Except Fault Exit
  | 0, s => if s.readIndex < input.length then .error .rounds else .ok (.on s)
  | rounds + 1, s =>
    if s.readIndex < input.length then do
      match ← decodeRound input s with
      | .zero output => return .zero output
      | .on s => decodeRounds input rounds s
    else .ok (.on s)

/-- What `cobs_decode` returns, and what it leaves in the output buffer. -/
def cobsDecodeInto (input output : List UInt8) : Except Fault (Nat × List UInt8) := do
  match ← decodeRounds input input.length ⟨0, 0, output⟩ with
  | .zero output => return (0, output)
  | .on s => return (s.writeIndex, s.output)

/-- The walk has `rest` in front of it and has stored `output`. -/
structure DecodeWalk.At (s : DecodeWalk) (input : List UInt8) (outputCap : Nat)
    (rest output : List UInt8) : Prop where
  read : Ahead input s.readIndex rest
  write : Behind s.output s.writeIndex output
  cap : s.output.length = outputCap

/-- The walk in place ends as the one on lists does. -/
inductive Agrees (input : List UInt8) (outputCap : Nat) :
    Except Fault Exit → Except CobsFault (List UInt8 × List UInt8) → Prop where
  | on {s : DecodeWalk} {rest output : List UInt8} (h : s.At input outputCap rest output) :
      Agrees input outputCap (.ok (.on s)) (.ok (rest, output))
  | zero {output : List UInt8} {fault : CobsFault} (hcap : output.length = outputCap)
      (hfault : fault ≠ .outOfRange) :
      Agrees input outputCap (.ok (.zero output)) (.error fault)
  | load : Agrees input outputCap (.error .load) (.error .outOfRange)

namespace DecodeWalk.At

variable {s : DecodeWalk} {input rest output : List UInt8} {outputCap : Nat} {byte : UInt8}

theorem length_le (h : s.At input outputCap rest output) : output.length ≤ outputCap :=
  h.cap ▸ h.write.length_le

/-- One byte read. -/
theorem skip (h : s.At input outputCap (byte :: rest) output) :
    DecodeWalk.At { s with readIndex := s.readIndex + 1 } input outputCap rest output :=
  ⟨h.read.next, h.write, h.cap⟩

/-- A byte stored where there is room for it. -/
theorem store_ok (h : s.At input outputCap rest output) (hroom : output.length < outputCap)
    (b : UInt8) :
    ∃ stored, store s.output s.writeIndex b = .ok stored ∧
      DecodeWalk.At ⟨s.readIndex, s.writeIndex + 1, stored⟩ input outputCap rest
        (output ++ [b]) := by
  obtain ⟨stored, hstore, hlen, hwrite⟩ := h.write.store (h.cap ▸ hroom) b
  exact ⟨stored, hstore, h.read, hwrite, hlen.trans h.cap⟩

end DecodeWalk.At

/-- The copy loop ends as it does on lists. -/
theorem agrees_copyBlock {input : List UInt8} {outputCap : Nat} :
    ∀ (count : Nat) {s : DecodeWalk} {rest output : List UInt8},
      s.At input outputCap rest output →
        Agrees input outputCap (copyBlock input count s) (cobsCopy outputCap count rest output)
  | 0, s, rest, output, h => .on h
  | count + 1, s, rest, output, h => by
    rw [copyBlock, DecodeWalk.put, h.write.index_eq, h.cap]
    by_cases hfull : output.length ≥ outputCap
    · have hcopy : cobsCopy outputCap (count + 1) rest output = .error .full := by
        cases rest <;> simp only [cobsCopy, hfull, if_true]
      rw [if_pos hfull, hcopy]
      exact .zero h.cap (by simp)
    · rw [if_neg hfull]
      cases rest with
      | nil =>
        have hcopy : cobsCopy outputCap (count + 1) [] output = .error .outOfRange := by
          simp only [cobsCopy, hfull, if_false]
        rw [h.read.load_nil, hcopy]
        exact .load
      | cons byte rest =>
        obtain ⟨stored, hstore, hat⟩ := h.skip.store_ok (Nat.not_le.mp hfull) byte
        have hcopy : cobsCopy outputCap (count + 1) (byte :: rest) output =
            cobsCopy outputCap count rest (output ++ [byte]) := by
          simp only [cobsCopy, hfull, if_false]
        rw [h.read.load_cons, hcopy, ← h.write.index_eq]
        simp only at hstore
        simp only [bind, Except.bind, hstore, pure, Except.pure]
        exact agrees_copyBlock count hat

/-- The outer loop ends as it does on lists, within the same number of rounds. -/
theorem agrees_decodeRounds {input : List UInt8} {outputCap : Nat} :
    ∀ (rounds : Nat) {s : DecodeWalk} {rest output : List UInt8},
      s.At input outputCap rest output → rest.length ≤ rounds →
        Agrees input outputCap (decodeRounds input rounds s)
          ((cobsDecodeLoop outputCap rounds rest output).map fun out => ([], out))
  | 0, s, [], output, h, _ => by
    rw [decodeRounds, if_neg fun hlt => h.read.lt_iff.mp hlt rfl]
    exact .on h
  | rounds + 1, s, [], output, h, _ => by
    rw [decodeRounds, if_neg fun hlt => h.read.lt_iff.mp hlt rfl]
    exact .on h
  | 0, s, code :: rest, output, h, hrounds => absurd hrounds (by simp)
  | rounds + 1, s, code :: rest, output, h, hrounds => by
    have hmore : s.readIndex < input.length := h.read.lt_iff.mpr (List.cons_ne_nil _ _)
    have htest : s.readIndex + code.toNat > input.length ↔ code.toNat > rest.length + 1 := by
      rw [← h.read.add_length, List.length_cons]
      omega
    rw [decodeRounds, if_pos hmore, decodeRound, h.read.load_cons, cobsDecodeLoop]
    simp only [bind, Except.bind, pure, Except.pure, htest]
    by_cases hbad : code = 0 ∨ (code.toNat > rest.length + 1 ∧ code ≠ 1)
    · rw [if_pos hbad, if_pos hbad]
      exact .zero h.cap (by simp)
    · rw [if_neg hbad, if_neg hbad]
      have hlen : code.toNat - 1 ≤ rest.length := by
        by_cases hone : code = 1
        · simp [hone]
        · have hfits : ¬ code.toNat > rest.length + 1 := fun hgt =>
            hbad (.inr ⟨hgt, hone⟩)
          omega
      have hcopy := agrees_copyBlock (code.toNat - 1) h.skip
      rw [cobsCopy_eq _ _ _ hlen h.length_le] at hcopy ⊢
      generalize copyBlock input (code.toNat - 1) { s with readIndex := s.readIndex + 1 } = walk
        at hcopy ⊢
      by_cases hfull : outputCap < output.length + (code.toNat - 1)
      · rw [if_pos hfull] at hcopy ⊢
        cases hcopy with
        | zero hcap hfault => exact .zero hcap hfault
      · rw [if_neg hfull] at hcopy ⊢
        have hless : (rest.drop (code.toNat - 1)).length ≤ rounds := by
          rw [List.length_cons] at hrounds
          rw [List.length_drop]
          omega
        cases hcopy with
        | @on s _ _ hat =>
          have hend : s.readIndex ≠ input.length ↔ rest.drop (code.toNat - 1) ≠ [] := by
            rw [← hat.read.add_length, ← List.length_pos_iff]
            omega
          simp only [hend]
          by_cases hsep : code ≠ 0xFF ∧ rest.drop (code.toNat - 1) ≠ []
          · rw [if_pos hsep, if_pos hsep, DecodeWalk.put, hat.cap, hat.write.index_eq]
            by_cases hroom : (output ++ rest.take (code.toNat - 1)).length ≥ outputCap
            · rw [if_pos hroom, if_pos hroom]
              exact .zero hat.cap (by simp)
            · obtain ⟨stored, hstore, hput⟩ := hat.store_ok (Nat.not_le.mp hroom) 0
              rw [if_neg hroom, if_neg hroom, ← hat.write.index_eq]
              simp only [bind, Except.bind, hstore, pure, Except.pure]
              exact agrees_decodeRounds rounds hput hless
          · rw [if_neg hsep, if_neg hsep]
            exact agrees_decodeRounds rounds hat hless

/-- How `cobs_decode` leaves an output buffer of that length: it returns the length of
what its input is taken for and has stored it, if it fits, and returns 0 otherwise. -/
structure Decoded (input : List UInt8) (outputCap n : Nat) (stored : List UInt8) : Prop where
  length_stored : stored.length = outputCap
  fits : ∀ cs, Unstuffs input cs → cs.length ≤ outputCap → n = cs.length ∧ stored.take n = cs
  zero : (∀ cs, Unstuffs input cs → outputCap < cs.length) → n = 0

/-- The decoder comes to its end on every input and with every buffer. -/
theorem decoded_cobsDecodeInto (input output : List UInt8) :
    ∃ n stored, cobsDecodeInto input output = .ok (n, stored) ∧
      Decoded input output.length n stored := by
  have hstart : DecodeWalk.At ⟨0, 0, output⟩ input output.length input [] :=
    ⟨ahead_zero input, behind_zero output, rfl⟩
  have hwalk : Agrees input output.length (decodeRounds input input.length ⟨0, 0, output⟩)
      ((cobsDecode input output.length).map fun out => ([], out)) :=
    agrees_decodeRounds input.length hstart (Nat.le_refl _)
  rw [cobsDecodeInto]
  generalize decodeRounds input input.length ⟨0, 0, output⟩ = walk at hwalk ⊢
  cases hdecode : cobsDecode input output.length with
  | ok cs =>
    rw [hdecode] at hwalk
    obtain ⟨hcs, hlen⟩ := cobsDecode_eq_ok_iff.mp hdecode
    cases hwalk with
    | @on s _ _ hat =>
      refine ⟨s.writeIndex, s.output, rfl, hat.cap, ?_, ?_⟩
      · intro cs' hcs' _
        rw [← hcs.unique hcs']
        exact ⟨hat.write.index_eq, hat.write.take_eq⟩
      · intro hover
        exact absurd (hover cs hcs) (Nat.not_lt.mpr hlen)
  | error fault =>
    rw [hdecode] at hwalk
    cases hwalk with
    | @zero stored _ hcap hfault =>
      refine ⟨0, stored, rfl, hcap, ?_, fun _ => rfl⟩
      intro cs hcs hlen
      have hdecode' := cobsDecode_eq_ok_iff.mpr ⟨hcs, hlen⟩
      exact absurd (hdecode.symm.trans hdecode') (by simp)
    | load => exact absurd hdecode (cobsDecodeLoop_ne_outOfRange _ _ _ (Nat.zero_le _))

/-- With a smaller buffer the decoder returns the same if that fits, and 0 if not. -/
theorem Decoded.smaller {input stored stored' : List UInt8} {outputCap outputCap' n n' : Nat}
    (h : Decoded input outputCap n stored) (h' : Decoded input outputCap' n' stored')
    (hcap : outputCap' ≤ outputCap) :
    n' = (if n ≤ outputCap' then n else 0) ∧ (n ≤ outputCap' → stored'.take n = stored.take n) := by
  by_cases hfits : ∃ cs, Unstuffs input cs ∧ cs.length ≤ outputCap
  · obtain ⟨cs, hcs, hlen⟩ := hfits
    obtain ⟨rfl, htake⟩ := h.fits cs hcs hlen
    by_cases hlen' : cs.length ≤ outputCap'
    · obtain ⟨rfl, htake'⟩ := h'.fits cs hcs hlen'
      rw [if_pos hlen', htake, htake']
      exact ⟨rfl, fun _ => rfl⟩
    · have hzero : n' = 0 := by
        apply h'.zero
        intro cs' hcs'
        rw [← hcs.unique hcs']
        exact Nat.not_le.mp hlen'
      rw [if_neg hlen']
      exact ⟨hzero, fun h => absurd h hlen'⟩
  · have hnone : ∀ cs, Unstuffs input cs → outputCap < cs.length := fun cs hcs =>
      Nat.not_le.mp fun hlen => hfits ⟨cs, hcs, hlen⟩
    have hzero : n = 0 := h.zero hnone
    have hzero' : n' = 0 := h'.zero fun cs hcs => Nat.lt_of_le_of_lt hcap (hnone cs hcs)
    simp [hzero, hzero']

/-! ## Frames -/

/-- `dbm_encode_frame`: what it returns, and what it leaves in the output buffer. -/
def dbmEncodeFrameInto (msg : Message) (out : List UInt8) : Except Fault (Int × List UInt8) :=
  match encodeBody msg dbmMaxRawLen [] with
  | none => .ok (-1, out)
  | some ((), raw) =>
    let cobsCap := raw.length + raw.length / 254 + 2
    if cobsCap + 1 > out.length then .ok (-1, out)
    else do
      let (cobsLen, out) ← cobsEncodeInto raw out
      let out ← store out cobsLen 0
      return (Int.ofNat (cobsLen + 1), out)

/-- The frame is refused and the buffer left alone, or the frame is there and ends with
the only zero byte in it. -/
def Framed (msg : Message) (out : List UInt8) : Prop :=
  (dbmEncodeFrame msg out.length = none ∧ dbmEncodeFrameInto msg out = .ok (-1, out)) ∨
    ∃ bs, 0 ∉ bs ∧ dbmEncodeFrame msg out.length = some (bs ++ [0]) ∧
      dbmEncodeFrameInto msg out =
        .ok (Int.ofNat (bs.length + 1), bs ++ 0 :: out.drop (bs.length + 1))

/-- The test of the capacity is enough for the frame to be stored. -/
theorem framed_dbmEncodeFrameInto (msg : Message) (out : List UInt8) : Framed msg out := by
  unfold Framed dbmEncodeFrame dbmEncodeFrameInto
  cases encodeBody msg dbmMaxRawLen [] with
  | none => exact .inl ⟨rfl, rfl⟩
  | some result =>
    obtain ⟨_, raw⟩ := result
    simp only
    by_cases hcap : raw.length + raw.length / 254 + 2 + 1 > out.length
    · rw [if_pos hcap, if_pos hcap]
      exact .inl ⟨rfl, rfl⟩
    · rw [if_neg hcap, if_neg hcap]
      have hlen := (stuffed_cobsEncode raw).length_le
      obtain ⟨stale, hstale⟩ :=
        exists_drop_eq_cons (show (cobsEncode raw).length < out.length by omega)
      have hencode := cobsEncodeInto_eq (show (cobsEncode raw).length ≤ out.length by omega)
      refine .inr ⟨cobsEncode raw, (stuffed_cobsEncode raw).zero_notMem, rfl, ?_⟩
      rw [hencode, hstale]
      simp only [bind, Except.bind, store_append, pure, Except.pure]

/-- The encoder's output has no zero byte, is bounded, and is stored in any buffer with
room for it; a frame is stored whole or refused; the decoder undoes the encoder; and on
any input it comes to its end inside its two buffers and returns 0 for what does not fit. -/
theorem framing_law :
    (∀ input, 0 ∉ cobsEncode input ∧
      (cobsEncode input).length ≤ input.length + input.length / 254 + 1) ∧
    (∀ input output, (cobsEncode input).length ≤ output.length →
      cobsEncodeInto input output =
        .ok ((cobsEncode input).length,
          cobsEncode input ++ output.drop (cobsEncode input).length)) ∧
    (∀ msg out, Framed msg out) ∧
    (∀ input output, input.length ≤ output.length →
      ∃ stored, cobsDecodeInto (cobsEncode input) output = .ok (input.length, stored) ∧
        stored.take input.length = input) ∧
    (∀ input output, ∃ n stored, cobsDecodeInto input output = .ok (n, stored) ∧
      Decoded input output.length n stored) ∧
    ∀ input output output' n stored, output'.length ≤ output.length →
      cobsDecodeInto input output = .ok (n, stored) →
      ∃ stored', cobsDecodeInto input output' =
          .ok (if n ≤ output'.length then n else 0, stored') ∧
        (n ≤ output'.length → stored'.take n = stored.take n) := by
  refine ⟨?_, ?_, framed_dbmEncodeFrameInto, ?_, decoded_cobsDecodeInto, ?_⟩
  · intro input
    exact ⟨(stuffed_cobsEncode input).zero_notMem, (stuffed_cobsEncode input).length_le⟩
  · intro input output hroom
    exact cobsEncodeInto_eq hroom
  · intro input output hroom
    obtain ⟨n, stored, hrun, h⟩ := decoded_cobsDecodeInto (cobsEncode input) output
    obtain ⟨rfl, htake⟩ := h.fits input (stuffed_cobsEncode input).unstuffs hroom
    exact ⟨stored, hrun, htake⟩
  · intro input output output' n stored hcap hrun
    obtain ⟨n₁, stored₁, hrun₁, h⟩ := decoded_cobsDecodeInto input output
    obtain ⟨n', stored', hrun', h'⟩ := decoded_cobsDecodeInto input output'
    cases hrun.symm.trans hrun₁
    obtain ⟨rfl, htake⟩ := h.smaller h' hcap
    exact ⟨stored', hrun', htake⟩

/-- Two bytes sent and received through buffers with no byte to spare. -/
theorem framing_law_twoBytes :
    cobsEncodeInto [7, 0] [9, 9, 9] = .ok (3, [2, 7, 1]) ∧
    (∃ stored, cobsDecodeInto [2, 7, 1] [9, 9] = .ok (2, stored) ∧ stored.take 2 = [7, 0]) ∧
    ∃ stored, cobsDecodeInto [2, 7, 1] [9] = .ok (0, stored) := by
  obtain ⟨_, hencode, _, hdecode, _, hsmaller⟩ := framing_law
  refine ⟨hencode [7, 0] [9, 9, 9] (by decide), hdecode [7, 0] [9, 9] (by decide), ?_⟩
  obtain ⟨stored, hrun, _⟩ := hsmaller [2, 7, 1] [9, 9] [9] 2 [7, 0] (by decide) (by decide)
  exact ⟨stored, hrun⟩

end DevBench.Wire
