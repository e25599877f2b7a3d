import DevBench.Wire.Crc32
import DevBench.Wire.Safety
import DevBench.Wire.StudyStart

/-!
# What a seal covers

Each list of an accepted study has a span: from behind its own count to before its
seal. A flag compares the seal with the CRC of exactly that span, the spans are
disjoint, and so a burst of four bytes in one list breaks that list's seal alone.
-/

namespace DevBench.Wire

open DevBench.Core DevBench.Core.Reader DevBench.Eap

/-- The lists of a study that are sealed. -/
inductive SealedPart where
  | steps
  | streams
  | protocols
  deriving DecidableEq, Repr

/-- The bytes from one index up to another. -/
structure Span where
  start : Nat
  stop : Nat
  deriving DecidableEq, Repr

/-- The bytes of a span. -/
def Span.bytes (s : Span) (i : Input) : List UInt8 :=
  (i.bytes.drop s.start).take (s.stop - s.start)

/-- No byte stands in both spans. -/
def Span.Apart (s t : Span) : Prop := s.stop ≤ t.start ∨ t.stop ≤ s.start

/-- The strings differ, but only within at most four consecutive bytes of the span. -/
def BurstIn (s : Span) (xs ys : List UInt8) : Prop :=
  ∃ pre as bs post, xs = pre ++ as ++ post ∧ ys = pre ++ bs ++ post ∧ as ≠ bs ∧
    as.length = bs.length ∧ as.length ≤ 4 ∧ s.start ≤ pre.length ∧ pre.length + as.length ≤ s.stop

/-- The seal received for a list. -/
def StudyStart.crc (m : StudyStart) : SealedPart → UInt32
  | .steps => m.stepsCrc
  | .streams => m.streamsCrc
  | .protocols => m.protocolsCrc

/-- What the decoder found the seal of a list to be worth. -/
def StudyStart.crcValid (m : StudyStart) : SealedPart → Bool
  | .steps => m.stepsCrcValid
  | .streams => m.streamsCrcValid
  | .protocols => m.protocolsCrcValid

/-- Between `p` and `q` stand a count, that many elements, and their seal. -/
structure SealedList {α : Type} (i : Input) (m : Reader α) (p : Nat) (s : Span) (q : Nat)
    (xs : List α) (crc : UInt32) : Prop where
  count : Crosses i p pcReadVarint s.start xs.length
  elements : Elements i m s.start s.stop xs
  received : ∃ v, Crosses i s.stop pcReadVarint q v ∧ crc = UInt32.ofNat v

/-- Where the lists of a study stand: the log level is behind the seal of the taps
and before the count of the protocols. -/
structure Layout (i : Input) (m : StudyStart) (spans : SealedPart → Span) : Prop where
  supported : m.hasUnsupportedAction = false
  parts : ∃ p₁ tag p₂ p₃ p₄ level p₅,
    Crosses i 0 pcReadVarint p₁ tag ∧ tag % 2 ^ 32 = 6 ∧
    SealedList i readStep p₁ (spans .steps) p₂ (m.steps.items.map some) m.stepsCrc ∧
    SealedList i pcReadStreamTap p₂ (spans .streams) p₃ m.streams.items m.streamsCrc ∧
    Crosses i p₃ pcReadVarint p₄ level ∧
    SealedList i pcReadProtocolDef p₄ (spans .protocols) p₅ m.protocols.items m.protocolsCrc

/-! ## Finding the spans -/

/-- Every step of a supported study was crossed. -/
theorem elements_readSteps {i : Input} : ∀ {count index p q : Nat}
    {r : {r : List Step × Bool // r.1.length ≤ count}}, index + count ≤ dbmMaxStepsPerStudy →
      Accepts i p (readSteps index count) q r → r.1.2 = false →
      r.1.1.length = count ∧ Elements i readStep p q (r.1.1.map some)
  | 0, index, p, q, r, _, h, _ => by
    have hin := h.inside
    obtain ⟨rfl, rfl⟩ := h.pure
    exact ⟨rfl, .nil hin⟩
  | count + 1, index, p, q, r, hcap, h, hflag => by
    have hrest : Sound (readSteps (index + 1) count) := sound_readSteps (by omega)
    obtain ⟨s, step, hstep, h⟩ := h.record.bind (sound_readStep i p)
    cases step with
    | none =>
      obtain ⟨rfl, rfl⟩ := h.pure
      cases hflag
    | some step =>
      obtain ⟨t, rest, hsteps, h⟩ := h.bind (hrest i s)
      obtain ⟨rfl, rfl⟩ := h.pure
      obtain ⟨hlen, helems⟩ := elements_readSteps (by omega) hsteps.accepts hflag
      exact ⟨congrArg Nat.succ hlen, .cons hstep helems⟩

/-- The seal read behind a span and what it is worth. -/
theorem accepts_readSeal {α : Type} {i : Input} {p start : Nat} {f : UInt32 × Bool → Reader α}
    {r : Nat} {a : α} (h : Accepts i p (readSeal start >>= f) r a) :
    ∃ q crc, (∃ v, Crosses i p pcReadVarint q v ∧ crc = UInt32.ofNat v) ∧
      Accepts i q (f (crc, dbmCrc32 ((Span.mk start p).bytes i) == crc)) r a := by
  simp only [readSeal, readVarint32, bind_assoc] at h
  obtain ⟨q, v, hv, h⟩ := h.position.bind (sound_pcReadVarint i p)
  have hspan := Accepts.spanned
    (f := fun bytes => f (UInt32.ofNat v, dbmCrc32 bytes == UInt32.ofNat v)) h
  exact ⟨q, UInt32.ofNat v, ⟨v, hv, rfl⟩, hspan⟩

theorem accepts_readStreams {α : Type} {i : Input} {p r : Nat}
    {f : Slots StreamTap dbmMaxStreamsPerStudy × UInt32 × Bool → Reader α} {a : α}
    (h : Accepts i p (readStreams >>= f) r a) :
    ∃ s q streams crc, SealedList i pcReadStreamTap p s q streams.items crc ∧
      Accepts i q (f (streams, crc, dbmCrc32 (s.bytes i) == crc)) r a := by
  rw [readStreams, bind_assoc] at h
  obtain ⟨start, len, hcount, h⟩ := h.bind (sound_pcReadVarint i p)
  by_cases hlen : len ≤ dbmMaxStreamsPerStudy
  · rw [dif_pos hlen, bind_assoc] at h
    have hfill : Sound (fill pcReadStreamTap dbmMaxStreamsPerStudy 0 len) :=
      sound_fill sound_pcReadStreamTap (by omega)
    have h := h.position
    simp only [bind_assoc] at h
    obtain ⟨stop, streams, hstreams, h⟩ := h.bind (hfill i start)
    obtain ⟨q, crc, hcrc, h⟩ := accepts_readSeal h
    have helems := hstreams.accepts.elements sound_pcReadStreamTap (by omega)
    exact ⟨⟨start, stop⟩, q, _, crc, ⟨by rwa [streams.2], helems, hcrc⟩, h⟩
  · rw [dif_neg hlen] at h
    obtain ⟨_, _, hfail, _⟩ := h.bind (sound_fail i start)
    exact absurd hfail.accepts not_accepts_fail

theorem accepts_readProtocols {α : Type} {i : Input} {p r : Nat}
    {f : Slots ProtocolDef dbmMaxProtocolsPerStudy × UInt32 × Bool → Reader α} {a : α}
    (h : Accepts i p (readProtocols >>= f) r a) :
    ∃ s q protocols crc, SealedList i pcReadProtocolDef p s q protocols.items crc ∧
      Accepts i q (f (protocols, crc, dbmCrc32 (s.bytes i) == crc)) r a := by
  rw [readProtocols, bind_assoc] at h
  obtain ⟨start, len, hcount, h⟩ := h.bind (sound_pcReadVarint i p)
  by_cases hlen : len ≤ dbmMaxProtocolsPerStudy
  · rw [dif_pos hlen, bind_assoc] at h
    have hfill : Sound (fill pcReadProtocolDef dbmMaxProtocolsPerStudy 0 len) :=
      sound_fill sound_pcReadProtocolDef (by omega)
    have h := h.position
    simp only [bind_assoc] at h
    obtain ⟨stop, protocols, hprotocols, h⟩ := h.bind (hfill i start)
    have h := h.position.buffer
    by_cases hwire : i.sub stop start > dbmMaxProtocolsWireLen
    · rw [if_pos hwire] at h
      obtain ⟨_, _, hfail, _⟩ := h.bind (sound_fail i stop)
      exact absurd hfail.accepts not_accepts_fail
    · rw [if_neg hwire, bind_assoc] at h
      obtain ⟨q, crc, hcrc, h⟩ := accepts_readSeal h
      have helems := hprotocols.accepts.elements sound_pcReadProtocolDef (by omega)
      exact ⟨⟨start, stop⟩, q, _, crc, ⟨by rwa [protocols.2], helems, hcrc⟩, h⟩
  · rw [dif_neg hlen] at h
    obtain ⟨_, _, hfail, _⟩ := h.bind (sound_fail i start)
    exact absurd hfail.accepts not_accepts_fail

/-- The one branch of the decoder that yields a study. -/
theorem accepts_readStudyStart {i : Input} {q : Nat} {m : StudyStart}
    (h : Accepts i 0 decodeBody q (.studyStart m)) :
    ∃ p tag, Crosses i 0 pcReadVarint p tag ∧ tag % 2 ^ 32 = 6 ∧
      Accepts i p readStudyStart q m := by
  obtain ⟨p, tag, htag, h⟩ := h.bind (sound_pcReadVarint i 0)
  split at h
  · obtain ⟨_, _, _, h⟩ := h.bind (sound_readHello i p)
    cases h.pure.2
  · obtain ⟨_, _, _, h⟩ := h.bind (sound_readHelloAck i p)
    cases h.pure.2
  · obtain ⟨_, _, _, h⟩ := h.bind (sound_pcReadStr (by decide) i p)
    cases h.pure.2
  · next hsix =>
    obtain ⟨_, _, hstudy, h⟩ := h.bind (sound_readStudyStart i p)
    obtain ⟨rfl, hm⟩ := h.pure
    cases hm
    exact ⟨p, tag, htag, hsix, hstudy.accepts⟩
  · obtain ⟨_, _, _, h⟩ := h.bind (sound_readStepResult i p)
    cases h.pure.2
  · obtain ⟨_, _, _, h⟩ := h.bind (sound_byte i p)
    cases h.pure.2
  · exact absurd h not_accepts_fail

/-- An accepted study has found no seal to be worth anything or has found each to
be worth what its span says. -/
theorem layout_of_accepts {i : Input} {q : Nat} {m : StudyStart}
    (h : Accepts i 0 decodeBody q (.studyStart m)) :
    (m.hasUnsupportedAction = true ∧ ∀ part, m.crcValid part = false) ∨
      ∃ spans, Layout i m spans ∧
        ∀ part, m.crcValid part = (dbmCrc32 ((spans part).bytes i) == m.crc part) := by
  obtain ⟨p₁, tag, htag, hsix, h⟩ := accepts_readStudyStart h
  obtain ⟨start, len, hcount, h⟩ := h.bind (sound_pcReadVarint i p₁)
  by_cases hlen : len ≤ dbmMaxStepsPerStudy
  · rw [dif_pos hlen] at h
    obtain ⟨stop, steps, hsteps, h⟩ := h.position.bind (sound_readSteps (by omega) i start)
    cases hflag : steps.1.2 with
    | true =>
      rw [hflag] at h
      cases h.pure.2
      refine .inl ⟨rfl, fun part => ?_⟩
      cases part <;> rfl
    | false =>
      obtain ⟨hall, helems⟩ := elements_readSteps (by omega) hsteps.accepts hflag
      rw [hflag] at h
      obtain ⟨p₂, stepsCrc, hstepsCrc, h⟩ := accepts_readSeal h
      obtain ⟨streams, p₃, taps, streamsCrc, hstreams, h⟩ := accepts_readStreams h
      obtain ⟨p₄, level, hlevel, h⟩ := h.bind (sound_pcReadVarint i p₃)
      obtain ⟨protocols, p₅, defs, protocolsCrc, hprotocols, h⟩ := accepts_readProtocols h
      cases h.pure.2
      refine .inr ⟨fun
        | .steps => ⟨start, stop⟩
        | .streams => streams
        | .protocols => protocols, ⟨rfl, p₁, tag, p₂, p₃, p₄, level, p₅, htag, hsix,
          ⟨by rwa [List.length_map, hall], helems, hstepsCrc⟩, hstreams, hlevel, hprotocols⟩,
        fun part => ?_⟩
      cases part <;> rfl
  · rw [dif_neg hlen] at h
    exact absurd h not_accepts_fail

/-! ## The spans are determined and apart -/

theorem SealedList.unique {α : Type} {i : Input} {m : Reader α} {p q q' : Nat} {s s' : Span}
    {xs : List α} {crc : UInt32} (h : SealedList i m p s q xs crc)
    (h' : SealedList i m p s' q' xs crc) : s = s' ∧ q = q' := by
  obtain ⟨hstart, -⟩ := h.count.runsTo.unique h'.count.runsTo
  have hstop : s.stop = s'.stop := h.elements.unique (by rw [hstart]; exact h'.elements)
  obtain ⟨v, hv, -⟩ := h.received
  obtain ⟨v', hv', -⟩ := h'.received
  rw [hstop] at hv
  obtain ⟨hq, -⟩ := hv.runsTo.unique hv'.runsTo
  cases s
  cases s'
  cases hstart
  cases hstop
  exact ⟨rfl, hq⟩

theorem SealedList.le {α : Type} {i : Input} {m : Reader α} {p q : Nat} {s : Span} {xs : List α}
    {crc : UInt32} (h : SealedList i m p s q xs crc) :
    p ≤ s.start ∧ s.start ≤ s.stop ∧ s.stop ≤ q ∧ q ≤ i.len := by
  obtain ⟨v, hv, -⟩ := h.received
  exact ⟨h.count.le, h.elements.le.1, hv.le, hv.inside⟩

/-- A body and what was read of it leave no choice of the spans. -/
theorem Layout.unique {i : Input} {m : StudyStart} {spans spans' : SealedPart → Span}
    (h : Layout i m spans) (h' : Layout i m spans') : spans = spans' := by
  obtain ⟨p₁, tag, p₂, p₃, p₄, level, p₅, htag, -, hsteps, hstreams, hlevel, hprotocols⟩ := h.parts
  obtain ⟨q₁, tag', q₂, q₃, q₄, level', q₅, htag', -, hsteps', hstreams', hlevel', hprotocols'⟩ :=
    h'.parts
  obtain ⟨rfl, -⟩ := htag.runsTo.unique htag'.runsTo
  obtain ⟨h₁, rfl⟩ := hsteps.unique hsteps'
  obtain ⟨h₂, rfl⟩ := hstreams.unique hstreams'
  obtain ⟨rfl, -⟩ := hlevel.runsTo.unique hlevel'.runsTo
  obtain ⟨h₃, -⟩ := hprotocols.unique hprotocols'
  funext part
  cases part with
  | steps => exact h₁
  | streams => exact h₂
  | protocols => exact h₃

theorem Layout.start_le_stop {i : Input} {m : StudyStart} {spans : SealedPart → Span}
    (h : Layout i m spans) (part : SealedPart) : (spans part).start ≤ (spans part).stop := by
  obtain ⟨_, _, _, _, _, _, _, -, -, hsteps, hstreams, -, hprotocols⟩ := h.parts
  cases part with
  | steps => exact hsteps.le.2.1
  | streams => exact hstreams.le.2.1
  | protocols => exact hprotocols.le.2.1

theorem Layout.apart {i : Input} {m : StudyStart} {spans : SealedPart → Span}
    (h : Layout i m spans) {part other : SealedPart} (hne : other ≠ part) :
    (spans part).Apart (spans other) := by
  obtain ⟨_, _, _, _, _, _, _, -, -, hsteps, hstreams, hlevel, hprotocols⟩ := h.parts
  have h₁ := hsteps.le
  have h₂ := hstreams.le
  have h₃ := hlevel.le
  have h₄ := hprotocols.le
  unfold Span.Apart
  cases part <;> cases other <;> first | exact absurd rfl hne | omega

/-! ## Bursts -/

/-- A span around a piece of the buffer. -/
theorem Span.bytes_around {i : Input} {s : Span} {pre as post : List UInt8}
    (hi : i.bytes = pre ++ as ++ post) (hstart : s.start ≤ pre.length)
    (hstop : pre.length + as.length ≤ s.stop) :
    s.bytes i = pre.drop s.start ++ as ++ post.take (s.stop - (pre.length + as.length)) := by
  have hlen : (pre.drop s.start ++ as).length ≤ s.stop - s.start := by
    rw [List.length_append, List.length_drop]
    omega
  have hrest : s.stop - s.start - (pre.drop s.start ++ as).length =
      s.stop - (pre.length + as.length) := by
    rw [List.length_append, List.length_drop]
    omega
  rw [Span.bytes, hi, List.append_assoc, List.drop_append_of_le_length hstart,
    ← List.append_assoc, List.take_append, List.take_of_length_le hlen, hrest]

/-- A span apart from a piece of the buffer does not see it. -/
theorem Span.bytes_apart {i i' : Input} {s : Span} {pre as bs post : List UInt8}
    (hi : i.bytes = pre ++ as ++ post) (hi' : i'.bytes = pre ++ bs ++ post)
    (hlen : as.length = bs.length) (hle : s.start ≤ s.stop)
    (h : s.stop ≤ pre.length ∨ pre.length + as.length ≤ s.start) : s.bytes i = s.bytes i' := by
  rw [Span.bytes, Span.bytes, hi, hi']
  cases h with
  | inl hbefore =>
    have htake : s.stop - s.start ≤ (pre.drop s.start).length := by
      rw [List.length_drop]
      omega
    rw [List.append_assoc, List.append_assoc, List.drop_append_of_le_length (hle.trans hbefore),
      List.drop_append_of_le_length (hle.trans hbefore), List.take_append_of_le_length htake,
      List.take_append_of_le_length htake]
  | inr hafter =>
    have hdrop : ∀ xs : List UInt8, xs.length = as.length →
        (pre ++ xs ++ post).drop s.start = post.drop (s.start - (pre ++ as).length) := by
      intro xs hxs
      have hskip : (pre ++ xs).length ≤ s.start := by rwa [List.length_append, hxs]
      have hsame : (pre ++ xs).length = (pre ++ as).length := by
        rw [List.length_append, List.length_append, hxs]
      calc (pre ++ xs ++ post).drop s.start
          = (pre ++ xs).drop s.start ++ post.drop (s.start - (pre ++ xs).length) :=
            List.drop_append
        _ = post.drop (s.start - (pre ++ as).length) := by
            rw [List.drop_of_length_le hskip, hsame, List.nil_append]
    rw [hdrop as rfl, hdrop bs hlen.symm]

/-- A burst in a span changes its CRC. -/
theorem BurstIn.crc_ne {i i' : Input} {s : Span} (h : BurstIn s i.bytes i'.bytes) :
    dbmCrc32 (s.bytes i) ≠ dbmCrc32 (s.bytes i') := by
  obtain ⟨pre, as, bs, post, hi, hi', hne, hlen, hshort, hstart, hstop⟩ := h
  intro hcrc
  rw [Span.bytes_around hi hstart hstop, Span.bytes_around hi' hstart (by omega), hlen] at hcrc
  exact hne (dbmCrc32_burst hlen hshort _ _ hcrc)

/-- A burst in a span is not seen from a span apart from it. -/
theorem BurstIn.bytes_eq {i i' : Input} {s t : Span} (h : BurstIn s i.bytes i'.bytes)
    (hle : t.start ≤ t.stop) (hapart : s.Apart t) : t.bytes i = t.bytes i' := by
  obtain ⟨pre, as, bs, post, hi, hi', -, hlen, -, hstart, hstop⟩ := h
  apply Span.bytes_apart hi hi' hlen hle
  cases hapart with
  | inl hbefore => exact .inr (hstop.trans hbefore)
  | inr hafter => exact .inl (hafter.trans hstart)

/-! ## The seals -/

/-- A flag says that the CRC of its list's span is the seal received. -/
theorem crcValid_iff {i : Input} {m : StudyStart} {s : Span} {part : SealedPart}
    (h : m.crcValid part = (dbmCrc32 (s.bytes i) == m.crc part)) :
    m.crcValid part = true ↔ isoHdlc.crc (s.bytes i) = (m.crc part).toBitVec := by
  rw [h, beq_iff_eq, ← toBitVec_dbmCrc32_eq]
  exact UInt32.toBitVec_inj.symm

/-- The three seals are exact, and independent of each other: a burst in one list
breaks that list's seal and no other. -/
theorem crcValid_exact_independent {i : Input} {m : StudyStart}
    (hlog : Unwrapped (decodeBody i 0).log)
    (hm : (decodeBody i 0).value = some (.studyStart m)) :
    (m.hasUnsupportedAction = true ∧ ∀ part, m.crcValid part = false) ∨
      ∃ spans, Layout i m spans ∧
        (∀ part other, other ≠ part → (spans part).Apart (spans other)) ∧
        (∀ part, m.crcValid part = true ↔
          isoHdlc.crc ((spans part).bytes i) = (m.crc part).toBitVec) ∧
        ∀ {i' : Input} {m' : StudyStart}, Unwrapped (decodeBody i' 0).log →
          (decodeBody i' 0).value = some (.studyStart m') → Layout i' m' spans →
          (∀ part, m'.crc part = m.crc part) →
          ∀ part, BurstIn (spans part) i.bytes i'.bytes → m.crcValid part = true →
            m'.crcValid part = false ∧
            ∀ other, other ≠ part → m'.crcValid other = m.crcValid other := by
  cases layout_of_accepts (.of_value (Nat.zero_le _) hm hlog) with
  | inl hnone => exact .inl hnone
  | inr hfound =>
    obtain ⟨spans, hlayout, hvalid⟩ := hfound
    refine .inr ⟨spans, hlayout, fun _ _ hne => hlayout.apart hne,
      fun part => crcValid_iff (hvalid part), ?_⟩
    intro i' m' hlog' hm' hlayout' hcrc part hburst hflag
    have hvalid' : ∀ part, m'.crcValid part =
        (dbmCrc32 ((spans part).bytes i') == m'.crc part) := by
      cases layout_of_accepts (.of_value (Nat.zero_le _) hm' hlog') with
      | inl hnone => exact absurd hnone.1 (by rw [hlayout'.supported]; decide)
      | inr hfound' =>
        obtain ⟨spans', hspans', hvalid'⟩ := hfound'
        rwa [hspans'.unique hlayout'] at hvalid'
    constructor
    · have hseal : dbmCrc32 ((spans part).bytes i) = m.crc part := by
        rwa [hvalid, beq_iff_eq] at hflag
      rw [hvalid', hcrc, ← hseal, beq_eq_false_iff_ne]
      exact hburst.crc_ne.symm
    · intro other hne
      have hsame := hburst.bytes_eq (hlayout.start_le_stop other) (hlayout.apart hne)
      rw [hvalid', hvalid, hcrc, hsame]

/-- A study of one transcript tap, sealed as if the tap's number were 3. -/
def tapBody (id : UInt8) : Input :=
  { width32 with
    bytes := [6, 0, 0, 1, id, 0, 2, 0, 0, 163, 179, 153, 144, 8, 0, 0, 0]
    fits := width32.lt_two_pow (show 17 < 2 ^ 32 by decide) }

/-- What is kept of it. -/
def tapStudy (id : UInt8) (valid : Bool) : StudyStart where
  steps := .empty
  stepsCrc := 0
  stepsCrcValid := true
  streams := ⟨[⟨id, .gattTranscript, .wholeStudy, Vector.replicate 16 0⟩], Nat.le_add_left 1 _⟩
  streamsCrc := 2181454243
  streamsCrcValid := valid
  hasUnsupportedAction := false
  devBenchLogLevel := 0
  protocols := .empty
  protocolsCrc := 0
  protocolsCrcValid := true

/-- Its lists stand where they stand whatever the number is. -/
def tapSpans : SealedPart → Span
  | .steps => ⟨2, 2⟩
  | .streams => ⟨4, 9⟩
  | .protocols => ⟨16, 16⟩

/-- Every number of those bodies, with where it stands. -/
def tapVarints : List (Nat × Nat × Nat) :=
  [(0, 1, 6), (1, 2, 0), (2, 3, 0), (3, 4, 1), (9, 14, 2181454243), (14, 15, 0), (15, 16, 0),
    (16, 17, 0)]

theorem crosses_tapBody {id : UInt8} (h : id ∈ [3, 4]) :
    (∀ v ∈ tapVarints, Crosses (tapBody id) v.1 pcReadVarint v.2.1 v.2.2) ∧
    Crosses (tapBody id) 4 pcReadStreamTap 9
      ⟨id, .gattTranscript, .wholeStudy, Vector.replicate 16 0⟩ := by
  have hrun : ∀ id ∈ [3, 4],
      (∀ v ∈ tapVarints, (pcReadVarint (tapBody id) v.1).value = some v.2.2 ∧
        (pcReadVarint (tapBody id) v.1).pos = v.2.1 ∧
        Unwrapped (pcReadVarint (tapBody id) v.1).log ∧ v.1 ≤ v.2.1 ∧ v.2.1 ≤ 17) ∧
      (pcReadStreamTap (tapBody id) 4).value =
        some ⟨id, .gattTranscript, .wholeStudy, Vector.replicate 16 0⟩ ∧
      (pcReadStreamTap (tapBody id) 4).pos = 9 ∧
      Unwrapped (pcReadStreamTap (tapBody id) 4).log := by
    decide +kernel
  obtain ⟨hvarints, hvalue, hpos, hlog⟩ := hrun id h
  refine ⟨fun v hv => ?_, ?_⟩
  · obtain ⟨hvalue, hpos, hlog, hle, hin⟩ := hvarints v hv
    have hrun : Accepts (tapBody id) v.1 pcReadVarint _ v.2.2 :=
      .of_value (hle.trans hin) hvalue hlog
    rw [hpos] at hrun
    exact ⟨hrun, hle, hin⟩
  · have hrun : Accepts (tapBody id) 4 pcReadStreamTap _ _ :=
      .of_value (show 4 ≤ 17 by decide) hvalue hlog
    rw [hpos] at hrun
    exact ⟨hrun, by decide, show 9 ≤ 17 by decide⟩

theorem layout_tapBody {id : UInt8} (h : id ∈ [3, 4]) (valid : Bool) :
    Layout (tapBody id) (tapStudy id valid) tapSpans := by
  obtain ⟨hv, htap⟩ := crosses_tapBody h
  have hnil : ∀ {α : Type} {m : Reader α} {p : Nat}, p ≤ 17 → Elements (tapBody id) m p p [] :=
    fun hp => .nil hp
  refine ⟨rfl, 1, 6, 3, 14, 15, 0, 17, hv (0, 1, 6) (by decide), by decide, ⟨?_, ?_, ?_⟩,
    ⟨?_, ?_, ?_⟩, hv (14, 15, 0) (by decide), ⟨?_, ?_, ?_⟩⟩
  · exact hv (1, 2, 0) (by decide)
  · exact hnil (by decide)
  · exact ⟨0, hv (2, 3, 0) (by decide), rfl⟩
  · exact hv (3, 4, 1) (by decide)
  · exact .cons htap (hnil (by decide))
  · exact ⟨2181454243, hv (9, 14, 2181454243) (by decide), rfl⟩
  · exact hv (15, 16, 0) (by decide)
  · exact hnil (by decide)
  · exact ⟨0, hv (16, 17, 0) (by decide), rfl⟩

theorem decodeBody_tapBody :
    (decodeBody (tapBody 3) 0).value = some (.studyStart (tapStudy 3 true)) ∧
    Unwrapped (decodeBody (tapBody 3) 0).log ∧
    (decodeBody (tapBody 4) 0).value = some (.studyStart (tapStudy 4 false)) ∧
    Unwrapped (decodeBody (tapBody 4) 0).log := by
  decide +kernel

/-- Changing the number of the tap breaks the seal of the taps and leaves the others. -/
theorem crcValid_exact_independent_tapBody :
    isoHdlc.crc (Span.bytes ⟨4, 9⟩ (tapBody 3)) = 2181454243#32 ∧
    (tapStudy 4 false).crcValid .streams = false ∧
    ∀ other, other ≠ .streams →
      (tapStudy 4 false).crcValid other = (tapStudy 3 true).crcValid other := by
  obtain ⟨hm, hlog, hm', hlog'⟩ := decodeBody_tapBody
  have hburst : BurstIn (tapSpans .streams) (tapBody 3).bytes (tapBody 4).bytes :=
    ⟨[6, 0, 0, 1], [3], [4], [0, 2, 0, 0, 163, 179, 153, 144, 8, 0, 0, 0], rfl, rfl, by decide,
      rfl, by decide, by decide, by decide⟩
  obtain ⟨hnone, -⟩ | ⟨spans, hlayout, -, hexact, hindependent⟩ :=
    crcValid_exact_independent hlog hm
  · cases hnone
  · have hspans := hlayout.unique (layout_tapBody (by decide) true)
    rw [hspans] at hexact hindependent
    exact ⟨(hexact .streams).mp rfl, hindependent hlog' hm' (layout_tapBody (by decide) false)
      (fun part => by cases part <;> rfl) .streams hburst rfl⟩

end DevBench.Wire
