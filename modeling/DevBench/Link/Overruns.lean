import DevBench.Core.Machine
import DevBench.Link.Receive

/-!
# Overruns of the link

The interrupt handler of the link's UART puts what it reads into a ring and counts what does
not fit; the reader tells of it when it is idle between two frames. What was told already is
a local of `receive_message`: a call behind a message counts from zero again.
-/

namespace DevBench.Link

open DevBench.Core DevBench.Core.Traced DevBench.Wire

/-- `LINK_RX_RING_BYTES`. -/
abbrev linkRxRingBytes : Nat := 2048

/-- `LINK_RX_CHUNK_BYTES`. -/
abbrev linkRxChunkBytes : Nat := 64

/-- The receive side of the link. -/
structure LinkRx where
  /-- `link_rx_ring`, the byte that came first in front. -/
  ring : Slots UInt8 linkRxRingBytes
  linkRxOverruns : UInt32
  receiver : Receiver
  /-- `link_rx_byte` found no byte, and the counter is read next. -/
  idle : Bool
  /-- What the calls of `receive_message` have done. -/
  acts : List RxAct

namespace LinkRx

/-- The ring is empty, and nothing was discarded. -/
def boot : LinkRx := ⟨.empty, 0, .start, false, []⟩

/-- What `ring_buf_put` returns: how many bytes of a chunk there was room for. -/
def stored (s : LinkRx) (chunk : Slots UInt8 linkRxChunkBytes) : Nat :=
  min (linkRxRingBytes - s.ring.items.length) chunk.items.length

/-- How many bytes of a chunk the handler discards. -/
def overrunBy (s : LinkRx) (chunk : Slots UInt8 linkRxChunkBytes) : Nat :=
  chunk.items.length - s.stored chunk

/-- One round of the loop of `link_uart_isr`, for the chunk it read. -/
def linkUartIsr (s : LinkRx) (chunk : Slots UInt8 linkRxChunkBytes) : LinkRx :=
  { s with
    ring := .clamp (s.ring.items ++ chunk.items)
    linkRxOverruns := if s.stored chunk < chunk.items.length
      then s.linkRxOverruns + UInt32.ofNat (s.overrunBy chunk) else s.linkRxOverruns }

/-- `link_rx_byte`: the byte that came first, and the ring without it. -/
def linkRxByte (ring : Slots UInt8 linkRxRingBytes) :
    Option (UInt8 × Slots UInt8 linkRxRingBytes) :=
  match ring with
  | ⟨[], _⟩ => none
  | ⟨byte :: rest, h⟩ => some (byte, ⟨rest, Nat.le_of_succ_le h⟩)

/-- A turn of the reader's loop. -/
def turn (w : Width) (s : LinkRx) (ev : RxEvent) : LinkRx :=
  let t := receiveStep w s.receiver ev
  { s with receiver := t.value, acts := s.acts ++ t.log }

end LinkRx

/-- The handler reads a chunk, or the reader looks for a byte or, having found none, at the
counter. The handler may come in between. -/
inductive RxMove where
  | interrupt (chunk : Slots UInt8 linkRxChunkBytes)
  | readByte
  | readOverruns

/-- A move of the interrupt or of the thread. -/
def step (w : Width) (s : LinkRx) : RxMove → Option LinkRx
  | .interrupt chunk => some (s.linkUartIsr chunk)
  | .readByte =>
    if s.idle then none
    else
      match LinkRx.linkRxByte s.ring with
      | none => some { s with idle := true }
      | some (byte, ring) => some ({ s with ring := ring }.turn w (.byte byte))
  | .readOverruns =>
    if s.idle then some ({ s with idle := false }.turn w (.idle s.linkRxOverruns)) else none

/-! ## What is told -/

/-- A line that tells of overruns counts the bytes discarded while the counter went from one
value to another. -/
structure Span where
  lo : UInt32
  hi : UInt32
  deriving DecidableEq, Repr

namespace Span

/-- The number in the line. -/
def count (span : Span) : Nat := (span.hi - span.lo).toNat

/-- The discarded byte of this number is counted in the line. -/
def covers (span : Span) (k : Nat) : Bool := span.lo.toNat ≤ k && k < span.hi.toNat

/-- The line. -/
def act (span : Span) : RxAct :=
  .logLine (ascii ("link RX overran: " ++ toString span.count ++
    " inbound byte(s) dropped -- a frame was almost certainly lost"))

end Span

/-- The reader is idle between two frames. -/
def LinkRx.between (s : LinkRx) : Bool := s.receiver.rxBuf.isEmpty

/-- The span of the line a look at the counter sends, if it sends one. -/
def LinkRx.due (s : LinkRx) : List Span :=
  if s.linkRxOverruns ≠ s.receiver.reportedOverruns ∧ s.receiver.rxBuf.length = 0 then
    [⟨s.receiver.reportedOverruns, s.linkRxOverruns⟩]
  else []

/-- What an onlooker keeps of a run. -/
structure Tally where
  /-- How many bytes the handler has discarded. -/
  discarded : Nat
  /-- The spans of the lines sent. -/
  spans : List Span
  /-- A call that has returned was idle between frames with bytes discarded. -/
  told : Bool
  /-- So was the call that goes on. -/
  telling : Bool
  deriving DecidableEq, Repr

/-- Nothing was discarded, and nothing reported. -/
def Tally.zero : Tally := ⟨0, [], false, false⟩

/-- The call returns a message, and the next one begins. -/
def Tally.returned (t : Tally) : Tally :=
  { t with told := t.told || t.telling, telling := false }

/-- What an onlooker notes of a move. -/
def see (w : Width) (s : LinkRx) (m : RxMove) (t : Tally) : Tally :=
  match m with
  | .interrupt chunk => { t with discarded := t.discarded + s.overrunBy chunk }
  | .readByte =>
    match LinkRx.linkRxByte s.ring with
    | none => t
    | some (byte, _) =>
      if delivered (receiveStep w s.receiver (.byte byte)).log = [] then t else t.returned
  | .readOverruns =>
    { t with
      spans := t.spans ++ s.due
      telling := t.telling || (s.between && s.linkRxOverruns != 0) }

variable {w : Width} {s s' : LinkRx} {t : Tally}

/-- A move takes a chunk in, reads a byte or finds none, or polls the counter. -/
theorem step_cases {m : RxMove} (h : step w s m = some s') :
    (∃ chunk, m = .interrupt chunk ∧ s' = s.linkUartIsr chunk) ∨
    (m = .readByte ∧ LinkRx.linkRxByte s.ring = none ∧ s' = { s with idle := true }) ∨
    (∃ byte ring, m = .readByte ∧ LinkRx.linkRxByte s.ring = some (byte, ring) ∧
      s' = { s with ring := ring }.turn w (.byte byte)) ∨
    (m = .readOverruns ∧ s' = { s with idle := false }.turn w (.idle s.linkRxOverruns)) := by
  cases m with
  | interrupt chunk => exact .inl ⟨chunk, rfl, (Option.some.inj h).symm⟩
  | readByte =>
    rw [step] at h
    split at h
    · cases h
    · cases hbyte : LinkRx.linkRxByte s.ring with
      | none =>
        rw [hbyte] at h
        exact .inr (.inl ⟨rfl, rfl, (Option.some.inj h).symm⟩)
      | some front =>
        rw [hbyte] at h
        exact .inr (.inr (.inl ⟨front.1, front.2, rfl, rfl, (Option.some.inj h).symm⟩))
  | readOverruns =>
    obtain ⟨-, h⟩ := Option.ite_none_right_eq_some.mp h
    exact .inr (.inr (.inr ⟨rfl, (Option.some.inj h).symm⟩))

/-! ## One turn of the reader -/

/-- A look at the counter sends the line that is due, and takes it for told. -/
theorem receiveStep_idle (w : Width) (s : LinkRx) :
    (receiveStep w s.receiver (.idle s.linkRxOverruns)).log = s.due.map Span.act ∧
      (receiveStep w s.receiver (.idle s.linkRxOverruns)).value =
        if s.between then { s.receiver with reportedOverruns := s.linkRxOverruns }
        else s.receiver := by
  have hbetween : s.between = true ↔ s.receiver.rxBuf.length = 0 := by
    rw [LinkRx.between, List.isEmpty_iff, List.length_eq_zero_iff]
  simp only [receiveStep, LinkRx.due, hbetween]
  split
  · next h => exact ⟨rfl, (if_pos h.2).symm⟩
  · next h =>
    refine ⟨rfl, ?_⟩
    split
    · next hlength =>
      have hsame : s.linkRxOverruns = s.receiver.reportedOverruns := by
        by_contra hne
        exact h ⟨hne, hlength⟩
      rw [hsame]
      rfl
    · rfl

/-- A byte sends no line, and leaves what was told alone unless a message is returned. -/
theorem receiveStep_byte (w : Width) (r : Receiver) (byte : UInt8) :
    (delivered (receiveStep w r (.byte byte)).log = [] ∧
        (receiveStep w r (.byte byte)).value.reportedOverruns = r.reportedOverruns) ∨
      (delivered (receiveStep w r (.byte byte)).log ≠ [] ∧
        (receiveStep w r (.byte byte)).value = .start) := by
  by_cases hbyte : byte = 0
  · simp only [receiveStep, if_pos hbyte]
    split
    · exact .inr ⟨List.cons_ne_nil _ _, rfl⟩
    · exact .inl ⟨rfl, rfl⟩
  · simp only [receiveStep, if_neg hbyte]
    split <;> exact .inl ⟨rfl, rfl⟩

/-! ## Lines that count each byte once -/

/-- The bytes below `n` are counted, each of them once, and no other one is. -/
structure Counted (spans : List Span) (n : Nat) : Prop where
  sum : (spans.map Span.count).sum = n
  once : ∀ k, spans.countP (·.covers k) = if k < n then 1 else 0

/-- No report, nothing counted. -/
theorem counted_nil : Counted [] 0 := ⟨rfl, fun _ => rfl⟩

/-- A span counts from its lower to its upper end. -/
theorem Span.count_eq {span : Span} (h : span.lo ≤ span.hi) :
    span.lo.toNat + span.count = span.hi.toNat := by
  have hle : span.lo.toNat ≤ span.hi.toNat := UInt32.le_iff_toNat_le.mp h
  rw [count, UInt32.toNat_sub_of_le _ _ h]
  omega

/-- One more line, from where the others end. -/
theorem Counted.snoc {spans : List Span} {span : Span} (h : Counted spans span.lo.toNat)
    (hle : span.lo ≤ span.hi) : Counted (spans ++ [span]) span.hi.toNat where
  sum := by
    rw [List.map_append, List.sum_append, h.sum, List.map_singleton, List.sum_singleton,
      Span.count_eq hle]
  once k := by
    have hnat : span.lo.toNat ≤ span.hi.toNat := UInt32.le_iff_toNat_le.mp hle
    rw [List.countP_append, h.once, List.countP_singleton, Span.covers]
    by_cases hlo : k < span.lo.toNat
    · have hout : ¬ span.lo.toNat ≤ k := Nat.not_le.mpr hlo
      have hhi : k < span.hi.toNat := by omega
      simp [hlo, hout, hhi]
    · have hin : span.lo.toNat ≤ k := Nat.not_lt.mp hlo
      simp [hlo, hin]

/-- The counts are right: together they are no more than the bytes discarded, and no byte is
counted in two lines. -/
structure Accounted (t : Tally) : Prop where
  sum : (t.spans.map Span.count).sum ≤ t.discarded
  once : ∀ k, t.spans.countP (·.covers k) ≤ 1

/-- Some byte is counted twice. -/
def Twice (t : Tally) : Prop := ∃ k, 2 ≤ t.spans.countP (·.covers k)

/-- What was counted twice is not accounted for. -/
theorem Twice.not_accounted (h : Twice t) : ¬ Accounted t := by
  intro haccounted
  obtain ⟨k, hk⟩ := h
  have honce := haccounted.once k
  omega

/-- What was counted once is, as far as it was discarded. -/
theorem Counted.toAccounted {n : Nat} (h : Counted t.spans n) (hle : n ≤ t.discarded) :
    Accounted t where
  sum := h.sum.trans_le hle
  once k := by
    rw [h.once]
    split <;> omega

/-! ## Runs -/

/-- The state of a run in which every byte told of was told of once, up to the `n`th. -/
structure Clean (n : Nat) (s : LinkRx) (t : Tally) : Prop where
  counter : s.linkRxOverruns.toNat = t.discarded
  counted : Counted t.spans n
  le : n ≤ t.discarded
  /-- Behind a call that told the bytes are told of already, and the next call does not know. -/
  told : t.told = true → 0 < n ∧ s.receiver.reportedOverruns = 0
  fresh : t.told = false → s.receiver.reportedOverruns.toNat = n
  telling : t.telling = (s.receiver.reportedOverruns != 0)

/-- At boot all is accounted for. -/
theorem clean_boot : Clean 0 LinkRx.boot .zero where
  counter := rfl
  counted := counted_nil
  le := Nat.le_refl 0
  told := nofun
  fresh _ := rfl
  telling := rfl

namespace Clean

variable {n : Nat}

/-- The counter counts on, as long as it does not start over. -/
theorem interrupt (h : Clean n s t) (chunk : Slots UInt8 linkRxChunkBytes)
    (hfew : t.discarded + s.overrunBy chunk < 2 ^ 32) :
    Clean n (s.linkUartIsr chunk) { t with discarded := t.discarded + s.overrunBy chunk } where
  counter := by
    have hcounter := h.counter
    rw [LinkRx.linkUartIsr]
    split
    · rw [UInt32.toNat_add, UInt32.toNat_ofNat', hcounter]
      change (t.discarded + s.overrunBy chunk % 2 ^ 32) % 2 ^ 32 = t.discarded + s.overrunBy chunk
      omega
    · next hstored =>
      have hnone : s.overrunBy chunk = 0 := Nat.sub_eq_zero_of_le (Nat.not_lt.mp hstored)
      rw [hnone, Nat.add_zero]
      exact hcounter
  counted := h.counted
  le := Nat.le_add_right_of_le h.le
  told := h.told
  fresh := h.fresh
  telling := h.telling

/-- A byte is read and no message returned. -/
theorem keep (h : Clean n s t) {s' : LinkRx} (hcounter : s'.linkRxOverruns = s.linkRxOverruns)
    (hreported : s'.receiver.reportedOverruns = s.receiver.reportedOverruns) : Clean n s' t where
  counter := by rw [hcounter, h.counter]
  counted := h.counted
  le := h.le
  told := by rw [hreported]; exact h.told
  fresh := by rw [hreported]; exact h.fresh
  telling := by rw [hreported]; exact h.telling

/-- A call returns: what it told is not known to the next one. -/
theorem returned (h : Clean n s t) {s' : LinkRx} (hcounter : s'.linkRxOverruns = s.linkRxOverruns)
    (hstart : s'.receiver = .start) : Clean n s' t.returned where
  counter := by rw [hcounter]; exact h.counter
  counted := h.counted
  le := h.le
  told htold := by
    refine ⟨?_, by rw [hstart]; rfl⟩
    rcases Bool.or_eq_true_iff.mp htold with htold | htelling
    · exact (h.told htold).1
    · have hreported : s.receiver.reportedOverruns ≠ 0 := by
        rw [h.telling] at htelling
        exact bne_iff_ne.mp htelling
      cases htold : t.told with
      | true => exact absurd (h.told htold).2 hreported
      | false =>
        rw [← h.fresh htold, Nat.pos_iff_ne_zero]
        exact fun hzero => hreported (UInt32.toNat_inj.mp hzero)
  fresh htold := by
    obtain ⟨htold, htelling⟩ := Bool.or_eq_false_iff.mp htold
    have hreported : s.receiver.reportedOverruns = 0 := by
      rw [h.telling] at htelling
      simpa using htelling
    rw [hstart, ← h.fresh htold, hreported]
    rfl
  telling := by rw [hstart]; rfl

/-- The line that is due counts the bytes from the last one told of on. -/
theorem counted_due (h : Clean n s t) (hbetween : s.between = true) (htold : t.told = false) :
    Counted (t.spans ++ s.due) t.discarded := by
  have hlength : s.receiver.rxBuf.length = 0 := by
    rwa [List.length_eq_zero_iff, ← List.isEmpty_iff]
  have hfrom : Counted t.spans s.receiver.reportedOverruns.toNat := h.fresh htold ▸ h.counted
  rw [LinkRx.due, ← h.counter]
  by_cases hmore : s.linkRxOverruns = s.receiver.reportedOverruns
  · rw [if_neg fun hdue => hdue.1 hmore, List.append_nil, hmore]
    exact hfrom
  · rw [if_pos ⟨hmore, hlength⟩]
    have hle : s.receiver.reportedOverruns ≤ s.linkRxOverruns := by
      rw [UInt32.le_iff_toNat_le, h.fresh htold, h.counter]
      exact h.le
    exact @Counted.snoc t.spans ⟨s.receiver.reportedOverruns, s.linkRxOverruns⟩ hfrom hle

/-- A look at the counter between frames, in a run in which no earlier call has told. -/
theorem look (h : Clean n s t) (hbetween : s.between = true) (htold : t.told = false)
    {s' : LinkRx} (hcounter : s'.linkRxOverruns = s.linkRxOverruns)
    (hreceiver : s'.receiver = { s.receiver with reportedOverruns := s.linkRxOverruns }) :
    Clean t.discarded s' (see w s .readOverruns t) where
  counter := by rw [hcounter]; exact h.counter
  counted := h.counted_due hbetween htold
  le := Nat.le_refl _
  told htrue := by
    rw [show t.told = true from htrue] at htold
    cases htold
  fresh _ := by rw [hreceiver]; exact h.counter
  telling := by
    rw [hreceiver]
    change (t.telling || (s.between && s.linkRxOverruns != 0)) = (s.linkRxOverruns != 0)
    rw [hbetween, Bool.true_and, h.telling]
    by_cases hzero : s.linkRxOverruns = 0
    · have hreported : s.receiver.reportedOverruns = 0 := by
        have hle := h.le
        rw [← h.fresh htold, ← h.counter, hzero] at hle
        exact UInt32.toNat_inj.mp (Nat.le_zero.mp hle)
      rw [hreported, hzero]
      rfl
    · rw [bne_iff_ne.mpr hzero, Bool.or_true]

/-- A look at the counter in the middle of a frame, or with nothing to tell of. -/
theorem look_quiet (h : Clean n s t) (hquiet : s.between = false ∨ t.discarded = 0)
    {s' : LinkRx} (hcounter : s'.linkRxOverruns = s.linkRxOverruns)
    (hreceiver : s'.receiver = if s.between then
      { s.receiver with reportedOverruns := s.linkRxOverruns } else s.receiver) :
    Clean n s' (see w s .readOverruns t) := by
  cases hbetween : s.between with
  | false =>
    have hdue : s.due = [] := by
      rw [LinkRx.due, if_neg]
      rintro ⟨-, hlength⟩
      rw [LinkRx.between, List.isEmpty_iff.mpr (List.length_eq_zero_iff.mp hlength)] at hbetween
      cases hbetween
    have hsee : see w s .readOverruns t = t := by simp [see, hdue, hbetween]
    rw [hbetween] at hreceiver
    rw [hsee]
    exact h.keep hcounter (congrArg Receiver.reportedOverruns hreceiver)
  | true =>
    have hzero : t.discarded = 0 := hquiet.resolve_left (by rw [hbetween]; exact Bool.noConfusion)
    have hn : n = 0 := Nat.le_zero.mp (hzero ▸ h.le)
    have htold : t.told = false := by
      by_contra htrue
      have hpos := (h.told (Bool.eq_true_of_not_eq_false htrue)).1
      omega
    rw [hbetween] at hreceiver
    rw [hn, ← hzero]
    exact h.look hbetween htold hcounter hreceiver

/-- A call that tells behind one that told counts the first byte again. -/
theorem twice (h : Clean n s t) (hbetween : s.between = true) (htold : t.told = true)
    (hsome : s.linkRxOverruns ≠ 0) : Twice (see w s .readOverruns t) := by
  obtain ⟨hpos, hreported⟩ := h.told htold
  have hlength : s.receiver.rxBuf.length = 0 := by
    rwa [List.length_eq_zero_iff, ← List.isEmpty_iff]
  have hdue : s.due = [⟨0, s.linkRxOverruns⟩] := by
    rw [LinkRx.due, hreported, if_pos ⟨hsome, hlength⟩]
  have hcovers : Span.covers ⟨0, s.linkRxOverruns⟩ 0 = true := by
    have hpos : 0 < s.linkRxOverruns.toNat :=
      Nat.pos_of_ne_zero fun hzero => hsome (UInt32.toNat_inj.mp hzero)
    simpa [Span.covers] using hpos
  refine ⟨0, ?_⟩
  change 2 ≤ (t.spans ++ s.due).countP _
  rw [hdue, List.countP_append, h.counted.once, if_pos hpos, List.countP_singleton, if_pos hcovers]

end Clean

/-- A byte counted twice stays so. -/
theorem Twice.see (h : Twice t) (m : RxMove) : Twice (see w s m t) := by
  obtain ⟨k, hk⟩ := h
  refine ⟨k, hk.trans ?_⟩
  cases m with
  | interrupt chunk => exact Nat.le_refl _
  | readByte =>
    simp only [Link.see]
    split
    · exact Nat.le_refl _
    · split <;> exact Nat.le_refl _
  | readOverruns =>
    change t.spans.countP _ ≤ (t.spans ++ s.due).countP _
    rw [List.countP_append]
    exact Nat.le_add_right _ _

/-- What was discarded stays so. -/
theorem discarded_le_see (w : Width) (s : LinkRx) (m : RxMove) (t : Tally) :
    t.discarded ≤ (see w s m t).discarded := by
  cases m with
  | interrupt chunk => exact Nat.le_add_right _ _
  | readByte =>
    simp only [see]
    split
    · exact Nat.le_refl _
    · split <;> exact Nat.le_refl _
  | readOverruns => exact Nat.le_refl _

/-- No earlier call was idle between frames with bytes discarded, if this one is. -/
def Alone (x : LinkRx × Tally) : RxMove → Prop
  | .readOverruns => x.1.between = true → x.1.linkRxOverruns ≠ 0 → x.2.told = false
  | _ => True

instance : ∀ x m, Decidable (Alone x m)
  | _, .readOverruns => inferInstanceAs (Decidable (_ → _ → _))
  | _, .interrupt _ | _, .readByte => isTrue trivial

/-- A move made alone leaves all accounted for. -/
theorem Clean.step {n : Nat} (h : Clean n s t) {m : RxMove} (halone : Alone (s, t) m)
    (hstep : step w s m = some s') (hfew : (see w s m t).discarded < 2 ^ 32) :
    ∃ n', Clean n' s' (see w s m t) := by
  rcases step_cases hstep with ⟨chunk, rfl, rfl⟩ | ⟨rfl, hnone, rfl⟩ |
    ⟨byte, ring, rfl, hbyte, rfl⟩ | ⟨rfl, rfl⟩
  · exact ⟨n, h.interrupt chunk hfew⟩
  · have hsee : see w s .readByte t = t := by simp only [see, hnone]
    rw [hsee]
    exact ⟨n, h.keep rfl rfl⟩
  · rcases receiveStep_byte w s.receiver byte with ⟨hgoes, hreported⟩ | ⟨hreturns, hstart⟩
    · have hsee : see w s .readByte t = t := by simp only [see, hbyte, if_pos hgoes]
      rw [hsee]
      exact ⟨n, h.keep rfl hreported⟩
    · have hsee : see w s .readByte t = t.returned := by
        simp only [see, hbyte, if_neg hreturns]
      rw [hsee]
      exact ⟨n, h.returned rfl hstart⟩
  · have hvalue := (receiveStep_idle w s).2
    by_cases hquiet : s.between = false ∨ t.discarded = 0
    · exact ⟨n, h.look_quiet hquiet rfl hvalue⟩
    · obtain ⟨hbetween, hsome⟩ := not_or.mp hquiet
      have hbetween : s.between = true := Bool.eq_true_of_not_eq_false hbetween
      have hcounter : s.linkRxOverruns ≠ 0 := by
        intro hzero
        apply hsome
        rw [← h.counter, hzero]
        rfl
      rw [if_pos hbetween] at hvalue
      exact ⟨_, h.look hbetween (halone hbetween hcounter) rfl hvalue⟩

/-- A look at the counter by a call that is not alone counts a byte twice. -/
theorem Clean.spoil {n : Nat} (h : Clean n s t) {m : RxMove} (halone : ¬ Alone (s, t) m) :
    Twice (see w s m t) := by
  cases m with
  | interrupt chunk => exact absurd trivial halone
  | readByte => exact absurd trivial halone
  | readOverruns =>
    simp only [Alone, not_forall] at halone
    obtain ⟨hbetween, hsome, htold⟩ := halone
    exact h.twice hbetween (Bool.eq_true_of_not_eq_false htold) hsome

/-- The lines sent. -/
def linesOf (acts : List RxAct) : List RxAct :=
  acts.filter fun act => match act with
    | .logLine _ => true
    | _ => false

/-- The lines come one part after the other. -/
theorem linesOf_append (xs ys : List RxAct) : linesOf (xs ++ ys) = linesOf xs ++ linesOf ys :=
  List.filter_append ..

/-- The reports are lines. -/
theorem linesOf_map_act (spans : List Span) :
    linesOf (spans.map Span.act) = spans.map Span.act := by
  rw [linesOf, List.filter_eq_self]
  intro act hact
  obtain ⟨span, -, rfl⟩ := List.mem_map.mp hact
  rfl

/-- A byte makes none. -/
theorem linesOf_receiveStep_byte (w : Width) (r : Receiver) (byte : UInt8) :
    linesOf (receiveStep w r (.byte byte)).log = [] := by
  simp only [receiveStep]
  split
  · split <;> rfl
  · split <;> rfl

/-- The lines sent are those of the spans noted. -/
theorem linesOf_step {m : RxMove} (h : linesOf s.acts = t.spans.map Span.act)
    (hstep : step w s m = some s') : linesOf s'.acts = (see w s m t).spans.map Span.act := by
  rcases step_cases hstep with ⟨chunk, rfl, rfl⟩ | ⟨rfl, hnone, rfl⟩ |
    ⟨byte, ring, rfl, hbyte, rfl⟩ | ⟨rfl, rfl⟩
  · exact h
  · simpa only [see, hnone] using h
  · have hspans : (see w s .readByte t).spans = t.spans := by
      simp only [see, hbyte]
      split <;> rfl
    rw [hspans, LinkRx.turn, linesOf_append, linesOf_receiveStep_byte, List.append_nil]
    exact h
  · change linesOf (s.acts ++ (receiveStep w s.receiver (.idle s.linkRxOverruns)).log) = _
    rw [(receiveStep_idle w s).1, linesOf_append, linesOf_map_act, h, ← List.map_append]
    rfl

/-- A run in which every look at the counter is alone stays clean, and any other one counts a
byte twice. -/
theorem clean_or_twice {moves : List RxMove}
    (hplay : play (watched (step w) (see w)) (fun _ _ => True) (LinkRx.boot, Tally.zero) moves =
      some (s, t)) :
    (t.discarded < 2 ^ 32 → ∃ n, Clean n s t) ∧
        play (watched (step w) (see w)) Alone (LinkRx.boot, Tally.zero) moves = some (s, t) ∨
      (t.discarded < 2 ^ 32 → Twice t) ∧
        play (watched (step w) (see w)) Alone (LinkRx.boot, Tally.zero) moves = none := by
  let sound (x : LinkRx × Tally) := x.2.discarded < 2 ^ 32 → ∃ n, Clean n x.1 x.2
  let spoilt (x : LinkRx × Tally) := x.2.discarded < 2 ^ 32 → Twice x.2
  have hallowed : ∀ x m x', sound x → Alone x m → watched (step w) (see w) x m = some x' →
      sound x' := by
    intro x m x' hx halone hstep hfew
    obtain ⟨s', hs', rfl⟩ := Option.map_eq_some_iff.mp hstep
    obtain ⟨n, hclean⟩ := hx ((discarded_le_see w x.1 m x.2).trans_lt hfew)
    exact hclean.step halone hs' hfew
  have hother : ∀ x m x', sound x → ¬ Alone x m → watched (step w) (see w) x m = some x' →
      spoilt x' := by
    intro x m x' hx halone hstep hfew
    obtain ⟨s', hs', rfl⟩ := Option.map_eq_some_iff.mp hstep
    obtain ⟨n, hclean⟩ := hx ((discarded_le_see w x.1 m x.2).trans_lt hfew)
    exact hclean.spoil halone
  have hspoilt : ∀ x m x', spoilt x → watched (step w) (see w) x m = some x' → spoilt x' := by
    intro x m x' hx hstep hfew
    obtain ⟨s', hs', rfl⟩ := Option.map_eq_some_iff.mp hstep
    exact (hx ((discarded_le_see w x.1 m x.2).trans_lt hfew)).see m
  exact (sound_or_spoilt hallowed hother hspoilt hplay).1 fun _ => ⟨0, clean_boot⟩

/-- In every run of fewer than `2 ^ 32` discarded bytes the lines count each of them at most
once, and no more than there were, just when at most one call was ever idle between frames
with bytes discarded. -/
theorem accounted_iff (w : Width) {moves : List RxMove}
    (hplay : play (watched (step w) (see w)) (fun _ _ => True) (LinkRx.boot, Tally.zero) moves =
      some (s, t)) (hfew : t.discarded < 2 ^ 32) :
    linesOf s.acts = t.spans.map Span.act ∧
      (Accounted t ↔ play (watched (step w) (see w)) Alone (LinkRx.boot, Tally.zero) moves =
        some (s, t)) := by
  have hreaches := reaches_of_play .start hplay
  constructor
  · refine hreaches.invariant (fun x => linesOf x.1.acts = x.2.spans.map Span.act) rfl ?_
    intro x x' m hx _ hstep
    obtain ⟨s', hs', rfl⟩ := Option.map_eq_some_iff.mp hstep
    exact linesOf_step hx hs'
  · rcases clean_or_twice hplay with ⟨hsound, hallowed⟩ | ⟨hspoilt, hnot⟩
    · obtain ⟨n, hclean⟩ := hsound hfew
      exact ⟨fun _ => hallowed, fun _ => hclean.counted.toAccounted hclean.le⟩
    · have hfails := (hspoilt hfew).not_accounted
      rw [hnot]
      exact ⟨fun h => absurd h hfails, nofun⟩

/-! ## A session -/

/-- A run of an onlooked link. -/
abbrev session (ok : LinkRx × Tally → RxMove → Prop) [∀ x m, Decidable (ok x m)]
    (x : LinkRx × Tally) (moves : List RxMove) : Option (LinkRx × Tally) :=
  play (watched (step width32) (see width32)) ok x moves

/-- Chunks the ring has room for are stored whole. -/
theorem session_fill (t : Tally) (chunk : Slots UInt8 linkRxChunkBytes) (moves : List RxMove) :
    ∀ (k : Nat) (s : LinkRx),
      s.ring.items.length + k * chunk.items.length ≤ linkRxRingBytes →
        ∃ ring : Slots UInt8 linkRxRingBytes,
          ring.items = s.ring.items ++ (List.replicate k chunk.items).flatten ∧
          session Alone (s, t) (List.replicate k (.interrupt chunk) ++ moves) =
            session Alone ({ s with ring := ring }, t) moves := by
  intro k
  induction k with
  | zero => exact fun s _ => ⟨s.ring, (List.append_nil _).symm, rfl⟩
  | succ k ih =>
    intro s hroom
    rw [Nat.succ_mul] at hroom
    have hstored : s.stored chunk = chunk.items.length := by
      rw [LinkRx.stored]
      omega
    have hring : (s.linkUartIsr chunk).ring.items = s.ring.items ++ chunk.items := by
      refine List.take_of_length_le ?_
      rw [List.length_append]
      omega
    have hcounter : (s.linkUartIsr chunk).linkRxOverruns = s.linkRxOverruns := by
      rw [LinkRx.linkUartIsr, hstored, if_neg (Nat.lt_irrefl _)]
    have hsee : see width32 s (.interrupt chunk) t = t := by
      rw [see, LinkRx.overrunBy, hstored, Nat.sub_self]
      rfl
    obtain ⟨ring, hfilled, hplay⟩ := ih (s.linkUartIsr chunk) (by
      rw [hring, List.length_append]
      omega)
    refine ⟨ring, by rw [hfilled, hring, List.append_assoc, List.replicate_succ,
      List.flatten_cons], ?_⟩
    rw [List.replicate_succ, List.cons_append, session, play,
      if_pos (show Alone (s, t) (.interrupt chunk) from trivial)]
    change session Alone (s.linkUartIsr chunk, see width32 s (.interrupt chunk) t) _ = _
    rw [hsee, hplay, hcounter]
    rfl

/-- Delimiters in a row are read one by one and leave nothing behind. -/
theorem session_delimiters (t : Tally) (rest : Slots UInt8 linkRxRingBytes)
    (moves : List RxMove) : ∀ (k : Nat) (s : LinkRx),
      s.ring.items = List.replicate k 0 ++ rest.items → s.idle = false → s.receiver.rxBuf = [] →
        session Alone (s, t) (List.replicate k .readByte ++ moves) =
          session Alone ({ s with ring := rest }, t) moves := by
  intro k
  induction k with
  | zero =>
    intro s hring _ _
    have hrest : s.ring = rest := Slots.ext hring
    rw [← hrest]
    rfl
  | succ k ih =>
    rintro ⟨⟨ring, hfits⟩, overruns, ⟨rxBuf, reported⟩, idle, acts⟩ hring hidle hbuf
    obtain rfl : idle = false := hidle
    obtain rfl : rxBuf = [] := hbuf
    replace hring : ring = 0 :: (List.replicate k 0 ++ rest.items) := hring
    cases ring with
    | nil => cases hring
    | cons byte ring =>
      obtain ⟨rfl, htail⟩ := List.cons.inj hring
      have hread := ih ⟨⟨ring, Nat.le_of_succ_le hfits⟩, overruns, ⟨[], reported⟩, false,
        acts ++ []⟩ htail rfl rfl
      rw [List.replicate_succ, List.cons_append, session, play,
        if_pos (show Alone _ .readByte from trivial)]
      refine Eq.trans hread ?_
      rw [List.append_nil]

/-- The ring is filled and one byte more comes; then the ring is emptied and the link found
idle. -/
def oneLost : List RxMove :=
  List.replicate 32 (.interrupt ⟨List.replicate 64 0, by decide⟩) ++
    .interrupt (.ofList [0]) :: (List.replicate 2048 .readByte ++ [.readByte, .readOverruns])

/-- One byte is lost and told of. -/
theorem session_oneLost : session Alone (LinkRx.boot, .zero) oneLost =
    some (⟨.empty, 1, ⟨[], 1⟩, false, [Span.act ⟨0, 1⟩]⟩, ⟨1, [⟨0, 1⟩], false, true⟩) := by
  obtain ⟨ring, hring, hfill⟩ := session_fill .zero ⟨List.replicate 64 0, by decide⟩
    (.interrupt (.ofList [0]) :: (List.replicate 2048 .readByte ++ [.readByte, .readOverruns]))
    32 .boot (by decide)
  have hfull : ring.items = List.replicate 2048 0 := by
    rw [hring, List.flatten_replicate_replicate]
    rfl
  have hlength : ring.items.length = 2048 := by rw [hfull, List.length_replicate]
  have hstored : LinkRx.stored { LinkRx.boot with ring := ring } (.ofList [0]) = 0 := by
    rw [LinkRx.stored, hlength]
    rfl
  have hisr : LinkRx.linkUartIsr { LinkRx.boot with ring := ring } (.ofList [0]) =
      ⟨ring, 1, .start, false, []⟩ := by
    have hclamp : Slots.clamp (ring.items ++ [0]) = ring :=
      Slots.ext (List.take_left' hlength)
    rw [LinkRx.linkUartIsr, LinkRx.overrunBy, hstored]
    exact congrArg (LinkRx.mk · 1 .start false []) hclamp
  have hsee : see width32 { LinkRx.boot with ring := ring } (.interrupt (.ofList [0])) .zero =
      ⟨1, [], false, false⟩ := by
    rw [see, LinkRx.overrunBy, hstored]
    rfl
  have hread := session_delimiters ⟨1, [], false, false⟩ .empty [.readByte, .readOverruns] 2048
    ⟨ring, 1, .start, false, []⟩ (hfull.trans (List.append_nil _).symm) rfl rfl
  rw [oneLost, hfill, session, play, if_pos (show Alone _ (.interrupt _) from trivial), watched,
    step, Option.map_some, Option.bind_some, hisr, hsee]
  change session Alone _ _ = _
  rw [hread]
  rfl

/-- The byte is told of once. -/
theorem accounted_iff_oneLost : ∃ (s : LinkRx) (t : Tally),
    t.discarded = 1 ∧ t.spans.map Span.count = [1] ∧ Accounted t ∧
      linesOf s.acts = t.spans.map Span.act := by
  obtain ⟨hlines, hiff⟩ := accounted_iff width32 (play_of_play_ok session_oneLost) (by decide)
  exact ⟨_, _, rfl, by decide, hiff.mpr session_oneLost, hlines⟩

/-- A greeting is received, and the next call finds the link idle. -/
def nextCall : List RxMove :=
  .interrupt (.ofList [1, 2, 25, 1, 0]) :: (List.replicate 6 .readByte ++ [.readOverruns])

/-- The call behind the greeting tells of the same byte again. -/
theorem not_accounted_nextCall : ¬ ∀ moves s t,
    session (fun _ _ => True) (LinkRx.boot, .zero) moves = some (s, t) →
      t.discarded < 2 ^ 32 → Accounted t := by
  intro hall
  have hagain : (session (fun _ _ => True)
      (⟨.empty, 1, ⟨[], 1⟩, false, [Span.act ⟨0, 1⟩]⟩, ⟨1, [⟨0, 1⟩], false, true⟩)
      nextCall).map Prod.snd = some ⟨1, [⟨0, 1⟩, ⟨0, 1⟩], true, true⟩ := by decide +kernel
  obtain ⟨⟨s, t⟩, hnext, rfl⟩ := Option.map_eq_some_iff.mp hagain
  have hrun : session (fun _ _ => True) (LinkRx.boot, .zero) (oneLost ++ nextCall) =
      some (s, ⟨1, [⟨0, 1⟩, ⟨0, 1⟩], true, true⟩) := by
    rw [session, play_append, play_of_play_ok session_oneLost, Option.bind_some]
    exact hnext
  exact absurd (hall _ s _ hrun (by decide)).sum (by decide)

end DevBench.Link
