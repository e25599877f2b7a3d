import DevBench.Core.Delimited
import DevBench.Core.Machine
import DevBench.Wire.Encode
import Mathlib.Logic.Function.Basic

/-!
# The writers of the link

Several threads send on the link. Each one builds its messages in the one scratch, encodes
them into the one frame buffer and puts that out byte by byte, with `link_tx_mutex` held from
the first to the last. A fatal error stops them all wherever they are; what the faulting
context sends from then on it sends without the mutex, over whatever was under way.
-/

namespace DevBench.Link

open DevBench.Core DevBench.Core.Stuffing DevBench.Wire

variable {ι : Type} [DecidableEq ι]

/-- Where a writer is between taking the mutex and giving it back. -/
inductive Pc where
  | outside
  /-- The mutex is held and no message under way. -/
  | inside
  /-- The scratch has been cleared and this is to be filled in. -/
  | cleared (m : Message)
  | built
  /-- The loop of `send_message_locked`, of so many turns, before the turn of this index. -/
  | sending (i frameLen : Nat)

/-- The send side of the link. A writer is a thread, or the context of a fatal error. -/
structure LinkTx (ι : Type) where
  linkTxMutex : Option ι
  txScratch : Message
  /-- `frame` of `send_message_locked`. -/
  frame : List UInt8
  /-- What `uart_poll_out` was given. -/
  wire : List UInt8
  pc : Option ι → Pc
  faulted : Bool

/-- `struct dev_bench_message` of zero bytes. -/
def zeroMessage : Message := .hello ⟨0, 0⟩

namespace LinkTx

/-- At boot nobody writes. -/
def boot : LinkTx ι := ⟨none, zeroMessage, [], [], fun _ => .outside, false⟩

/-- A writer goes on to a place. -/
def goto (s : LinkTx ι) (c : Option ι) (pc : Pc) : LinkTx ι :=
  { s with pc := Function.update s.pc c pc }

end LinkTx

/-- What a writer does next. -/
inductive TxOp where
  | lock
  /-- The scratch is cleared for a message. -/
  | clear (m : Message)
  | build
  | encode
  | pollOut
  | unlock

/-- A writer does what comes next of its code, or a fatal error comes. Behind one only its own
context runs. -/
inductive TxMove (ι : Type) where
  | run (c : Option ι) (op : TxOp)
  | fault

/-- One operation of a writer. With `skip_lock` the mutex is left alone. -/
def LinkTx.run (s : LinkTx ι) (c : Option ι) : TxOp → Option (LinkTx ι)
  | .lock =>
    match s.pc c, c with
    | .outside, none => some (s.goto c .inside)
    | .outside, some t =>
      if s.linkTxMutex = none then some ({ s with linkTxMutex := some t }.goto c .inside) else none
    | _, _ => none
  | .clear m =>
    match s.pc c with
    | .inside => some ({ s with txScratch := zeroMessage }.goto c (.cleared m))
    | _ => none
  | .build =>
    match s.pc c with
    | .cleared m => some ({ s with txScratch := m }.goto c .built)
    | _ => none
  | .encode =>
    match s.pc c with
    | .built =>
      match dbmEncodeFrame s.txScratch dbmMaxOutboundFrameLen with
      | none => some (s.goto c .inside)
      | some bytes =>
        some ({ s with frame := bytes ++ s.frame.drop bytes.length }.goto c
          (.sending 0 bytes.length))
    | _ => none
  | .pollOut =>
    match s.pc c with
    | .sending i frameLen =>
      if i < frameLen then
        some ({ s with wire := s.wire ++ [s.frame.getD i 0] }.goto c (.sending (i + 1) frameLen))
      else some (s.goto c .inside)
    | _ => none
  | .unlock =>
    match s.pc c, c with
    | .inside, none => some (s.goto c .outside)
    | .inside, some _ => some ({ s with linkTxMutex := none }.goto c .outside)
    | _, _ => none

/-- A thread runs until the fault, and the fatal path behind it. -/
def LinkTx.step (s : LinkTx ι) : TxMove ι → Option (LinkTx ι)
  | .run c op => if c.isNone = s.faulted then s.run c op else none
  | .fault => if s.faulted then none else some { s with faulted := true }

/-! ## What is sent -/

/-- What an onlooker keeps of the messages. -/
structure Sent where
  /-- Put out to the last byte before a fatal error, in order. -/
  whole : List Message
  /-- Under way when it came. -/
  cut : Option Message
  /-- Put out to the last byte behind it. -/
  panics : List Message
  /-- Under way now. -/
  underWay : Option Message

/-- Nothing was sent. -/
def Sent.none : Sent := ⟨[], Option.none, [], Option.none⟩

/-- A message counts as sent with the last byte of its frame. -/
def noteSent (s : LinkTx ι) (m : TxMove ι) (r : Sent) : Sent :=
  match m with
  | .fault => { r with cut := r.underWay, underWay := none }
  | .run c op =>
    match op with
    | .clear m => { r with underWay := some m }
    | .encode =>
      if (dbmEncodeFrame s.txScratch dbmMaxOutboundFrameLen).isSome then r
      else { r with underWay := none }
    | .pollOut =>
      match s.pc c with
      | .sending i frameLen =>
        if i + 1 = frameLen then
          if s.faulted then { r with panics := r.panics ++ r.underWay.toList, underWay := none }
          else { r with whole := r.whole ++ r.underWay.toList, underWay := none }
        else r
      | _ => r
    | .lock => r
    | .build => r
    | .unlock => r

/-- The bytes of a message on the link: none if it cannot be encoded. -/
def frameBytes (m : Message) : List UInt8 := (dbmEncodeFrame m dbmMaxOutboundFrameLen).getD []

/-- The frame of a message without its delimiter. -/
def frameBody (m : Message) : Option (List UInt8) :=
  (dbmEncodeFrame m dbmMaxOutboundFrameLen).map List.dropLast

/-- The bytes of what was sent, with what was left of the frame that a fatal error cut. -/
def Sent.bytes (r : Sent) (part : List UInt8) : List UInt8 :=
  r.whole.flatMap frameBytes ++ part ++ r.panics.flatMap frameBytes

/-! ## One operation -/

variable {s s' : LinkTx ι} {r : Sent} {c : Option ι} {op : TxOp} {part : List UInt8}

/-- What an operation of a writer can do. -/
inductive Did (s : LinkTx ι) (c : Option ι) : TxOp → LinkTx ι → Prop
  | skipLock (hpc : s.pc c = .outside) (hc : c = none) : Did s c .lock (s.goto c .inside)
  | lock {t : ι} (hpc : s.pc c = .outside) (hc : c = some t) (hfree : s.linkTxMutex = none) :
    Did s c .lock ({ s with linkTxMutex := some t }.goto c .inside)
  | clear {m : Message} (hpc : s.pc c = .inside) :
    Did s c (.clear m) ({ s with txScratch := zeroMessage }.goto c (.cleared m))
  | build {m : Message} (hpc : s.pc c = .cleared m) :
    Did s c .build ({ s with txScratch := m }.goto c .built)
  | refuse (hpc : s.pc c = .built)
    (hencode : dbmEncodeFrame s.txScratch dbmMaxOutboundFrameLen = none) :
    Did s c .encode (s.goto c .inside)
  | encode {bytes : List UInt8} (hpc : s.pc c = .built)
    (hencode : dbmEncodeFrame s.txScratch dbmMaxOutboundFrameLen = some bytes) :
    Did s c .encode ({ s with frame := bytes ++ s.frame.drop bytes.length }.goto c
      (.sending 0 bytes.length))
  | put {i frameLen : Nat} (hpc : s.pc c = .sending i frameLen) (hi : i < frameLen) :
    Did s c .pollOut ({ s with wire := s.wire ++ [s.frame.getD i 0] }.goto c
      (.sending (i + 1) frameLen))
  | leave {i frameLen : Nat} (hpc : s.pc c = .sending i frameLen) (hi : ¬ i < frameLen) :
    Did s c .pollOut (s.goto c .inside)
  | skipUnlock (hpc : s.pc c = .inside) (hc : c = none) : Did s c .unlock (s.goto c .outside)
  | unlock {t : ι} (hpc : s.pc c = .inside) (hc : c = some t) :
    Did s c .unlock ({ s with linkTxMutex := none }.goto c .outside)

/-- What a writer that went on has done. -/
theorem did_of_run (h : s.run c op = some s') : Did s c op s' := by
  cases op with
  | lock =>
    simp only [LinkTx.run] at h
    split at h
    · next hpc => exact Option.some.inj h ▸ .skipLock hpc rfl
    · next t hpc =>
      obtain ⟨hfree, h⟩ := Option.ite_none_right_eq_some.mp h
      exact Option.some.inj h ▸ .lock hpc rfl hfree
    · cases h
  | clear m =>
    simp only [LinkTx.run] at h
    split at h
    · next hpc => exact Option.some.inj h ▸ .clear hpc
    · cases h
  | build =>
    simp only [LinkTx.run] at h
    split at h
    · next m hpc => exact Option.some.inj h ▸ .build hpc
    · cases h
  | encode =>
    simp only [LinkTx.run] at h
    split at h
    · next hpc =>
      split at h
      · next hencode => exact Option.some.inj h ▸ .refuse hpc hencode
      · next bytes hencode => exact Option.some.inj h ▸ .encode hpc hencode
    · cases h
  | pollOut =>
    simp only [LinkTx.run] at h
    split at h
    · next i frameLen hpc =>
      split at h
      · next hi => exact Option.some.inj h ▸ .put hpc hi
      · next hi => exact Option.some.inj h ▸ .leave hpc hi
    · cases h
  | unlock =>
    simp only [LinkTx.run] at h
    split at h
    · next hpc => exact Option.some.inj h ▸ .skipUnlock hpc rfl
    · next t hpc => exact Option.some.inj h ▸ .unlock hpc rfl
    · cases h

/-- What the wire holds while a writer stands at a place of its section. -/
inductive Held (s : LinkTx ι) (r : Sent) (base : List UInt8) : Pc → Prop
  | outside (hnone : r.underWay = none) (hwire : s.wire = base) : Held s r base .outside
  | inside (hnone : r.underWay = none) (hwire : s.wire = base) : Held s r base .inside
  | cleared {m : Message} (hm : r.underWay = some m) (hwire : s.wire = base) :
    Held s r base (.cleared m)
  | built (hm : r.underWay = some s.txScratch) (hwire : s.wire = base) : Held s r base .built
  | sending {m : Message} {bytes : List UInt8} {i : Nat} (hm : r.underWay = some m)
    (hencode : dbmEncodeFrame m dbmMaxOutboundFrameLen = some bytes)
    (hframe : s.frame.take bytes.length = bytes) (hi : i < bytes.length)
    (hwire : s.wire = base ++ bytes.take i) : Held s r base (.sending i bytes.length)
  | sent {n : Nat} (hnone : r.underWay = none) (hwire : s.wire = base) :
    Held s r base (.sending n n)

/-- The writer is at that place. -/
theorem pc_goto (s : LinkTx ι) (c : Option ι) (pc : Pc) : (s.goto c pc).pc c = pc :=
  Function.update_self ..

/-- Any other one is where it was. -/
theorem pc_goto_of_ne {c' : Option ι} (h : c' ≠ c) (s : LinkTx ι) (pc : Pc) :
    (s.goto c pc).pc c' = s.pc c' := Function.update_of_ne h ..

/-- The bytes of a frame are what the encoder wrote. -/
theorem frameBytes_of_some {m : Message} {bytes : List UInt8}
    (h : dbmEncodeFrame m dbmMaxOutboundFrameLen = some bytes) : frameBytes m = bytes := by
  rw [frameBytes, h, Option.getD_some]

/-- A frame ends with the only zero byte in it. -/
theorem frame_ends {m : Message} {bytes : List UInt8}
    (h : dbmEncodeFrame m dbmMaxOutboundFrameLen = some bytes) :
    ∃ body, bytes = body ++ [0] ∧ 0 ∉ body := by
  rw [dbmEncodeFrame] at h
  split at h
  · cases h
  · next raw _ =>
    simp only at h
    split at h
    · cases h
    · exact ⟨cobsEncode raw, (Option.some.inj h).symm, (stuffed_cobsEncode raw).zero_notMem⟩

omit [DecidableEq ι] in
/-- What is sent comes last: as long as there was no fatal error nothing was cut by one. -/
theorem bytes_sent {m : Message} (hintact : s.faulted = false → part = [] ∧ r.panics = [])
    (hm : r.underWay = some m) :
    Sent.bytes (if s.faulted
        then { r with panics := r.panics ++ r.underWay.toList, underWay := none }
        else { r with whole := r.whole ++ r.underWay.toList, underWay := none }) part =
      r.bytes part ++ frameBytes m := by
  rw [hm]
  cases hfaulted : s.faulted with
  | true => simp [Sent.bytes, List.append_assoc]
  | false =>
    obtain ⟨rfl, hpanics⟩ := hintact hfaulted
    simp [Sent.bytes, hpanics]

omit [DecidableEq ι] in
/-- Outside its section, and in it with nothing begun, a writer has nothing on the wire. -/
theorem Held.idle {base : List UInt8} {pc : Pc} (h : Held s r base pc)
    (hpc : pc = .outside ∨ pc = .inside) : r.underWay = none ∧ s.wire = base := by
  cases h with
  | outside hnone hwire => exact ⟨hnone, hwire⟩
  | inside hnone hwire => exact ⟨hnone, hwire⟩
  | cleared => rcases hpc with hpc | hpc <;> cases hpc
  | built => rcases hpc with hpc | hpc <;> cases hpc
  | sending => rcases hpc with hpc | hpc <;> cases hpc
  | sent => rcases hpc with hpc | hpc <;> cases hpc

/-- A writer that goes from a place to another takes its account along. -/
theorem Held.goes {base base' : List UInt8} {s₁ : LinkTx ι} {r' : Sent} {pc pc' : Pc}
    (h : Held s r base (s.pc c)) (hpc : s.pc c = pc)
    (hgoes : Held s r base pc → Held (s₁.goto c pc') r' base' pc') :
    Held (s₁.goto c pc') r' base' ((s₁.goto c pc').pc c) := by
  rw [hpc] at h
  rw [pc_goto]
  exact hgoes h

/-- A message that cannot be encoded is no longer under way. -/
theorem Held.refuse (h : Held s r (r.bytes part) .built)
    (hencode : dbmEncodeFrame s.txScratch dbmMaxOutboundFrameLen = none) :
    Held (s.goto c .inside) (noteSent s (.run c .encode) r)
      ((noteSent s (.run c .encode) r).bytes part) .inside := by
  cases h with
  | built hm hwire =>
    simp only [noteSent, hencode, Option.isSome_none, Bool.false_eq_true, if_false]
    exact .inside rfl hwire

/-- An encoded message is about to be sent, and none of it is on the wire. -/
theorem Held.encode {bytes : List UInt8} (h : Held s r (r.bytes part) .built)
    (hencode : dbmEncodeFrame s.txScratch dbmMaxOutboundFrameLen = some bytes) :
    Held ({ s with frame := bytes ++ s.frame.drop bytes.length }.goto c (.sending 0 bytes.length))
      (noteSent s (.run c .encode) r) ((noteSent s (.run c .encode) r).bytes part)
      (.sending 0 bytes.length) := by
  cases h with
  | built hm hwire =>
    simp only [noteSent, hencode, Option.isSome_some, if_true]
    obtain ⟨body, rfl, -⟩ := frame_ends hencode
    refine .sending hm hencode List.take_left (by simp) ?_
    rw [List.take_zero, List.append_nil]
    exact hwire

/-- One byte more is on the wire, and the message is sent with the last one. -/
theorem Held.put {i frameLen : Nat} (h : Held s r (r.bytes part) (.sending i frameLen))
    (hintact : s.faulted = false → part = [] ∧ r.panics = [])
    (hpc : s.pc c = .sending i frameLen) (hi : i < frameLen) :
    Held ({ s with wire := s.wire ++ [s.frame.getD i 0] }.goto c (.sending (i + 1) frameLen))
      (noteSent s (.run c .pollOut) r) ((noteSent s (.run c .pollOut) r).bytes part)
      (.sending (i + 1) frameLen) := by
  cases h with
  | @sending m bytes _ hm hencode hframe _ hwire =>
    have hbyte : s.frame.getD i 0 = bytes[i] := by
      have hget : (s.frame.take bytes.length)[i]? = some bytes[i] := by
        rw [hframe, List.getElem?_eq_getElem hi]
      rw [List.getElem?_take_of_lt hi] at hget
      rw [List.getD_eq_getElem?_getD, hget, Option.getD_some]
    have hnext : s.wire ++ [s.frame.getD i 0] = r.bytes part ++ bytes.take (i + 1) := by
      rw [hwire, hbyte, List.take_add_one, List.getElem?_eq_getElem hi, List.append_assoc]
      rfl
    simp only [noteSent, hpc]
    by_cases hlast : i + 1 = bytes.length
    · rw [if_pos hlast, bytes_sent hintact hm, frameBytes_of_some hencode, hlast]
      rw [hlast, List.take_length] at hnext
      refine .sent ?_ hnext
      split <;> rfl
    · rw [if_neg hlast]
      exact .sending hm hencode hframe (by omega) hnext
  | sent hnone hwire => exact absurd hi (Nat.lt_irrefl _)

/-- Behind the last byte the writer leaves the loop. -/
theorem Held.leave {i frameLen : Nat} (h : Held s r (r.bytes part) (.sending i frameLen))
    (hpc : s.pc c = .sending i frameLen) (hi : ¬ i < frameLen) :
    Held (s.goto c .inside) (noteSent s (.run c .pollOut) r)
      ((noteSent s (.run c .pollOut) r).bytes part) .inside := by
  cases h with
  | sending hm hencode hframe hi' hwire => exact absurd hi' hi
  | sent hnone hwire =>
    simp only [noteSent, hpc, Nat.succ_ne_self, if_false]
    exact .inside hnone hwire

/-- An operation of the writer that has the section keeps the account of the wire. -/
theorem Held.run (h : Held s r (r.bytes part) (s.pc c))
    (hintact : s.faulted = false → part = [] ∧ r.panics = []) (hdid : Did s c op s') :
    Held s' (noteSent s (.run c op) r) ((noteSent s (.run c op) r).bytes part) (s'.pc c) := by
  cases hdid with
  | skipLock hpc hc =>
    refine h.goes hpc fun h => ?_
    obtain ⟨hnone, hwire⟩ := h.idle (.inl rfl)
    exact .inside hnone hwire
  | lock hpc hc hfree =>
    refine h.goes hpc fun h => ?_
    obtain ⟨hnone, hwire⟩ := h.idle (.inl rfl)
    exact .inside hnone hwire
  | clear hpc =>
    refine h.goes hpc fun h => ?_
    obtain ⟨-, hwire⟩ := h.idle (.inr rfl)
    exact .cleared rfl hwire
  | build hpc =>
    refine h.goes hpc fun h => ?_
    cases h with
    | cleared hm hwire => exact .built hm hwire
  | refuse hpc hencode => exact h.goes hpc fun h => h.refuse hencode
  | encode hpc hencode => exact h.goes hpc fun h => h.encode hencode
  | put hpc hi => exact h.goes hpc fun h => h.put hintact hpc hi
  | leave hpc hi => exact h.goes hpc fun h => h.leave hpc hi
  | skipUnlock hpc hc =>
    refine h.goes hpc fun h => ?_
    obtain ⟨hnone, hwire⟩ := h.idle (.inr rfl)
    exact .outside hnone hwire
  | unlock hpc hc =>
    refine h.goes hpc fun h => ?_
    obtain ⟨hnone, hwire⟩ := h.idle (.inr rfl)
    exact .outside hnone hwire

/-- The others stay where they are. -/
theorem Did.pc_of_ne (h : Did s c op s') {c' : Option ι} (hne : c' ≠ c) : s'.pc c' = s.pc c' := by
  cases h <;> exact pc_goto_of_ne hne _ _

/-- A writer does not fault. -/
theorem Did.faulted (h : Did s c op s') : s'.faulted = s.faulted := by
  cases h <;> rfl

/-! ## Runs -/

/-- Before a fatal error: a thread is outside its sections unless it holds the mutex, and the
account of the wire is that of the thread that does. -/
structure BeforeFault (s : LinkTx ι) (r : Sent) : Prop where
  running : s.faulted = false
  panics : r.panics = []
  handler : s.pc none = .outside
  exclusive : ∀ t, s.linkTxMutex ≠ some t → s.pc (some t) = .outside
  held : ∀ t, s.linkTxMutex = some t → Held s r (r.bytes []) (s.pc (some t))
  free : s.linkTxMutex = none → Held s r (r.bytes []) .outside

/-- Behind one: the part of a frame it cut stays on the wire, and what its own context sends
comes behind that. -/
structure Panicking (s : LinkTx ι) (r : Sent) (part : List UInt8) : Prop where
  faulted : s.faulted = true
  cut : part = [] ∨ ∃ m ∈ r.cut, ∃ bytes, dbmEncodeFrame m dbmMaxOutboundFrameLen = some bytes ∧
    ∃ i < bytes.length, part = bytes.take i
  held : Held s r (r.bytes part) (s.pc none)

omit [DecidableEq ι] in
/-- Nothing was written before boot. -/
theorem beforeFault_boot : BeforeFault (LinkTx.boot : LinkTx ι) Sent.none where
  running := rfl
  panics := rfl
  handler := rfl
  exclusive _ _ := rfl
  held _ h := nomatch h
  free _ := .outside rfl rfl

/-- A thread can do something if it has the mutex, or if nobody has. -/
theorem Did.mutex {t : ι} (h : Did s (some t) op s') :
    (s.pc (some t) = .outside ∧ s.linkTxMutex = none ∧ s'.linkTxMutex = some t) ∨
    (s.pc (some t) ≠ .outside ∧
      (s'.linkTxMutex = s.linkTxMutex ∨
        s'.linkTxMutex = none ∧ s'.pc (some t) = .outside)) := by
  cases h with
  | skipLock hpc hc => cases hc
  | lock hpc hc hfree =>
    obtain rfl := Option.some.inj hc
    exact .inl ⟨hpc, hfree, rfl⟩
  | clear hpc => exact .inr ⟨by simp [hpc], .inl rfl⟩
  | build hpc => exact .inr ⟨by simp [hpc], .inl rfl⟩
  | refuse hpc hencode => exact .inr ⟨by simp [hpc], .inl rfl⟩
  | encode hpc hencode => exact .inr ⟨by simp [hpc], .inl rfl⟩
  | put hpc hi => exact .inr ⟨by simp [hpc], .inl rfl⟩
  | leave hpc hi => exact .inr ⟨by simp [hpc], .inl rfl⟩
  | skipUnlock hpc hc => cases hc
  | unlock hpc hc => exact .inr ⟨by simp [hpc], .inr ⟨rfl, pc_goto _ _ _⟩⟩

omit [DecidableEq ι] in
/-- Before the fault nobody panics. -/
theorem panics_noteSent (hrunning : s.faulted = false) (c : Option ι) (op : TxOp) :
    (noteSent s (.run c op) r).panics = r.panics := by
  cases op with
  | encode => simp only [noteSent]; split <;> rfl
  | pollOut =>
    simp only [noteSent, hrunning, Bool.false_eq_true, if_false]
    split
    · split <;> rfl
    · rfl
  | _ => rfl

/-- A thread does an operation. -/
theorem BeforeFault.run (h : BeforeFault s r) {t : ι} (hdid : Did s (some t) op s') :
    BeforeFault s' (noteSent s (.run (some t) op) r) := by
  have hintact : s.faulted = false → ([] : List UInt8) = [] ∧ r.panics = [] :=
    fun _ => ⟨rfl, h.panics⟩
  have hbefore : s.linkTxMutex = none ∨ s.linkTxMutex = some t := by
    rcases hdid.mutex with ⟨-, hfree, -⟩ | ⟨hbusy, -⟩
    · exact .inl hfree
    · exact .inr (by_contra fun hmutex => hbusy (h.exclusive t hmutex))
  have hheld : Held s' (noteSent s (.run (some t) op) r)
      ((noteSent s (.run (some t) op) r).bytes []) (s'.pc (some t)) := by
    rcases hdid.mutex with ⟨hpc, hfree, -⟩ | ⟨hbusy, -⟩
    · have hstart := h.free hfree
      rw [← hpc] at hstart
      exact hstart.run hintact hdid
    · have hmutex : s.linkTxMutex = some t :=
        by_contra fun hmutex => hbusy (h.exclusive t hmutex)
      exact (h.held t hmutex).run hintact hdid
  have hafter : s'.linkTxMutex = some t ∨
      s'.linkTxMutex = none ∧ s'.pc (some t) = .outside := by
    rcases hdid.mutex with ⟨-, -, htaken⟩ | ⟨hbusy, hsame | hfree⟩
    · exact .inl htaken
    · exact .inl (hsame.trans (by_contra fun hmutex => hbusy (h.exclusive t hmutex)))
    · exact .inr hfree
  have hothers : ∀ t', t' ≠ t → s'.pc (some t') = .outside := by
    intro t' hne
    rw [hdid.pc_of_ne fun heq => hne (Option.some.inj heq)]
    apply h.exclusive
    rcases hbefore with hnone | hsome
    · simp [hnone]
    · rw [hsome]
      exact fun heq => hne (Option.some.inj heq).symm
  refine ⟨hdid.faulted.trans h.running, (panics_noteSent h.running _ _).trans h.panics, ?_, ?_, ?_,
    ?_⟩
  · rw [hdid.pc_of_ne (by simp)]
    exact h.handler
  · intro t' ht'
    rcases eq_or_ne t' t with rfl | hne
    · rcases hafter with htaken | hfree
      · exact absurd htaken ht'
      · exact hfree.2
    · exact hothers t' hne
  · intro t' ht'
    obtain rfl : t' = t := by
      rcases hafter with htaken | hfree
      · exact Option.some.inj (ht'.symm.trans htaken)
      · rw [hfree.1] at ht'
        cases ht'
    exact hheld
  · intro hnone
    rcases hafter with htaken | hfree
    · rw [htaken] at hnone
      cases hnone
    · rwa [hfree.2] at hheld

omit [DecidableEq ι] in
/-- A fatal error cuts what is under way. -/
theorem BeforeFault.fault (h : BeforeFault s r) :
    ∃ part, Panicking { s with faulted := true } (noteSent s .fault r) part := by
  -- What is on the wire of the message under way is what has to be told from the whole ones.
  have hpart : ∃ part, (part = [] ∨ ∃ m ∈ r.underWay, ∃ bytes,
      dbmEncodeFrame m dbmMaxOutboundFrameLen = some bytes ∧
        ∃ i < bytes.length, part = bytes.take i) ∧ s.wire = r.bytes [] ++ part := by
    have hall : ∀ pc, Held s r (r.bytes []) pc → ∃ part, (part = [] ∨ ∃ m ∈ r.underWay,
        ∃ bytes, dbmEncodeFrame m dbmMaxOutboundFrameLen = some bytes ∧
          ∃ i < bytes.length, part = bytes.take i) ∧ s.wire = r.bytes [] ++ part := by
      intro pc hheld
      cases hheld with
      | sending hm hencode hframe hi hwire =>
        exact ⟨_, .inr ⟨_, hm, _, hencode, _, hi, rfl⟩, hwire⟩
      | outside hnone hwire => exact ⟨[], .inl rfl, hwire.trans (List.append_nil _).symm⟩
      | inside hnone hwire => exact ⟨[], .inl rfl, hwire.trans (List.append_nil _).symm⟩
      | cleared hm hwire => exact ⟨[], .inl rfl, hwire.trans (List.append_nil _).symm⟩
      | built hm hwire => exact ⟨[], .inl rfl, hwire.trans (List.append_nil _).symm⟩
      | sent hnone hwire => exact ⟨[], .inl rfl, hwire.trans (List.append_nil _).symm⟩
    cases hmutex : s.linkTxMutex with
    | none => exact hall _ (h.free hmutex)
    | some t => exact hall _ (h.held t hmutex)
  obtain ⟨part, hcut, hwire⟩ := hpart
  refine ⟨part, rfl, hcut, ?_⟩
  have hhandler : ({ s with faulted := true } : LinkTx ι).pc none = .outside := h.handler
  rw [hhandler]
  refine .outside rfl (hwire.trans ?_)
  simp [Sent.bytes, noteSent, h.panics]

/-- The fatal path keeps its own part apart from what was cut short. -/
theorem Panicking.run (h : Panicking s r part) (hdid : Did s none op s') :
    Panicking s' (noteSent s (.run none op) r) part := by
  have hfaulted := h.faulted
  refine ⟨hdid.faulted.trans hfaulted, ?_, h.held.run (by simp [hfaulted]) hdid⟩
  have hcut : (noteSent s (.run none op) r).cut = r.cut := by
    cases op with
    | encode => simp only [noteSent]; split <;> rfl
    | pollOut =>
      simp only [noteSent, hfaulted, if_true]
      split
      · split <;> rfl
      · rfl
    | _ => rfl
  rw [hcut]
  exact h.cut

/-- Every state of a run is one before a fatal error, or one behind it. -/
def Kept (s : LinkTx ι) (r : Sent) : Prop := BeforeFault s r ∨ ∃ part, Panicking s r part

/-- A step keeps the frames apart. -/
theorem Kept.step (h : Kept s r) {m : TxMove ι} (hstep : s.step m = some s') :
    Kept s' (noteSent s m r) := by
  cases m with
  | fault =>
    obtain ⟨hrunning, hstep⟩ := Option.ite_none_left_eq_some.mp hstep
    obtain rfl := Option.some.inj hstep
    rcases h with hbefore | ⟨part, hpanicking⟩
    · exact .inr hbefore.fault
    · exact absurd hpanicking.faulted hrunning
  | run c op =>
    obtain ⟨hcontext, hrun⟩ := Option.ite_none_right_eq_some.mp hstep
    have hdid := did_of_run hrun
    rcases h with hbefore | ⟨part, hpanicking⟩
    · cases c with
      | none => simp [hbefore.running] at hcontext
      | some t => exact .inl (hbefore.run hdid)
    · cases c with
      | none => exact .inr ⟨part, hpanicking.run hdid⟩
      | some t => simp [hpanicking.faulted] at hcontext

/-! ## What a receiver makes of it -/

/-- A frame has no zero but the one at its end. -/
theorem zero_notMem_take {m : Message} {bytes : List UInt8} {i : Nat}
    (h : dbmEncodeFrame m dbmMaxOutboundFrameLen = some bytes) (hi : i < bytes.length) :
    0 ∉ bytes.take i := by
  obtain ⟨body, rfl, hbody⟩ := frame_ends h
  rw [List.length_append, List.length_singleton] at hi
  rw [List.take_append_of_le_length (Nat.le_of_lt_succ hi)]
  exact fun hmem => hbody (List.mem_of_mem_take hmem)

/-- The runs of whole frames are their bodies. -/
theorem runs_frames (ms : List Message) (rest : List UInt8) :
    runs 0 (ms.flatMap frameBytes ++ rest) = ms.filterMap frameBody ++ runs 0 rest := by
  induction ms with
  | nil => rfl
  | cons m ms ih =>
    rw [List.flatMap_cons, List.filterMap_cons, frameBytes, frameBody]
    cases hencode : dbmEncodeFrame m dbmMaxOutboundFrameLen with
    | none => exact ih
    | some bytes =>
      obtain ⟨body, rfl, hbody⟩ := frame_ends hencode
      simp only [Option.getD_some, Option.map_some, List.dropLast_concat, List.append_assoc,
        List.nil_append, List.cons_append]
      rw [runs_append hbody, ih]

/-- What is in front of the first run becomes part of it. -/
def garbled (part : List UInt8) : List (List UInt8) → List (List UInt8)
  | [] => []
  | run :: rest => (part ++ run) :: rest

/-- What was cut short makes one garbled run with the frame behind it. -/
theorem runs_garbled {part : List UInt8} (hpart : 0 ∉ part) (ms : List Message)
    {rest : List UInt8} (hrest : 0 ∉ rest) :
    runs 0 (part ++ (ms.flatMap frameBytes ++ rest)) = garbled part (ms.filterMap frameBody) := by
  induction ms with
  | nil =>
    rw [List.flatMap_nil, List.nil_append, runs_of_notMem]
    · rfl
    · simp [hpart, hrest]
  | cons m ms ih =>
    rw [List.flatMap_cons, List.filterMap_cons, frameBytes, frameBody]
    cases hencode : dbmEncodeFrame m dbmMaxOutboundFrameLen with
    | none => exact ih
    | some bytes =>
      obtain ⟨body, rfl, hbody⟩ := frame_ends hencode
      have hrun : 0 ∉ part ++ body := by simp [hpart, hbody]
      simp only [Option.getD_some, Option.map_some, List.dropLast_concat, List.append_assoc,
        List.nil_append, List.cons_append, garbled]
      rw [← List.append_assoc, runs_append hrun, runs_frames, runs_of_notMem hrest,
        List.append_nil]

omit [DecidableEq ι] in
/-- Behind what was sent there is at most a part of one frame. -/
theorem Held.wire {base : List UInt8} {pc : Pc} (h : Held s r base pc) :
    ∃ rest, 0 ∉ rest ∧ s.wire = base ++ rest := by
  cases h with
  | sending hm hencode hframe hi hwire => exact ⟨_, zero_notMem_take hencode hi, hwire⟩
  | outside hnone hwire => exact ⟨[], List.not_mem_nil, hwire.trans (List.append_nil _).symm⟩
  | inside hnone hwire => exact ⟨[], List.not_mem_nil, hwire.trans (List.append_nil _).symm⟩
  | cleared hm hwire => exact ⟨[], List.not_mem_nil, hwire.trans (List.append_nil _).symm⟩
  | built hm hwire => exact ⟨[], List.not_mem_nil, hwire.trans (List.append_nil _).symm⟩
  | sent hnone hwire => exact ⟨[], List.not_mem_nil, hwire.trans (List.append_nil _).symm⟩

/-- However the writers are interleaved, no two of them are in a section at once, and what a
receiver splits the wire into are the whole frames of the messages sent, in the order of the
sections. A fatal error costs at most the frame under way and the first line behind it, which
run together when a part of that frame was out. -/
theorem frames_kept_apart {s : LinkTx ι} {r : Sent}
    (h : Reaches (watched LinkTx.step noteSent) (fun _ _ => True) (LinkTx.boot, Sent.none) (s, r)) :
    (s.faulted = false →
      (∀ t t', s.pc (some t) ≠ .outside → s.pc (some t') ≠ .outside → t = t') ∧
        runs 0 s.wire = r.whole.filterMap frameBody) ∧
    (s.faulted = true → ∃ part,
      (part = [] ∨ ∃ m ∈ r.cut, ∃ bytes,
        dbmEncodeFrame m dbmMaxOutboundFrameLen = some bytes ∧
          ∃ i < bytes.length, part = bytes.take i) ∧
      runs 0 s.wire =
        r.whole.filterMap frameBody ++ garbled part (r.panics.filterMap frameBody)) := by
  have hkept : Kept s r := by
    refine h.invariant (fun x => Kept x.1 x.2) (.inl beforeFault_boot) ?_
    intro x x' m hx _ hstep
    obtain ⟨s', hs', rfl⟩ := Option.map_eq_some_iff.mp hstep
    exact hx.step hs'
  rcases hkept with hbefore | ⟨part, hpanicking⟩
  · refine ⟨fun _ => ⟨?_, ?_⟩, fun hfaulted => absurd hbefore.running (by simp [hfaulted])⟩
    · intro t t' ht ht'
      have hmutex : s.linkTxMutex = some t := by_contra fun hne => ht (hbefore.exclusive t hne)
      have hmutex' : s.linkTxMutex = some t' := by_contra fun hne => ht' (hbefore.exclusive t' hne)
      exact Option.some.inj (hmutex.symm.trans hmutex')
    · obtain ⟨rest, hrest, hwire⟩ : ∃ rest, 0 ∉ rest ∧ s.wire = r.bytes [] ++ rest := by
        cases hmutex : s.linkTxMutex with
        | none => exact (hbefore.free hmutex).wire
        | some t => exact (hbefore.held t hmutex).wire
      have hbytes : r.bytes [] = r.whole.flatMap frameBytes := by
        simp [Sent.bytes, hbefore.panics]
      rw [hwire, hbytes, runs_frames, runs_of_notMem hrest, List.append_nil]
  · refine ⟨fun hrunning => absurd hrunning (by simp [hpanicking.faulted]), fun _ => ?_⟩
    obtain ⟨rest, hrest, hwire⟩ := hpanicking.held.wire
    have hpart : 0 ∉ part := by
      rcases hpanicking.cut with rfl | ⟨m, -, bytes, hencode, i, hi, rfl⟩
      · exact List.not_mem_nil
      · exact zero_notMem_take hencode hi
    refine ⟨part, hpanicking.cut, ?_⟩
    rw [hwire, Sent.bytes, List.append_assoc, List.append_assoc, runs_frames,
      runs_garbled hpart _ hrest]

/-- The operations that send one message of a frame of so many bytes. -/
def sendOps (c : Option ι) (m : Message) (frameLen : Nat) : List (TxMove ι) :=
  [.run c .lock, .run c (.clear m), .run c .build, .run c .encode] ++
    List.replicate frameLen (.run c .pollOut)

/-- A thread is stopped behind two bytes of its second frame; the line of the error follows. -/
def cutRun : List (TxMove Bool) :=
  sendOps (some true) (.studyDone false) 5 ++ [.run (some true) .unlock] ++
    sendOps (some false) (.studyDone true) 2 ++ [.fault] ++
    sendOps none (.logLine (.copy [33])) 5

/-- A frame is sent whole, a second is cut short by a fault, and the fatal path writes behind it. -/
theorem frames_kept_apart_cutRun : ∃ s r,
    play (watched LinkTx.step noteSent) (fun _ _ => True) (LinkTx.boot, Sent.none) cutRun =
      some (s, r) ∧
    ∃ part, runs 0 s.wire = [[2, 8, 1]] ++ garbled part [[4, 5, 1, 33]] := by
  have hfacts : (play (watched LinkTx.step noteSent) (fun _ _ => True)
      (LinkTx.boot, Sent.none) cutRun).map (fun x =>
        (x.1.faulted, x.2.whole.filterMap frameBody, x.2.panics.filterMap frameBody)) =
      some (true, [[2, 8, 1]], [[4, 5, 1, 33]]) := by decide +kernel
  obtain ⟨⟨s, r⟩, hplay, hx⟩ := Option.map_eq_some_iff.mp hfacts
  obtain ⟨hfaulted, hwhole, hpanics⟩ : s.faulted = true ∧
      r.whole.filterMap frameBody = [[2, 8, 1]] ∧
      r.panics.filterMap frameBody = [[4, 5, 1, 33]] := by
    simpa only [Prod.mk.injEq] using hx
  obtain ⟨part, -, hruns⟩ := (frames_kept_apart (reaches_of_play .start hplay)).2 hfaulted
  rw [hwhole, hpanics] at hruns
  exact ⟨s, r, hplay, part, hruns⟩

end DevBench.Link
