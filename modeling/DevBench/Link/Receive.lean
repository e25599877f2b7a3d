import DevBench.Core.Delimited
import DevBench.Core.Trace
import DevBench.Wire.RoundTrip

/-!
# Receiving messages

`receive_message`, called over and over on the bytes of the link. A run of bytes too
long for the buffer is not discarded up to its delimiter: the buffer is emptied and
filled again, so what is left of the run at its delimiter is decoded.
-/

namespace DevBench.Link

open DevBench.Core DevBench.Core.Traced DevBench.Wire

/-- What `link_rx_byte` finds: a byte, or none while this many were dropped so far. -/
inductive RxEvent where
  | byte (b : UInt8)
  | idle (overruns : UInt32)
  deriving DecidableEq, Repr

/-- The locals of one call of `receive_message`; `rxBuf` is the counted part of the buffer. -/
structure Receiver where
  rxBuf : List UInt8
  reportedOverruns : UInt32
  deriving DecidableEq, Repr

/-- The locals a call starts with. -/
def Receiver.start : Receiver := ⟨[], 0⟩

/-- What a call logs and returns. -/
inductive RxAct where
  | logLine (text : List UInt8)
  | logWarning (text : List UInt8)
  /-- The call returns a message. -/
  | deliver (m : Message)
  deriving DecidableEq, Repr

section

variable (w : Width)

/-- One turn of the loop. Behind a message the next call starts. -/
def receiveStep (r : Receiver) : RxEvent → Traced RxAct Receiver
  | .idle overruns =>
    if overruns ≠ r.reportedOverruns ∧ r.rxBuf.length = 0 then do
      emit (.logLine (ascii ("link RX overran: " ++
        toString (overruns - r.reportedOverruns).toNat ++
        " inbound byte(s) dropped -- a frame was almost certainly lost")))
      pure { r with reportedOverruns := overruns }
    else pure r
  | .byte b =>
    if b = 0 then
      match if r.rxBuf.length > 0 then dbmDecodeFrame w r.rxBuf else none with
      | some m => do
        emit (.deliver m)
        pure .start
      | none => pure { r with rxBuf := [] }
    else if r.rxBuf.length < dbmMaxInboundFrameLen then pure { r with rxBuf := r.rxBuf ++ [b] }
    else do
      emit (.logWarning (ascii ("inbound frame exceeded " ++ toString dbmMaxInboundFrameLen ++
        " bytes; dropped and resyncing")))
      pure { r with rxBuf := [] }

/-- The calls of `receive_message` over what the link gives. -/
def receive : Receiver → List RxEvent → Traced RxAct Receiver
  | r, [] => pure r
  | r, ev :: events => do
    let r ← receiveStep w r ev
    receive r events

end

/-- The bytes the link gave. -/
def bytesOf (events : List RxEvent) : List UInt8 :=
  events.filterMap fun ev => match ev with
    | .byte b => some b
    | .idle _ => none

@[simp] theorem bytesOf_idle (overruns : UInt32) (events : List RxEvent) :
    bytesOf (.idle overruns :: events) = bytesOf events := rfl

@[simp] theorem bytesOf_byte (b : UInt8) (events : List RxEvent) :
    bytesOf (.byte b :: events) = b :: bytesOf events := rfl

/-- The messages returned, in order. -/
def delivered (acts : List RxAct) : List Message :=
  acts.filterMap fun act => match act with
    | .deliver m => some m
    | _ => none

theorem delivered_append (xs ys : List RxAct) :
    delivered (xs ++ ys) = delivered xs ++ delivered ys := List.filterMap_append

/-- An empty frame is refused like any other that is not one. -/
private theorem decode_rxBuf (w : Width) (buf : List UInt8) :
    (if buf.length > 0 then dbmDecodeFrame w buf else none) = dbmDecodeFrame w buf := by
  split
  · rfl
  · next h =>
    rw [dbmDecodeFrame, if_pos (.inl (Nat.eq_zero_of_not_pos h))]

/-- What the calls return is what the buffer is worth at each delimiter. -/
theorem delivered_receive (w : Width) (events : List RxEvent) : ∀ r : Receiver,
    delivered (receive w r events).log =
      (readRuns 0 (pushRestart dbmMaxInboundFrameLen) (dbmDecodeFrame w) [] r.rxBuf
        (bytesOf events)).filterMap id := by
  induction events with
  | nil => exact fun _ => rfl
  | cons ev events ih =>
    intro r
    rw [receive, log_bind, delivered_append, ih]
    cases ev with
    | idle overruns =>
      rw [bytesOf_idle]
      simp only [receiveStep]
      split <;> rfl
    | byte b =>
      rw [bytesOf_byte, readRuns]
      simp only [receiveStep, decode_rxBuf]
      split
      · cases dbmDecodeFrame w r.rxBuf <;> rfl
      · rw [pushRestart]
        split <;> rfl

/-! ## Against the runs of the stream -/

/-- What a run is worth: nothing when it is too long for the buffer. -/
def frameOf (w : Width) (run : List UInt8) : Option Message :=
  if run.length ≤ dbmMaxInboundFrameLen then dbmDecodeFrame w run else none

/-- What the buffer holds of a run at its delimiter. -/
def lastBytes (run : List UInt8) : List UInt8 :=
  run.drop (run.length - run.length % (dbmMaxInboundFrameLen + 1))

theorem lastBytes_of_le {run : List UInt8} (h : run.length ≤ dbmMaxInboundFrameLen) :
    lastBytes run = run := by
  rw [lastBytes, Nat.mod_eq_of_lt (Nat.lt_succ_of_le h), Nat.sub_self, List.drop_zero]

/-- The messages returned are the decodes of what the buffer holds of each run. -/
theorem delivered_eq (w : Width) (events : List RxEvent) :
    delivered (receive w .start events).log =
      (runs 0 (bytesOf events)).filterMap fun run => dbmDecodeFrame w (lastBytes run) := by
  have hread := readRuns_eq (d := 0) (pushRestart dbmMaxInboundFrameLen) (dbmDecodeFrame w) []
    (bytesOf events) []
  rw [List.foldl_nil] at hread
  rw [delivered_receive, Receiver.start, hread, List.filterMap_map, runs]
  simp only [foldl_pushRestart, lastBytes, Function.comp_def, id]

/-- The messages returned are those of the runs that fit, exactly when nothing is decoded
out of the end of a run that does not. -/
theorem delivered_eq_iff (w : Width) (events : List RxEvent) :
    delivered (receive w .start events).log = (runs 0 (bytesOf events)).filterMap (frameOf w) ↔
      ∀ run ∈ runs 0 (bytesOf events), dbmMaxInboundFrameLen < run.length →
        dbmDecodeFrame w (lastBytes run) = none := by
  rw [delivered_eq, filterMap_eq_iff]
  · simp only [frameOf, ite_eq_right_iff]
    refine forall₂_congr fun run _ => ⟨fun h hlong => h fun hfits => ?_, fun h hnone => ?_⟩
    · exact absurd hfits (Nat.not_le.mpr hlong)
    · by_cases hfits : run.length ≤ dbmMaxInboundFrameLen
      · rw [lastBytes_of_le hfits]
        exact hnone hfits
      · exact h (Nat.not_le.mp hfits)
  · intro run
    rw [frameOf]
    split
    · next h => exact .inl (by rw [lastBytes_of_le h])
    · exact .inr rfl

/-! ## The end of a lost frame -/

theorem bytesOf_map_byte (bytes : List UInt8) : bytesOf (bytes.map RxEvent.byte) = bytes := by
  induction bytes with
  | nil => rfl
  | cons b bytes ih => rw [List.map_cons, bytesOf_byte, ih]

/-- One byte more than the buffer takes empties it, and what follows is kept. -/
theorem lastBytes_append {run tail : List UInt8} (hrun : run.length = dbmMaxInboundFrameLen + 1)
    (htail : tail.length ≤ dbmMaxInboundFrameLen) : lastBytes (run ++ tail) = tail := by
  have hlength : (run ++ tail).length - (run ++ tail).length % (dbmMaxInboundFrameLen + 1) =
      run.length := by
    rw [List.length_append, hrun, Nat.add_mod_left, Nat.mod_eq_of_lt (Nat.lt_succ_of_le htail),
      Nat.add_sub_cancel]
  rw [lastBytes, hlength, List.drop_left]

/-- A run too long by the frame of a greeting at its end. -/
def overlongRun : List UInt8 := List.replicate (dbmMaxInboundFrameLen + 1) 1 ++ [1, 2, 25, 1]

/-- The greeting is received although the run it ends is too long. -/
theorem overlongRun_delivers :
    delivered (receive width32 .start
        ((overlongRun ++ [0]).map RxEvent.byte)).log = [.hello ⟨25, 0⟩] ∧
      (runs 0 (bytesOf ((overlongRun ++ [0]).map RxEvent.byte))).filterMap
        (frameOf width32) = [] := by
  have hzero : (0 : UInt8) ∉ overlongRun := by
    intro h
    rcases List.mem_append.mp h with h | h
    · exact absurd (List.eq_of_mem_replicate h) (by decide)
    · exact absurd h (by decide)
  have hruns : runs 0 (overlongRun ++ [0]) = [overlongRun] := by
    rw [runs_append hzero, runs_of_notMem List.not_mem_nil]
  have hlong : ¬ overlongRun.length ≤ dbmMaxInboundFrameLen := by
    rw [overlongRun, List.length_append, List.length_replicate]
    omega
  have hlast : lastBytes overlongRun = [1, 2, 25, 1] :=
    lastBytes_append List.length_replicate (by decide)
  have hdecode : dbmDecodeFrame width32 [1, 2, 25, 1] =
      some (.hello ⟨25, 0⟩) := by decide +kernel
  constructor
  · rw [delivered_eq, bytesOf_map_byte, hruns, List.filterMap_cons, hlast, hdecode]
    rfl
  · rw [bytesOf_map_byte, hruns, List.filterMap_cons, frameOf, if_neg hlong]
    rfl

end DevBench.Link
