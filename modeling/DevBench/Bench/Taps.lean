import DevBench.Core.Trace
import DevBench.Wire.Message
import Mathlib.Logic.Function.Basic

/-!
# Stream taps

The table of the taps a study declared, which of them are open, and the calls of
`set_tap_open` that bring them in line with their scopes.
-/

namespace DevBench.Bench

open DevBench.Core DevBench.Wire

/-- `dbm_stream_tap_covers`. -/
def covers (tap : StreamTap) (stepIndex : Nat) : Bool :=
  match tap.scope with
  | .wholeStudy => true
  | .steps scopeFrom scopeTo => scopeFrom.toNat ≤ stepIndex && stepIndex ≤ scopeTo.toNat

/-- `dbm_stream_tap_is_ours`. -/
def isOurs (tap : StreamTap) : Bool := tap.sourceTag != .signal

/-- The per-study statics of `main.c` that say what is captured. -/
structure TapTable where
  studyTaps : List StreamTap
  /-- By index into `studyTaps`. -/
  tapOpen : Nat → Bool
  transcriptTapIndex : Option Nat
  transcriptTapOpen : Bool

/-- `load_study_taps`; the first transcript tap is the one that counts. -/
def loadStudyTaps (streams : List StreamTap) : TapTable where
  studyTaps := streams
  tapOpen := fun _ => false
  transcriptTapIndex := streams.findIdx? (·.sourceTag = .gattTranscript)
  transcriptTapOpen := false

/-- One call of `set_tap_open`. -/
structure TapCall where
  index : Nat
  isOpen : Bool
  deriving DecidableEq, Repr

namespace TapTable

/-- `tap_open[index] = open`. -/
def assignOpen (t : TapTable) (call : TapCall) : TapTable :=
  { t with tapOpen := Function.update t.tapOpen call.index call.isOpen }

/-- The transcript tap's own flag follows. -/
def assignTranscript (t : TapTable) (call : TapCall) : TapTable :=
  if t.transcriptTapIndex = some call.index then { t with transcriptTapOpen := call.isOpen }
  else t

/-- Both assignments of `set_tap_open`. -/
def setTapOpen (t : TapTable) (call : TapCall) : TapTable :=
  (t.assignOpen call).assignTranscript call

/-- Every tap of this node from index `i` on that is not as wanted is set to it. -/
def align (want : StreamTap → Bool) : Nat → List StreamTap → TapTable → Traced TapCall TapTable
  | _, [], t => pure t
  | i, tap :: taps, t =>
    if isOurs tap ∧ want tap ≠ t.tapOpen i then do
      Traced.emit ⟨i, want tap⟩
      align want (i + 1) taps (t.setTapOpen ⟨i, want tap⟩)
    else align want (i + 1) taps t

/-- `sync_taps_for_step`: the taps whose window covers the step are open, all others closed. -/
def syncTapsForStep (t : TapTable) (stepIndex : Nat) : Traced TapCall TapTable :=
  t.align (fun tap => covers tap stepIndex) 0 t.studyTaps

/-- `close_all_taps`. -/
def closeAllTaps (t : TapTable) : Traced TapCall TapTable :=
  t.align (fun _ => false) 0 t.studyTaps

end TapTable

end DevBench.Bench
