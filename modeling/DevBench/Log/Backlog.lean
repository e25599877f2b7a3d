import DevBench.Core.Machine
import DevBench.Core.Ring
import DevBench.Wire.Message
import Mathlib.Algebra.GroupWithZero.Nat

/-!
# The backlog of the log backend

`emit_line` and `dev_bench_log_set_sink` (`dev_bench_log.c`) as the steps of two threads. The
log thread reads `log_sink` in one step and calls the sink, or stores the line, in a later one.
The dispatch thread assigns `log_sink`, takes the drop count, and then takes the held lines out
one at a time; a sink is called in the step that hands it its line.
-/

namespace DevBench.Log

open DevBench.Core DevBench.Wire

/-- `DEV_BENCH_LOG_BACKLOG_DEPTH` -/
abbrev devBenchLogBacklogDepth : Nat := 8

/-- A finished line. The code has its text alone; the number is that of the `emit_line` call. -/
structure Line where
  serial : Nat
  text : CharArray (dbmMaxLogLineLen + 1)
  deriving DecidableEq, Repr

/-- A call of a sink: from `emit_line`, with the drop report, or with a line that was held. -/
inductive SinkCall (κ : Type) where
  | emitted (sink : κ) (line : Line) (panic : Bool)
  | note (sink : κ) (dropped : UInt32)
  | held (sink : κ) (line : Line)
  deriving DecidableEq, Repr

/-- Where the dispatch thread is in `dev_bench_log_set_sink`. -/
inductive Flush (κ : Type) where
  | idle
  | installed (sink : κ)
  | draining (sink : κ)
  deriving DecidableEq, Repr

/-- The statics of the backend, what the two threads hold, and what happened so far. -/
structure Backend (κ : Type) where
  logSink : Option κ
  logPanicMode : Bool
  backlog : Ring Line devBenchLogBacklogDepth
  backlogDropped : UInt32
  /-- The line `emit_line` is at, with what it read in `log_sink`. -/
  emitting : Option (Line × Option κ)
  flush : Flush κ
  calls : List (SinkCall κ)
  /-- The lines whose `emit_line` is over. -/
  emitted : List Line
  /-- The lines handed to `backlog_put`. -/
  stored : List Line
  /-- The lines a later one was written over. -/
  overwritten : List Line
  /-- A `dev_bench_log_set_sink` that installed a sink is over and none has taken it away. -/
  linkUp : Bool

namespace Backend

variable {κ : Type}

/-- All statics are zero. -/
def boot : Backend κ where
  logSink := none
  logPanicMode := false
  backlog := .empty ⟨0, .empty⟩ (by decide)
  backlogDropped := 0
  emitting := none
  flush := .idle
  calls := []
  emitted := []
  stored := []
  overwritten := []
  linkUp := false

/-- A sink is called. -/
def call (s : Backend κ) (call : SinkCall κ) : Backend κ := { s with calls := s.calls ++ [call] }

/-- `backlog_put`: a full backlog loses its oldest line. -/
def backlogPut (s : Backend κ) (line : Line) : Backend κ :=
  { s with
    backlog := s.backlog.put line
    backlogDropped :=
      if s.backlog.count < devBenchLogBacklogDepth then s.backlogDropped
      else s.backlogDropped + 1
    stored := s.stored ++ [line]
    overwritten := s.overwritten ++ s.backlog.overwritten }

/-- What `emit_line` does once it has read `log_sink`. -/
def emitLine (s : Backend κ) (line : Line) : Option κ → Backend κ
  | some sink => s.call (.emitted sink line s.logPanicMode)
  | none => if s.logPanicMode then s else s.backlogPut line

/-- The end of an `emit_line`. -/
def finishLine (s : Backend κ) (line : Line) (sink : Option κ) : Backend κ :=
  { s.emitLine line sink with emitting := none, emitted := s.emitted ++ [line] }

/-- The first step of `dev_bench_log_set_sink`, and the whole of it without a sink. -/
def setSink (s : Backend κ) : Option κ → Backend κ
  | none => { s with logSink := none, linkUp := false }
  | some sink => { s with logSink := some sink, flush := .installed sink }

/-- The drop count is taken, and reported when there is one. -/
def takeDropped (s : Backend κ) (sink : κ) : Backend κ :=
  let taken : Backend κ := { s with backlogDropped := 0, flush := .draining sink }
  if 0 < s.backlogDropped then taken.call (.note sink s.backlogDropped) else taken

/-- One turn of the loop over `backlog_pop`, the last one when nothing is held. -/
def popHeld (s : Backend κ) (sink : κ) : Backend κ :=
  match s.backlog.pop with
  | none => { s with flush := .idle, linkUp := true }
  | some (line, rest) => { s with backlog := rest }.call (.held sink line)

/-- `dev_bench_log_backlog_dropped` -/
def devBenchLogBacklogDropped (s : Backend κ) : UInt32 := s.backlogDropped

end Backend

/-- The steps of the two threads, and the log subsystem's panic callback. -/
inductive Move (κ : Type) where
  | readSink (text : CharArray (dbmMaxLogLineLen + 1))
  | finishLine
  | setSink (sink : Option κ)
  | takeDropped
  | popHeld
  | panic
  deriving DecidableEq, Repr

variable {κ : Type}

/-- A thread makes the steps of a call in their order and is in one call at a time. -/
def step (s : Backend κ) : Move κ → Option (Backend κ)
  | .readSink text =>
    match s.emitting with
    | none => some { s with emitting := some (⟨s.emitted.length, text⟩, s.logSink) }
    | some _ => none
  | .finishLine =>
    match s.emitting with
    | none => none
    | some (line, sink) => some (s.finishLine line sink)
  | .setSink sink =>
    match s.flush with
    | .idle => some (s.setSink sink)
    | _ => none
  | .takeDropped =>
    match s.flush with
    | .installed sink => some (s.takeDropped sink)
    | _ => none
  | .popHeld =>
    match s.flush with
    | .draining sink => some (s.popHeld sink)
    | _ => none
  | .panic => some { s with logPanicMode := true }

/-! ## What the sinks were handed -/

/-- The line a call hands over, if it is not the drop report. -/
def SinkCall.line : SinkCall κ → Option Line
  | emitted _ line _ => some line
  | note .. => none
  | held _ line => some line

/-- The line, if it comes out of the backlog. -/
def SinkCall.heldLine : SinkCall κ → Option Line
  | held _ line => some line
  | _ => none

/-- The drops a call reports. -/
def SinkCall.drops : SinkCall κ → Nat
  | note _ dropped => dropped.toNat
  | _ => 0

namespace Backend

variable (s : Backend κ)

/-- The lines handed to a sink. -/
def delivered : List Line := s.calls.filterMap SinkCall.line

/-- Those of them that had been held. -/
def flushed : List Line := s.calls.filterMap SinkCall.heldLine

/-- The drops reported to a sink. -/
def reported : Nat := (s.calls.map SinkCall.drops).sum

@[simp] theorem delivered_call (c : SinkCall κ) :
    (s.call c).delivered = s.delivered ++ c.line.toList := by
  rw [delivered, call, List.filterMap_append, delivered]
  cases c <;> rfl

@[simp] theorem flushed_call (c : SinkCall κ) :
    (s.call c).flushed = s.flushed ++ c.heldLine.toList := by
  rw [flushed, call, List.filterMap_append, flushed]
  cases c <;> rfl

@[simp] theorem reported_call (c : SinkCall κ) :
    (s.call c).reported = s.reported + c.drops := by
  rw [reported, call, List.map_append, List.sum_append, reported, List.map_singleton,
    List.sum_singleton]

end Backend

/-! ## What a step can do -/

/-- The steps of `emit_line` and `dev_bench_log_set_sink`, each with all it changes. -/
theorem step_cases {s s' : Backend κ} {m : Move κ} (h : step s m = some s') :
    (∃ text, m = .readSink text ∧ s.emitting = none ∧
      s' = { s with emitting := some (⟨s.emitted.length, text⟩, s.logSink) }) ∨
    (∃ line sink, m = .finishLine ∧ s.emitting = some (line, sink) ∧
      s' = s.finishLine line sink) ∨
    (∃ sink, m = .setSink sink ∧ s.flush = .idle ∧ s' = s.setSink sink) ∨
    (∃ sink, m = .takeDropped ∧ s.flush = .installed sink ∧ s' = s.takeDropped sink) ∨
    (∃ sink, m = .popHeld ∧ s.flush = .draining sink ∧ s' = s.popHeld sink) ∨
    (m = .panic ∧ s' = { s with logPanicMode := true }) := by
  cases m with
  | readSink text =>
    simp only [step] at h
    split at h
    · exact .inl ⟨text, rfl, ‹_›, (Option.some.inj h).symm⟩
    · cases h
  | finishLine =>
    simp only [step] at h
    split at h
    · cases h
    · exact .inr (.inl ⟨_, _, rfl, ‹_›, (Option.some.inj h).symm⟩)
  | setSink sink =>
    simp only [step] at h
    split at h
    · exact .inr (.inr (.inl ⟨sink, rfl, ‹_›, (Option.some.inj h).symm⟩))
    · cases h
  | takeDropped =>
    simp only [step] at h
    split at h
    · exact .inr (.inr (.inr (.inl ⟨_, rfl, ‹_›, (Option.some.inj h).symm⟩)))
    · cases h
  | popHeld =>
    simp only [step] at h
    split at h
    · exact .inr (.inr (.inr (.inr (.inl ⟨_, rfl, ‹_›, (Option.some.inj h).symm⟩))))
    · cases h
  | panic => exact .inr (.inr (.inr (.inr (.inr ⟨rfl, (Option.some.inj h).symm⟩))))

end DevBench.Log
