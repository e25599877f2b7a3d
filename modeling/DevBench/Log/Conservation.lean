import DevBench.Log.Backlog
import Mathlib.Data.List.Nodup

/-!
# What becomes of a line

Outside panic mode a line is delivered, held or counted as dropped, in every order the two
threads' steps can come in. A line stored while the dispatch thread is past its last look into
the backlog stays there: `emit_line` decides on a read of `log_sink` that may be old by then.
-/

namespace DevBench.Log

open DevBench.Core DevBench.Wire

variable {κ : Type}

/-- Every line is in one place, and the backlog keeps the last ones in their order. -/
structure Conserved (s : Backend κ) : Prop where
  /-- The lines are told apart by the number of their call. -/
  serials : s.emitted.map Line.serial = List.range s.emitted.length
  /-- Delivered, held and overwritten together are the lines emitted, each of them once. -/
  once : ∀ line, s.delivered.count line + s.backlog.contents.count line +
    s.overwritten.count line = if line ∈ s.emitted then 1 else 0
  /-- The drop counts reported and the one still to be reported count the lines overwritten. -/
  counted : s.overwritten.length = s.reported + s.devBenchLogBacklogDropped.toNat
  depth : s.backlog.contents.length ≤ devBenchLogBacklogDepth
  recent : s.backlog.contents <:+ s.stored
  storedOnce : s.stored.Nodup
  /-- What came out of the backlog, and then what is in it, is in the order it was stored in. -/
  inOrder : (s.flushed ++ s.backlog.contents).Sublist s.stored

/-! ## The invariant -/

/-- What every step outside panic mode keeps. -/
structure Balanced (s : Backend κ) : Prop where
  awake : s.logPanicMode = false
  serials : s.emitted.map Line.serial = List.range s.emitted.length
  inHand : ∀ line sink, s.emitting = some (line, sink) → line.serial = s.emitted.length
  places : s.emitted.Perm (s.delivered ++ s.backlog.contents ++ s.overwritten)
  counted : s.emitted.length < 2 ^ 32 →
    s.overwritten.length = s.reported + s.backlogDropped.toNat
  emitted : s.stored.Sublist s.emitted
  recent : s.backlog.contents <:+ s.stored
  inOrder : (s.flushed ++ s.backlog.contents).Sublist s.stored

theorem balanced_boot : Balanced (Backend.boot : Backend κ) where
  awake := rfl
  serials := rfl
  inHand := nofun
  places := .nil
  counted := fun _ => rfl
  emitted := .slnil
  recent := ⟨[], rfl⟩
  inOrder := .slnil

namespace Balanced

variable {s : Backend κ}

/-- The next line has the next number. -/
theorem serials_snoc (h : Balanced s) {line : Line} {sink : Option κ}
    (hhand : s.emitting = some (line, sink)) :
    (s.emitted ++ [line]).map Line.serial = List.range (s.emitted ++ [line]).length := by
  rw [List.map_append, h.serials, List.length_append, List.length_singleton, List.range_succ,
    List.map_singleton, h.inHand line sink hhand]

/-- A line that goes to the sink is delivered and is in no other place. -/
theorem finish_sink (h : Balanced s) {line : Line} {sink : κ}
    (hhand : s.emitting = some (line, some sink)) :
    Balanced (s.finishLine line (some sink)) where
  awake := h.awake
  serials := h.serials_snoc hhand
  inHand := nofun
  places := by
    change (s.emitted ++ [line]).Perm
      ((s.call (.emitted sink line s.logPanicMode)).delivered ++ s.backlog.contents ++
        s.overwritten)
    have hplaces := h.places.append_right [line]
    rw [Backend.delivered_call]
    change List.Perm _ (s.delivered ++ [line] ++ _ ++ _)
    grind
  counted := fun hfew => by
    change (s.emitted ++ [line]).length < 2 ^ 32 at hfew
    change s.overwritten.length = (s.call (.emitted sink line s.logPanicMode)).reported + _
    rw [List.length_append] at hfew
    rw [Backend.reported_call]
    exact h.counted (by omega)
  emitted := h.emitted.trans (List.sublist_append_left _ _)
  recent := h.recent
  inOrder := by
    change ((s.call (.emitted sink line s.logPanicMode)).flushed ++ _).Sublist s.stored
    rw [Backend.flushed_call]
    change (s.flushed ++ [] ++ _).Sublist s.stored
    rw [List.append_nil]
    exact h.inOrder

/-- The drop count cannot wrap: it is at most the number of lines so far. -/
theorem counted_put (h : Balanced s) (line : Line) (hfew : s.emitted.length + 1 < 2 ^ 32) :
    (s.backlogPut line).overwritten.length =
      s.reported + (s.backlogPut line).backlogDropped.toNat := by
  have hcounted := h.counted (by omega)
  have hle : s.overwritten.length ≤ s.emitted.length := by
    rw [h.places.length_eq, List.length_append]
    omega
  rw [Backend.backlogPut, Ring.overwritten, List.length_append]
  by_cases hroom : s.backlog.count < devBenchLogBacklogDepth
  · rw [if_pos hroom]
    simp only [if_pos hroom]
    exact hcounted
  · have hadd : (s.backlogDropped + 1).toNat = s.backlogDropped.toNat + 1 := by
      rw [UInt32.toNat_add, UInt32.toNat_one]
      exact Nat.mod_eq_of_lt (by omega)
    rw [if_neg hroom]
    simp only [if_neg hroom]
    rw [hadd, List.length_singleton]
    omega

/-- A line that goes into the backlog is held, and the one it displaces is counted. -/
theorem finish_hold (h : Balanced s) {line : Line}
    (hhand : s.emitting = some (line, none)) :
    Balanced { s.backlogPut line with emitting := none, emitted := s.emitted ++ [line] } where
  awake := h.awake
  serials := h.serials_snoc hhand
  inHand := nofun
  places := by
    have hplaces := h.places.append_right [line]
    have hput := s.backlog.contents_put line
    change (s.emitted ++ [line]).Perm (s.delivered ++ (s.backlog.put line).contents ++
      (s.overwritten ++ s.backlog.overwritten))
    have hmoved : (s.delivered ++ (s.backlog.overwritten ++ (s.backlog.put line).contents) ++
        s.overwritten).Perm (s.delivered ++ (s.backlog.put line).contents ++
          (s.overwritten ++ s.backlog.overwritten)) := by
      grind
    refine List.Perm.trans ?_ hmoved
    rw [hput]
    grind
  counted := fun hfew => by
    change (s.emitted ++ [line]).length < 2 ^ 32 at hfew
    rw [List.length_append] at hfew
    exact h.counted_put line hfew
  emitted := h.emitted.append (List.Sublist.refl [line])
  recent := by
    obtain ⟨before, hbefore⟩ := h.recent
    refine ⟨before ++ s.backlog.overwritten, ?_⟩
    change before ++ s.backlog.overwritten ++ (s.backlog.put line).contents = s.stored ++ [line]
    rw [List.append_assoc, s.backlog.contents_put line, ← List.append_assoc, hbefore]
  inOrder := by
    change (s.flushed ++ (s.backlog.put line).contents).Sublist (s.stored ++ [line])
    have hkept : (s.flushed ++ (s.backlog.put line).contents).Sublist
        (s.flushed ++ (s.backlog.overwritten ++ (s.backlog.put line).contents)) :=
      (List.Sublist.refl _).append (List.sublist_append_right _ _)
    refine hkept.trans ?_
    rw [s.backlog.contents_put line, ← List.append_assoc]
    exact h.inOrder.append (List.Sublist.refl [line])

theorem setSink (h : Balanced s) (sink : Option κ) : Balanced (s.setSink sink) := by
  cases sink with
  | none => exact { h with }
  | some sink => exact { h with }

/-- The drop count moves into the report. -/
theorem takeDropped (h : Balanced s) (sink : κ) : Balanced (s.takeDropped sink) := by
  rw [Backend.takeDropped]
  split
  · exact { h with
      places := by
        rw [Backend.delivered_call]
        change s.emitted.Perm (s.delivered ++ [] ++ _ ++ _)
        rw [List.append_nil]
        exact h.places
      counted := fun hfew => by
        rw [Backend.reported_call]
        exact h.counted hfew
      inOrder := by
        rw [Backend.flushed_call]
        change (s.flushed ++ [] ++ _).Sublist s.stored
        rw [List.append_nil]
        exact h.inOrder }
  · rename_i hdropped
    have hzero : s.backlogDropped = 0 := by simpa using hdropped
    exact { h with
      counted := fun hfew => by
        have hcounted := h.counted hfew
        rw [hzero] at hcounted
        exact hcounted }

/-- A line that leaves the backlog is the oldest held and is delivered. -/
theorem popHeld (h : Balanced s) (sink : κ) : Balanced (s.popHeld sink) := by
  rw [Backend.popHeld]
  split
  · exact { h with }
  · rename_i line rest hpop
    have hcontents := Ring.contents_of_pop hpop
    exact { h with
      places := by
        rw [Backend.delivered_call]
        change s.emitted.Perm (s.delivered ++ [line] ++ rest.contents ++ s.overwritten)
        rw [List.append_assoc s.delivered, List.singleton_append, ← hcontents]
        exact h.places
      counted := fun hfew => by
        rw [Backend.reported_call]
        exact h.counted hfew
      recent := (List.suffix_cons line _).trans (hcontents ▸ h.recent)
      inOrder := by
        rw [Backend.flushed_call]
        change (s.flushed ++ [line] ++ rest.contents).Sublist s.stored
        rw [List.append_assoc, List.singleton_append, ← hcontents]
        exact h.inOrder }

/-- Every step but the panic callback keeps the balance. -/
theorem step {s' : Backend κ} {m : Move κ} (h : Balanced s) (hm : m ≠ .panic)
    (hstep : step s m = some s') : Balanced s' := by
  obtain ⟨text, rfl, -, rfl⟩ | ⟨line, sink, rfl, hhand, rfl⟩ | ⟨sink, rfl, -, rfl⟩ |
    ⟨sink, rfl, -, rfl⟩ | ⟨sink, rfl, -, rfl⟩ | ⟨rfl, -⟩ := step_cases hstep
  · exact { h with inHand := fun _ _ heq => by cases heq; rfl }
  · cases sink with
    | some sink => exact h.finish_sink hhand
    | none =>
      rw [Backend.finishLine, Backend.emitLine, if_neg (by rw [h.awake]; exact Bool.false_ne_true)]
      exact h.finish_hold hhand
  · exact h.setSink sink
  · exact h.takeDropped sink
  · exact h.popHeld sink
  · exact absurd rfl hm

theorem conserved (h : Balanced s) (hfew : s.emitted.length < 2 ^ 32) : Conserved s := by
  have hnodup : s.emitted.Nodup := by
    refine List.Nodup.of_map Line.serial ?_
    rw [h.serials]
    exact List.nodup_range
  exact {
    serials := h.serials
    once := fun line => by
      rw [← List.count_append, ← List.count_append, ← h.places.count_eq line]
      exact hnodup.count
    counted := h.counted hfew
    depth := s.backlog.length_contents_le
    recent := h.recent
    storedOnce := h.emitted.nodup hnodup
    inOrder := h.inOrder }

end Balanced

/-- No line is lost, doubled or put out of order while there are fewer than `2 ^ 32` of them and
no panic. -/
theorem backlog_conserves {s : Backend κ}
    (h : Reaches step (fun _ m => m ≠ .panic) Backend.boot s)
    (hfew : s.emitted.length < 2 ^ 32) : Conserved s :=
  (h.invariant Balanced balanced_boot fun _ _ _ hs hm hstep => hs.step hm hstep).conserved hfew

/-- Nine lines before the link is up, and a sink installed behind them. -/
def nineLines : List (Move Unit) :=
  (List.replicate 9 [.readSink .empty, .finishLine]).flatten ++
    [.setSink (some ()), .takeDropped] ++ List.replicate 9 .popHeld

/-- Eight of the nine lines are delivered and the first one is reported as dropped. -/
theorem backlog_conserves_nineLines : ∃ s : Backend Unit, Conserved s ∧
    s.emitted.length = 9 ∧ s.flushed.map Line.serial = [1, 2, 3, 4, 5, 6, 7, 8] ∧
      s.reported = 1 := by
  have hplay : ∃ s : Backend Unit, play step (fun _ m => m ≠ .panic) Backend.boot nineLines =
      some s ∧ s.emitted.length = 9 ∧ s.flushed.map Line.serial = [1, 2, 3, 4, 5, 6, 7, 8] ∧
        s.reported = 1 := ⟨_, rfl, rfl, rfl, rfl⟩
  obtain ⟨s, hplay, hlen, hflushed, hreported⟩ := hplay
  have hfew : s.emitted.length < 2 ^ 32 := by
    rw [hlen]
    decide
  exact ⟨s, backlog_conserves (reaches_of_play .start hplay) hfew, hlen, hflushed, hreported⟩

/-! ## Lines nobody will read -/

/-- With the link up and no `emit_line` under way nothing is held. -/
def Unstranded (s : Backend κ) : Prop :=
  s.linkUp = true → s.emitting = none → s.backlog.contents = []

/-- An `emit_line` that found no sink ends before a sink is installed and the backlog emptied. -/
def InTime (s : Backend κ) (m : Move κ) : Prop :=
  m = .finishLine → ∀ line, s.emitting = some (line, none) → s.logPanicMode = false →
    s.linkUp = false

/-- Nothing is held while the link is up, also during an `emit_line`. -/
def Drained (s : Backend κ) : Prop := s.linkUp = true → s.backlog.contents = []

theorem Drained.unstranded {s : Backend κ} (h : Drained s) : Unstranded s := fun hup _ => h hup

theorem contents_backlogPut_ne_nil (s : Backend κ) (line : Line) :
    (s.backlogPut line).backlog.contents ≠ [] := by
  intro hnil
  have hput := s.backlog.contents_put line
  have hlen := congrArg List.length hput
  change (s.backlog.put line).contents = [] at hnil
  rw [hnil, List.append_nil, List.length_append, Ring.overwritten] at hlen
  split at hlen
  · simp at hlen
  · simp only [List.length_singleton, Ring.length_contents] at hlen
    simp only [devBenchLogBacklogDepth] at *
    omega

/-- A step made in time keeps the backlog empty. -/
theorem Drained.step {s s' : Backend κ} {m : Move κ} (h : Drained s) (hin : InTime s m)
    (hstep : step s m = some s') : Drained s' := by
  obtain ⟨text, rfl, -, rfl⟩ | ⟨line, sink, rfl, hhand, rfl⟩ | ⟨sink, rfl, -, rfl⟩ |
    ⟨sink, rfl, -, rfl⟩ | ⟨sink, rfl, -, rfl⟩ | ⟨rfl, rfl⟩ := step_cases hstep
  · exact h
  · cases sink with
    | some sink => exact h
    | none =>
      rw [Backend.finishLine, Backend.emitLine]
      cases hpanic : s.logPanicMode with
      | true => exact h
      | false =>
        intro hup
        change s.linkUp = true at hup
        rw [hin rfl line hhand hpanic] at hup
        cases hup
  · cases sink with
    | none => exact nofun
    | some sink => exact h
  · rw [Backend.takeDropped]
    split
    · exact h
    · exact h
  · rw [Backend.popHeld]
    split
    · rename_i hpop
      exact fun _ => Ring.pop_eq_none.mp hpop
    · rename_i line rest hpop
      intro hup
      have hempty := h hup
      rw [Ring.contents_of_pop hpop] at hempty
      cases hempty
  · exact h

/-- In a run whose steps are made in time no line is stranded, and the first step that is not
strands one. -/
theorem unstranded_inTime {s : Backend κ} (h : Reaches step InTime Backend.boot s) :
    Unstranded s ∧ ∀ m s', step s m = some s' → (Unstranded s' ↔ InTime s m) := by
  have hdrained : Drained s :=
    h.invariant Drained (fun _ => rfl) fun _ _ _ hs hin hstep => hs.step hin hstep
  refine ⟨hdrained.unstranded, fun m s' hstep => ⟨?_, fun hin =>
    (hdrained.step hin hstep).unstranded⟩⟩
  rintro hnot rfl line hhand hpanic
  by_contra hup
  have hs' : s' = s.finishLine line none := by
    rw [step, hhand] at hstep
    exact (Option.some.inj hstep).symm
  subst hs'
  refine contents_backlogPut_ne_nil s line ?_
  have hfinish : s.emitLine line none = s.backlogPut line := by
    rw [Backend.emitLine, hpanic]
    rfl
  rw [← hfinish]
  refine hnot ?_ rfl
  change (s.emitLine line none).linkUp = true
  rw [hfinish]
  exact Bool.not_eq_false _ ▸ hup

/-- A line held before the link is up is out of the backlog once it is. -/
theorem unstranded_inTime_held : ∃ s : Backend Unit, s.linkUp = true ∧ s.flushed.length = 1 ∧
    Unstranded s := by
  have hread : Reaches step InTime (Backend.boot : Backend Unit) _ :=
    .move (m := .readSink .empty) .start nofun rfl
  have hheld : Reaches step InTime (Backend.boot : Backend Unit) _ :=
    .move (m := .finishLine) hread (fun _ _ _ _ => rfl) rfl
  have hinstalled : Reaches step InTime (Backend.boot : Backend Unit) _ :=
    .move (m := .takeDropped) (.move (m := .setSink (some ())) hheld nofun rfl) nofun rfl
  have hup : Reaches step InTime (Backend.boot : Backend Unit) _ :=
    .move (m := .popHeld) (.move (m := .popHeld) hinstalled nofun rfl) nofun rfl
  exact ⟨_, rfl, rfl, (unstranded_inTime hup).1⟩

/-- The dispatch thread installs a sink and finds nothing held while a line is on its way in. -/
def lateLine : List (Move Unit) :=
  [.readSink .empty, .setSink (some ()), .takeDropped, .popHeld, .finishLine]

/-- A line is held for good behind an open link. -/
theorem not_unstranded_lateLine :
    ¬ ∀ s : Backend Unit, Reaches step (fun _ _ => True) Backend.boot s → Unstranded s := by
  intro hall
  have hplay : ∃ s, play step (fun _ _ => True) (Backend.boot : Backend Unit) lateLine = some s ∧
      s.linkUp = true ∧ s.emitting = none ∧ s.backlog.contents ≠ [] := by
    refine ⟨_, rfl, rfl, rfl, ?_⟩
    exact contents_backlogPut_ne_nil _ _
  obtain ⟨s, hplay, hup, hidle, hheld⟩ := hplay
  exact hheld (hall s (reaches_of_play .start hplay) hup hidle)

end DevBench.Log
