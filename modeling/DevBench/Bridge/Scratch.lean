import DevBench.Bridge.HardReset

/-!
# What a step does not look at

Most of what the bridge keeps in its statics is scratch: a step makes it before it looks at
it, and the callbacks look at it only while a step has them run. Whatever is scribbled there
between two commands is never noticed.
-/

namespace DevBench.Bridge

open DevBench.Core DevBench.Core.Program DevBench.Core.Agreement DevBench.Eap DevBench.Bench
  DevBench.Wire

variable {s : BridgeState}

instance (s : BridgeState) : Decidable s.LooksUp :=
  inferInstanceAs (Decidable (_ ∨ _ ∨ _ ∨ _))

/-- The exchange with another one's scratch. -/
def Exchange.scribbled (x junk : Exchange) : Exchange := { junk with
  streaming := x.streaming
  subscribed := x.subscribed
  subscribeHandle := x.subscribeHandle
  subscribeValue := x.subscribeValue
  handleCache := if x.handleCache.valid then x.handleCache else
    { junk.handleCache with valid := false } }

/-- The bridge with another one's scratch. What may be looked at depends on what is going on:
the scan while one runs, the cache while it is valid, the table while a window is open, a
subscription armed or a walk on its way. -/
def BridgeState.scribbled (s junk : BridgeState) : BridgeState := { s with
  link.connErr := junk.link.connErr
  link.linkLost := junk.link.linkLost
  scan := if s.scanning then s.scan else junk.scan
  exchange := s.exchange.scribbled junk.exchange
  table := if s.LooksUp then s.table else junk.table
  discovering := if s.pending = some .allCharacteristics then s.discovering else junk.discovering
  security := junk.security
  protocol := { junk.protocol with subscribed := s.protocol.subscribed }
  given := junk.given
  heard := junk.heard }

/-- A bridge is as good as its scribbled one. -/
theorem alike_scribbled (host : Host) (hbetween : s.Between) (junk : BridgeState) :
    Alike (itself calming_true False) ∅ host s host (s.scribbled junk) where
  sync := rfl
  log := ⟨s.log.map Mark.unnamed, (List.append_nil _).symm, (List.append_nil _).symm⟩
  same _ := False.elim
  reason := rfl
  activeConn := rfl
  pendingConn := rfl
  advertising := rfl
  scanning := rfl
  scan h := by
    rw [BridgeState.scribbled, h]
    exact ⟨rfl, rfl, rfl, rfl, rfl, fun _ _ => rfl⟩
  streaming := rfl
  subscribed := rfl
  subscribeHandle := rfl
  subscribeValue := rfl
  cacheValid := by
    simp only [BridgeState.scribbled, Exchange.scribbled]
    split
    · rfl
    · exact Bool.eq_false_of_not_eq_true ‹_›
  cache h := (if_pos h).symm
  table h := (if_pos h).symm
  discovering h := (if_pos h).symm
  count := rfl
  windowOpen := rfl
  charIndex _ _ := rfl
  reads := rfl
  queue h := absurd hbetween.2 h
  pending := rfl
  armed := rfl
  idle := hbetween.1
  rest := trivial
  unread := False.elim

/-- Whatever is scribbled over the scratch between two commands, the bridge tells for whatever
is called next what it would have told without, and does the same in the same order. -/
theorem scratch_unread (h : Reaches BridgeState.next (fun _ _ => True) .initial s)
    (junk : BridgeState) (host : Host) (rounds : Nat) (commands : List Command) :
    let clean := session rounds commands host s
    let dirty := session rounds commands host (s.scribbled junk)
    clean.1 = dirty.1 ∧ clean.2.log.map Mark.unnamed = dirty.2.log.map Mark.unnamed := by
  intro clean dirty
  obtain ⟨hsame, hends⟩ := (needs_session (A := ∅) (fun _ => trivial) id rounds commands).inStep
    subset_rfl _ _ _ _ (alike_scribbled host (between_of_reaches h) junk)
  obtain ⟨marks, hclean, hdirty⟩ := hends.log
  exact ⟨hsame, hclean.trans hdirty.symm⟩

/-- What a read that failed on a lost link may leave, with every semaphore given. -/
def litter : BridgeState := { BridgeState.initial with
  link.connErr := 0x3e
  link.linkLost := true
  exchange.captured := .ofList [1, 2, 3]
  exchange.attErr := 5
  exchange.cccTornDown := true
  exchange.foundValueHandle := 7
  security.failed := some 9
  given := fun _ => true }

/-- Litter in front of the stop of a window and a discovery. -/
theorem scratch_unread_window : ∃ s : BridgeState, s.scribbled litter ≠ s ∧
    (let commands : List Command := [.execute .gattMonitorStop 1000, .execute .gattDiscover 1000]
     (session 1 commands awayAndBack s).1 =
       (session 1 commands awayAndBack (s.scribbled litter)).1) := by
  have hplay : ((play BridgeState.next (fun _ _ => True) .initial
      [⟨.execute (.connect .central none none) 1000, awayAndBack, 1⟩,
        ⟨.execute .gattMonitorStart 1000, awayAndBack, 1⟩]).any fun s =>
      decide (s.link.linkLost = false)) = true := by
    decide +kernel
  obtain ⟨s, hs, hlost⟩ := (Option.any_eq_true _ _).mp hplay
  have hdiffers : (s.scribbled litter).link.linkLost ≠ s.link.linkLost := by
    rw [of_decide_eq_true hlost]
    exact Bool.false_ne_true.symm
  exact ⟨s, fun h => hdiffers (congrArg (·.link.linkLost) h),
    (scratch_unread (reaches_of_play .start hs) litter awayAndBack 1 _).1⟩

end DevBench.Bridge
