import DevBench.Bridge.Events
import DevBench.Core.Rounds

/-!
# Rounds of a protocol run

The loop of `execute_run_protocol` as a loop in rounds, and what a round does to an invariant
about nothing but the turn and the notes that wait: a turn that goes by and a note that
arrives are all it has to stand, whatever the link does.
-/

namespace DevBench.Bridge

open DevBench.Core DevBench.Core.Program DevBench.Eap DevBench.Bench DevBench.Wire

/-- A round of the loop. -/
def protocolRound (defn : ProtocolDef) (deadline : Nat) (x : EapRun × EapStep) :
    Act (BridgeOutcome ⊕ (EapRun × EapStep)) :=
  match x.2 with
  | .done finalState verdict => .inl <$> doneOutcome finalState verdict
  | .wait _ => .inr <$> nextStep defn deadline x.1
  | .write source withResponse payload _ => do
    let written ← protocolWriteOut defn source withResponse payload
    if written.kind ≠ .pass then pure (.inl (writeFailedOutcome x.1 written))
    else .inr <$> nextStep defn deadline x.1

/-- The loop goes round so. -/
theorem protocolLoop_eq (defn : ProtocolDef) (deadline n : Nat) (run : EapRun) (step : EapStep) :
    protocolLoop defn deadline n run step =
      Program.rounds (protocolRound defn deadline) n (run, step) := by
  induction n generalizing run step with
  | zero => rfl
  | succ n ih =>
    funext host s
    cases step with
    | done finalState verdict => rfl
    | wait _ =>
      rw [protocolLoop, bind_apply, ih]
      refine Eq.symm (rounds_inr ?_ n)
      rfl
    | write source withResponse payload after =>
      have hround : protocolRound defn deadline (run, .write source withResponse payload after)
          host s = (do
            let written ← protocolWriteOut defn source withResponse payload
            if written.kind ≠ .pass then pure (.inl (writeFailedOutcome run written))
            else .inr <$> nextStep defn deadline run : Act _) host s := rfl
      rw [bind_apply] at hround
      rw [protocolLoop, bind_apply]
      by_cases hfailed : (protocolWriteOut defn source withResponse payload host s).1.kind ≠ .pass
      · rw [if_pos hfailed] at hround ⊢
        refine Eq.trans ?_ (rounds_inl (congrArg Prod.fst hround) n).symm
        rw [hround]
        rfl
      · rw [if_neg hfailed] at hround ⊢
        refine Eq.trans ?_ (rounds_inr (congrArg Prod.fst hround) n).symm
        rw [hround, ← ih]
        rfl

/-! ## Turns and notes -/

/-- The invariant is about the turn and the notes that wait, and is kept when a turn goes by and
when a note arrives. -/
structure OfNotes (inv : BridgeState → Prop) : Prop where
  same : ∀ {s s' : BridgeState}, inv s → s'.turn = s.turn →
    s'.protocol.queue = s.protocol.queue →
    s'.protocol.notificationsDropped = s.protocol.notificationsDropped → inv s'
  turn : ∀ {s : BridgeState}, inv s → inv { s with turn := s.turn + 1 }
  arrived : ∀ {s : BridgeState} (note : Note), inv s → inv (s.arrive note)

namespace OfNotes

variable {inv : BridgeState → Prop} (h : OfNotes inv)
include h

/-- Whatever the host does, the invariant is kept. -/
theorem keptByHost : KeptByHost inv where
  other := by
    intro s s' hview hs
    simp only [BridgeState.view, Prod.mk.injEq] at hview
    obtain ⟨-, -, -, -, -, hturn, -, hqueue, hdropped⟩ := hview
    exact h.same hs hturn hqueue hdropped
  turn := h.turn
  quiet _ hs := h.same hs rfl rfl rfl
  up _ _ hs := h.same hs rfl rfl rfl
  lost _ _ hs := by
    unfold BridgeState.lose BridgeState.drop
    split
    · exact h.same hs rfl rfl rfl
    · exact h.same hs rfl rfl rfl
  done hs := h.same hs rfl rfl rfl
  found _ hs := h.same hs rfl rfl rfl
  arrived := h.arrived
  delivered _ _ _ hs := h.same hs rfl rfl rfl
  ccc hs := h.same hs rfl rfl rfl

/-- A program that takes no turn and leaves the notes alone. -/
theorem step {α : Type} {m : Act α} (hturn : ∀ host s, (m host s).2.turn = s.turn)
    (hnotes : ∀ host s, (m host s).2.protocol = s.protocol) : Keeps inv m := fun host s hs =>
  h.same hs (hturn host s) (congrArg ProtocolSide.queue (hnotes host s))
    (congrArg ProtocolSide.notificationsDropped (hnotes host s))

/-- An answer takes a turn. -/
theorem answer : Keeps inv answer := h.keptByHost.answer

/-- A wait takes turns, and notes may arrive. -/
theorem wait (sem : Sem) (site : Site) : Keeps inv (wait sem site) :=
  h.keptByHost.wait (fun _ _ hs => h.same hs rfl rfl rfl) fun _ hs => h.same hs rfl rfl rfl

/-- A call into the GATT client is answered, or has no connection. -/
theorem gattCall (call : GattCall) : Keeps inv (gattCall call) :=
  keeps_get.bind fun _ => Keeps.bind (h.step (fun _ _ => rfl) fun _ _ => rfl) fun _ =>
    keeps_ite (fun _ => h.answer) fun _ => keeps_pure _

/-- A procedure that was taken on is outstanding. -/
theorem request (call : GattCall) (procedure : Procedure) :
    Keeps inv (request call procedure) := by
  refine (h.gattCall call).bind fun _ => Keeps.bind (keeps_when fun _ => ?_) fun _ => keeps_pure _
  exact h.step (fun _ _ => rfl) fun _ _ => rfl

/-- It is given up. -/
theorem abandon : Keeps inv abandon :=
  keeps_get.bind fun _ => keeps_when fun _ => h.step (fun _ _ => rfl) fun _ _ => rfl

/-- A write of the protocol, acknowledged or not. -/
theorem protocolWriteOut (defn : ProtocolDef) (source : UInt8) (withResponse : Bool)
    (payload : List UInt8) : Keeps inv (protocolWriteOut defn source withResponse payload) := by
  have hpass : Keeps inv outcomePass := h.step (fun _ _ => rfl) fun _ _ => rfl
  refine keeps_ite (fun _ => keeps_pure _) fun _ => ?_
  refine Keeps.bind (h.step (fun _ _ => rfl) fun _ _ => rfl) fun _ => keeps_get.bind fun s => ?_
  refine keeps_ite (fun _ => ?_) fun _ => ?_
  · exact (h.gattCall _).bind fun _ => keeps_ite (fun _ => keeps_pure _) fun _ => hpass
  · refine Keeps.bind (h.step (fun _ _ => rfl) fun _ _ => rfl) fun _ => ?_
    refine Keeps.bind (h.step (fun _ _ => rfl) fun _ _ => rfl) fun _ => (h.request _ _).bind
      fun _ => keeps_ite (fun _ => keeps_pure _) fun _ => ?_
    refine keeps_get.bind fun s => (h.wait _ _).bind fun _ => keeps_get.bind fun _ => ?_
    refine keeps_ite (fun _ => h.abandon.bind fun _ => keeps_pure _) fun _ => ?_
    refine keeps_ite (fun _ => h.step (fun _ _ => rfl) fun _ _ => rfl) fun _ => ?_
    exact keeps_ite (fun _ => keeps_pure _) fun _ => hpass

end OfNotes

end DevBench.Bridge
