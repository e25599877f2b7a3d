import DevBench.Bridge.WholeBench
import DevBench.Bridge.ProtocolRounds

/-!
# No study hangs the bench

Two actions go round: a peripheral waits for the right peer, and a protocol run for its next
event; and the end of a study waits for the transcript queue to empty. Where time goes by, the
peers fall silent at last and the queue runs empty, all three loops end, and nothing else has
one. So whatever the bench is asked to do, there are answers it comes to, until it calls into
the GATT client without a connection.
-/

namespace DevBench.Bridge

open DevBench.Core DevBench.Core.Program DevBench.Eap DevBench.Bench DevBench.Wire

/-! ## Turns go on -/

/-- A turn later. -/
def BridgeState.later (s : BridgeState) : BridgeState := { s with turn := s.turn + 1 }

variable {host : Host} {s : BridgeState} {n : Nat}

/-- A turn has come, and these are the notes that wait. -/
def Held (n : Nat) (queue : List Note) (s : BridgeState) : Prop :=
  n ≤ s.turn ∧ s.protocol.queue = queue

/-- From a number of rounds on the calls can be answered so, and lead to the state. -/
def Answered (host : Host) (answers : Answers) (acts : List Bench.Act) (s : BridgeState)
    (least : Nat) (s' : BridgeState) : Prop :=
  ∀ rounds ≥ least, (serve rounds acts host s).1.all (Learned.fits answers) = true ∧
    (serve rounds acts host s).2 = s'

/-- What follows is asked in the state that was left. -/
theorem Answered.append {answers : Answers} {acts acts' : List Bench.Act} {s₁ s' : BridgeState}
    {least least' : Nat} (h : Answered host answers acts s least s₁)
    (h' : Answered host answers acts' s₁ least' s') :
    Answered host answers (acts ++ acts') s (max least least') s' := by
  intro rounds hrounds
  obtain ⟨hall, hends⟩ := h rounds ((Nat.le_max_left _ _).trans hrounds)
  obtain ⟨hall', hends'⟩ := h' rounds ((Nat.le_max_right _ _).trans hrounds)
  subst hends
  rw [serve_append]
  exact ⟨List.all_append.trans (Bool.and_eq_true_iff.mpr ⟨hall, hall'⟩), hends'⟩

/-- Every GATT call there has been when the message is handled had a connection. -/
def WholeBench.Live (build : Build) (host : Host) (x : WholeBench) (t : Turn) : Prop :=
  ∀ m ∈ (serve t.rounds (handle build x.awaitingStudy t.inbound).log host x.bridge).2.log, m.Live

instance (build : Build) (host : Host) (x : WholeBench) (t : Turn) :
    Decidable (x.Live build host t) := by
  unfold WholeBench.Live
  infer_instance

end DevBench.Bridge
