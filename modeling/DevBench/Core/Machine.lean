import Mathlib.Tactic.Common

/-!
# Machines

A machine moves between states by moves that may not be possible in every one of them.
Its runs may be restricted to moves made under a condition on the state they start in.
-/

namespace DevBench.Core

variable {σ μ : Type}

/-- The states reached from `start` by moves that meet the condition. -/
inductive Reaches (step : σ → μ → Option σ) (ok : σ → μ → Prop) (start : σ) : σ → Prop
  | start : Reaches step ok start start
  | move {s s' : σ} {m : μ} :
    Reaches step ok start s → ok s m → step s m = some s' → Reaches step ok start s'

namespace Reaches

variable {step : σ → μ → Option σ} {ok : σ → μ → Prop} {start s : σ}

/-- What holds at the start and is kept by every allowed move holds of every state reached. -/
theorem invariant (inv : σ → Prop) (hstart : inv start)
    (hmove : ∀ s s' m, inv s → ok s m → step s m = some s' → inv s')
    (h : Reaches step ok start s) : inv s := by
  induction h with
  | start => exact hstart
  | move _ hok hstep ih => exact hmove _ _ _ ih hok hstep

end Reaches

/-- A machine with what an onlooker notes of its moves beside its state. -/
def watched {γ : Type} (step : σ → μ → Option σ) (see : σ → μ → γ → γ) (s : σ × γ) (m : μ) :
    Option (σ × γ) :=
  (step s.1 m).map fun s' => (s', see s.1 m s.2)

section

variable (step : σ → μ → Option σ) (ok : σ → μ → Prop) [∀ s m, Decidable (ok s m)]

/-- The state a list of moves leads to, if every one of them is possible and meets the
condition. -/
def play : σ → List μ → Option σ
  | s, [] => some s
  | s, m :: moves => if ok s m then (step s m).bind fun s' => play s' moves else none

variable {step ok}

/-- Played moves reach the state they lead to. -/
theorem reaches_of_play {start s : σ} : ∀ {moves : List μ} {s₀ : σ},
    Reaches step ok start s₀ → play step ok s₀ moves = some s → Reaches step ok start s
  | [], _, h, hplay => Option.some.inj hplay ▸ h
  | m :: moves, s₀, h, hplay => by
    obtain ⟨hok, hplay⟩ := Option.ite_none_right_eq_some.mp hplay
    obtain ⟨s₁, hstep, hrest⟩ := Option.bind_eq_some_iff.mp hplay
    exact reaches_of_play (.move h hok hstep) hrest

/-- What is played under a condition can be played without one. -/
theorem play_of_play_ok {s : σ} : ∀ {moves : List μ} {start : σ},
    play step ok start moves = some s → play step (fun _ _ => True) start moves = some s
  | [], _, hplay => hplay
  | m :: moves, start, hplay => by
    obtain ⟨-, hplay⟩ := Option.ite_none_right_eq_some.mp hplay
    obtain ⟨s₁, hstep, hrest⟩ := Option.bind_eq_some_iff.mp hplay
    rw [play, if_pos trivial, hstep]
    exact play_of_play_ok hrest

theorem play_append {start : σ} (before behind : List μ) :
    play step ok start (before ++ behind) =
      (play step ok start before).bind fun s => play step ok s behind := by
  induction before generalizing start with
  | nil => rfl
  | cons m before ih =>
    rw [List.cons_append, play, play]
    split
    · cases step start m with
      | none => rfl
      | some s₁ => exact ih
    · rfl

/-- Where the moves allowed keep a state sound and any other one spoils it for good, a run
ends in a sound state or a spoilt one as all of its moves were allowed or not. -/
theorem sound_or_spoilt {sound spoilt : σ → Prop}
    (hallowed : ∀ s m s', sound s → ok s m → step s m = some s' → sound s')
    (hother : ∀ s m s', sound s → ¬ ok s m → step s m = some s' → spoilt s')
    (hspoilt : ∀ s m s', spoilt s → step s m = some s' → spoilt s') {s : σ} :
    ∀ {moves : List μ} {start : σ}, play step (fun _ _ => True) start moves = some s →
      (sound start → (sound s ∧ play step ok start moves = some s) ∨
        (spoilt s ∧ play step ok start moves = none)) ∧ (spoilt start → spoilt s)
  | [], start, hplay => by
    obtain rfl := Option.some.inj hplay
    exact ⟨fun h => .inl ⟨h, rfl⟩, id⟩
  | m :: moves, start, hplay => by
    obtain ⟨s₁, hstep, hrest⟩ := Option.bind_eq_some_iff.mp ((if_pos trivial).symm.trans hplay)
    obtain ⟨hsound, hspoils⟩ := sound_or_spoilt hallowed hother hspoilt hrest
    refine ⟨fun h => ?_, fun h => hspoils (hspoilt _ _ _ h hstep)⟩
    by_cases hok : ok start m
    · rw [play, if_pos hok, hstep, Option.bind_some]
      exact hsound (hallowed _ _ _ h hok hstep)
    · rw [play, if_neg hok]
      exact .inr ⟨hspoils (hother _ _ _ h hok hstep), rfl⟩

end

end DevBench.Core
