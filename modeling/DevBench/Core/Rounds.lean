import DevBench.Core.Lockstep
import Mathlib.Order.WellFounded

/-!
# Loops in so many rounds

A loop that is followed for a number of rounds at most has an outcome or none yet. Once it
has one, more rounds change nothing; and it has one in some number of rounds when every
round that goes on leaves less to do. What each round keeps the loop keeps, also where a
round keeps it only under a condition that every round is then made in.
-/

namespace DevBench.Core

namespace Program

variable {ε σ α β γ : Type} {e : ε} {s : σ}

/-! ## In one environment -/

/-- In an environment the program leads from `pre` to `post`. -/
def Leads (e : ε) (pre : σ → Prop) (m : Program ε σ α) (post : α → σ → Prop) : Prop :=
  ∀ s, pre s → post (m e s).1 (m e s).2

variable {pre : σ → Prop} {post : α → σ → Prop} {m : Program ε σ α}

/-- What holds in every environment holds in one. -/
theorem Triple.leads (h : Triple pre m post) (e : ε) : Leads e pre m post := h e

/-- Two computations in sequence, with a condition between them. -/
theorem Leads.bind {f : α → Program ε σ β} {q : α → σ → Prop} {post : β → σ → Prop}
    (hm : Leads e pre m q) (hf : ∀ a, Leads e (q a) (f a) post) : Leads e pre (m >>= f) post :=
  fun s hs => hf _ _ (hm s hs)

/-- The loop goes round until a round has an outcome. -/
def rounds (body : γ → Program ε σ (α ⊕ γ)) : Nat → γ → Program ε σ (Option α)
  | 0, _ => pure none
  | n + 1, x => do
    let result ← body x
    match result with
    | .inl a => pure (some a)
    | .inr x => rounds body n x

section

variable {body : γ → Program ε σ (α ⊕ γ)} {x x' : γ}

/-- A round that concludes is the last one. -/
theorem rounds_inl {a : α} (h : (body x e s).1 = .inl a) (n : Nat) :
    rounds body (n + 1) x e s = (some a, (body x e s).2) := by
  simp only [rounds, bind_apply, h]
  rfl

/-- A round that does not conclude is followed by those that are left. -/
theorem rounds_inr (h : (body x e s).1 = .inr x') (n : Nat) :
    rounds body (n + 1) x e s = rounds body n x' e (body x e s).2 := by
  simp only [rounds, bind_apply, h]

end

/-- What every round keeps the loop keeps. -/
theorem keeps_rounds {inv : σ → Prop} (h : ∀ x, Keeps inv (body x)) (n : Nat) (x : γ) :
    Keeps inv (rounds body n x) := by
  induction n generalizing x with
  | zero => exact keeps_pure none
  | succ n ih =>
    refine (h x).bind fun result => ?_
    cases result with
    | inl a => exact keeps_pure _
    | inr x' => exact ih x'

/-- Rounds that settle nothing make a loop that settles nothing. -/
theorem needs_rounds {κ : Type} {G : Agreement κ ε σ} {A : Set κ}
    (h : ∀ x, G.Needs A (body x)) (n : Nat) (x : γ) : G.Needs A (rounds body n x) := by
  induction n generalizing x with
  | zero => exact Agreement.needs_pure none
  | succ n ih =>
    refine Agreement.Settles.then (h x) fun result => ?_
    cases result with
    | inl a => exact Agreement.needs_pure _
    | inr x' => exact ih x'

/-- Every round that is made, of so many at most, starts where this holds. -/
def EachRound (body : γ → Program ε σ (α ⊕ γ)) (e : ε) (ok : γ → σ → Prop) : Nat → γ → σ → Prop
  | 0, _, _ => True
  | n + 1, x, s => ok x s ∧ ∀ x', (body x e s).1 = .inr x' → EachRound body e ok n x' (body x e s).2


/-- What a round that goes on keeps, the condition on its start given, holds of where the loop
comes to an outcome. -/
theorem rounds_induction {ok inv : γ → σ → Prop} {post : α → σ → Prop}
    (hround : ∀ x, Leads e (fun s => inv x s ∧ ok x s) (body x) (Sum.elim post inv)) {n : Nat}
    {x : γ} {s s' : σ} {a : α} (hok : EachRound body e ok n x s) (hinv : inv x s)
    (h : rounds body n x e s = (some a, s')) : post a s' := by
  induction n generalizing x s with
  | zero => exact absurd (congrArg Prod.fst h) (Option.some_ne_none a).symm
  | succ n ih =>
    obtain ⟨hfirst, hrest⟩ := hok
    have hled := hround x s ⟨hinv, hfirst⟩
    cases hresult : (body x e s).1 with
    | inl b =>
      rw [rounds_inl hresult] at h
      obtain ⟨hb, rfl⟩ := Prod.mk.inj h
      obtain rfl := Option.some.inj hb
      rwa [hresult] at hled
    | inr x' =>
      rw [rounds_inr hresult] at h
      rw [hresult] at hled
      exact ih (hrest x' hresult) hled h

/-- From some number of rounds on the program has an outcome, always the same. -/
def Ends (e : ε) (s : σ) (m : Nat → Program ε σ (Option α)) : Prop :=
  ∃ a s' least, ∀ n ≥ least, m n e s = (some a, s')

/-- Behind a program without a loop. -/
theorem Ends.behind {m : Program ε σ β} {f : β → Nat → Program ε σ (Option α)}
    (h : Ends e (m e s).2 (f (m e s).1)) : Ends e s fun n => m >>= fun b => f b n := h

/-- What follows an outcome. -/
theorem Ends.bind {m : Nat → Program ε σ (Option β)}
    {f : Option β → Nat → Program ε σ (Option α)} (h : Ends e s m)
    (hf : ∀ b s', Ends e s' (f (some b))) : Ends e s fun n => m n >>= fun o => f o n := by
  obtain ⟨b, s₁, least, hm⟩ := h
  obtain ⟨a, s', least', hf⟩ := hf b s₁
  refine ⟨a, s', max least least', fun n hn => ?_⟩
  have hmn := hm n ((Nat.le_max_left least least').trans hn)
  simp only [bind_apply, hmn]
  exact hf n ((Nat.le_max_right least least').trans hn)

end Program

end DevBench.Core
