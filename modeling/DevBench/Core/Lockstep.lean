import DevBench.Core.Machine
import DevBench.Core.Program
import Mathlib.Data.Set.Insert

/-!
# Two runs of one program

A relation between two environments and states is kept in lockstep when two runs of a
program, each from its own side, return the same and end related again. The rules are
those of pre- and postconditions, on both sides at once; a look at the state may be
followed by the same program only. A run beside itself is a triple.

Where the sides may differ in parts of the state, a program may look at a part once it is
settled: both sides have set it, or are known to agree on it.

Two machines whose moves keep a relation, and are possible on both sides or on neither, play
the same games.
-/

namespace DevBench.Core

variable {ε σ α β : Type}

/-- A relation between two environments with their states. -/
abbrev Related (ε σ : Type) : Type := ε → σ → ε → σ → Prop

namespace Program

/-- From related sides two runs return the same, and end in related states. -/
def Lockstep (pre : Related ε σ) (m : Program ε σ α) (post : α → Related ε σ) : Prop :=
  ∀ e s e' s', pre e s e' s' →
    (m e s).1 = (m e' s').1 ∧ post (m e s).1 e (m e s).2 e' (m e' s').2

/-- Two runs keep the relation. -/
abbrev InStep (rel : Related ε σ) (m : Program ε σ α) : Prop := Lockstep rel m fun _ => rel

variable {pre pre' rel : Related ε σ} {post post' : α → Related ε σ} {m : Program ε σ α}

/-- More may be asked for and less promised. -/
theorem Lockstep.conseq (h : Lockstep pre m post)
    (hpre : ∀ e s e' s', pre' e s e' s' → pre e s e' s')
    (hpost : ∀ a e s e' s', post a e s e' s' → post' a e s e' s') : Lockstep pre' m post' := by
  intro e s e' s' hs
  obtain ⟨hsame, hend⟩ := h e s e' s' (hpre e s e' s' hs)
  exact ⟨hsame, hpost _ _ _ _ _ hend⟩

/-- Both return the same. -/
theorem lockstep_pure {a : α} (h : ∀ e s e' s', pre e s e' s' → post a e s e' s') :
    Lockstep pre (pure a) post := fun e s e' s' hs => ⟨rfl, h e s e' s' hs⟩

/-- Both are changed. -/
theorem lockstep_modify {f : σ → σ} {post : Unit → Related ε σ}
    (h : ∀ e s e' s', pre e s e' s' → post () e (f s) e' (f s')) :
    Lockstep pre (modify f) post := fun e s e' s' hs => ⟨rfl, h e s e' s' hs⟩

/-- What follows is the same program on both sides, since the results are the same. -/
theorem Lockstep.bind {f : α → Program ε σ β} {post : β → Related ε σ} {q : α → Related ε σ}
    (hm : Lockstep pre m q) (hf : ∀ a, Lockstep (q a) (f a) post) :
    Lockstep pre (m >>= f) post := by
  intro e s e' s' hs
  obtain ⟨hsame, hmid⟩ := hm e s e' s' hs
  simp only [bind_apply]
  rw [← hsame]
  exact hf _ e _ e' _ hmid

/-- A look at the state, as long as what follows does not depend on where the sides differ. -/
theorem lockstep_get {f : σ → Program ε σ α}
    (hsame : ∀ e s e' s', pre e s e' s' → f s = f s')
    (h : ∀ s, Lockstep (fun e s₁ e' s' => s₁ = s ∧ pre e s₁ e' s') (f s) post) :
    Lockstep pre (get >>= f) post := by
  intro e s e' s' hs
  simp only [bind_apply, get]
  rw [← hsame e s e' s' hs]
  exact h s e s e' s' ⟨rfl, hs⟩

/-- Both take the same branch. -/
theorem lockstep_ite {p : Prop} [Decidable p] {m n : Program ε σ α}
    (hm : p → Lockstep pre m post) (hn : ¬ p → Lockstep pre n post) :
    Lockstep pre (if p then m else n) post := by
  by_cases h : p
  · rw [if_pos h]
    exact hm h
  · rw [if_neg h]
    exact hn h

/-- Whatever else is known. -/
theorem Lockstep.given {known : Related ε σ} (h : Lockstep pre m post) :
    Lockstep (fun e s e' s' => known e s e' s' ∧ pre e s e' s') m post :=
  h.conseq (fun _ _ _ _ => And.right) fun _ _ _ _ _ => id

/-- A value leaves the two as they are. -/
theorem inStep_pure (a : α) : InStep rel (pure a) := lockstep_pure fun _ _ _ _ => id

/-- So does a program that may be left out. -/
theorem inStep_when {p : Prop} [Decidable p] {m : Program ε σ Unit} (hm : p → InStep rel m) :
    InStep rel (when p m) := lockstep_ite hm fun _ => inStep_pure ()

/-- So does one for each element. -/
theorem inStep_each {f : α → Program ε σ Unit} {xs : List α} (h : ∀ x ∈ xs, InStep rel (f x)) :
    InStep rel (each f xs) := by
  induction xs with
  | nil => exact inStep_pure ()
  | cons x xs ih =>
    obtain ⟨hx, hxs⟩ := List.forall_mem_cons.mp h
    exact Lockstep.bind hx fun _ => ih hxs

/-- What is true of the first side alone may be known on the way. -/
theorem Lockstep.beside {p : σ → Prop} {q : α → σ → Prop} (h : Lockstep pre m post)
    (hone : Triple p m q) :
    Lockstep (fun e s e' s' => p s ∧ pre e s e' s') m
      fun a e s e' s' => q a s ∧ post a e s e' s' := by
  rintro e s e' s' ⟨hp, hs⟩
  obtain ⟨hsame, hend⟩ := h e s e' s' hs
  exact ⟨hsame, hone e s hp, hend⟩

/-- A run beside itself. -/
theorem Lockstep.diagonal {p : σ → Prop} {q : α → σ → Prop} (h : Lockstep pre m post)
    (hpre : ∀ e s, p s → pre e s e s) (hpost : ∀ a e s, post a e s e s → q a s) :
    Triple p m q := fun e s hs => hpost _ _ _ (h e s e s (hpre e s hs)).2

end Program

/-! ## Parts the sides agree on -/

/-- A relation for every set of parts two sides agree on. -/
structure Agreement (κ ε σ : Type) where
  rel : Set κ → Related ε σ
  Same : κ → σ → σ → Prop
  forget : ∀ {E E' : Set κ} {e s e' s'}, E ⊆ E' → rel E' e s e' s' → rel E e s e' s'
  learn : ∀ {E L : Set κ} {e s e' s'}, rel E e s e' s' → (∀ p ∈ L, Same p s s') →
    rel (E ∪ L) e s e' s'

namespace Agreement

open Program

variable {κ : Type} (G : Agreement κ ε σ)

/-- On sides that agree on some parts at least, the program returns the same, and they agree
on more behind it. -/
def Settles (A : Set κ) (m : Program ε σ α) (L : α → Set κ) : Prop :=
  ∀ E, A ⊆ E → Lockstep (G.rel E) m fun a => G.rel (E ∪ L a)

/-- The program settles nothing. -/
abbrev Needs (A : Set κ) (m : Program ε σ α) : Prop := G.Settles A m fun _ => ∅

variable {G} {A B : Set κ} {m : Program ε σ α} {L K : α → Set κ}

/-- A program that keeps step whatever else is known needs nothing more. -/
theorem needs_of_inStep (h : ∀ E, A ⊆ E → InStep (G.rel E) m) : G.Needs A m := fun E hE =>
  (h E hE).conseq (fun _ _ _ _ => id) fun _ _ _ _ _ h => by rwa [Set.union_empty]

/-- What is needed is enough to keep step. -/
theorem Needs.inStep {E : Set κ} (h : G.Needs A m) (hE : A ⊆ E) : InStep (G.rel E) m :=
  Lockstep.conseq (h E hE) (fun _ _ _ _ => id) fun _ _ _ _ _ =>
    G.forget Set.subset_union_left

/-- What was known before counts as settled. -/
theorem Settles.conseq (h : G.Settles A m L) (hK : ∀ a, K a ⊆ A ∪ L a) : G.Settles A m K :=
  fun E hE => Lockstep.conseq (h E hE) (fun _ _ _ _ => id) fun a _ _ _ _ =>
    G.forget (Set.union_subset Set.subset_union_left
      ((hK a).trans (Set.union_subset_union_left _ hE)))

/-- What it settles need not be used. -/
theorem Settles.forget (h : G.Settles A m L) : G.Needs A m := h.conseq fun _ => Set.empty_subset _

/-- More may be known before. -/
theorem Settles.mono (h : G.Settles A m L) (hA : A ⊆ B) : G.Settles B m L := fun E hE =>
  h E (hA.trans hE)

/-- A value settles what is known. -/
theorem settles_pure {a : α} (h : K a ⊆ A) : G.Settles A (pure a) K := fun E hE =>
  lockstep_pure fun _ _ _ _ hs => by rwa [Set.union_eq_self_of_subset_right (h.trans hE)]

/-- It needs nothing. -/
theorem needs_pure (a : α) : G.Needs A (pure a) := settles_pure (Set.empty_subset _)

/-- What follows may look at what is settled. -/
theorem Settles.bind {f : α → Program ε σ β} {K : β → Set κ} (hm : G.Settles A m L)
    (hf : ∀ a, G.Settles (A ∪ L a) (f a) K) : G.Settles A (m >>= f) K := fun E hE =>
  Lockstep.bind (hm E hE) fun a =>
    Lockstep.conseq (hf a _ (Set.union_subset_union_left _ hE)) (fun _ _ _ _ => id)
      fun _ _ _ _ _ => G.forget (Set.union_subset_union_left _ Set.subset_union_left)

/-- What follows may do without what was settled. -/
theorem Settles.then {f : α → Program ε σ β} {K : β → Set κ} (hm : G.Settles A m L)
    (hf : ∀ a, G.Settles A (f a) K) : G.Settles A (m >>= f) K :=
  hm.bind fun a => (hf a).mono Set.subset_union_left

/-- The value may be changed behind it. -/
theorem Settles.map (hm : G.Settles A m L) (f : α → β) : G.Needs A (f <$> m) :=
  hm.then fun a => needs_pure (f a)

/-- Both branches settle it. -/
theorem settles_ite {p : Prop} [Decidable p] {m n : Program ε σ α} (hm : p → G.Settles A m L)
    (hn : ¬ p → G.Settles A n L) : G.Settles A (if p then m else n) L := fun E hE =>
  lockstep_ite (fun hp => hm hp E hE) fun hp => hn hp E hE

/-- A program that may be left out. -/
theorem needs_when {p : Prop} [Decidable p] {m : Program ε σ Unit} (hm : p → G.Needs A m) :
    G.Needs A (when p m) := settles_ite hm fun _ => needs_pure ()

/-- A program for each element. -/
theorem needs_each {f : β → Program ε σ Unit} {xs : List β} (h : ∀ x ∈ xs, G.Needs A (f x)) :
    G.Needs A (each f xs) := by
  induction xs with
  | nil => exact needs_pure ()
  | cons x xs ih =>
    obtain ⟨hx, hxs⟩ := List.forall_mem_cons.mp h
    exact hx.then fun _ => ih hxs

/-- A look at the state on both sides, which may tell that they agree on more. -/
theorem settles_look {f : σ → Program ε σ α} {K : σ → Set κ}
    (hsame : ∀ {E e s e' s'}, A ⊆ E → G.rel E e s e' s' → f s = f s')
    (hlearn : ∀ {E e s e' s'}, A ⊆ E → G.rel E e s e' s' → ∀ p ∈ K s, G.Same p s s')
    (h : ∀ s, G.Settles (A ∪ K s) (f s) L) : G.Settles A (get >>= f) L := fun E hE =>
  lockstep_get (fun _ _ _ _ => hsame hE) fun s =>
    Lockstep.conseq (h s _ (Set.union_subset_union_left _ hE))
      (fun _ _ _ _ ⟨hs, hrel⟩ => by
        subst hs
        exact G.learn hrel (hlearn hE hrel))
      fun _ _ _ _ _ => G.forget (Set.union_subset_union_left _ Set.subset_union_left)

/-- A look at the state must show both the same. -/
theorem settles_get {f : σ → Program ε σ α}
    (hsame : ∀ {E e s e' s'}, A ⊆ E → G.rel E e s e' s' → f s = f s')
    (h : ∀ s, G.Settles A (f s) L) : G.Settles A (get >>= f) L :=
  settles_look (K := fun _ => ∅) hsame (fun _ _ _ => False.elim) fun s =>
    (h s).mono Set.subset_union_left

/-- What both sides set they agree on, as long as nothing else is spoilt. -/
theorem settles_modify {f : σ → σ} {L : Set κ}
    (hkeep : ∀ {E e s e' s'}, A ⊆ E → G.rel E e s e' s' → G.rel E e (f s) e' (f s'))
    (hset : ∀ {E e s e' s'}, A ⊆ E → G.rel E e s e' s' → ∀ p ∈ L, G.Same p (f s) (f s')) :
    G.Settles A (modify f) fun _ => L := fun _ hE =>
  lockstep_modify fun _ _ _ _ h => G.learn (hkeep hE h) (hset hE h)

end Agreement

/-! ## Two machines -/

section

variable {μ τ γ : Type} {rel : σ → τ → Prop}

/-- What is read alike of related values. -/
theorem map_eq_of_rel {o : Option σ} {o' : Option τ} {f : σ → γ} {g : τ → γ}
    (h : Option.Rel rel o o') (hsame : ∀ s t, rel s t → f s = g t) : o.map f = o'.map g := by
  cases h with
  | some h => exact congrArg some (hsame _ _ h)
  | none => rfl

/-- Related machines play the same moves, and end related. -/
theorem play_rel {step : σ → μ → Option σ} {step' : τ → μ → Option τ}
    (hmove : ∀ s t m, rel s t → Option.Rel rel (step s m) (step' t m)) {s : σ} {t : τ}
    (h : rel s t) (moves : List μ) :
    Option.Rel rel (play step (fun _ _ => True) s moves)
      (play step' (fun _ _ => True) t moves) := by
  induction moves generalizing s t with
  | nil => exact .some h
  | cons m moves ih =>
    rw [play, play, if_pos trivial, if_pos trivial]
    generalize step s m = o, step' t m = o', hmove s t m h = hnext
    cases hnext with
    | some hnext => exact ih hnext
    | none => exact .none

end

end DevBench.Core
