import Mathlib.Tactic.Common

/-!
# Programs in an environment

A program acts on a state while an environment, fixed for the run, answers what it asks.
Its logic is that of pre- and postconditions: one rule for each way of putting programs
together, and `Keeps` for what a program leaves true.
-/

namespace DevBench.Core

variable {ε σ α β : Type}

/-- A program is run from a state in an environment. -/
def Program (ε σ α : Type) : Type := ε → σ → α × σ

namespace Program

instance : Monad (Program ε σ) where
  pure a := fun _ s => (a, s)
  bind m f := fun e s => f (m e s).1 e (m e s).2

/-- What follows runs where the first program ended. -/
theorem bind_apply (m : Program ε σ α) (f : α → Program ε σ β) (e : ε) (s : σ) :
    (m >>= f) e s = f (m e s).1 e (m e s).2 := rfl

/-- The state. -/
def get : Program ε σ σ := fun _ s => (s, s)

/-- Change the state. -/
def modify (f : σ → σ) : Program ε σ Unit := fun _ s => ((), f s)

/-- An `if` without an `else`. -/
def when (c : Prop) [Decidable c] (m : Program ε σ Unit) : Program ε σ Unit :=
  if c then m else pure ()

/-- A program that is left out changes nothing. -/
theorem when_apply (c : Prop) [Decidable c] (m : Program ε σ Unit) (e : ε) (s : σ) :
    when c m e s = if c then m e s else ((), s) := by
  unfold when
  split <;> rfl

/-- The same for every element of a list, in order. -/
def each (f : α → Program ε σ Unit) : List α → Program ε σ Unit
  | [] => pure ()
  | x :: xs => do
    f x
    each f xs

/-- From a state with `pre` the program ends in one with `post`. -/
def Triple (pre : σ → Prop) (m : Program ε σ α) (post : α → σ → Prop) : Prop :=
  ∀ e s, pre s → post (m e s).1 (m e s).2

/-- What holds before the program holds after it. -/
def Keeps (inv : σ → Prop) (m : Program ε σ α) : Prop := Triple inv m fun _ => inv

variable {pre pre' : σ → Prop} {post post' : α → σ → Prop} {inv : σ → Prop}

/-- More may be asked for and less promised. -/
theorem Triple.conseq {m : Program ε σ α} (h : Triple pre m post) (hpre : ∀ s, pre' s → pre s)
    (hpost : ∀ a s, post a s → post' a s) : Triple pre' m post' := fun e s hs =>
  hpost _ _ (h e s (hpre s hs))

/-- More may be asked for. -/
theorem Triple.weaken {m : Program ε σ α} (h : Triple pre m post)
    (hpre : ∀ s, pre' s → pre s) : Triple pre' m post := h.conseq hpre fun _ _ => id

/-- Less may be promised. -/
theorem Triple.strengthen {m : Program ε σ α} {q : α → σ → Prop} (h : Triple pre m q)
    (hq : ∀ a s, q a s → post a s) : Triple pre m post := h.conseq (fun _ => id) hq

/-- A value leaves the state as it was. -/
theorem triple_pure {a : α} (h : ∀ s, pre s → post a s) :
    Triple pre (pure a : Program ε σ α) post := fun _ s hs => h s hs

/-- A change of the state. -/
theorem triple_modify {f : σ → σ} {post : Unit → σ → Prop} (h : ∀ s, pre s → post () (f s)) :
    Triple pre (modify f : Program ε σ Unit) post := fun _ s hs => h s hs

/-- Nothing is said of the program. -/
theorem triple_any {m : Program ε σ α} : Triple pre m fun _ _ => True := fun _ _ _ => trivial

/-- What follows a program starts where it ends. -/
theorem Triple.bind {m : Program ε σ α} {f : α → Program ε σ β} {q : α → σ → Prop}
    {post : β → σ → Prop} (hm : Triple pre m q) (hf : ∀ a, Triple (q a) (f a) post) :
    Triple pre (m >>= f) post := fun e s hs => hf _ e _ (hm e s hs)

/-- What follows a look at the state knows the state. -/
theorem triple_get {f : σ → Program ε σ α}
    (h : ∀ s, Triple (fun s' => s' = s ∧ pre s') (f s) post) :
    Triple pre (get >>= f) post := fun e s hs => h s e s ⟨rfl, hs⟩

/-- Either branch. -/
theorem triple_ite {p : Prop} [Decidable p] {m n : Program ε σ α}
    (hm : p → Triple pre m post) (hn : ¬ p → Triple pre n post) :
    Triple pre (if p then m else n) post := by
  by_cases h : p
  · rw [if_pos h]
    exact hm h
  · rw [if_neg h]
    exact hn h

/-- What is asked for may be assumed of the state before. -/
theorem Triple.of_pre {m : Program ε σ α} (h : ∀ s, pre s → Triple (· = s) m post) :
    Triple pre m post := fun e s hs => h s hs e s rfl

/-- Two things may be said of one program. -/
theorem triple_and {m : Program ε σ α} (h : Triple pre m post) (h' : Triple pre' m post') :
    Triple (fun s => pre s ∧ pre' s) m fun a s => post a s ∧ post' a s := fun e s hs =>
  ⟨h e s hs.1, h' e s hs.2⟩

/-- A value keeps everything. -/
theorem keeps_pure (a : α) : Keeps inv (pure a : Program ε σ α) := triple_pure fun _ => id

/-- So does a look at the state. -/
theorem keeps_get : Keeps inv (get : Program ε σ σ) := fun _ _ hs => hs

/-- A change keeps what it keeps of every state. -/
theorem keeps_modify {f : σ → σ} (h : ∀ s, inv s → inv (f s)) :
    Keeps inv (modify f : Program ε σ Unit) := triple_modify h

/-- One program behind another. -/
theorem Keeps.bind {m : Program ε σ α} {f : α → Program ε σ β} (hm : Keeps inv m)
    (hf : ∀ a, Keeps inv (f a)) : Keeps inv (m >>= f) := Triple.bind hm hf

/-- Either branch. -/
theorem keeps_ite {p : Prop} [Decidable p] {m n : Program ε σ α} (hm : p → Keeps inv m)
    (hn : ¬ p → Keeps inv n) : Keeps inv (if p then m else n) := triple_ite hm hn

/-- A program that may be left out. -/
theorem keeps_when {p : Prop} [Decidable p] {m : Program ε σ Unit} (hm : p → Keeps inv m) :
    Keeps inv (when p m) := keeps_ite hm fun _ => keeps_pure ()

/-- What a program only returns something else from keeps the same. -/
theorem Keeps.map {m : Program ε σ α} (hm : Keeps inv m) (f : α → β) : Keeps inv (f <$> m) :=
  hm.bind fun a => keeps_pure (f a)

/-- A program for each element. -/
theorem keeps_each {f : α → Program ε σ Unit} : ∀ {xs : List α}, (∀ x ∈ xs, Keeps inv (f x)) →
    Keeps inv (each f xs)
  | [], _ => keeps_pure ()
  | x :: _, h => (h x List.mem_cons_self).bind fun _ =>
      keeps_each fun y hy => h y (List.mem_cons_of_mem x hy)

end Program

end DevBench.Core
