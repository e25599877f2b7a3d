import DevBench.Core.Program

/-!
# Programs that keep a log

Part of the state is a log that is only added to. What a program adds, together with what it
returns, is its specification; that of a sequence is had from left to right, the second program
being told what the first one added.
-/

namespace DevBench.Core

/-- An entry of a log that was added to stands in the old part or in the new one. -/
theorem entry_of_append {γ : Type} {old new before after : List γ} {entry : γ}
    (h : old ++ new = before ++ entry :: after) :
    (∃ more, before = old ++ more ∧ new = more ++ entry :: after) ∨
      ∃ more, old = before ++ entry :: more := by
  rcases List.append_eq_append_iff.mp h with ⟨more, hbefore, hnew⟩ | ⟨more, hold, hrest⟩
  · exact .inl ⟨more, hbefore, hnew⟩
  · cases more with
    | nil =>
      rw [List.append_nil] at hold
      exact .inl ⟨[], by rw [hold, List.append_nil], hrest.symm⟩
    | cons first more =>
      obtain ⟨rfl, -⟩ := List.cons.inj hrest
      exact .inr ⟨more, hold⟩

namespace Program

variable {ε σ α β γ : Type}

/-- From any state and in any environment the program adds to the log what `post` allows. -/
def Logs (log : σ → List γ) (m : Program ε σ α) (post : α → List γ → Prop) : Prop :=
  ∀ e s, ∃ new, log (m e s).2 = log s ++ new ∧ post (m e s).1 new

variable {log : σ → List γ} {post post' : α → List γ → Prop}

/-- A weaker condition on the end. -/
theorem Logs.conseq {m : Program ε σ α} (h : Logs log m post)
    (hpost : ∀ a new, post a new → post' a new) : Logs log m post' := fun e s => by
  obtain ⟨new, hlog, hnew⟩ := h e s
  exact ⟨new, hlog, hpost _ _ hnew⟩

/-- A pure computation logs nothing. -/
theorem logs_pure {a : α} (h : post a []) : Logs log (pure a : Program ε σ α) post :=
  fun _ s => ⟨[], (List.append_nil (log s)).symm, h⟩

/-- What follows a program adds to what the program added. -/
theorem Logs.bind {m : Program ε σ α} {f : α → Program ε σ β} {post : β → List γ → Prop}
    {q : α → List γ → Prop} (hm : Logs log m q)
    (hf : ∀ a old, q a old → Logs log (f a) fun b new => post b (old ++ new)) :
    Logs log (m >>= f) post := fun e s => by
  obtain ⟨old, hold, hq⟩ := hm e s
  obtain ⟨new, hnew, hpost⟩ := hf _ old hq e (m e s).2
  refine ⟨old ++ new, ?_, hpost⟩
  rw [bind_apply, hnew, hold, List.append_assoc]

/-- A branch, each side under its condition. -/
theorem logs_ite {p : Prop} [Decidable p] {m n : Program ε σ α} (hm : p → Logs log m post)
    (hn : ¬ p → Logs log n post) : Logs log (if p then m else n) post := by
  by_cases h : p
  · rw [if_pos h]
    exact hm h
  · rw [if_neg h]
    exact hn h

/-- A change of the state that adds a known list. -/
theorem logs_modify {f : σ → σ} {new : List γ} {post : Unit → List γ → Prop}
    (hf : ∀ s, log (f s) = log s ++ new) (h : post () new) :
    Logs log (modify f : Program ε σ Unit) post := fun _ s => ⟨new, hf s, h⟩

/-- The program adds entries of one kind only. -/
def LogsOnly (log : σ → List γ) (m : Program ε σ α) (kind : γ → Prop) : Prop :=
  Logs log m fun _ new => ∀ entry ∈ new, kind entry

variable {kind : γ → Prop}

/-- A pure computation logs nothing of any kind. -/
theorem logsOnly_pure (a : α) : LogsOnly log (pure a : Program ε σ α) kind := logs_pure nofun

/-- Two computations in sequence log what both do. -/
theorem LogsOnly.bind {m : Program ε σ α} {f : α → Program ε σ β} (hm : LogsOnly log m kind)
    (hf : ∀ a, LogsOnly log (f a) kind) : LogsOnly log (m >>= f) kind :=
  Logs.bind hm fun a _ hold => (hf a).conseq fun _ _ hnew entry hentry =>
    (List.mem_append.mp hentry).elim (hold entry) (hnew entry)

/-- A branch logs what its two sides do. -/
theorem logsOnly_ite {p : Prop} [Decidable p] {m n : Program ε σ α}
    (hm : LogsOnly log m kind) (hn : LogsOnly log n kind) :
    LogsOnly log (if p then m else n) kind :=
  logs_ite (fun _ => hm) fun _ => hn

/-- A program that adds nothing. -/
theorem Logs.only_nil {m : Program ε σ α} (h : Logs log m fun _ new => new = []) :
    LogsOnly log m kind := h.conseq fun _ new hnew entry hentry => by
  rw [hnew] at hentry
  cases hentry

/-- A program that adds one entry. -/
theorem Logs.only_singleton {m : Program ε σ α} {entry : α → γ}
    (h : Logs log m fun a new => new = [entry a]) (hkind : ∀ a, kind (entry a)) :
    LogsOnly log m kind := h.conseq fun a new hnew x hx => by
  rw [hnew] at hx
  obtain rfl := List.mem_singleton.mp hx
  exact hkind a

/-- A list gone through logs what one element does. -/
theorem logsOnly_each {f : α → Program ε σ Unit} (hf : ∀ x, LogsOnly log (f x) kind) :
    ∀ xs : List α, LogsOnly log (each f xs) kind
  | [] => logsOnly_pure ()
  | x :: xs => (hf x).bind fun _ => logsOnly_each hf xs

end Program

end DevBench.Core
