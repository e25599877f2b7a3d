import Mathlib.Logic.Relation

/-!
# Flowcharts

Programs whose control rests at locations. An input makes a move: it stores, it asks,
and at its end it stays or goes to a location. A run ends where entering a location
says so. The weakest precondition of a move is read off its syntax; an outline hangs
an assertion at every location, and one that passes the check of every move holds
over every run. Conversely, whatever holds over every run has such an outline.
-/

namespace DevBench.Core

variable {σ ℓ ι : Type*}

/-- What an input does at a location. -/
inductive Move (σ ℓ : Type*) where
  | stay
  | goto (l : ℓ)
  | store (f : σ → σ) (rest : Move σ ℓ)
  | branch (holds : σ → Bool) (yes no : Move σ ℓ)

namespace Move

/-- The store behind the move, and the location it goes to. -/
def run : Move σ ℓ → σ → σ × Option ℓ
  | stay, s => (s, none)
  | goto l, s => (s, some l)
  | store f rest, s => rest.run (f s)
  | branch holds yes no, s => if holds s then yes.run s else no.run s

/-- The locations named in the move. -/
def targets : Move σ ℓ → List ℓ
  | stay => []
  | goto l => [l]
  | store _ rest => rest.targets
  | branch _ yes no => yes.targets ++ no.targets

/-- The weakest precondition of a move, for an assertion where it stays and one where it goes. -/
def wp (rest : σ → Prop) (enter : ℓ → σ → Prop) : Move σ ℓ → σ → Prop
  | stay, s => rest s
  | goto l, s => enter l s
  | store f m, s => m.wp rest enter (f s)
  | branch holds yes no, s =>
    (holds s = true → yes.wp rest enter s) ∧ (holds s = false → no.wp rest enter s)

/-- Stores one after the other. -/
def stores (fs : List (σ → σ)) (m : Move σ ℓ) : Move σ ℓ := fs.foldr store m

/-- The first move of the list whose guard holds. -/
def firstOf (guarded : List ((σ → Bool) × Move σ ℓ)) (m : Move σ ℓ) : Move σ ℓ :=
  guarded.foldr (fun g m => branch g.1 g.2 m) m

variable {rest rest' : σ → Prop} {enter enter' : ℓ → σ → Prop}

/-- The weakest precondition is what the move makes true. -/
theorem wp_iff (m : Move σ ℓ) (s : σ) :
    m.wp rest enter s ↔
      ((m.run s).2 = none → rest (m.run s).1) ∧
      ∀ l, (m.run s).2 = some l → enter l (m.run s).1 := by
  induction m generalizing s with
  | stay => simp [wp, run]
  | goto l => simp [wp, run]
  | store f m ih => exact ih (f s)
  | branch holds yes no ihyes ihno =>
    simp only [wp, run]
    cases h : holds s with
    | true => simp [ihyes]
    | false => simp [ihno]

/-- More may be said of where a move ends. -/
theorem wp_mono (hrest : ∀ s, rest s → rest' s) (henter : ∀ l s, enter l s → enter' l s)
    (m : Move σ ℓ) (s : σ) (h : m.wp rest enter s) : m.wp rest' enter' s := by
  rw [wp_iff] at h ⊢
  exact ⟨fun hstay => hrest _ (h.1 hstay), fun l hl => henter l _ (h.2 l hl)⟩

/-- A move goes to a location that it names. -/
theorem mem_targets (m : Move σ ℓ) (s : σ) : ∀ l ∈ (m.run s).2, l ∈ m.targets := by
  induction m generalizing s with
  | stay => simp [run]
  | goto l => simp [run, targets]
  | store f m ih => exact ih (f s)
  | branch holds yes no ihyes ihno =>
    intro l hl
    simp only [run] at hl
    rw [targets, List.mem_append]
    split at hl
    · exact .inl (ihyes s l hl)
    · exact .inr (ihno s l hl)

/-- Assignments are made in order, in front of the move. -/
@[simp] theorem run_stores (fs : List (σ → σ)) (m : Move σ ℓ) (s : σ) :
    (stores fs m).run s = m.run (fs.foldl (fun s f => f s) s) := by
  induction fs generalizing s with
  | nil => rfl
  | cons f fs ih => exact ih (f s)

/-- Stores that keep an assertion may be passed over. -/
theorem wp_stores {p : σ → Prop} {fs : List (σ → σ)} {m : Move σ ℓ} {s : σ}
    (hfs : ∀ f ∈ fs, ∀ s, p s → p (f s)) (hm : ∀ s, p s → m.wp rest enter s)
    (hs : p s) : (stores fs m).wp rest enter s := by
  induction fs generalizing s with
  | nil => exact hm s hs
  | cons f fs ih =>
    obtain ⟨hf, hfs⟩ := List.forall_mem_cons.mp hfs
    exact ih hfs (hf s hs)

/-- Whichever guard holds. -/
theorem wp_firstOf {guarded : List ((σ → Bool) × Move σ ℓ)} {m : Move σ ℓ} {s : σ}
    (hguarded : ∀ g ∈ guarded, g.2.wp rest enter s) (hm : m.wp rest enter s) :
    (firstOf guarded m).wp rest enter s := by
  induction guarded with
  | nil => exact hm
  | cons g guarded ih =>
    obtain ⟨hg, hguarded⟩ := List.forall_mem_cons.mp hguarded
    exact ⟨fun _ => hg, fun _ => ih hguarded⟩

/-- Assignments go nowhere. -/
theorem targets_stores (fs : List (σ → σ)) (m : Move σ ℓ) : (stores fs m).targets = m.targets := by
  induction fs with
  | nil => rfl
  | cons f fs ih => exact ih

/-- A choice goes where one of its moves goes. -/
theorem mem_targets_firstOf {guarded : List ((σ → Bool) × Move σ ℓ)} {m : Move σ ℓ} {l : ℓ} :
    l ∈ (firstOf guarded m).targets ↔ (∃ g ∈ guarded, l ∈ g.2.targets) ∨ l ∈ m.targets := by
  induction guarded with
  | nil => simp [firstOf]
  | cons g guarded ih =>
    have hcons : l ∈ (firstOf (g :: guarded) m).targets ↔
        l ∈ g.2.targets ∨ l ∈ (firstOf guarded m).targets := List.mem_append
    simp only [hcons, ih, List.mem_cons, exists_eq_or_imp, or_assoc]

end Move

/-- A move for every location and input, and where entering a location ends the run. -/
structure Flowchart (ℓ ι σ : Type*) where
  move : ℓ → ι → Move σ ℓ
  ends : ℓ → σ → Bool

/-- A point of a run. -/
@[ext] structure Resting (ℓ σ : Type*) where
  location : ℓ
  store : σ
  ended : Bool

/-- An assertion for every location: while the run goes on, and where it has ended. -/
structure Outline (ℓ σ : Type*) where
  rests : ℓ → σ → Prop
  ended : ℓ → σ → Prop

namespace Outline

/-- What the outline says of a point of a run. -/
def Holds (o : Outline ℓ σ) (c : Resting ℓ σ) : Prop :=
  if c.ended then o.ended c.location c.store else o.rests c.location c.store

/-- One outline says all that another says. -/
def Implies (o o' : Outline ℓ σ) : Prop :=
  (∀ l s, o.rests l s → o'.rests l s) ∧ ∀ l s, o.ended l s → o'.ended l s

/-- What an outline says a weaker one says. -/
theorem Implies.holds {o o' : Outline ℓ σ} (h : o.Implies o') {c : Resting ℓ σ} (hc : o.Holds c) :
    o'.Holds c := by
  obtain ⟨l, s, ended⟩ := c
  cases ended with
  | true => exact h.2 l s hc
  | false => exact h.1 l s hc

end Outline

namespace Flowchart

variable (F : Flowchart ℓ ι σ)

/-- Coming to a place, which may be the end. -/
def enter (l : ℓ) (s : σ) : Resting ℓ σ := ⟨l, s, F.ends l s⟩

/-- A run that has ended takes no more moves. -/
def step (c : Resting ℓ σ) (i : ι) : Resting ℓ σ :=
  if c.ended then c
  else
    match (F.move c.location i).run c.store with
    | (s, none) => ⟨c.location, s, false⟩
    | (s, some l) => F.enter l s

/-- The run over a list of inputs. -/
def play (c : Resting ℓ σ) (is : List ι) : Resting ℓ σ := is.foldl F.step c

/-- Nothing is played. -/
@[simp] theorem play_nil (c : Resting ℓ σ) : F.play c [] = c := rfl

/-- One thing and the rest. -/
@[simp] theorem play_cons (c : Resting ℓ σ) (i : ι) (is : List ι) :
    F.play c (i :: is) = F.play (F.step c i) is := rfl

/-- One list behind another. -/
theorem play_append (c : Resting ℓ σ) (is is' : List ι) :
    F.play c (is ++ is') = F.play (F.play c is) is' := List.foldl_append

/-- At the end nothing moves. -/
theorem step_ended {c : Resting ℓ σ} (h : c.ended = true) (i : ι) : F.step c i = c := if_pos h

/-- Whatever is played. -/
theorem play_ended {c : Resting ℓ σ} (h : c.ended = true) (is : List ι) : F.play c is = c := by
  induction is with
  | nil => rfl
  | cons i is ih => rw [play_cons, F.step_ended h, ih]

/-- Every move keeps the outline. -/
def Checked (o : Outline ℓ σ) : Prop :=
  ∀ l i s, o.rests l s → (F.move l i).wp (o.rests l) (fun l s => o.Holds (F.enter l s)) s

variable {F}

/-- A step keeps a checked outline. -/
theorem Checked.step {o : Outline ℓ σ} (ho : F.Checked o) {c : Resting ℓ σ} (hc : o.Holds c)
    (i : ι) : o.Holds (F.step c i) := by
  cases hended : c.ended with
  | true => rwa [F.step_ended hended]
  | false =>
    rw [Outline.Holds, hended, if_neg (by simp)] at hc
    obtain ⟨hstay, hgoto⟩ := (Move.wp_iff _ _).mp (ho c.location i c.store hc)
    simp only [Flowchart.step, hended, Bool.false_eq_true, if_false]
    rcases hrun : (F.move c.location i).run c.store with ⟨s, _ | l⟩
    · rw [hrun] at hstay
      exact hstay rfl
    · rw [hrun] at hgoto
      exact hgoto l rfl

/-- A checked outline holds over every run. -/
theorem Checked.play {o : Outline ℓ σ} (ho : F.Checked o) {c : Resting ℓ σ} (hc : o.Holds c)
    (is : List ι) : o.Holds (F.play c is) := by
  induction is generalizing c with
  | nil => exact hc
  | cons i is ih => exact ih (ho.step hc i)

/-- The outline that says where the runs from a point come. -/
def strongest (F : Flowchart ℓ ι σ) (c : Resting ℓ σ) : Outline ℓ σ where
  rests l s := ∃ is, F.play c is = ⟨l, s, false⟩
  ended l s := ∃ is, F.play c is = ⟨l, s, true⟩

/-- The strongest outline holds where a run may come to. -/
theorem strongest_holds_iff {c c' : Resting ℓ σ} :
    (F.strongest c).Holds c' ↔ ∃ is, F.play c is = c' := by
  obtain ⟨l, s, ended⟩ := c'
  cases ended <;> exact Iff.rfl

/-- It is checked. -/
theorem checked_strongest (c : Resting ℓ σ) : F.Checked (F.strongest c) := by
  rintro l i s ⟨is, his⟩
  have hnext : F.play c (is ++ [i]) = F.step ⟨l, s, false⟩ i := by
    rw [play_append, his, play_cons, play_nil]
  rw [Move.wp_iff]
  constructor
  · intro hstay
    refine ⟨is ++ [i], hnext.trans ?_⟩
    rcases hrun : (F.move l i).run s with ⟨s', target⟩
    rw [hrun] at hstay
    obtain rfl : target = none := hstay
    simp only [step, hrun, Bool.false_eq_true, if_false]
  · intro l' hgoto
    rw [strongest_holds_iff]
    refine ⟨is ++ [i], hnext.trans ?_⟩
    rcases hrun : (F.move l i).run s with ⟨s', target⟩
    rw [hrun] at hgoto
    obtain rfl : target = some l' := hgoto
    simp only [step, hrun, Bool.false_eq_true, if_false]

/-- Outlines are a sound and complete way to show what holds over every run. -/
theorem holds_play_iff {o : Outline ℓ σ} {c : Resting ℓ σ} :
    (∀ is, o.Holds (F.play c is)) ↔ ∃ o', F.Checked o' ∧ o'.Holds c ∧ o'.Implies o := by
  constructor
  · intro h
    refine ⟨F.strongest c, checked_strongest c, strongest_holds_iff.mpr ⟨[], rfl⟩, ?_, ?_⟩
    · rintro l s ⟨is, his⟩
      have hat := h is
      rwa [his] at hat
    · rintro l s ⟨is, his⟩
      have hat := h is
      rwa [his] at hat
  · rintro ⟨o', hchecked, hstart, himplies⟩ is
    exact himplies.holds (hchecked.play hstart is)

/-- What the next move of a run enters, if it enters anything. -/
def entered (F : Flowchart ℓ ι σ) (c : Resting ℓ σ) (i : ι) : Option (ℓ × σ) :=
  if c.ended then none
  else
    match (F.move c.location i).run c.store with
    | (_, none) => none
    | (s, some l) => some (l, s)

/-- An outline each of whose moves enters its location in order. -/
def CheckedEntering (F : Flowchart ℓ ι σ) (o : Outline ℓ σ) (p : ℓ → σ → Prop) : Prop :=
  ∀ l i s, o.rests l s →
    (F.move l i).wp (o.rests l) (fun l s => o.Holds (F.enter l s) ∧ p l s) s

/-- An outline checked where places are entered is checked. -/
theorem CheckedEntering.checked {o : Outline ℓ σ} {p : ℓ → σ → Prop}
    (ho : F.CheckedEntering o p) : F.Checked o := by
  intro l i s hl
  exact Move.wp_mono (fun _ h => h) (fun _ _ h => h.1) _ s (ho l i s hl)

/-- What an outline says of a location is so when it is entered. -/
theorem Checked.entering {o : Outline ℓ σ} {p : ℓ → σ → Prop} (ho : F.Checked o)
    (hp : ∀ l s, o.Holds (F.enter l s) → p l s) : F.CheckedEntering o p := by
  intro l i s hl
  exact Move.wp_mono (fun _ h => h) (fun l s h => ⟨h, hp l s h⟩) _ s (ho l i s hl)

/-- Outlines are sound and complete, too, for what holds whenever a location is entered. -/
theorem entered_iff {p : ℓ → σ → Prop} {c : Resting ℓ σ} :
    (∀ is i, ∀ e ∈ F.entered (F.play c is) i, p e.1 e.2) ↔
      ∃ o, F.CheckedEntering o p ∧ o.Holds c := by
  constructor
  · intro h
    refine ⟨F.strongest c, ?_, strongest_holds_iff.mpr ⟨[], rfl⟩⟩
    rintro l i s ⟨is, his⟩
    obtain ⟨hstay, hgoto⟩ := (Move.wp_iff _ _).mp (checked_strongest c l i s ⟨is, his⟩)
    rw [Move.wp_iff]
    refine ⟨hstay, ?_⟩
    intro l' hl'
    refine ⟨hgoto l' hl', h is i (l', ((F.move l i).run s).1) ?_⟩
    rcases hrun : (F.move l i).run s with ⟨s', target⟩
    rw [hrun] at hl'
    obtain rfl : target = some l' := hl'
    simp only [entered, his, hrun, Bool.false_eq_true, if_false, Option.mem_some_iff]
  · rintro ⟨o, ho, hstart⟩ is i ⟨l', s'⟩ he
    have hc := ho.checked.play hstart is
    rw [entered] at he
    cases hended : (F.play c is).ended with
    | true => simp [hended] at he
    | false =>
      rw [Outline.Holds, hended, if_neg (by simp)] at hc
      have hgoto := ((Move.wp_iff _ _).mp (ho _ i _ hc)).2
      simp only [hended, Bool.false_eq_true, if_false] at he
      rcases hrun : (F.move (F.play c is).location i).run (F.play c is).store with ⟨s, _ | l⟩
      · simp [hrun] at he
      · rw [hrun] at he hgoto
        obtain ⟨rfl, rfl⟩ := Prod.mk.inj (Option.some.inj he)
        exact (hgoto l rfl).2

/-! ## The graph of the locations -/

/-- Some move at the first location names the second. -/
def Edge (F : Flowchart ℓ ι σ) (l l' : ℓ) : Prop := ∃ i, l' ∈ (F.move l i).targets

/-- A run rests where the graph leads. -/
theorem path_play (c : Resting ℓ σ) (is : List ι) :
    Relation.ReflTransGen F.Edge c.location (F.play c is).location := by
  let o : Outline ℓ σ :=
    ⟨fun l _ => Relation.ReflTransGen F.Edge c.location l,
      fun l _ => Relation.ReflTransGen F.Edge c.location l⟩
  have hholds : ∀ c' : Resting ℓ σ,
      o.Holds c' ↔ Relation.ReflTransGen F.Edge c.location c'.location := by
    intro c'
    rw [Outline.Holds]
    split <;> exact Iff.rfl
  have hchecked : F.Checked o := by
    intro l i s hl
    rw [Move.wp_iff]
    refine ⟨fun _ => hl, ?_⟩
    intro l' hgoto
    rw [hholds]
    exact hl.tail ⟨i, Move.mem_targets _ s l' hgoto⟩
  exact (hholds _).mp (hchecked.play ((hholds c).mpr .refl) is)

end Flowchart

end DevBench.Core
