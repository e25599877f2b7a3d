import DevBench.Eap.Outlines
import Mathlib.Data.List.Nodup
import Mathlib.Data.List.Perm.Subperm

/-!
# A peer that says nothing

Under timeouts alone a run walks the chain of the timeout transitions. It asks for what a
state asks for once for the entry and once for each retry, and then goes on to the next
state; it ends if the chain comes to a state that ends it, and otherwise it never does.
-/

namespace DevBench.Eap

open DevBench.Core

variable {defn : ProtocolDef} {entryState : UInt8} {start : EapRun} {s t : UInt8}

/-- So many timeouts and no notification. -/
abbrev silence (n : Nat) : List Event := List.replicate n .timeout

/-- The states that a silent run leaves on its way from one state to another, each with the
timeout that it leaves by. -/
inductive ProtocolDef.Fades (defn : ProtocolDef) :
    UInt8 → List (UInt8 × TimeoutArm) → UInt8 → Prop
  | here (s : UInt8) : Fades defn s [] s
  | leave {s t : UInt8} {onEnter : Option Write} {arms : Slots EventArm maxEventArmsPerState}
      {arm : TimeoutArm} {chain : List (UInt8 × TimeoutArm)}
      (hkind : defn.kindOf s = .active onEnter arms (some arm)) (hgoes : defn.ends s = false)
      (hrest : Fades defn arm.gotoState chain t) : Fades defn s ((s, arm) :: chain) t

/-- The timeouts it takes to leave all the states of a chain. -/
def timeouts (chain : List (UInt8 × TimeoutArm)) : Nat :=
  (chain.map fun p => p.2.retry.toNat + 1).sum

/-- What is asked for in the states of a chain. -/
def ProtocolDef.asking (defn : ProtocolDef) (session : List Int64)
    (chain : List (UInt8 × TimeoutArm)) : List EapStep :=
  chain.flatMap fun p => List.replicate (p.2.retry.toNat + 1) (defn.entry p.1 session)

/-- The instructions that a list of events brings. -/
def EapRun.asked : EapRun → List Event → List EapStep
  | _, [] => []
  | run, ev :: evs =>
    (eapRunOnEvent run ev).value.2 :: (eapRunOnEvent run ev).value.1.asked evs

/-- The same, read off the moves. -/
def ProtocolDef.asked (defn : ProtocolDef) : Resting UInt8 Memory → List Event → List EapStep
  | _, [] => []
  | c, ev :: evs => defn.instruction c ev :: defn.asked (defn.flowchart.step c ev) evs

theorem asked_append (defn : ProtocolDef) (c : Resting UInt8 Memory) (evs evs' : List Event) :
    defn.asked c (evs ++ evs') =
      defn.asked c evs ++ defn.asked (defn.flowchart.play c evs) evs' := by
  induction evs generalizing c with
  | nil => rfl
  | cons ev evs ih => exact congrArg (defn.instruction c ev :: ·) (ih _)

/-! ## One state -/

section State

variable {onEnter : Option Write} {arms : Slots EventArm maxEventArmsPerState}
  {arm : TimeoutArm} (session : List Int64) {spent : UInt8}

theorem enter_goes (hgoes : defn.ends s = false) (m : Memory) :
    defn.flowchart.enter s m = ⟨s, m, false⟩ := by
  simp only [Flowchart.enter, ProtocolDef.flowchart, hgoes]

/-- A state without a timeout waits for ever. -/
theorem play_noTimeout (hkind : defn.kindOf s = .active onEnter arms none) (m : Memory) (n : Nat) :
    defn.flowchart.play ⟨s, m, false⟩ (silence n) = ⟨s, m, false⟩ := by
  have hstep : defn.flowchart.step ⟨s, m, false⟩ .timeout = ⟨s, m, false⟩ := by
    simp only [Flowchart.step, ProtocolDef.flowchart, ProtocolDef.move, hkind, Move.run,
      Bool.false_eq_true, if_false]
  induction n with
  | zero => rfl
  | succ n ih => rw [silence, List.replicate_succ, Flowchart.play_cons, hstep, ih]

/-- While there are retries left, a timeout spends one and asks again. -/
theorem step_retry (hkind : defn.kindOf s = .active onEnter arms (some arm))
    (hgoes : defn.ends s = false) (hleft : spent < arm.retry) :
    defn.flowchart.step ⟨s, ⟨session, spent⟩, false⟩ .timeout =
        ⟨s, ⟨session, spent + 1⟩, false⟩ ∧
      defn.instruction ⟨s, ⟨session, spent⟩, false⟩ .timeout = defn.entry s session := by
  have hmove : (defn.move s .timeout).run ⟨session, spent⟩ =
      (⟨session, spent + 1⟩, some s) := by
    simp only [ProtocolDef.move, hkind, TimeoutArm.move, Move.run, hleft, decide_true, if_true]
  constructor
  · simp only [Flowchart.step, ProtocolDef.flowchart, hmove, Bool.false_eq_true, if_false]
    exact enter_goes hgoes _
  · simp only [ProtocolDef.instruction, hmove]

/-- The timeout behind the last retry leaves the state. -/
theorem step_leave (hkind : defn.kindOf s = .active onEnter arms (some arm))
    (hspent : ¬ spent < arm.retry) :
    defn.flowchart.step ⟨s, ⟨session, spent⟩, false⟩ .timeout =
        defn.flowchart.enter arm.gotoState ⟨session, 0⟩ ∧
      defn.instruction ⟨s, ⟨session, spent⟩, false⟩ .timeout =
        defn.entry arm.gotoState session := by
  have hmove : (defn.move s .timeout).run ⟨session, spent⟩ =
      (⟨session, 0⟩, some arm.gotoState) := by
    simp only [ProtocolDef.move, hkind, TimeoutArm.move, transition, Move.run, hspent,
      decide_false, Bool.false_eq_true, if_false]
  constructor
  · simp only [Flowchart.step, ProtocolDef.flowchart, hmove, Bool.false_eq_true, if_false]
  · simp only [ProtocolDef.instruction, hmove]

/-- The retries of a state, one after the other. -/
theorem play_retries (hkind : defn.kindOf s = .active onEnter arms (some arm))
    (hgoes : defn.ends s = false) {n : Nat} (hn : n ≤ arm.retry.toNat) :
    defn.flowchart.play ⟨s, ⟨session, 0⟩, false⟩ (silence n) =
        ⟨s, ⟨session, UInt8.ofNat n⟩, false⟩ ∧
      defn.asked ⟨s, ⟨session, 0⟩, false⟩ (silence n) =
        List.replicate n (defn.entry s session) := by
  induction n with
  | zero => exact ⟨rfl, rfl⟩
  | succ n ih =>
    obtain ⟨hplay, hasked⟩ := ih (by omega)
    have hfits := arm.retry.toNat_lt
    have hleft : UInt8.ofNat n < arm.retry := by
      rw [UInt8.lt_iff_toNat_lt, UInt8.toNat_ofNat']
      omega
    have hnext : UInt8.ofNat n + 1 = UInt8.ofNat (n + 1) := by
      rw [UInt8.ofNat_add]
      rfl
    obtain ⟨hstep, hinstruction⟩ := step_retry session hkind hgoes hleft
    rw [silence, List.replicate_succ', Flowchart.play_append, asked_append, hplay, hasked,
      List.replicate_succ']
    constructor
    · rw [Flowchart.play_cons, hstep, hnext, Flowchart.play_nil]
    · simp only [ProtocolDef.asked, hinstruction]

/-- A state is left behind its retries and one more timeout. -/
theorem play_leaves (hkind : defn.kindOf s = .active onEnter arms (some arm))
    (hgoes : defn.ends s = false) :
    defn.flowchart.play ⟨s, ⟨session, 0⟩, false⟩ (silence (arm.retry.toNat + 1)) =
        defn.flowchart.enter arm.gotoState ⟨session, 0⟩ ∧
      defn.asked ⟨s, ⟨session, 0⟩, false⟩ (silence (arm.retry.toNat + 1)) =
        List.replicate arm.retry.toNat (defn.entry s session) ++
          [defn.entry arm.gotoState session] := by
  obtain ⟨hplay, hasked⟩ := play_retries session hkind hgoes (Nat.le_refl _)
  have hspent : ¬ UInt8.ofNat arm.retry.toNat < arm.retry := by
    rw [UInt8.ofNat_toNat]
    exact Nat.lt_irrefl _
  obtain ⟨hstep, hinstruction⟩ := step_leave session hkind hspent
  rw [silence, List.replicate_succ', Flowchart.play_append, asked_append, hplay, hasked]
  constructor
  · rw [Flowchart.play_cons, hstep, Flowchart.play_nil]
  · simp only [ProtocolDef.asked, hinstruction]

end State

/-! ## A chain -/

variable {chain : List (UInt8 × TimeoutArm)}

/-- Through the states of a chain a silent run asks for their entries and then for the last. -/
theorem ProtocolDef.Fades.play (h : defn.Fades s chain t) (session : List Int64) :
    defn.flowchart.play (defn.flowchart.enter s ⟨session, 0⟩) (silence (timeouts chain)) =
        defn.flowchart.enter t ⟨session, 0⟩ ∧
      defn.entry s session :: defn.asked (defn.flowchart.enter s ⟨session, 0⟩)
          (silence (timeouts chain)) =
        defn.asking session chain ++ [defn.entry t session] := by
  induction h with
  | here s => exact ⟨rfl, rfl⟩
  | @leave s t onEnter arms arm chain hkind hgoes hrest ih =>
    obtain ⟨hplay, hasked⟩ := play_leaves session hkind hgoes
    obtain ⟨hplay', hasked'⟩ := ih
    have hcount : timeouts ((s, arm) :: chain) = (arm.retry.toNat + 1) + timeouts chain := rfl
    rw [hcount, silence, List.replicate_add, Flowchart.play_append, asked_append,
      enter_goes hgoes, hplay, hasked]
    refine ⟨hplay', ?_⟩
    have hasking : defn.asking session ((s, arm) :: chain) =
        List.replicate (arm.retry.toNat + 1) (defn.entry s session) ++
          defn.asking session chain := rfl
    simp only [hasking, List.append_assoc, ← hasked', List.replicate_succ, List.cons_append,
      List.nil_append]

/-- A run that has ended stays ended. -/
theorem ended_mono {c : Resting UInt8 Memory} {k n : Nat} (hle : k ≤ n)
    (h : (defn.flowchart.play c (silence k)).ended = true) :
    (defn.flowchart.play c (silence n)).ended = true := by
  obtain ⟨d, rfl⟩ := Nat.exists_eq_add_of_le hle
  rw [silence, List.replicate_add, Flowchart.play_append, Flowchart.play_ended _ h, h]

/-- The run goes on until the last state of the chain is entered. -/
theorem ProtocolDef.Fades.goes (h : defn.Fades s chain t) (session : List Int64) {k : Nat}
    (hk : k < timeouts chain) :
    (defn.flowchart.play (defn.flowchart.enter s ⟨session, 0⟩) (silence k)).ended = false := by
  induction h generalizing k with
  | here s => exact absurd hk (Nat.not_lt_zero k)
  | @leave s t onEnter arms arm chain hkind hgoes hrest ih =>
    rw [enter_goes hgoes]
    rcases Nat.lt_or_ge k (arm.retry.toNat + 1) with hfew | hmany
    · rw [(play_retries session hkind hgoes (Nat.lt_succ_iff.mp hfew)).1]
    · obtain ⟨d, rfl⟩ := Nat.exists_eq_add_of_le hmany
      have hcount : timeouts ((s, arm) :: chain) = (arm.retry.toNat + 1) + timeouts chain := rfl
      rw [silence, List.replicate_add, Flowchart.play_append, (play_leaves session hkind hgoes).1]
      exact ih (by omega)

/-- A silent run that ends has come along a chain. -/
theorem fades_of_ended (session : List Int64) : ∀ (n : Nat) (s : UInt8),
    (defn.flowchart.play (defn.flowchart.enter s ⟨session, 0⟩) (silence n)).ended = true →
    ∃ chain t, defn.Fades s chain t ∧ defn.ends t = true := by
  intro n
  induction n using Nat.strong_induction_on with
  | _ n ih =>
    intro s hended
    cases hends : defn.ends s with
    | true => exact ⟨[], s, .here s, hends⟩
    | false =>
      rw [enter_goes hends] at hended
      cases hkind : defn.kindOf s with
      | terminal outcome => simp [ProtocolDef.ends, hkind] at hends
      | active onEnter arms timeout =>
        cases timeout with
        | none => simp [play_noTimeout hkind] at hended
        | some arm =>
          rcases Nat.lt_or_ge n (arm.retry.toNat + 1) with hfew | hmany
          · rw [(play_retries _ hkind hends (Nat.lt_succ_iff.mp hfew)).1] at hended
            exact absurd hended (by simp)
          · obtain ⟨d, rfl⟩ := Nat.exists_eq_add_of_le hmany
            rw [silence, List.replicate_add, Flowchart.play_append,
              (play_leaves _ hkind hends).1] at hended
            obtain ⟨chain, t, hfades, ht⟩ := ih d (by omega) arm.gotoState hended
            exact ⟨(s, arm) :: chain, t, .leave hkind hends hfades, ht⟩

/-! ## The length of a chain -/

/-- There is one chain to an end. -/
theorem ProtocolDef.Fades.unique {chain' : List (UInt8 × TimeoutArm)} {t' : UInt8}
    (h : defn.Fades s chain t) (ht : defn.ends t = true) (h' : defn.Fades s chain' t')
    (ht' : defn.ends t' = true) : chain = chain' := by
  induction h generalizing chain' with
  | here s =>
    cases h' with
    | here s => rfl
    | leave hkind hgoes hrest => exact absurd ht (by simp [hgoes])
  | @leave s t onEnter arms arm chain hkind hgoes hrest ih =>
    cases h' with
    | here s => exact absurd ht' (by simp [hgoes])
    | @leave _ _ _ _ arm' chain' hkind' hgoes' hrest' =>
      obtain ⟨-, -, rfl⟩ : onEnter = _ ∧ arms = _ ∧ arm = arm' := by
        rw [hkind] at hkind'
        simpa using hkind'
      rw [ih ht hrest']

/-- What a chain leaves, it could have been entered at. -/
theorem ProtocolDef.Fades.suffix (h : defn.Fades s chain t) :
    ∀ u ∈ chain.map Prod.fst, ∃ chain', defn.Fades u chain' t ∧ chain'.length ≤ chain.length := by
  induction h with
  | here s => simp
  | @leave s t onEnter arms arm chain hkind hgoes hrest ih =>
    intro u hu
    rcases List.mem_cons.mp hu with rfl | hu
    · exact ⟨_, .leave hkind hgoes hrest, le_rfl⟩
    · obtain ⟨chain', hfades, hlen⟩ := ih u hu
      exact ⟨chain', hfades, hlen.trans (Nat.le_succ _)⟩

/-- On the way to an end no state is left twice. -/
theorem ProtocolDef.Fades.nodup (h : defn.Fades s chain t) (ht : defn.ends t = true) :
    (chain.map Prod.fst).Nodup := by
  induction h with
  | here s => exact List.nodup_nil
  | @leave s t onEnter arms arm chain hkind hgoes hrest ih =>
    rw [List.map_cons, List.nodup_cons]
    refine ⟨?_, ih ht⟩
    intro hs
    obtain ⟨chain', hfades, hlen⟩ := hrest.suffix s hs
    have hsame := hfades.unique ht (.leave hkind hgoes hrest) ht
    rw [hsame, List.length_cons] at hlen
    omega

/-- Only decoded states have timeouts. -/
theorem ProtocolDef.Fades.decoded (h : defn.Fades s chain t) :
    ∀ u ∈ chain.map Prod.fst, u.toNat < defn.states.items.length := by
  induction h with
  | here s => simp
  | @leave s t onEnter arms arm chain hkind hgoes hrest ih =>
    rw [List.map_cons, List.forall_mem_cons]
    refine ⟨?_, ih⟩
    by_contra hout
    rw [ProtocolDef.kindOf, List.getD_eq_default _ _ (Nat.not_lt.mp hout)] at hkind
    simp [EapRun.zeroState] at hkind

theorem ProtocolDef.Fades.length_le (h : defn.Fades s chain t) (ht : defn.ends t = true) :
    chain.length ≤ defn.states.items.length := by
  have hnodup : (chain.map fun p => p.1.toNat).Nodup := by
    have hinj : Function.Injective UInt8.toNat := fun _ _ h => UInt8.toNat_inj.mp h
    have hmap := (h.nodup ht).map hinj
    rwa [List.map_map] at hmap
  have hsubset : (chain.map fun p => p.1.toNat) ⊆ List.range defn.states.items.length := by
    intro i hi
    obtain ⟨p, hp, rfl⟩ := List.mem_map.mp hi
    exact List.mem_range.mpr (h.decoded p.1 (List.mem_map_of_mem hp))
  have hle := (List.subperm_of_subset hnodup hsubset).length_le
  rwa [List.length_map, List.length_range] at hle

theorem timeouts_le (chain : List (UInt8 × TimeoutArm)) : timeouts chain ≤ 256 * chain.length := by
  induction chain with
  | nil => exact Nat.zero_le _
  | cons p chain ih =>
    have hfits := p.2.retry.toNat_lt
    have hcons : timeouts (p :: chain) = p.2.retry.toNat + 1 + timeouts chain := rfl
    rw [hcons, List.length_cons]
    omega

/-! ## Silent runs of the interpreter -/

/-- While a run goes on, its instructions are those of the moves. -/
theorem asked_resting : ∀ (evs : List Event) {run : EapRun}, run.Sound → run.defn = defn →
    (∀ k < evs.length, (defn.flowchart.play run.resting (evs.take k)).ended = false) →
    run.asked evs = defn.asked run.resting evs := by
  intro evs
  induction evs with
  | nil => exact fun _ _ _ => rfl
  | cons ev evs ih =>
    intro run hsound hdefn hgoes
    have hfinished : run.finished = false := hgoes 0 (Nat.succ_pos _)
    have hfollows := eapRunOnEvent_follows hsound hfinished ev
    have hstep := hfollows.resting
    rw [hdefn] at hstep
    have hrest := ih hfollows.sound (hfollows.defn.trans hdefn) (by
      intro k hk
      rw [hstep]
      exact hgoes (k + 1) (Nat.succ_lt_succ hk))
    rw [hstep] at hrest
    have hinstruction := hfollows.instruction
    rw [hdefn] at hinstruction
    simp only [EapRun.asked, ProtocolDef.asked, hrest, hinstruction]

/-- In a silence a run asks, for each state of the chain, once for its entry and once for each
retry, and it goes on until it enters the last. -/
theorem silence_law (hstarts : Starts defn entryState start)
    (h : defn.Fades entryState chain t) :
    let session := defn.sessionInitial.items
    (eapRunEnter start).value.2 :: (eapRunEnter start).value.1.asked (silence (timeouts chain)) =
        defn.asking session chain ++ [defn.entry t session] ∧
      (start.played (silence (timeouts chain))).resting =
        defn.flowchart.enter t ⟨session, 0⟩ ∧
      ∀ k < timeouts chain, (start.played (silence k)).finished = false := by
  have hstart := hstarts.start
  obtain ⟨hsound, hdefn, hbegin, hentry⟩ := entered_sound hstart
  obtain ⟨hplay, hasked⟩ := h.play defn.sessionInitial.items
  have hgoes : ∀ k < (silence (timeouts chain)).length, (defn.flowchart.play
      (eapRunEnter start).value.1.resting ((silence (timeouts chain)).take k)).ended = false := by
    intro k hk
    rw [List.length_replicate] at hk
    rw [hbegin, silence, List.take_replicate, Nat.min_eq_left hk.le]
    exact h.goes _ hk
  refine ⟨?_, ?_, ?_⟩
  · rw [asked_resting _ hsound hdefn hgoes, hentry, hbegin]
    exact hasked
  · rw [resting_played hstart]
    exact hplay
  · intro k hk
    rw [finished_played hstart]
    exact h.goes _ hk

/-- A run that meets nothing but timeouts ends if and only if the chain of its timeout
transitions comes to a state that ends it, and then within 256 timeouts for each state. -/
theorem silence_ends_iff (hstarts : Starts defn entryState start) :
    ((∃ n, (start.played (silence n)).finished = true) ↔
      ∃ chain t, defn.Fades entryState chain t ∧ defn.ends t = true) ∧
    ((∃ n, (start.played (silence n)).finished = true) ↔
      (start.played (silence (256 * defn.states.items.length))).finished = true) := by
  simp only [finished_played hstarts.start]
  have hchain : ∀ n, (defn.flowchart.play (defn.begin entryState) (silence n)).ended = true →
      ∃ chain t, defn.Fades entryState chain t ∧ defn.ends t = true := by
    intro n hended
    exact fades_of_ended defn.sessionInitial.items n entryState hended
  have hends : ∀ {chain t}, defn.Fades entryState chain t → defn.ends t = true →
      (defn.flowchart.play (defn.begin entryState) (silence (timeouts chain))).ended = true := by
    intro chain t hfades ht
    rw [ProtocolDef.begin, (hfades.play _).1]
    exact ht
  constructor
  · constructor
    · rintro ⟨n, hended⟩
      exact hchain n hended
    · rintro ⟨chain, t, hfades, ht⟩
      exact ⟨timeouts chain, hends hfades ht⟩
  · constructor
    · rintro ⟨n, hended⟩
      obtain ⟨chain, t, hfades, ht⟩ := hchain n hended
      have hle : timeouts chain ≤ 256 * defn.states.items.length :=
        (timeouts_le chain).trans (Nat.mul_le_mul_left 256 (hfades.length_le ht))
      exact ended_mono hle (hends hfades ht)
    · intro hended
      exact ⟨_, hended⟩

/-- The peer that is asked three times fails at the third silence. -/
theorem silence_law_ping : (pingStart.played (silence 2)).finished = false := by
  have hgoes : pingDef.ends 0 = false := by decide +kernel
  exact (silence_law starts_ping (.leave rfl hgoes (.here 2))).2.2 2 (Nat.lt_succ_self 2)

theorem silence_ends_iff_ping : (pingStart.played (silence (256 * 3))).finished = true := by
  have hgoes : pingDef.ends 0 = false := by decide +kernel
  obtain ⟨hchain, hbound⟩ := silence_ends_iff starts_ping
  exact hbound.mp (hchain.mpr ⟨_, 2, .leave rfl hgoes (.here 2), rfl⟩)

end DevBench.Eap
