import DevBench.Pd.Frame

/-!
# The bench as a sink

A Request is built later than the choice it comes from was checked, against caps that may have
changed since: by repeating the contract, by checking the choice again, or as vSafe5V. Each of
the three names a PDO held and stays within it, as long as the first of the caps held is a fixed
PDO when the stack asks, and what it is built of fits the fields it is written into.
-/

namespace DevBench.Pd

open DevBench.Core

variable {z : Layout}

/-! ## Requests within a PDO -/

/-- The position a Request is built for. -/
def RdoArgs.pos : RdoArgs → Nat
  | fixed pos _ => pos
  | pps pos _ _ => pos

/-- What a Request is built of is within what a PDO offers. -/
inductive Asks (z : Layout) (pdo : Word) : RdoArgs → Prop
  | fixed (pos ma : Nat) :
    1 ≤ pos → pos ≤ pdoMaxDataObjects → z.pdoIsFixed pdo = true → ma ≤ z.fixedMa pdo →
      Asks z pdo (.fixed pos ma)
  | pps (pos mv ma : Nat) :
    1 ≤ pos → pos ≤ pdoMaxDataObjects → z.pdoIsPps pdo = true → z.augMinMv pdo ≤ mv →
      mv ≤ z.augMaxMv pdo → ma ≤ z.augMaxMa pdo → Asks z pdo (.pps pos mv ma)

theorem pos_lt {pos : Nat} (h : pos ≤ pdoMaxDataObjects) : pos < 2 ^ z.objectPos.width :=
  Nat.lt_of_le_of_lt h z.objectPos_room

/-- Half a unit does not carry: the current fits the field it is counted in. -/
theorem operating_lt {pdo : Word} {ma : Nat} (h : ma ≤ z.fixedMa pdo) :
    ma / 10 < 2 ^ z.maxCurrent.width := by
  have hlt := BitField.get_lt (f := z.maxCurrent) pdo
  rw [Layout.fixedMa] at h
  omega

theorem augOperating_lt {pdo : Word} {ma : Nat} (h : ma ≤ z.augMaxMa pdo) :
    ma / 50 < 2 ^ z.augOperatingCurrent.width := by
  have hlt := BitField.get_lt (f := z.augMaxCurrent) pdo
  have hroom := Nat.pow_le_pow_right (n := 2) (by decide) z.augOperating_room
  rw [Layout.augMaxMa] at h
  omega

theorem augVoltage_lt {pdo : Word} {mv : Nat} (h : mv ≤ z.augMaxMv pdo) :
    mv / 20 < 2 ^ z.augOutputVoltage.width := by
  have hlt := BitField.get_lt (f := z.augMaxVoltage) pdo
  have hroom := z.augVoltage_room
  rw [Layout.augMaxMv] at h
  omega

theorem operatingCurrent_lt {pdo : Word} {ma : Nat} (h : ma ≤ z.fixedMa pdo) :
    ma / 10 < 2 ^ z.operatingCurrent.width :=
  (operating_lt h).trans_le (Nat.pow_le_pow_right (by decide) z.operating_room)

theorem minOrMaxOperatingCurrent_lt {pdo : Word} {ma : Nat} (h : ma ≤ z.fixedMa pdo) :
    ma / 10 < 2 ^ z.minOrMaxOperatingCurrent.width :=
  (operating_lt h).trans_le (Nat.pow_le_pow_right (by decide) z.minOrMax_room)

/-- A Request read back against the PDO it is for. -/
structure Valid (z : Layout) (pdo rdo : Word) : Prop where
  type : z.pdoIsFixed pdo = true ∨ z.pdoIsPps pdo = true
  fixed : z.pdoIsFixed pdo = true →
    z.operatingCurrent.get rdo * 10 ≤ z.fixedMa pdo ∧
      z.minOrMaxOperatingCurrent.get rdo * 10 ≤ z.fixedMa pdo
  pps : z.pdoIsPps pdo = true →
    z.augMinMv pdo ≤ z.augOutputVoltage.get rdo * 20 ∧
      z.augOutputVoltage.get rdo * 20 ≤ z.augMaxMv pdo ∧
        z.augOperatingCurrent.get rdo * 50 ≤ z.augMaxMa pdo

/-- Every value written into a field of the Request fits it. -/
def RdoArgs.Fits (z : Layout) : RdoArgs → Prop
  | fixed pos ma => pos < 2 ^ z.objectPos.width ∧ ma / 10 < 2 ^ z.operatingCurrent.width ∧
      ma / 10 < 2 ^ z.minOrMaxOperatingCurrent.width
  | pps pos mv ma => pos < 2 ^ z.objectPos.width ∧ mv / 20 < 2 ^ z.augOutputVoltage.width ∧
      ma / 50 < 2 ^ z.augOperatingCurrent.width

/-- A position is read back as it was written. -/
theorem rdoPos_rdo {args : RdoArgs} (h : args.pos ≤ pdoMaxDataObjects) :
    z.rdoPos (args.rdo z) = args.pos := by
  cases args with
  | fixed pos ma => exact (Layout.rdoPos_rdoFixed _ _).trans (Nat.mod_eq_of_lt (pos_lt h))
  | pps pos mv ma => exact (Layout.rdoPos_rdoPps _ _ _).trans (Nat.mod_eq_of_lt (pos_lt h))

namespace Asks

variable {pdo : Word} {args : RdoArgs}

theorem one_le_pos (h : Asks z pdo args) : 1 ≤ args.pos := by
  cases h <;> assumption

theorem pos_le (h : Asks z pdo args) : args.pos ≤ pdoMaxDataObjects := by
  cases h <;> assumption

/-- What a PDO offers fits the fields it is asked for in. -/
theorem fits (h : Asks z pdo args) : args.Fits z := by
  cases h with
  | fixed pos ma _ hpos _ hma =>
    exact ⟨pos_lt hpos, operatingCurrent_lt hma, minOrMaxOperatingCurrent_lt hma⟩
  | pps pos mv ma _ hpos _ _ hmax hma =>
    exact ⟨pos_lt hpos, augVoltage_lt hmax, augOperating_lt hma⟩

/-- What was asked for within a PDO is read back within it. -/
theorem valid (h : Asks z pdo args) : Valid z pdo (args.rdo z) := by
  cases h with
  | fixed pos ma _ _ hfixed hma =>
    refine ⟨.inl hfixed, fun _ => ?_, fun hpps => ?_⟩
    · rw [RdoArgs.rdo, Layout.operatingCurrent_rdoFixed, Layout.minOrMaxOperatingCurrent_rdoFixed,
        Nat.mod_eq_of_lt (operatingCurrent_lt hma),
        Nat.mod_eq_of_lt (minOrMaxOperatingCurrent_lt hma)]
      omega
    · rw [Layout.not_pdoIsPps hfixed] at hpps
      cases hpps
  | pps pos mv ma _ _ hpps hmin hmax hma =>
    refine ⟨.inr hpps, fun hfixed => ?_, fun _ => ?_⟩
    · rw [Layout.not_pdoIsPps hfixed] at hpps
      cases hpps
    · rw [RdoArgs.rdo, Layout.augOutputVoltage_rdoPps, Layout.augOperatingCurrent_rdoPps,
        Nat.mod_eq_of_lt (augVoltage_lt hmax), Nat.mod_eq_of_lt (augOperating_lt hma)]
      -- the limits of an APDO are whole multiples of the 20 mV a Request counts in
      rw [Layout.augMinMv] at hmin ⊢
      omega

end Asks

/-! ## The three routes to a Request -/

/-- A word that names a position is not the 0 that stands for no Request. -/
theorem ne_zero_of_rdoPos {rdo : Word} (h : 1 ≤ z.rdoPos rdo) : rdo ≠ 0 := by
  rintro rfl
  change 1 ≤ z.objectPos.get 0#32 at h
  rw [BitField.get_zero] at h
  omega

/-- The caps held are those at the positions counted. -/
theorem SrcCaps.getElem_held (caps : SrcCaps) {i : Nat} (h : i < caps.held.length) :
    caps.held[i] = caps.pdoAt (i + 1) := by
  have hslots : i < caps.slots.toList.length := by
    rw [SrcCaps.held, List.length_take] at h
    omega
  simp only [SrcCaps.held, List.getElem_take, SrcCaps.pdoAt, Nat.add_sub_cancel,
    List.getD_eq_getElem?_getD, List.getElem?_eq_getElem hslots, Option.getD_some]

theorem SrcCaps.length_held (caps : SrcCaps) : caps.held.length = caps.cnt := by
  have hle := caps.cnt_le
  rw [SrcCaps.held, List.length_take, Vector.length_toList]
  omega

/-- The best choice names a fixed PDO it was offered, or is the one it started with. -/
theorem rdoMaxLoop_spec : ∀ (pdos : List Word) (pos : Nat) (best : Best),
    rdoMaxLoop z pdos pos best = best ∨
      ∃ i, ∃ h : i < pdos.length, (rdoMaxLoop z pdos pos best).pos = pos + i ∧
        z.pdoIsFixed pdos[i] = true ∧ (rdoMaxLoop z pdos pos best).ma ≤ z.fixedMa pdos[i]
  | [], _, _ => .inl rfl
  | pdo :: pdos, pos, best => by
    unfold rdoMaxLoop
    dsimp only
    split
    · rename_i hbetter
      rcases rdoMaxLoop_spec pdos (pos + 1) ⟨pos, _, min (z.fixedMa pdo) cableMa⟩ with
        heq | ⟨i, hi, hpos, hfixed, hma⟩
      · rw [heq]
        exact .inr ⟨0, Nat.succ_pos _, rfl, hbetter.1, Nat.min_le_left _ _⟩
      · exact .inr ⟨i + 1, Nat.succ_lt_succ hi, by omega, hfixed, hma⟩
    · rcases rdoMaxLoop_spec pdos (pos + 1) best with heq | ⟨i, hi, hpos, hfixed, hma⟩
      · exact .inl heq
      · exact .inr ⟨i + 1, Nat.succ_lt_succ hi, by omega, hfixed, hma⟩

/-- The first PDO is a fixed one, as the caps of every Source have it. -/
def FirstFixed (z : Layout) (caps : SrcCaps) : Prop :=
  0 < caps.cnt ∧ z.pdoIsFixed (caps.pdoAt 1) = true

/-- What names a PDO held and asks within it. -/
structure Offers (z : Layout) (caps : SrcCaps) (args : RdoArgs) : Prop where
  held : args.pos ≤ caps.cnt
  asks : Asks z (caps.pdoAt args.pos) args

/-- A fixed PDO held, for no more than its current. -/
theorem offers_fixed {caps : SrcCaps} {pos ma : Nat} (hpos : 1 ≤ pos) (hcnt : pos ≤ caps.cnt)
    (hfixed : z.pdoIsFixed (caps.pdoAt pos) = true) (hma : ma ≤ z.fixedMa (caps.pdoAt pos)) :
    Offers z caps (.fixed pos ma) :=
  ⟨hcnt, .fixed pos ma hpos (hcnt.trans caps.cnt_le) hfixed hma⟩

/-- With a fixed PDO first the highest power is one of a PDO held. -/
theorem offers_rdoMaxLocked {caps : SrcCaps} (h : FirstFixed z caps) :
    Offers z caps (rdoMaxLocked z caps) := by
  obtain ⟨hcnt, hfirst⟩ := h
  have hlen := caps.length_held
  have hheld : 0 < caps.held.length := hlen ▸ hcnt
  have hbest : ∃ i, ∃ hi : i < caps.held.length,
      (rdoMaxLoop z caps.held 1 ⟨1, -1, safeMa⟩).pos = 1 + i ∧
        z.pdoIsFixed caps.held[i] = true ∧
          (rdoMaxLoop z caps.held 1 ⟨1, -1, safeMa⟩).ma ≤ z.fixedMa caps.held[i] := by
    have hhead := caps.getElem_held hheld
    cases heq : caps.held with
    | nil =>
      rw [heq] at hheld
      exact absurd hheld (Nat.lt_irrefl 0)
    | cons pdo pdos =>
      simp only [heq, List.getElem_cons_zero] at hhead
      -- any power is more than the -1 the loop starts with
      have htaken : z.pdoIsFixed pdo = true ∧
          (-1 : Int) < (z.fixedMv pdo * min (z.fixedMa pdo) cableMa / 1000 : Nat) :=
        ⟨hhead ▸ hfirst, by omega⟩
      rw [rdoMaxLoop]
      simp only [if_pos htaken]
      rcases rdoMaxLoop_spec (z := z) pdos (1 + 1) ⟨1, _, min (z.fixedMa pdo) cableMa⟩ with
        hsame | ⟨i, hi, hpos, hfixed, hma⟩
      · rw [hsame]
        exact ⟨0, Nat.succ_pos _, rfl, htaken.1, Nat.min_le_left _ _⟩
      · exact ⟨i + 1, Nat.succ_lt_succ hi, by omega, hfixed, hma⟩
  obtain ⟨i, hi, hpos, hfixed, hma⟩ := hbest
  rw [caps.getElem_held hi] at hfixed hma
  rw [rdoMaxLocked, hpos, Nat.add_comm]
  exact offers_fixed (Nat.succ_pos i) (by omega) hfixed hma

/-- A choice that passes its check is one of a PDO held, within it. -/
theorem offers_rdoForChoice {caps : SrcCaps} (h : FirstFixed z caps) {w : Want} {args : RdoArgs}
    (hargs : rdoForChoice z caps w = .ok args) : Offers z caps args := by
  unfold rdoForChoice at hargs
  split at hargs
  · cases hargs
  split at hargs
  · obtain rfl := Except.ok.inj hargs
    exact offers_rdoMaxLocked h
  split at hargs
  · cases hargs
  rename_i hpos
  have hlow : 1 ≤ w.pos := by omega
  have hhigh : w.pos ≤ caps.cnt := by omega
  dsimp only at hargs
  split at hargs
  · split at hargs
    · cases hargs
    rename_i hfixed
    split at hargs
    · cases hargs
    rename_i habove
    obtain rfl := Except.ok.inj hargs
    refine offers_fixed hlow hhigh (Bool.not_eq_false _ ▸ hfixed) ?_
    split
    · exact Nat.le_of_not_lt habove
    · exact Nat.min_le_left _ _
  split at hargs
  · cases hargs
  rename_i hpps
  split at hargs
  · cases hargs
  rename_i hrange
  split at hargs
  · cases hargs
  rename_i habove
  obtain rfl := Except.ok.inj hargs
  obtain ⟨hmin, hmax⟩ := not_or.mp hrange
  exact ⟨hhigh, .pps w.pos w.mv w.ma hlow (hhigh.trans caps.cnt_le) (Bool.not_eq_false _ ▸ hpps)
    (Nat.le_of_not_lt hmin) (Nat.le_of_not_lt hmax) (Nat.le_of_not_lt habove)⟩

/-- The position chosen as the best is one of an array of caps. -/
theorem pos_rdoMaxLocked (caps : SrcCaps) :
    1 ≤ (rdoMaxLocked z caps).pos ∧ (rdoMaxLocked z caps).pos ≤ pdoMaxDataObjects := by
  have hlen := caps.length_held
  have hle := caps.cnt_le
  change 1 ≤ (rdoMaxLoop z caps.held 1 ⟨1, -1, safeMa⟩).pos ∧
    (rdoMaxLoop z caps.held 1 ⟨1, -1, safeMa⟩).pos ≤ pdoMaxDataObjects
  rcases rdoMaxLoop_spec (z := z) caps.held 1 ⟨1, -1, safeMa⟩ with heq | ⟨i, hi, hpos, -, -⟩
  · rw [heq]
    exact ⟨Nat.le_refl 1, by decide⟩
  · omega

/-- Whatever the caps are, a choice that passes names a position, so its word is not 0. -/
theorem rdo_ne_zero_of_rdoForChoice {caps : SrcCaps} {w : Want} {args : RdoArgs}
    (hargs : rdoForChoice z caps w = .ok args) : args.rdo z ≠ 0 := by
  have hpos : 1 ≤ args.pos ∧ args.pos ≤ pdoMaxDataObjects := by
    have hle := caps.cnt_le
    unfold rdoForChoice at hargs
    dsimp only at hargs
    split_ifs at hargs with _ _ hoffered
    · obtain rfl := Except.ok.inj hargs
      exact pos_rdoMaxLocked caps
    all_goals
      obtain rfl := Except.ok.inj hargs
      change 1 ≤ w.pos ∧ w.pos ≤ pdoMaxDataObjects
      omega
  refine ne_zero_of_rdoPos (z := z) ?_
  rw [rdoPos_rdo hpos.2]
  exact hpos.1

/-- No Request comes with a reason, and a Request with none. -/
theorem rdoForLocked_reason (caps : SrcCaps) (w : Want) :
    (rdoForLocked z caps w).1 = 0 ↔ (rdoForLocked z caps w).2 ≠ none := by
  rw [rdoForLocked]
  cases hargs : rdoForChoice z caps w with
  | ok args => exact iff_of_false (rdo_ne_zero_of_rdoForChoice hargs) fun h => h rfl
  | error why => exact iff_of_true rfl (Option.some_ne_none why)

/-- A choice is taken when there is nothing to say against it. -/
theorem Bench.wantFault_eq_none {b : Bench} {w : Want} : b.wantFault z w = none ↔
    b.source = false ∧ (rdoForLocked z b.srcCaps w).1 ≠ 0 := by
  unfold Bench.wantFault
  split
  · simp_all
  · rename_i hsource
    split
    · rename_i hzero
      simp [hzero, (rdoForLocked_reason b.srcCaps w).mp hzero]
    · simp_all

/-! ## Over a run -/

/-- What the Requests so far were built of, the last first. -/
def noteBuilt (z : Layout) (s : System) (m : Move) (log : List RdoArgs) : List RdoArgs :=
  match m with
  | .enter .policyGetRdo _ => s.bench.built z ++ log
  | _ => log

/-- The word was built within a PDO of something noted. -/
def BuiltFor (z : Layout) (log : List RdoArgs) (pdo rdo : Word) : Prop :=
  ∃ args ∈ log, Asks z pdo args ∧ rdo = args.rdo z

theorem BuiltFor.mono {log log' : List RdoArgs} {pdo rdo : Word} (h : BuiltFor z log pdo rdo)
    (hlog : log ⊆ log') : BuiltFor z log' pdo rdo := by
  obtain ⟨args, hargs, hasks⟩ := h
  exact ⟨args, hlog hargs, hasks⟩

/-- The Requests the bench remembers were built for the PDOs beside them, and all that Requests
were built of fits. -/
structure SinkInv (z : Layout) (b : Bench) (log : List RdoArgs) : Prop where
  sent : 1 ≤ z.rdoPos b.sentRdo → BuiltFor z log b.sentPdo b.sentRdo
  contract : 1 ≤ z.rdoPos b.contractRdo → BuiltFor z log b.contractPdo b.contractRdo
  fits : ∀ args ∈ log, args.Fits z

variable {b b' : Bench} {log : List RdoArgs}

/-- A contract that is repeated names a PDO held that is the one it was made for. -/
theorem Bench.repeats_spec (h : b.repeats z = true) : 1 ≤ z.rdoPos b.contractRdo ∧
    z.rdoPos b.contractRdo ≤ b.srcCaps.cnt ∧
      b.srcCaps.pdoAt (z.rdoPos b.contractRdo) = b.contractPdo := by
  unfold Bench.repeats at h
  simp only [Bool.and_eq_true, decide_eq_true_eq, beq_iff_eq] at h
  obtain ⟨⟨⟨⟨-, -⟩, hpos⟩, hcnt⟩, hpdo⟩ := h
  exact ⟨hpos, hcnt, hpdo⟩

/-- The Request is the contract's, repeated, with nothing built, or it is built of the one thing
there is. -/
theorem Bench.nextRdo_cases (b : Bench) :
    (b.repeats z = true ∧ b.built z = [] ∧ b.nextRdo z = b.contractRdo) ∨
      ∃ args, b.built z = [args] ∧ b.nextRdo z = args.rdo z ∧
        (rdoForChoice z b.srcCaps b.want = .ok args ∨ args = rdoSafe z b.srcCaps) := by
  unfold Bench.built Bench.nextRdo Bench.wantedRdo
  cases hrepeats : b.repeats z with
  | true =>
    have hne : b.contractRdo ≠ 0 := ne_zero_of_rdoPos (Bench.repeats_spec hrepeats).1
    simp only [if_true, if_neg hne, List.nil_append, and_self, true_or]
  | false =>
    simp only [Bool.false_eq_true, if_false, false_and, false_or, rdoForLocked]
    cases hargs : rdoForChoice z b.srcCaps b.want with
    | ok args =>
      have hne := rdo_ne_zero_of_rdoForChoice hargs
      exact ⟨args, by simp only [if_neg hne]; rfl, if_neg hne, .inl rfl⟩
    | error why => exact ⟨rdoSafe z b.srcCaps, rfl, rfl, .inr rfl⟩

/-- Whatever a Request is built of asks for a PDO held, within it. -/
theorem Bench.offers_built (hfirst : FirstFixed z b.srcCaps) :
    ∀ args ∈ b.built z, Offers z b.srcCaps args := by
  intro args hargs
  rcases b.nextRdo_cases (z := z) with ⟨-, hbuilt, -⟩ | ⟨args', hbuilt, -, hchoice⟩
  · rw [hbuilt] at hargs
    cases hargs
  · rw [hbuilt, List.mem_singleton] at hargs
    subst hargs
    rcases hchoice with hchoice | rfl
    · exact offers_rdoForChoice hfirst hchoice
    · rw [rdoSafe, if_pos hfirst.1]
      exact offers_fixed (Nat.le_refl 1) hfirst.1 hfirst.2 (Nat.min_le_right _ _)

/-- A contract repeated, a choice checked again or vSafe5V: the Request names a PDO held, and was
built within it. -/
theorem SinkInv.nextRdo (h : SinkInv z b log) (hfirst : FirstFixed z b.srcCaps) :
    1 ≤ z.rdoPos (b.nextRdo z) ∧ z.rdoPos (b.nextRdo z) ≤ b.srcCaps.cnt ∧
      BuiltFor z (b.built z ++ log) (b.srcCaps.pdoAt (z.rdoPos (b.nextRdo z))) (b.nextRdo z) := by
  rcases b.nextRdo_cases (z := z) with ⟨hrepeats, -, hrdo⟩ | ⟨args, hbuilt, hrdo, -⟩
  · obtain ⟨hpos, hcnt, hpdo⟩ := Bench.repeats_spec hrepeats
    rw [hrdo, hpdo]
    exact ⟨hpos, hcnt, (h.contract hpos).mono (List.subset_append_right _ _)⟩
  · have hmem : args ∈ b.built z := hbuilt ▸ List.mem_singleton_self args
    obtain ⟨hheld, hasks⟩ := Bench.offers_built hfirst args hmem
    rw [hrdo, rdoPos_rdo hasks.pos_le]
    exact ⟨hasks.one_le_pos, hheld, args, List.mem_append_left _ hmem, hasks, rfl⟩

/-- What is built now fits like what was built before. -/
theorem SinkInv.fits_built (h : SinkInv z b log) (hfirst : FirstFixed z b.srcCaps) :
    ∀ args ∈ b.built z ++ log, args.Fits z := by
  intro args hargs
  rcases List.mem_append.mp hargs with hnew | hbefore
  · exact (Bench.offers_built hfirst args hnew).asks.fits
  · exact h.fits args hbefore

/-- What leaves the Requests alone keeps the invariant. -/
theorem SinkInv.kept (h : SinkInv z b log) (hkept : SinkKept b b') : SinkInv z b' log where
  sent := by
    rw [hkept.sentRdo, hkept.sentPdo]
    exact h.sent
  contract := by
    rw [hkept.contractRdo, hkept.contractPdo]
    exact h.contract
  fits := h.fits

/-- The Request sent is remembered with the PDO it names. -/
theorem SinkInv.policyGetRdo (h : SinkInv z b log) (hfirst : FirstFixed z b.srcCaps) :
    SinkInv z (b.policyGetRdo z).2 (b.built z ++ log) where
  sent := fun _ => (h.nextRdo hfirst).2.2
  contract := fun hpos => (h.contract hpos).mono (List.subset_append_right _ _)
  fits := h.fits_built hfirst

/-- A contract is the Request sent last. -/
theorem SinkInv.transitionPs (h : SinkInv z b log) (now : Int) :
    SinkInv z (b.transitionPs now) log := by
  unfold Bench.transitionPs
  split
  · exact { h with }
  · exact { h with contract := h.sent }

/-- The stack asks for a Request only while it holds caps that start with a fixed PDO. -/
def AsksWithCaps (z : Layout) (s : System) (m : Move) : Prop :=
  ∀ env, m = .enter .policyGetRdo env → FirstFixed z s.bench.srcCaps

/-- Every move keeps the invariant; asking for a Request adds to what was built. -/
theorem SinkInv.step {offerMax : List Word} {s s' : System} {m : Move}
    (h : SinkInv z s.bench log) (hok : AsksWithCaps z s m) (hstep : step z offerMax s m = some s') :
    SinkInv z s'.bench (noteBuilt z s m log) := by
  obtain ⟨entry, env, rfl, -, hbench, -⟩ | ⟨thread, env, piece, rest, rfl, -, hbench, -⟩ :=
    step_cases hstep
  · rw [hbench]
    cases entry with
    | policyGetRdo => exact h.policyGetRdo (hok env rfl)
    | policyNotify notify =>
      by_cases hps : notify = .transitionPs
      · subst hps
        exact h.transitionPs env.now
      · exact h.kept (kept_policyNotify _ env hps).toSinkKept
    | policyGetSrcCaps => exact h.kept ⟨rfl, rfl, rfl, rfl⟩
    | policyCheckSinkRequest request =>
      refine h.kept ?_
      simp only [Bench.enter, Bench.policyCheckSinkRequest]
      split <;> exact ⟨rfl, rfl, rfl, rfl⟩
    | cmdSrccaps args =>
      refine h.kept ?_
      simp only [Bench.enter, Bench.cmdSrccaps]
      split
      · exact ⟨rfl, rfl, rfl, rfl⟩
      · split <;> exact ⟨rfl, rfl, rfl, rfl⟩
    | policySetSrcCap | policyWaitNotify | prSwapCheck | policySrcDis | keepaliveHandler | cmdReq
    | cmdPps | cmdMax | cmdKeepalive | cmdDrswap | cmdPrswap | cmdDr | cmdPr | cmdAnswer =>
      exact h.kept (kept_enter _ env rfl).toSinkKept
  · rw [hbench]
    by_cases hdr : ∃ answer, piece = .drOffer answer
    · obtain ⟨answer, rfl⟩ := hdr
      exact h.kept ⟨rfl, rfl, rfl, rfl⟩
    · exact h.kept (kept_resume _ env fun answer heq => hdr ⟨answer, heq⟩).toSinkKept

/-- A bench that has just been set up remembers no Request. -/
theorem sinkInv_start (offerMax : Slots Word pdoMaxDataObjects) (sinkPdos : List Word) :
    SinkInv z (start z offerMax sinkPdos).bench [] where
  sent := fun h => absurd rfl (ne_zero_of_rdoPos h)
  contract := fun h => absurd rfl (ne_zero_of_rdoPos h)
  fits := nofun

/-- **Every Request is valid.** Whatever came before, the Request the bench builds against caps
that start with a fixed PDO names one of them and asks for no more than it offers. All the values
`rdo_fixed` and `rdo_pps` are called with, for this Request and for those before it, fit the
fields they are written into, and the Request is the word built of one of them. -/
theorem nextRdo_valid {offerMax : Slots Word pdoMaxDataObjects} {sinkPdos : List Word}
    {s : System} {log : List RdoArgs}
    (h : Reaches (watched (step z offerMax.items) (noteBuilt z))
      (fun x m => AsksWithCaps z x.1 m) (start z offerMax sinkPdos, []) (s, log))
    (hfirst : FirstFixed z s.bench.srcCaps) :
    1 ≤ z.rdoPos (s.bench.policyGetRdo z).1 ∧
      z.rdoPos (s.bench.policyGetRdo z).1 ≤ s.bench.srcCaps.cnt ∧
      Valid z (s.bench.srcCaps.pdoAt (z.rdoPos (s.bench.policyGetRdo z).1))
        (s.bench.policyGetRdo z).1 ∧
      (∀ args ∈ s.bench.built z ++ log, args.Fits z) ∧
      ∃ args ∈ s.bench.built z ++ log, (s.bench.policyGetRdo z).1 = args.rdo z := by
  have hinv : SinkInv z s.bench log := by
    refine h.invariant (fun x => SinkInv z x.1.bench x.2) (sinkInv_start offerMax sinkPdos) ?_
    intro x x' m hx hok hstep
    obtain ⟨s', hs', rfl⟩ := Option.map_eq_some_iff.mp hstep
    exact hx.step hok hs'
  obtain ⟨hlow, hhigh, args, hargs, hasks, hrdo⟩ := hinv.nextRdo hfirst
  refine ⟨hlow, hhigh, ?_, hinv.fits_built hfirst, args, hargs, hrdo⟩
  have hvalid := hasks.valid
  rwa [← hrdo] at hvalid

/-- Of 5 V fixed and 3.3 to 21 V programmable, 9 V at 2 A are asked for. -/
theorem nextRdo_valid_pps : ∃ s : System, s.bench.built usbPd = [.pps 2 9000 2000] ∧
    RdoArgs.Fits usbPd (.pps 2 9000 2000) ∧
    usbPd.rdoPos (s.bench.policyGetRdo usbPd).1 = 2 ∧
    Valid usbPd (s.bench.srcCaps.pdoAt (usbPd.rdoPos (s.bench.policyGetRdo usbPd).1))
      (s.bench.policyGetRdo usbPd).1 := by
  have hcaps : Reaches (watched (step usbPd shieldPdos.items) (noteBuilt usbPd))
      (fun x m => AsksWithCaps usbPd x.1 m) (start usbPd shieldPdos [], []) _ :=
    .move (m := .enter (.policySetSrcCap [0x2001912c#32, 0xc1a4213c#32]) quiet) .start nofun rfl
  have hchosen : Reaches (watched (step usbPd shieldPdos.items) (noteBuilt usbPd))
      (fun x m => AsksWithCaps usbPd x.1 m) (start usbPd shieldPdos [], []) _ :=
    .move (m := .enter (.cmdPps (ascii "2") (ascii "9000") (ascii "2000")) quiet) hcaps nofun rfl
  have hreached : ∃ s log, Reaches (watched (step usbPd shieldPdos.items) (noteBuilt usbPd))
      (fun x m => AsksWithCaps usbPd x.1 m) (start usbPd shieldPdos [], []) (s, log) ∧
        FirstFixed usbPd s.bench.srcCaps ∧ s.bench.built usbPd = [.pps 2 9000 2000] ∧
        usbPd.rdoPos (s.bench.policyGetRdo usbPd).1 = 2 :=
    ⟨_, _, hchosen, ⟨by decide +kernel, by decide +kernel⟩, by decide +kernel, by decide +kernel⟩
  obtain ⟨s, log, hs, hfirst, hbuilt, hpos⟩ := hreached
  obtain ⟨-, -, hvalid, hfits, -⟩ := nextRdo_valid hs hfirst
  exact ⟨s, hbuilt, hfits _ (hbuilt ▸ List.mem_cons_self), hpos, hvalid⟩

end DevBench.Pd
