import DevBench.Core.Arrays
import DevBench.Pd.Objects

/-!
# What the shell is told

The arguments of the `pd` commands as the bench reads them: numbers through `strtol`, answers by
name, and the `<mV>:<mA>` pairs `pd srccaps` builds an offer of.
-/

namespace DevBench.Pd

open DevBench.Core

/-- An argument of a command, without its terminator. -/
abbrev Arg := List UInt8

/-! ## Numbers -/

/-- `LONG_MAX` on a 32-bit machine. -/
abbrev longMax : Int := 2 ^ 31 - 1

/-- The white space `strtol` skips. -/
def isSpace (c : UInt8) : Bool := c == 0x20 || (0x09 ≤ c && c ≤ 0x0d)

/-- A decimal digit. -/
def isDigit (c : UInt8) : Bool := 0x30 ≤ c && c ≤ 0x39

/-- The decimal number a run of digits stands for. -/
def digitsValue (digits : Arg) : Int := digits.foldl (fun v c => v * 10 + (c.toNat - 0x30)) 0

/-- `strtol` in base 10: the number, and the text behind it. Without a digit nothing is read. -/
def strtol (s : Arg) : Int × Arg :=
  let body := s.dropWhile isSpace
  let negative := body.head? == some 0x2d
  let unsigned := if negative || body.head? == some 0x2b then body.tail else body
  let digits := unsigned.takeWhile isDigit
  if digits.isEmpty then (0, s)
  else
    let v := if negative then -digitsValue digits else digitsValue digits
    (max (-longMax - 1) (min longMax v), unsigned.dropWhile isDigit)

/-- Why a command is refused. -/
inductive ShellError where
  | badNumber (s : Arg)
  | notAPair
  | firstPdo
  | rise
  | current (mv maxMa : Nat)
  | notInDevicetree (mv : Nat)
  | noSourceCaps
  | notOffered
  | notFixed
  | abovePdo
  | notPps
  | outsideApdo
  | aboveApdo
  | benchIsSource
  | noPartner
  | drAnswer
  | prWait
  | prAnswer
  | reqAnswer
  | keepalive
  | request (ret : Int)
  deriving DecidableEq, Repr

/-- The text behind `pd: error `. -/
def ShellError.text : ShellError → Arg
  | badNumber s => ascii "bad number '" ++ s ++ ascii "'"
  | notAPair => ascii "a PDO is <mV>:<mA>"
  | firstPdo => ascii "the first PDO is 5000 mV"
  | rise => ascii "voltages rise PDO by PDO"
  | current mv maxMa => ascii (toString mv ++ " mV offers 10 to " ++ toString maxMa ++ " mA")
  | notInDevicetree mv => ascii (toString mv ++ " mV not in the devicetree's source-pdos")
  | noSourceCaps => ascii "no source caps"
  | notOffered => ascii "position not offered"
  | notFixed => ascii "not a fixed PDO"
  | abovePdo => ascii "current above the PDO"
  | notPps => ascii "not a PPS APDO"
  | outsideApdo => ascii "voltage outside the APDO"
  | aboveApdo => ascii "current above the APDO"
  | benchIsSource => ascii "the bench is the source"
  | noPartner => ascii "no partner"
  | drAnswer => ascii "answer is accept, reject or nosupport"
  | prWait => ascii "the stack answers PR_Swap with Accept or Reject only"
  | prAnswer => ascii "answer is accept or reject"
  | reqAnswer => ascii "answer is accept, reject or wait"
  | keepalive => ascii "keepalive is on or off"
  | request ret => ascii ("request " ++ toString ret)

/-- `parse_int`: all of the argument, and no more than 100000. -/
def parseInt (s : Arg) : Except ShellError Nat :=
  let (v, rest) := strtol s
  if s.isEmpty || !rest.isEmpty || v < 0 || v > 100000 then .error (.badNumber s)
  else .ok v.toNat

/-! ## Answers -/

/-- `enum dr_answer`. -/
inductive DrAnswer where
  | accept | reject | notSupported
  deriving DecidableEq, Repr

/-- `dr_answer_names` -/
def drAnswerOf (arg : Arg) : Option DrAnswer :=
  if arg = ascii "accept" then some .accept
  else if arg = ascii "reject" then some .reject
  else if arg = ascii "nosupport" then some .notSupported
  else none

/-- `enum pr_answer`. -/
inductive PrAnswer where
  | accept | reject
  deriving DecidableEq, Repr

/-- `pr_answer_names` -/
def prAnswerOf (arg : Arg) : Option PrAnswer :=
  if arg = ascii "accept" then some .accept
  else if arg = ascii "reject" then some .reject
  else none

/-- `enum usbc_snk_req_reply_t` -/
inductive SnkReqReply where
  | valid | reject | wait
  deriving DecidableEq, Repr

/-- `req_answer_names` -/
def reqAnswerOf (arg : Arg) : Option SnkReqReply :=
  if arg = ascii "accept" then some .valid
  else if arg = ascii "reject" then some .reject
  else if arg = ascii "wait" then some .wait
  else none

/-! ## Choices and offers -/

/-- `enum want_kind`. -/
inductive WantKind where
  | max | fixed | pps
  deriving DecidableEq, Repr

/-- `struct want`: what is asked of the source. -/
structure Want where
  kind : WantKind
  pos : Nat
  mv : Nat
  ma : Nat
  deriving DecidableEq, Repr

/-- The choice of a `pd req`, the current being an argument it may do without. -/
def cmdReq (pos : Arg) (ma : Option Arg) : Except ShellError Want := do
  let pos ← parseInt pos
  let ma ← match ma with
    | some ma => parseInt ma
    | none => pure 0
  return ⟨.fixed, pos, 0, ma⟩

/-- `pd pps`. -/
def cmdPps (pos mv ma : Arg) : Except ShellError Want := do
  let pos ← parseInt pos
  let mv ← parseInt mv
  let ma ← parseInt ma
  return ⟨.pps, pos, mv, ma⟩

section

variable (z : Layout) (offerMax : List Word)

/-- The first fixed PDO of the devicetree at the voltage decides. -/
def offerPdo (arg : Arg) (prevMv : Nat) : Except ShellError (Word × Nat) :=
  match arg.dropWhile (· ≠ 0x3a) with
  | [] => .error .notAPair
  | _ :: currentArg => do
    let mv ← parseInt (arg.takeWhile (· ≠ 0x3a))
    let ma ← parseInt currentArg
    if prevMv = 0 ∧ mv ≠ 5000 then throw .firstPdo
    if mv ≤ prevMv then throw .rise
    match offerMax.find? fun pdo => z.pdoIsFixed pdo && z.fixedMv pdo == mv with
    | none => throw (.notInDevicetree mv)
    | some pdo =>
      if ma < 10 ∨ z.fixedMa pdo < ma then throw (.current mv (z.fixedMa pdo))
      return (z.withCurrent pdo ma, mv)

/-- The PDOs of a `pd srccaps`, each behind the voltage of the one before it. -/
def offerPdos : List Arg → Nat → Except ShellError (List Word)
  | [], _ => return []
  | arg :: args, prevMv => do
    let (pdo, mv) ← offerPdo z offerMax arg prevMv
    let rest ← offerPdos args mv
    return pdo :: rest

end

/-! ## What an accepted offer is -/

section

variable {z : Layout} {offerMax : List Word}

/-- A PDO of an offer: a fixed one of the devicetree's, at no more than its current. -/
def Within (z : Layout) (offerMax : List Word) (pdo : Word) : Prop :=
  z.pdoIsFixed pdo = true ∧
    ∃ limit ∈ offerMax, z.fixedMv limit = z.fixedMv pdo ∧ z.fixedMa pdo ≤ z.fixedMa limit

/-- What a computation that succeeds went through. -/
theorem exists_ok_of_bind {ε α β : Type} {m : Except ε α} {f : α → Except ε β} {b : β}
    (h : m >>= f = .ok b) : ∃ a, m = .ok a ∧ f a = .ok b := by
  cases m with
  | error e => cases h
  | ok a => exact ⟨a, rfl, h⟩

/-- What `offer_pdo` lets through, and at which voltage. -/
theorem offerPdo_ok {arg : Arg} {prevMv mv : Nat} {pdo : Word}
    (h : offerPdo z offerMax arg prevMv = .ok (pdo, mv)) :
    Within z offerMax pdo ∧ z.fixedMv pdo = mv ∧ prevMv < mv ∧ (prevMv = 0 → mv = 5000) := by
  unfold offerPdo at h
  split at h
  · cases h
  obtain ⟨mv', -, h⟩ := exists_ok_of_bind h
  obtain ⟨ma, -, h⟩ := exists_ok_of_bind h
  simp only [bind, Except.bind, pure, Except.pure, throw, throwThe, MonadExceptOf.throw] at h
  split at h
  · cases h
  rename_i hfirst
  split at h
  · cases h
  rename_i hrise
  split at h
  · cases h
  rename_i limit hfind
  split at h
  · cases h
  rename_i hcurrent
  obtain ⟨rfl, rfl⟩ := Prod.mk.inj (Except.ok.inj h)
  have hlimit := List.find?_some hfind
  rw [Bool.and_eq_true, beq_iff_eq] at hlimit
  have hle := Layout.fixedMa_withCurrent_le (z := z) limit ma
  have hwithin : Within z offerMax (z.withCurrent limit ma) := by
    refine ⟨?_, limit, List.mem_of_find?_eq_some hfind, ?_, by omega⟩
    · rw [Layout.pdoIsFixed_withCurrent]
      exact hlimit.1
    · rw [Layout.fixedMv_withCurrent]
  refine ⟨hwithin, ?_, by omega, fun h0 => ?_⟩
  · rw [Layout.fixedMv_withCurrent]
    exact hlimit.2
  · by_contra hne
    exact hfirst ⟨h0, hne⟩

/-- Each PDO of an offer is within the devicetree's, and their voltages rise from the one before
them. -/
theorem offerPdos_ok : ∀ {args : List Arg} {prevMv : Nat} {pdos : List Word},
    offerPdos z offerMax args prevMv = .ok pdos →
      pdos.length = args.length ∧ (∀ pdo ∈ pdos, Within z offerMax pdo) ∧
        (prevMv :: pdos.map z.fixedMv).Pairwise (· < ·) ∧
        ∀ pdo ∈ pdos.head?, prevMv = 0 → z.fixedMv pdo = 5000
  | [], prevMv, pdos, h => by
    obtain rfl := Except.ok.inj h
    simp
  | arg :: args, prevMv, pdos, h => by
    unfold offerPdos at h
    obtain ⟨⟨pdo, mv⟩, hpdo, h⟩ := exists_ok_of_bind h
    obtain ⟨rest, hrest, h⟩ := exists_ok_of_bind h
    obtain rfl := Except.ok.inj h
    obtain ⟨hwithin, hmv, hlt, hfirst⟩ := offerPdo_ok hpdo
    obtain ⟨hlen, hall, hrise, -⟩ := offerPdos_ok hrest
    refine ⟨by simp [hlen], ?_, ?_, ?_⟩
    · intro p hp
      rcases List.mem_cons.mp hp with rfl | hp
      · exact hwithin
      · exact hall p hp
    · rw [List.map_cons, hmv]
      refine List.pairwise_cons.mpr ⟨fun v hv => ?_, hrise⟩
      rcases List.mem_cons.mp hv with rfl | hv
      · exact hlt
      · exact hlt.trans ((List.pairwise_cons.mp hrise).1 v hv)
    · intro p hp h0
      obtain rfl := Option.some.inj hp
      rw [hmv]
      exact hfirst h0

end

end DevBench.Pd
