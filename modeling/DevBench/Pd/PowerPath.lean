import DevBench.Core.Logged

/-!
# The power path

`source_on` and `source_off` (`main.c`) over the TCPP03 (`tcpp03.c`): what is written to its
control register, and what is measured before and after. The system work queue may run
`fault_handler` wherever the path does not hold the TCPP03's lock.
-/

namespace DevBench.Pd

open DevBench.Core

/-! ## The TCPP03 -/

/-- `CTRL_GDP_CLOSED`. -/
abbrev ctrlGdpClosed : UInt8 := (1 : UInt8) <<< 2

/-- `CTRL_GDC_OPEN`. -/
abbrev ctrlGdcOpen : UInt8 := (1 : UInt8) <<< 3

/-- `CTRL_MODE_NORMAL`. -/
abbrev ctrlModeNormal : UInt8 := (1 : UInt8) <<< 4

/-- `CTRL_VBUS_DISCHARGE`. -/
abbrev ctrlVbusDischarge : UInt8 := (1 : UInt8) <<< 6

/-- `CTRL_OPEN`, the recovery word. -/
abbrev ctrlOpen : UInt8 := ctrlModeNormal ||| ctrlGdcOpen

/-- `CTRL_IDLE`. -/
abbrev ctrlIdle : UInt8 := ctrlModeNormal

/-- `CTRL_SOURCE`. -/
abbrev ctrlSource : UInt8 := ctrlModeNormal ||| ctrlGdcOpen ||| ctrlGdpClosed

/-- `CTRL_SOURCE_OFF`. -/
abbrev ctrlSourceOff : UInt8 := ctrlModeNormal ||| ctrlGdcOpen ||| ctrlVbusDischarge

/-- `FLAG_FAULTS` -/
abbrev flagFaults : UInt8 := 0x1f

/-- `-EIO`. -/
abbrev eio : Int := -5

/-- `-ETIMEDOUT`. -/
abbrev etimedout : Int := -116

/-- `VBUS_POLL_MS`. -/
abbrev vbusPollMs : Nat := 2

/-- `SRC_RECOVER_MS`. -/
abbrev srcRecoverMs : Int := 700

/-- The limits of USB Power Delivery and Type-C, as the stack has them. -/
structure Limits where
  vSafe5vMinMv : Int
  vSafe5vMaxMv : Int
  vSafe0vMaxMv : Int
  tSafe0vMaxMs : Nat
  tVbusOnMaxMs : Nat

/-- A margin for the stack's own check. -/
def Limits.dischargedMv (l : Limits) : Int := l.vSafe0vMaxMv - 200

/-! ## What is written and read -/

/-- Whose write to the control register it is. -/
inductive Writer where
  | path | fault
  deriving DecidableEq, Repr

/-- A transfer on the I2C bus, a reading of the ADC, or the request of Error Recovery. -/
inductive PathEvent where
  | write (writer : Writer) (val : UInt8) (ret : Int)
  | flags (ret : Int) (flags : UInt8)
  | cn3 (ret mv : Int)
  | vbus (ret mv : Int)
  | errorRecovery
  deriving DecidableEq, Repr

/-- After a Hard Reset as source. -/
inductive HardReset where
  | none | recover | failed
  deriving DecidableEq, Repr

/-- What the path keeps, the events so far, and how often the world was asked. -/
structure Path where
  events : List PathEvent
  hr : HardReset
  hrAt : Int
  faults : Nat
  faultFlags : UInt8
  turn : Nat

/-- What the bus, the ADC and the clock answer at each turn, and how often `fault_handler` runs
where it may. A transfer returns 0 or a negative number. -/
structure World where
  write : Nat → Int
  write_nonpos : ∀ turn, write turn ≤ 0
  flags : Nat → Int × UInt8
  cn3 : Nat → Int × Int
  vbus : Nat → Int × Int
  faultRuns : Nat → Nat
  now : Nat → Int

/-- A program over the path, in a world that answers. -/
abbrev PathProgram (α : Type) : Type := Program World Path α

open Program

/-- Ask the world. -/
def ask {α : Type} (f : World → Nat → α) : PathProgram α := fun w p =>
  (f w p.turn, { p with turn := p.turn + 1 })

/-- An event is appended. -/
def note (event : PathEvent) : PathProgram Unit :=
  modify fun p => { p with events := p.events ++ [event] }

/-- `ctrl_write`. -/
def ctrlWrite (writer : Writer) (val : UInt8) : PathProgram Int := do
  let ret ← ask World.write
  note (.write writer val ret)
  return ret

/-- A fault opened both paths: start over from an unattached port. -/
def tcppFault (flags : UInt8) : PathProgram Unit := do
  modify fun p => { p with faults := p.faults + 1, faultFlags := flags }
  note .errorRecovery

/-- Only the recovery word clears a fault. -/
def recover (ret : Int) (flags : UInt8) : PathProgram Int :=
  if ret = 0 ∧ flags &&& flagFaults ≠ 0 then do
    let ret ← ctrlWrite .fault ctrlOpen
    if ret = 0 then ctrlWrite .fault ctrlIdle else pure ret
  else pure ret

/-- `fault_handler`: a transfer that fails counts as a fault. -/
def faultHandler : PathProgram Unit := do
  let (ret, flags) ← ask World.flags
  note (.flags ret flags)
  let ret ← recover ret flags
  if ret = 0 ∧ flags &&& flagFaults = 0 then pure () else tcppFault (flags &&& flagFaults)

/-- A place where the lock is free: `fault_handler` runs as often as it comes to. -/
def gap : PathProgram Unit := do
  let runs ← ask World.faultRuns
  each (fun _ => faultHandler) (List.replicate runs ())

/-- `tcpp03_source`, under the lock throughout. -/
def tcpp03Source (on : Bool) : PathProgram Int :=
  if on then do
    let ret ← ctrlWrite .path ctrlOpen
    if ret = 0 then ctrlWrite .path ctrlSource else pure ret
  else ctrlWrite .path ctrlSourceOff

/-- `tcpp03_idle`. -/
def tcpp03Idle : PathProgram Int := ctrlWrite .path ctrlIdle

/-! ## The bench's side -/

/-- The voltage at CN3. -/
def measureCn3 : PathProgram (Int × Int) := do
  let (ret, mv) ← ask World.cn3
  note (.cn3 ret mv)
  return (ret, mv)

/-- The voltage at VBUS. -/
def measureVbus : PathProgram (Int × Int) := do
  let (ret, mv) ← ask World.vbus
  note (.vbus ret mv)
  return (ret, mv)

section

variable (l : Limits)

/-- The CN3 supply is at vSafe5V. -/
def supplyOk : PathProgram Bool := do
  let (ret, mv) ← measureCn3
  return !(ret < 0 || mv < l.vSafe5vMinMv || l.vSafe5vMaxMv < mv)

/-- VBUS is measured until a reading is good or the time is up. -/
def pollVbus (good : Int → Bool) (maxMs t : Nat) : PathProgram Bool := do
  gap
  let (ret, mv) ← measureVbus
  if ret = 0 ∧ good mv = true then pure true
  else if _h : maxMs ≤ t then pure false
  else pollVbus good maxMs (t + vbusPollMs)
termination_by maxMs - t
decreasing_by
  rw [vbusPollMs]
  omega

/-- What `source_off` makes of the write that turned the source off. -/
def awaitDischarge (ret : Int) : PathProgram Int :=
  if ret = 0 then do
    let off ← pollVbus (fun mv => mv < l.dischargedMv) l.tSafe0vMaxMs 0
    return if off then 0 else etimedout
  else pure ret

/-- VBUS off and discharged, then the TCPP03 idle. -/
def sourceOff : PathProgram Int := do
  gap
  let ret ← tcpp03Source false
  let ret ← awaitDischarge l ret
  gap
  let idle ← tcpp03Idle
  return if ret < 0 then ret else idle

/-- What `source_on` makes of the write that turned the source on. -/
def awaitVbus (ret : Int) : PathProgram Bool :=
  if ret = 0 then pollVbus (fun mv => l.vSafe5vMinMv ≤ mv) l.tVbusOnMaxMs 0 else pure false

/-- VBUS on from CN3, only at vSafe5V, and returned once VBUS is there. -/
def sourceOn : PathProgram Int := do
  let ok ← supplyOk l
  if ok then do
    gap
    let ret ← tcpp03Source true
    let on ← awaitVbus l ret
    if on then pure 0
    else do
      let _ ← sourceOff l
      pure eio
  else pure eio

/-- `src_hard_reset` from VBUS going off on. -/
def srcHardResetOff : PathProgram Unit := do
  let ret ← sourceOff l
  if ret < 0 then do
    modify fun p => { p with hr := .failed }
    note .errorRecovery
  else do
    let now ← ask World.now
    modify fun p => { p with hr := .recover, hrAt := now }

/-- VBUS back on, or the Hard Reset has failed. -/
def recoverSource : PathProgram Bool := do
  let ret ← sourceOn l
  if ret < 0 then do
    modify fun p => { p with hr := .failed }
    note .errorRecovery
    pure false
  else do
    modify fun p => { p with hr := .none }
    pure true

/-- `src_recovered`: the source comes back when its time is up. -/
def srcRecovered : PathProgram Bool := do
  let p ← Program.get
  match p.hr with
  | .none => pure true
  | .recover => do
    let now ← ask World.now
    if now - p.hrAt < srcRecoverMs then pure false else recoverSource l
  | .failed => pure false

/-! ## Runs -/

/-- The calls of the stack that move the path. -/
inductive PathCall where
  | sourceOn | sourceOff | srcHardReset | srcRecovered
  deriving DecidableEq, Repr

/-- A call with what it returned. -/
inductive PathAnswer where
  | sourceOn (ret : Int)
  | sourceOff (ret : Int)
  | srcHardReset
  | srcRecovered (done : Bool)
  deriving DecidableEq, Repr

/-- The call an answer is to. -/
def PathAnswer.call : PathAnswer → PathCall
  | sourceOn _ => .sourceOn
  | sourceOff _ => .sourceOff
  | srcHardReset => .srcHardReset
  | srcRecovered _ => .srcRecovered

/-- One call, with what it returns. -/
def pathCall : PathCall → PathProgram PathAnswer
  | .sourceOn => do
    let ret ← sourceOn l
    return .sourceOn ret
  | .sourceOff => do
    let ret ← sourceOff l
    return .sourceOff ret
  | .srcHardReset => do
    srcHardResetOff l
    return .srcHardReset
  | .srcRecovered => do
    let done ← srcRecovered l
    return .srcRecovered done

/-- The calls one after another, `fault_handler` running around them as within them. -/
def pathCalls : List PathCall → PathProgram (List PathAnswer)
  | [] => do
    gap
    return []
  | call :: calls => do
    gap
    let answer ← pathCall l call
    let answers ← pathCalls calls
    return answer :: answers

end

end DevBench.Pd
