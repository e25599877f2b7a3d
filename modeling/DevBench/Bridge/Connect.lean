import DevBench.Bridge.Callbacks

/-!
# Advertising and connecting

`execute_advertise` and `execute_connect` (`ble_bridge_real.c`), the latter in both roles.
-/

namespace DevBench.Bridge

open DevBench.Core DevBench.Core.Program DevBench.Eap DevBench.Bench DevBench.Wire

/-! ## Outcomes -/

/-- `outcome_pass`, with what was captured so far. -/
def outcomePass : Act BridgeOutcome := do
  let s ← get
  let captured := s.exchange.captured.items
  pure { BridgeOutcome.bare .pass with
    capturedData := if captured = [] then none else some captured }

/-- `outcome_timed_out`. -/
def outcomeTimedOut : BridgeOutcome := .bare .timedOut

/-- `outcome_fail`: the reason is cut to what its field takes. -/
def outcomeFail (reason : String) : BridgeOutcome := .bare (.fail (.copy reason.toUTF8.toList))

/-- The digit `%x` prints. -/
def hexDigit (n : Nat) : Char := "0123456789abcdef".toList.getD n ' '

/-- `%02x`. -/
def hex (b : UInt8) : String := String.ofList [hexDigit (b.toNat / 16), hexDigit (b.toNat % 16)]

/-- `%02x%02x..%02x%02x` of the first and the last two bytes. -/
def uuidText (uuid : Uuid) : String :=
  let byte (i : Nat) := hex (uuid.toList.getD i 0)
  s!"{byte 0}{byte 1}..{byte 14}{byte 15}"

/-- `hci_reason_str`. -/
def hciReasonStr (reason : UInt8) : String :=
  match reason.toNat with
  | 0x05 => "authentication failure"
  | 0x06 => "PIN or key missing"
  | 0x08 => "supervision timeout"
  | 0x13 => "peer ended the connection"
  | 0x14 => "peer out of resources"
  | 0x15 => "peer powering off"
  | 0x16 => "local host ended the connection"
  | 0x1a => "unsupported remote feature"
  | 0x1e => "invalid LL parameters"
  | 0x1f => "unspecified"
  | 0x22 => "LL response timeout"
  | 0x28 => "instant passed"
  | 0x3b => "unacceptable connection parameters"
  | 0x3d => "MIC failure"
  | 0x3e => "connection failed to establish"
  | _ => "unnamed"

/-- `outcome_disconnected`. -/
def outcomeDisconnected (during : String) : Act BridgeOutcome := do
  let s ← get
  let reason := s.link.linkLostReason
  pure (outcomeFail s!"disconnected {during} (HCI 0x{hex reason}, {hciReasonStr reason})")

/-- A call whose answer nothing depends on. -/
def ignored : Act Unit := do
  let _ ← answer
  pure ()

/-- `release_pending_conn`; cancelling disconnects the connecting object. -/
def releasePendingConn (cancel : Bool) : Act Unit := do
  let s ← get
  when s.link.pendingConn.isSome do
    when cancel ignored
    modify fun s => { s with link.pendingConn := none }

/-! ## Advertising -/

/-- `BT_GAP_ADV_FAST_INT_MIN_2`. -/
abbrev btGapAdvFastIntMin2 : UInt16 := 0xa0

/-- `ADV_LEGACY_PDU_LEN`. -/
abbrev advLegacyPduLen : Nat := 31

/-- `ADV_MAX_UUID128`. -/
abbrev advMaxUuid128 : Nat := (advLegacyPduLen - 2) / 16

/-- `BT_GAP_MS_TO_ADV_INTERVAL` of an interval brought into its range. -/
def advInterval (ms : UInt16) : UInt16 :=
  UInt16.ofNat ((if ms < 20 then 20 else if 10240 < ms then 10240 else ms).toNat * 8 / 5)

/-- `start_advertising`, for the name and the interval of a step or for neither. A step's
action carries no service UUIDs. -/
def startAdvertising (localName : Option (CharArray (dbmMaxLocalNameLen + 1)))
    (advIntervalMs : UInt16) : Act Int := do
  let own ← deviceName
  let name := (localName.map CharArray.str).getD own
  let element := if bleMaxLocalNameLen < name.length
    then (btDataNameShortened, name.take bleMaxLocalNameLen) else (btDataNameComplete, name)
  ignored
  let err ← answer
  when (err = 0) do
    modify fun s => { s with link.advertising := true }
    note (.advertiser element.1 element.2
      (if 0 < advIntervalMs then advInterval advIntervalMs else btGapAdvFastIntMin2))
  pure err

/-- `execute_advertise`. The count of service UUIDs it names is that of a step's action, which
carries none: the error is the host's own then. -/
def executeAdvertise (localName : Option (CharArray (dbmMaxLocalNameLen + 1)))
    (advIntervalMs : UInt16) : Act BridgeOutcome := do
  let err ← startAdvertising localName advIntervalMs
  if err = emsgsize then
    pure (outcomeFail s!"0 service UUIDs exceed legacy advertising (max {advMaxUuid128})")
  else if err ≠ 0 then pure (outcomeFail s!"bt_le_adv_start failed ({err})")
  else outcomePass

/-! ## Connecting -/

/-- The address filter and the name filter of a connect step. -/
structure ConnectParams where
  target : Option (Vector UInt8 6 × BleAddressKind)
  targetName : Option (CharArray (dbmMaxLocalNameLen + 1))
  deriving DecidableEq, Repr

/-- `peer_matches`. -/
def peerMatches (params : ConnectParams) (s : BridgeState) : Bool :=
  match params.target with
  | none => true
  | some target => s.link.activeConn == some (toBtAddr target)

/-- The filters a scan is begun with. -/
def Scan.arm (scan : Scan) (params : ConnectParams) : Scan where
  target := params.target.map toBtAddr
  name := (params.targetName.map fun name => .copy name.str).getD .empty
  matched := false
  census := scan.census.clear

/-- What `connect_as_central` sets before it scans. -/
def armScan (params : ConnectParams) : Act Unit := do
  modify fun s => { s with scan := s.scan.arm params, link.connErr := 0 }
  clear .conn

/-- `bt_le_scan_start`; a scan that runs already is as good. -/
def btLeScanStart : Act Int := do
  let err ← answer
  when (err = 0 ∨ err = ealready) (modify fun s => { s with scanning := true })
  pure err

/-- What `connect_as_central` reports when nothing connected in time. -/
def scanGaveUp (s : BridgeState) : BridgeOutcome :=
  if s.scan.name.str ≠ [] then .bare (.fail (.copy (noNameMatch s.scan.census)))
  else outcomeTimedOut

/-- The second half of `connect_as_central`, from the wait on. -/
def awaitScanned : Act BridgeOutcome := do
  let taken ← wait .conn .connect
  if ¬ taken then
    let _ ← btLeScanStop
    releasePendingConn true
    let s ← get
    pure (scanGaveUp s)
  else
    releasePendingConn false
    let s ← get
    if s.link.connErr ≠ 0 then
      pure (outcomeFail s!"connection failed (HCI 0x{hex s.link.connErr})")
    else if ¬ s.live then pure (outcomeFail "connected callback left no connection")
    else outcomePass

/-- `connect_as_central`. -/
def connectAsCentral (params : ConnectParams) : Act BridgeOutcome := do
  armScan params
  let err ← btLeScanStart
  if err ≠ 0 ∧ err ≠ ealready then pure (outcomeFail s!"bt_le_scan_start failed ({err})")
  else awaitScanned

/-- Advertising, unless it goes on already. -/
def advertiseAnyway : Act Int := do
  let s ← get
  if s.link.advertising then pure 0 else startAdvertising none 0

/-- One round of `connect_as_peripheral`; no outcome when a wrong peer was dropped. -/
def connectRound (params : ConnectParams) : Act (Option BridgeOutcome) := do
  modify fun s => { s with link.connErr := 0 }
  clear .conn
  let err ← advertiseAnyway
  if err ≠ 0 then pure (some (outcomeFail s!"bt_le_adv_start failed ({err})"))
  else
    let taken ← wait .conn .connect
    let s ← get
    if ¬ taken then pure (some outcomeTimedOut)
    else if s.link.connErr ≠ 0 then
      pure (some (outcomeFail s!"connection failed (HCI 0x{hex s.link.connErr})"))
    else if peerMatches params s then some <$> outcomePass
    else
      clear .disconn
      ignored
      let taken ← wait .disconn .drop
      if ¬ taken then pure (some outcomeTimedOut) else pure none

/-- `connect_as_peripheral`, which goes round until a round has an outcome; none when it has
not come to an end in so many rounds. -/
def connectAsPeripheral (params : ConnectParams) : Nat → Act (Option BridgeOutcome)
  | 0 => pure none
  | rounds + 1 => do
    let outcome ← connectRound params
    match outcome with
    | some outcome => pure (some outcome)
    | none => connectAsPeripheral params rounds

/-- `execute_connect`: a link that stands is enough if its peer is the one asked for. -/
def executeConnect (role : BleRole) (params : ConnectParams) (rounds : Nat) :
    Act (Option BridgeOutcome) := do
  let s ← get
  if s.live then
    if peerMatches params s then some <$> outcomePass
    else pure (some (outcomeFail "already connected to a different peer"))
  else
    match role with
    | .central => some <$> connectAsCentral params
    | .peripheral => connectAsPeripheral params rounds

end DevBench.Bridge
