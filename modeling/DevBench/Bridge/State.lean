import DevBench.Bridge.Census
import DevBench.Bridge.ClockedLoop
import DevBench.Core.Program
import DevBench.Wire.Transcript

/-!
# The state of the bridge

The statics of `ble_bridge_real.c`, what the Bluetooth host under it keeps for the bridge,
and a log of what the bridge does. The host is an environment: what it answers, what
happens while the bridge waits for it, and what a clock or a link says when it is read are
given for every turn, and a turn is over with every answer and every wait.
-/

namespace DevBench.Bridge

open DevBench.Core DevBench.Eap DevBench.Bench DevBench.Wire

/-- `BLE_MAX_MONITOR_SUBSCRIPTIONS`. -/
abbrev bleMaxMonitorSubscriptions : Nat := 32

/-- `BLE_MAX_DISCOVERED_SERVICES`. -/
abbrev bleMaxDiscoveredServices : Nat := 8

/-- `BLE_MAX_CHARS_PER_SERVICE`. -/
abbrev bleMaxCharsPerService : Nat := 16

/-- `BLE_MAX_PAYLOAD_LEN`. -/
abbrev bleMaxPayloadLen : Nat := 512

/-! ## Numbers of the host -/

/-- `-EBUSY`. -/
abbrev ebusy : Int := -16

/-- `-ETIMEDOUT`. -/
abbrev etimedout : Int := -116

/-- `-EALREADY`. -/
abbrev ealready : Int := -120

/-- `-EMSGSIZE`. -/
abbrev emsgsize : Int := -122

/-- `-ENOTCONN`. -/
abbrev enotconn : Int := -128

/-- `BT_HCI_ERR_UNSPECIFIED`. -/
abbrev btHciErrUnspecified : UInt8 := 0x1f

/-- `BT_GATT_CHRC_NOTIFY`. -/
abbrev btGattChrcNotify : UInt8 := 0x10

/-- `BT_GATT_CHRC_INDICATE`. -/
abbrev btGattChrcIndicate : UInt8 := 0x20

/-- `BT_GATT_CCC_NOTIFY`. -/
abbrev btGattCccNotify : UInt16 := 1

/-- `BT_GATT_CCC_INDICATE`. -/
abbrev btGattCccIndicate : UInt16 := 2

/-- `struct bt_uuid` in its three sizes, the long one little-endian. -/
inductive BtUuid where
  | uuid16 (val : UInt16)
  | uuid32 (val : UInt32)
  | uuid128 (val : Vector UInt8 16)
  deriving DecidableEq, Repr

/-- The Bluetooth Base UUID. -/
def btBaseUuid : Uuid :=
  #v[0x00, 0x00, 0x00, 0x00, 0x00, 0x00, 0x10, 0x00, 0x80, 0x00, 0x00, 0x80, 0x5f, 0x9b, 0x34, 0xfb]

/-- `from_bt_uuid`: a short one is put into the base. -/
def fromBtUuid : BtUuid → Uuid
  | .uuid128 val => val.reverse
  | .uuid16 val => (btBaseUuid.set 2 (val >>> 8).toUInt8).set 3 val.toUInt8
  | .uuid32 val =>
    (((btBaseUuid.set 0 (val >>> 24).toUInt8).set 1 (val >>> 16).toUInt8).set 2
      (val >>> 8).toUInt8).set 3 val.toUInt8

/-! ## The statics -/

/-- The semaphores, each of which counts to one. -/
inductive Sem where
  | conn | gatt | notify | disconn | ccc | sec
  deriving DecidableEq, Repr

/-- What the connection callbacks keep. -/
structure Link where
  activeConn : Option BtAddr
  pendingConn : Option BtAddr
  connErr : UInt8
  advertising : Bool
  linkLost : Bool
  linkLostReason : UInt8
  deriving DecidableEq, Repr

/-- What a scan is for, and what it has seen. -/
structure Scan where
  /-- `scan_target` while `scan_target_set`. -/
  target : Option BtAddr
  /-- `scan_name`, empty for no filter. -/
  name : CharArray (bleMaxLocalNameLen + 1)
  matched : Bool
  census : Census

/-- `handle_cache`. -/
structure HandleCache where
  valid : Bool
  serviceUuid : Uuid
  characteristicUuid : Uuid
  valueHandle : UInt16
  serviceEndHandle : UInt16
  deriving DecidableEq, Repr

/-- What the operations on one characteristic keep. -/
structure Exchange where
  captured : Slots UInt8 bleMaxPayloadLen
  streaming : Bool
  subscribed : Bool
  /-- `subscribe_params.value_handle` and `.value`. -/
  subscribeHandle : UInt16
  subscribeValue : UInt16
  handleCache : HandleCache
  foundServiceStart : UInt16
  foundServiceEnd : UInt16
  foundValueHandle : UInt16
  attErr : UInt8
  cccAttErr : UInt8
  cccTornDown : Bool
  deriving DecidableEq, Repr

/-- `struct ble_gatt_characteristic_info` with its entry of `char_value_handles`. -/
structure FoundCharacteristic where
  info : CharacteristicInfo
  valueHandle : UInt16
  deriving DecidableEq, Repr

/-- `struct ble_gatt_service_info` with its entry of `service_ranges`. -/
structure FoundService where
  uuid : Uuid
  start : UInt16
  finish : UInt16
  characteristics : Slots FoundCharacteristic bleMaxCharsPerService
  deriving DecidableEq, Repr

/-- `discovered` in front of `discovered_len`. -/
abbrev Table : Type := Slots FoundService bleMaxDiscoveredServices

/-- `enum pairing_observed`. -/
inductive PairingObserved where
  | none | numericComparison | justWorks | passkeyDisplay
  deriving DecidableEq, Repr

/-- What the security and pairing callbacks keep. -/
structure Security where
  err : UInt8
  failed : Option UInt8
  observed : PairingObserved
  passkey : UInt32
  cancelled : Bool
  complete : Option Bool
  deriving DecidableEq, Repr

/-- What a monitor window keeps. -/
structure Monitor where
  charIndex : Vector UInt16 bleMaxMonitorSubscriptions
  count : Nat
  windowOpen : Bool
  deriving DecidableEq, Repr

/-- What a source of the protocol was resolved to. -/
structure SourceHandles where
  handle : UInt16
  serviceEnd : UInt16
  props : UInt8
  deriving DecidableEq, Repr

/-- What a protocol run keeps. -/
structure ProtocolSide where
  /-- `protocol_subscribe_source` and `protocol_subscribe_char_uuid` in front of the count. -/
  subscribed : List (UInt8 × Uuid)
  /-- The entries of `protocol_source_*` written so far. -/
  sources : List SourceHandles
  queue : List Note
  notificationsDropped : Nat
  deriving DecidableEq, Repr

/-! ## The host -/

/-- A GATT procedure whose callback the host calls until it is over. -/
inductive Procedure where
  | service | characteristic | allServices | allCharacteristics | read | write
  deriving DecidableEq, Repr

/-- The subscription parameters the bridge owns. -/
inductive Subscription where
  | exchange
  | monitor (slot : Nat)
  | protocol (slot : Nat)
  deriving DecidableEq, Repr

/-- A service and a characteristic of it. -/
abbrev Label : Type := Uuid × Uuid

/-- An element of `monitor_subscribe_params` the host has in its list: the characteristic it
was made on, and the characteristics of the table it was made from, flattened. -/
structure Armed where
  slot : Nat
  label : Label
  made : List Label
  deriving DecidableEq, Repr

/-- A call into the GATT client of the host. -/
inductive GattCall where
  | discover (procedure : Procedure)
  | read (handle : UInt16)
  | write (handle : UInt16) (payload : List UInt8)
  | writeWithoutResponse (handle : UInt16) (payload : List UInt8)
  | subscribe (params : Subscription) (handle value : UInt16)
  | unsubscribe (params : Subscription)
  deriving DecidableEq, Repr

/-- A place of the code where it waits. -/
inductive Site where
  | connect | drop | discovery | read | write | clearing | subscribing | notification | stream
  | security | unbond | resetting
  /-- For the CCC write of one characteristic, and another one comes after it. -/
  | monitorCcc (another : Bool)
  /-- The capture window, with this many subscriptions. -/
  | capture (held : Nat)
  /-- In a protocol run, with this many subscriptions recorded. -/
  | protocolCcc (held : Nat)
  | protocolWrite (held : Nat)
  /-- For the next event of a protocol run, and the machine goes on to GATT calls. -/
  | protocolQueue (calls : Bool)
  deriving DecidableEq, Repr

/-- What is logged. -/
inductive Mark where
  /-- A GATT call, and whether there was a connection. -/
  | gatt (call : GattCall) (live : Bool)
  /-- A wait, whether its semaphore was taken, and whether there is a connection behind it. -/
  | waited (site : Site) (taken live : Bool)
  /-- A connection is created to an address, whose peer has advertised these names. -/
  | initiated (addr : BtAddr) (names : List (List UInt8))
  /-- An advertiser was started with a name and an interval. -/
  | advertiser (nameType : UInt8) (name : List UInt8) (interval : UInt16)
  | transcript (entry : TranscriptEntry)
  /-- A notification on a monitor's subscription, with the slot's recorded index and the
  flattened table at that moment. -/
  | delivered (on : Armed) (index : Option UInt16) (table : List Label) (entry : TranscriptEntry)
  /-- `stream_handler` is given a value. -/
  | sample (data : List UInt8)
  /-- `drop_sink` is told of a characteristic. -/
  | dropped (characteristicUuid : Uuid)
  /-- `monitor_subscribe_count` starts over while a slot is armed, or not. -/
  | recounted (armed : Bool)
  /-- An element of `monitor_subscribe_params` is zeroed while armed, or not. -/
  | zeroed (slot : Nat) (armed : Bool)
  /-- A target check fails while a slot is armed, or not. -/
  | missed (armed : Bool)
  deriving DecidableEq, Repr

/-- A GATT call has a connection. -/
def Mark.Live : Mark → Prop
  | gatt _ live => live = true
  | _ => True

instance : DecidablePred Mark.Live
  | .gatt _ live => inferInstanceAs (Decidable (live = true))
  | .waited .. | .initiated .. | .advertiser .. | .transcript _ | .delivered .. | .sample _
  | .dropped _ | .recounted _ | .zeroed .. | .missed _ => isTrue trivial

/-- The bridge with what the host keeps for it; the last field is the log, newest first. -/
structure BridgeState where
  link : Link
  scan : Scan
  exchange : Exchange
  table : Table
  /-- `discovering_service_index`. -/
  discovering : Nat
  security : Security
  monitor : Monitor
  protocol : ProtocolSide
  given : Sem → Bool
  /-- The turn of the environment. -/
  turn : Nat
  scanning : Bool
  pending : Option Procedure
  armed : List Armed
  /-- Every Local Name a peer has advertised. -/
  heard : List (BtAddr × List UInt8)
  log : List Mark

/-- What the environment does at each turn. -/
inductive HostEvent where
  | connected (conn : BtAddr) (err : UInt8)
  | disconnected (conn : BtAddr) (reason : UInt8)
  | advertised (addr : BtAddr) (advType : UInt8) (elements : List BtData)
  /-- The attribute of a service, or of a characteristic. -/
  | service (handle endHandle : UInt16) (uuid : BtUuid)
  | characteristic (valueHandle : UInt16) (properties : UInt8) (uuid : BtUuid)
  /-- A discovery is over. -/
  | attributesDone
  | readAnswer (err : UInt8) (data : Option (List UInt8))
  | writeAnswer (err : UInt8)
  | cccAnswer (err : UInt8)
  /-- A notification, or with no data the end of the subscription. -/
  | notified (on : Subscription) (data : Option (List UInt8))
  | securityChanged (err : UInt8)
  | passkeyDisplay (passkey : UInt32)
  | passkeyConfirm (passkey : UInt32)
  | pairingConfirm
  | pairingCancel
  | pairingComplete (bonded : Bool)
  | pairingFailed (reason : UInt8)
  deriving DecidableEq, Repr

/-- The environment, by turns. -/
structure Host where
  answer : Nat → Int
  during : Nat → List HostEvent
  /-- `k_uptime_get`. -/
  uptime : Nat → Nat
  /-- `bt_conn_get_security`. -/
  level : Nat → Nat
  /-- `bt_get_name`. -/
  deviceName : List UInt8
  /-- `k_msgq_num_used_get` of `transcript_q`, which another thread empties. -/
  queued : Nat → Nat

/-- Code of the bridge. -/
abbrev Act (α : Type) : Type := Program Host BridgeState α

/-- The statics as they are initialised. -/
def BridgeState.initial : BridgeState where
  link := ⟨none, none, 0, false, false, 0⟩
  scan := ⟨none, .empty, false, .zero⟩
  exchange :=
    ⟨.empty, false, false, 0, 0, ⟨false, .replicate 16 0, .replicate 16 0, 0, 0⟩, 0, 0, 0, 0, 0,
      false⟩
  table := .empty
  discovering := 0
  security := ⟨0, none, .none, 0, false, none⟩
  monitor := ⟨.replicate bleMaxMonitorSubscriptions 0, 0, false⟩
  protocol := ⟨[], [], [], 0⟩
  given := fun _ => false
  turn := 0
  scanning := false
  pending := none
  armed := []
  heard := []
  log := []

/-- The names a peer has advertised. -/
def namesOf (heard : List (BtAddr × List UInt8)) (addr : BtAddr) : List (List UInt8) :=
  (heard.filter (·.1 = addr)).map (·.2)

namespace BridgeState

/-- There is a connection. -/
def live (s : BridgeState) : Bool := s.link.activeConn.isSome

/-- The characteristics of the table with their services, flattened in discovery order. -/
def labels (s : BridgeState) : List Label :=
  s.table.items.flatMap fun service =>
    service.characteristics.items.map fun c => (service.uuid, c.info.uuid)

/-- `discovered` as the caller sees it. -/
def services (s : BridgeState) : List ServiceInfo :=
  s.table.items.map fun service => ⟨service.uuid, service.characteristics.map (·.info)⟩

/-- A slot of the monitor is in the host's list. -/
def isArmed (s : BridgeState) (slot : Nat) : Bool := s.armed.any (·.slot == slot)

end BridgeState

/-! ## Doing and waiting -/

/-- Something is logged. -/
def BridgeState.push (s : BridgeState) (m : Mark) : BridgeState := { s with log := m :: s.log }

/-- A mark is left. -/
def note (m : Mark) : Act Unit := .modify fun s => s.push m

/-- What the host answers, and the turn is over. -/
def answer : Act Int := fun host s => (host.answer s.turn, { s with turn := s.turn + 1 })

/-- What happens during a wait, and the turn is over. -/
def during : Act (List HostEvent) := fun host s =>
  (host.during s.turn, { s with turn := s.turn + 1 })

/-- `k_uptime_get`. -/
def uptime : Act Nat := fun host s => (host.uptime s.turn, s)

/-- `bt_conn_get_security`, and the turn is over. -/
def level : Act Nat := fun host s => (host.level s.turn, { s with turn := s.turn + 1 })

/-- `bt_get_name`. -/
def deviceName : Act (List UInt8) := fun host s => (host.deviceName, s)

/-- `k_msgq_num_used_get` of `transcript_q`. -/
def queued : Act Nat := fun host s => (host.queued s.turn, s)

/-- `k_sem_give`. -/
def BridgeState.give (s : BridgeState) (sem : Sem) : BridgeState :=
  { s with given := Function.update s.given sem true }

/-- `k_sem_give`. -/
def give (sem : Sem) : Act Unit := .modify fun s => s.give sem

/-- `k_sem_reset`, and what is left of a semaphore that is taken. -/
def BridgeState.take (s : BridgeState) (sem : Sem) : BridgeState :=
  { s with given := Function.update s.given sem false }

/-- The semaphore is down. -/
def clear (sem : Sem) : Act Unit := .modify fun s => s.take sem

/-- `transcript_emit`: an entry of what happens now, its payload cut to the cap. -/
def transcriptEntry (direction kind : UInt8) (serviceUuid characteristicUuid : Option Uuid)
    (attStatus : UInt8) (payload : List UInt8) : Act TranscriptEntry := do
  let now ← uptime
  pure ⟨UInt64.ofNat now, direction, kind, serviceUuid, characteristicUuid, attStatus,
    .clamp payload⟩

end DevBench.Bridge
