import DevBench.Bench.Bridge

/-!
# The census of a scan

What `scan_cb` (`ble_bridge_real.c`) records of the advertisers it hears, in a table
keyed by address whose length is counted in eight bits.
-/

namespace DevBench.Bridge

open DevBench.Core DevBench.Bench DevBench.Wire

/-- `BLE_MAX_LOCAL_NAME_LEN`. -/
abbrev bleMaxLocalNameLen : Nat := 26

/-- `OUTCOME_MAX_FAIL_REASON_LEN`. -/
abbrev outcomeMaxFailReasonLen : Nat := 64

/-- `SCAN_SEEN_MAX`. -/
abbrev scanSeenMax : Nat := 256

/-- `SCAN_SEEN_MFG_PAYLOAD_MAX`. -/
abbrev scanSeenMfgPayloadMax : Nat := 4

/-- `SCAN_SEEN_NAMES_ENTRY_MAX`. -/
abbrev scanSeenNamesEntryMax : Nat := 128

/-! ## Addresses and advertising data -/

/-- `bt_addr_le_t`. -/
structure BtAddr where
  type : UInt8
  val : Vector UInt8 6
  deriving DecidableEq, Repr

/-- `BT_ADDR_LE_PUBLIC`. -/
abbrev btAddrLePublic : UInt8 := 0

/-- `BT_ADDR_LE_RANDOM`. -/
abbrev btAddrLeRandom : UInt8 := 1

/-- `to_bt_addr`: the host wants the bytes in the opposite order. -/
def toBtAddr (target : Vector UInt8 6 × BleAddressKind) : BtAddr :=
  ⟨if target.2 = .randomAddr then btAddrLeRandom else btAddrLePublic, target.1.reverse⟩

/-- `BT_DATA_NAME_SHORTENED`. -/
abbrev btDataNameShortened : UInt8 := 0x08

/-- `BT_DATA_NAME_COMPLETE`. -/
abbrev btDataNameComplete : UInt8 := 0x09

/-- `BT_DATA_MANUFACTURER_DATA`. -/
abbrev btDataManufacturerData : UInt8 := 0xff

/-- `struct bt_data`, one element of an advertisement. -/
structure BtData where
  type : UInt8
  data : Slots UInt8 255
  deriving DecidableEq, Repr

/-- The element is a Local Name, complete or shortened. -/
def BtData.isName (d : BtData) : Bool :=
  d.type == btDataNameComplete || d.type == btDataNameShortened

/-- `BT_GAP_ADV_TYPE_ADV_IND`. -/
abbrev btGapAdvTypeAdvInd : UInt8 := 0

/-- `BT_GAP_ADV_TYPE_ADV_DIRECT_IND`. -/
abbrev btGapAdvTypeAdvDirectInd : UInt8 := 1

/-! ## An entry of the table -/

/-- `struct scan_seen_mfg_data`; no company identifier is an element too short for one. -/
structure ScanSeenMfgData where
  companyId : Option UInt16
  totalLen : UInt8
  payload : Slots UInt8 scanSeenMfgPayloadMax
  deriving DecidableEq, Repr

/-- `scan_seen_mfg_data_parse`: the first element of an address wins. -/
def scanSeenMfgDataParse (out : Option ScanSeenMfgData) (data : List UInt8) :
    Option ScanSeenMfgData :=
  match out, data with
  | some mfg, _ => some mfg
  | none, lo :: hi :: payload =>
    some ⟨some (lo.toUInt16 ||| hi.toUInt16 <<< 8), UInt8.ofNat payload.length, .clamp payload⟩
  | none, short => some ⟨none, UInt8.ofNat short.length, .empty⟩

/-- `struct scan_seen_entry`. -/
structure ScanSeenEntry where
  addr : BtAddr
  /-- Empty until a Local Name is heard from the address. -/
  name : CharArray (bleMaxLocalNameLen + 1)
  connectable : Bool
  /-- No value until a Manufacturer Specific Data element is heard. -/
  mfg : Option ScanSeenMfgData
  deriving DecidableEq, Repr

/-- An entry as it is inserted. -/
def ScanSeenEntry.fresh (addr : BtAddr) : ScanSeenEntry := ⟨addr, .empty, false, none⟩

/-- `scan_seen_ad_record`: of two names the longer one wins, the later one of equal lengths. -/
def scanSeenAdRecord (entry : ScanSeenEntry) (d : BtData) : ScanSeenEntry :=
  if d.type = btDataManufacturerData then
    { entry with mfg := scanSeenMfgDataParse entry.mfg d.data.items }
  else if ¬ d.isName then entry
  else if entry.name.str.length ≤ min d.data.items.length bleMaxLocalNameLen then
    { entry with name := .copy d.data.items }
  else entry

/-! ## The table -/

/-- `scan_seen`, `scan_seen_len` and `scan_seen_overflowed`. -/
structure Census where
  seen : Vector ScanSeenEntry scanSeenMax
  len : UInt8
  overflowed : Bool

namespace Census

/-- The static table of zero bytes. -/
def zero : Census := ⟨.replicate scanSeenMax (.fresh ⟨0, .replicate 6 0⟩), 0, false⟩

/-- The census is begun again; what the table holds is not erased. -/
def clear (c : Census) : Census := { c with len := 0, overflowed := false }

/-- The entries in front of the length. -/
def entries (c : Census) : List ScanSeenEntry := c.seen.toList.take c.len.toNat

/-- An entry of the table is written. -/
def write (c : Census) (i : Nat) (entry : ScanSeenEntry) : Census :=
  { c with seen := c.seen.setIfInBounds i entry }

/-- `scan_seen_entry_for`: the place of the address in the table and what it holds, none when
the table is full. The comparison with `SCAN_SEEN_MAX` is made on a number of eight bits, and
the length starts over behind the last place. -/
def entryFor (c : Census) (addr : BtAddr) : Option (Nat × ScanSeenEntry) × Census :=
  match c.entries.zipIdx.find? (·.1.addr = addr) with
  | some (entry, i) => (some (i, entry), c)
  | none =>
    if scanSeenMax ≤ c.len.toNat then (none, { c with overflowed := true })
    else
      (some (c.len.toNat, .fresh addr),
        { c.write c.len.toNat (.fresh addr) with len := c.len + 1 })

/-- The first half of `scan_cb`: what an advertisement adds to the entry of its address. -/
def record (c : Census) (addr : BtAddr) (advType : UInt8) (elements : List BtData) :
    Option ScanSeenEntry × Census :=
  match c.entryFor addr with
  | (none, c) => (none, c)
  | (some (i, entry), c) =>
    let named := elements.foldl scanSeenAdRecord entry
    let entry := { named with
      connectable := named.connectable || advType == btGapAdvTypeAdvInd ||
        advType == btGapAdvTypeAdvDirectInd }
    (some entry, c.write i entry)

/-- `scan_seen_named_count`. -/
def namedCount (c : Census) : Nat := (c.entries.filter (·.name.str ≠ [])).length

end Census

/-! ## The names for a failure's reason -/

/-- `scan_seen_names_append`: what is in the buffer so far with one more entry, if the entry
fits its scratch space, what the caller may spend and the buffer. -/
def scanSeenNamesAppend (bufLen maxLen : Nat) (buf sep name : List UInt8) :
    Option (List UInt8) :=
  let entry := sep ++ ascii "'" ++ name ++ ascii "'"
  if min maxLen bufLen < buf.length then none
  else if scanSeenNamesEntryMax ≤ entry.length then none
  else if min maxLen bufLen - buf.length < entry.length then none
  else if bufLen < buf.length + entry.length + 1 then none
  else some (buf ++ entry)

/-- The loop of `scan_seen_names_summary`, which ends at the first name that does not fit. -/
def scanSeenNamesLoop (maxLen : Nat) (summary : List UInt8) (first : Bool) :
    List (List UInt8) → List UInt8 × Bool
  | [] => (summary, false)
  | name :: names =>
    match scanSeenNamesAppend (outcomeMaxFailReasonLen + 1) maxLen summary
        (if first then [] else ascii ", ") name with
    | some summary => scanSeenNamesLoop maxLen summary false names
    | none => (summary, true)

/-- `scan_seen_names_summary`: the names that fit, and whether one did not. -/
def scanSeenNamesSummary (c : Census) (maxLen : Nat) : List UInt8 × Bool :=
  scanSeenNamesLoop maxLen [] true
    ((c.entries.filter (·.name.str ≠ [])).map fun entry => entry.name.str)

/-- `SCAN_SEEN_PREFIX_MAX_LEN`: the longest prefix there is. -/
abbrev scanSeenPrefixMaxLen : Nat := (ascii "no name match; 256/256 named").length

/-- `SCAN_SEEN_NAMES_SEP`. -/
abbrev scanSeenNamesSep : List UInt8 := ascii ": "

/-- `SCAN_SEEN_TRUNCATED_MARKER`. -/
abbrev scanSeenTruncatedMarker : List UInt8 := ascii " (truncated)"

/-- `SCAN_SEEN_OVERFLOW_MARKER`. -/
abbrev scanSeenOverflowMarker : List UInt8 := ascii " (census full)"

/-- The reason `connect_as_central` gives when no name matched. -/
def noNameMatch (c : Census) : List UInt8 :=
  let markerBudget := scanSeenTruncatedMarker.length +
    if c.overflowed then scanSeenOverflowMarker.length else 0
  let nameBudget := outcomeMaxFailReasonLen - scanSeenPrefixMaxLen - scanSeenNamesSep.length -
    markerBudget
  let (summary, truncated) := scanSeenNamesSummary c nameBudget
  ascii s!"no name match; {c.namedCount}/{c.len.toNat} named" ++
    (if summary = [] then [] else scanSeenNamesSep) ++ summary ++
    (if truncated then scanSeenTruncatedMarker else []) ++
    (if c.overflowed then scanSeenOverflowMarker else [])

end DevBench.Bridge
