import DevBench.Bridge.Advertisers

/-!
# A line of the report

What `report_scan_seen` formats about an advertiser, and what `bridge_log` leaves of it. The
parts of the line are bounded one by one, each where it comes from; all of them together are
longer than a line of the log for some of the entries a scan records, and which these are is
read off the entry.
-/

namespace DevBench.Bridge

open DevBench.Core DevBench.Bench DevBench.Wire

/-! ## What a scan records -/

/-- An advertisement as `scan_cb` is told of it. -/
structure Advertisement where
  addr : BtAddr
  advType : UInt8
  elements : List BtData

/-- The first half of `scan_cb` for one advertisement after another. -/
def Census.recordAll (c : Census) (ads : List Advertisement) : Census :=
  ads.foldl (fun c ad => (c.record ad.addr ad.advType ad.elements).2) c

namespace ScanSeenEntry

/-- The manufacturer data, if there is any, is that of an element. -/
def Recorded (entry : ScanSeenEntry) : Prop :=
  ∀ mfg ∈ entry.mfg, ∃ data : Slots UInt8 255, scanSeenMfgDataParse none data.items = some mfg

/-- A field of a report leaves an entry that was recorded. -/
theorem Recorded.scanSeenAdRecord {entry : ScanSeenEntry} (h : entry.Recorded) (d : BtData) :
    (scanSeenAdRecord entry d).Recorded := by
  unfold Bridge.scanSeenAdRecord
  split
  · intro mfg hmfg
    cases hheld : entry.mfg with
    | none =>
      rw [hheld] at hmfg
      exact ⟨d.data, hmfg⟩
    | some held =>
      rw [hheld] at hmfg
      exact h mfg (hheld.trans hmfg)
  · split
    · exact h
    · split <;> exact h

end ScanSeenEntry

/-- Every entry a scan records is of elements it heard. -/
theorem Census.recorded_recordAll {c : Census} (h : ∀ entry ∈ c.entries, entry.Recorded)
    (ads : List Advertisement) : ∀ entry ∈ (c.recordAll ads).entries, entry.Recorded := by
  induction ads generalizing c with
  | nil => exact h
  | cons ad ads ih =>
    refine ih (forall_mem_record h (nofun) (fun entry d hentry => hentry.scanSeenAdRecord d)
      (fun entry connectable hentry => hentry) ad.advType ad.elements)

/-- The elements of an advertisement with this name and manufacturer data. -/
def ScanSeenEntry.elements (entry : ScanSeenEntry) (data : Option (Slots UInt8 255)) :
    List BtData :=
  data.toList.map (⟨btDataManufacturerData, ·⟩) ++
    [⟨btDataNameComplete, .clamp entry.name.bytes⟩]

/-- The first name heard from an address is its name. -/
theorem scanSeenAdRecord_name {entry : ScanSeenEntry} (h : entry.name.str = [])
    (data : Slots UInt8 255) :
    scanSeenAdRecord entry ⟨btDataNameComplete, data⟩ =
      { entry with name := .copy data.items } := by
  have hname : (BtData.mk btDataNameComplete data).isName = true := rfl
  have hlonger : entry.name.str.length ≤ min data.items.length bleMaxLocalNameLen := by
    rw [h]
    exact Nat.zero_le _
  rw [scanSeenAdRecord, if_neg (show btDataNameComplete ≠ btDataManufacturerData by decide),
    if_neg (not_not_intro hname), if_pos hlonger]

/-- An entry can be had from a report with its own fields. -/
theorem ScanSeenEntry.foldl_elements {entry : ScanSeenEntry} {data : Option (Slots UInt8 255)}
    (h : entry.mfg = data.bind fun data => scanSeenMfgDataParse none data.items) :
    (entry.elements data).foldl scanSeenAdRecord (.fresh entry.addr) =
      { entry with connectable := false } := by
  have hfits : entry.name.bytes.length ≤ bleMaxLocalNameLen := Nat.le_of_lt_succ entry.name.fits
  have hclamp : (Slots.clamp entry.name.bytes : Slots UInt8 255).items = entry.name.bytes :=
    List.take_of_length_le (hfits.trans (by decide))
  have hname : (.copy entry.name.bytes : CharArray (bleMaxLocalNameLen + 1)) = entry.name :=
    CharArray.ext (CharArray.bytes_copy hfits)
  cases data with
  | none =>
    rw [Option.bind_none] at h
    rw [elements, Option.toList_none, List.map_nil, List.nil_append, List.foldl_cons,
      scanSeenAdRecord_name rfl, hclamp, hname, List.foldl_nil, h]
    rfl
  | some data =>
    rw [Option.bind_some] at h
    rw [elements, Option.toList_some, List.map_singleton, List.singleton_append, List.foldl_cons,
      List.foldl_cons, scanSeenAdRecord_name rfl, hclamp, hname, List.foldl_nil, h]
    rfl

/-- And what is of an element, with whatever address, name and kind, some scan records. -/
theorem ScanSeenEntry.Recorded.exists_recordAll {entry : ScanSeenEntry} (h : entry.Recorded)
    (c : Census) : ∃ ads, entry ∈ (c.clear.recordAll ads).entries := by
  obtain ⟨data, hdata⟩ : ∃ data : Option (Slots UInt8 255),
      entry.mfg = data.bind fun data => scanSeenMfgDataParse none data.items := by
    cases hmfg : entry.mfg with
    | none => exact ⟨none, rfl⟩
    | some mfg =>
      obtain ⟨data, hdata⟩ := h mfg hmfg
      exact ⟨some data, hdata.symm⟩
  refine ⟨[⟨entry.addr, if entry.connectable then btGapAdvTypeAdvInd else 3,
    entry.elements data⟩], ?_⟩
  have hkeys : entry.addr ∉ c.clear.keys := List.not_mem_nil
  have hroom : c.clear.len.toNat + 1 < scanSeenMax := show 0 + 1 < 256 by decide
  obtain ⟨hplace, hentries, -⟩ := Census.entryFor_of_notMem hkeys hroom
  rw [Census.recordAll, List.foldl_cons, List.foldl_nil, Census.record]
  rcases hfor : c.clear.entryFor entry.addr with ⟨place, c'⟩
  rw [hfor] at hplace hentries
  obtain rfl : place = some (0, .fresh entry.addr) := hplace
  have hkind : (false || (if entry.connectable then btGapAdvTypeAdvInd else 3) ==
      btGapAdvTypeAdvInd || (if entry.connectable then btGapAdvTypeAdvInd else 3) ==
        btGapAdvTypeAdvDirectInd) = entry.connectable := by
    cases entry.connectable <;> rfl
  simp only [ScanSeenEntry.foldl_elements hdata, hkind, Census.entries_write]
  rw [show c'.entries = [.fresh entry.addr] from hentries]
  exact List.mem_singleton_self entry

/-! ## The line -/

/-- What `scan_seen_mfg_data_render` renders, before a buffer cuts it. -/
def scanSeenMfgText : Option ScanSeenMfgData → List UInt8
  | none => ascii "(none advertised)"
  | some ⟨none, totalLen, _⟩ =>
    ascii s!"(malformed: {totalLen.toNat} byte(s), shorter than a company ID)"
  | some ⟨some companyId, totalLen, payload⟩ =>
    ascii "company=0x" ++ hexDigits 4 companyId.toNat ++ ascii " data=" ++
      payload.items.flatMap (fun (b : UInt8) => hexDigits 2 b.toNat) ++
      if payload.items.length < totalLen.toNat then
        ascii s!" (+{totalLen.toNat - payload.items.length} more byte(s), not stored)"
      else []

/-- The rendering is the text, cut to its buffer. -/
theorem scanSeenMfgDataRender_eq (bufLen : Nat) (mfg : Option ScanSeenMfgData) :
    scanSeenMfgDataRender bufLen mfg = (scanSeenMfgText mfg).take (bufLen - 1) := by
  rcases mfg with _ | ⟨_ | companyId, totalLen, payload⟩ <;> rfl

namespace ScanSeenEntry

/-- The name as the line has it. -/
def shownName (entry : ScanSeenEntry) : List UInt8 :=
  if entry.name.str ≠ [] then entry.name.str else ascii "(none advertised)"

/-- The line as `report_scan_seen` formats it, up to the manufacturer data. -/
def lineHead (addrToStr : BtAddr → List UInt8) (entry : ScanSeenEntry) : List UInt8 :=
  ascii "  " ++ addrToStr entry.addr ++ ascii " " ++
    (if entry.connectable then ascii "connectable" else ascii "non-connectable") ++
    ascii " name=" ++ entry.shownName ++ ascii " mfg="

/-- The whole line, with the string `scan_seen_mfg_data_render` left in its buffer. -/
def lineText (addrToStr : BtAddr → List UInt8) (entry : ScanSeenEntry) : List UInt8 :=
  entry.lineHead addrToStr ++ scanSeenMfgDataRender 64 entry.mfg

/-- The line is what the log makes of its text. -/
theorem line_eq (addrToStr : BtAddr → List UInt8) (entry : ScanSeenEntry) :
    entry.line addrToStr = bridgeLog (entry.lineText addrToStr) := rfl

/-- The line is within the log's limit, so that the manufacturer data reaches the sink as it is
rendered, the note on what is not stored included. -/
structure Whole (addrToStr : BtAddr → List UInt8) (entry : ScanSeenEntry) : Prop where
  fits : (entry.lineText addrToStr).length ≤ bleMaxLogLineLen
  reaches : entry.line addrToStr = entry.lineHead addrToStr ++ scanSeenMfgText entry.mfg

/-- How many digits a number of bytes is written with. -/
def byteDigits (n : Nat) : Nat := if n < 10 then 1 else if n < 100 then 2 else 3

/-- The entries whose line is whole: without manufacturer data; with an element too short for a
company, if the peer is connectable or its name has at most 24 bytes; with a payload that is
stored whole; and with a longer one, if the name and the digits of the note leave room. -/
def FitsLine (entry : ScanSeenEntry) : Prop :=
  match entry.mfg with
  | none => True
  | some ⟨none, _, _⟩ => entry.connectable = true ∨ entry.shownName.length ≤ 24
  | some ⟨some _, totalLen, _⟩ =>
    totalLen.toNat ≤ scanSeenMfgPayloadMax ∨
      entry.shownName.length + byteDigits (totalLen.toNat - scanSeenMfgPayloadMax) ≤
        if entry.connectable then 20 else 16

end ScanSeenEntry

/-- The bytes of an address as `bt_addr_le_to_str` has them. -/
def addrDigits (val : Vector UInt8 6) : List UInt8 :=
  List.intercalate (ascii ":") (val.toList.reverse.map fun b => hexDigits 2 b.toNat)

/-- An address is spelt with its bytes and one of two kinds. -/
def SpellsAddr (addrToStr : BtAddr → List UInt8) : Prop :=
  ∀ addr, addrToStr addr = addrDigits addr.val ++ ascii " (random)" ∨
    addrToStr addr = addrDigits addr.val ++ ascii " (public)"

/-- `bt_addr_le_to_str`, for an address of either kind. -/
def btAddrLeToStr (addr : BtAddr) : List UInt8 :=
  addrDigits addr.val ++
    if addr.type = btAddrLeRandom then ascii " (random)" else ascii " (public)"

/-- An address is spelled so. -/
theorem spellsAddr_btAddrLeToStr : SpellsAddr btAddrLeToStr := by
  intro addr
  rw [btAddrLeToStr]
  split
  · exact .inl rfl
  · exact .inr rfl

/-! ## Its length -/

/-- As many digits as asked for. -/
@[simp] theorem length_hexDigits (width n : Nat) : (hexDigits width n).length = width := by
  rw [hexDigits, List.length_map, List.length_reverse, List.length_range]

/-- Six bytes and five colons. -/
theorem length_addrDigits (val : Vector UInt8 6) : (addrDigits val).length = 17 := by
  have hsize : val.toList.length = 6 := Vector.length_toList
  rcases h : val.toList with _ | ⟨a, _ | ⟨b, _ | ⟨c, _ | ⟨d, _ | ⟨e, _ | ⟨f, _ | ⟨g, rest⟩⟩⟩⟩⟩⟩⟩
  all_goals rw [h] at hsize
  case cons.cons.cons.cons.cons.cons.nil =>
    rw [addrDigits, h]
    simp [List.intercalate, ascii]
  all_goals simp at hsize

/-- An address takes as many characters, whatever it is. -/
theorem SpellsAddr.length_eq {addrToStr : BtAddr → List UInt8} (h : SpellsAddr addrToStr)
    (addr : BtAddr) : (addrToStr addr).length = 26 := by
  rcases h addr with h | h
  · rw [h, List.length_append, length_addrDigits]
    rfl
  · rw [h, List.length_append, length_addrDigits]
    rfl

/-- A number takes its digits. -/
theorem length_toString {n : Nat} (h : n < 1000) :
    (toString n).length = ScanSeenEntry.byteDigits n := by
  have hone : (toString n).length ≤ 1 ↔ n < 10 ^ 1 := Nat.length_repr_le_iff (by decide)
  have htwo : (toString n).length ≤ 2 ↔ n < 10 ^ 2 := Nat.length_repr_le_iff (by decide)
  have hthree : (toString n).length ≤ 3 ↔ n < 10 ^ 3 := Nat.length_repr_le_iff (by decide)
  have hpos : 0 < (toString n).length := Nat.length_repr_pos
  rw [ScanSeenEntry.byteDigits]
  split_ifs <;> omega

namespace ScanSeenEntry

/-- A byte has three at most. -/
theorem byteDigits_le (n : Nat) : byteDigits n ≤ 3 := by
  rw [byteDigits]
  split_ifs <;> omega

/-- The manufacturer data of a recorded entry: that of an element with less than two bytes, or
of one with a company and at most 253 bytes behind it, of which up to four are stored. -/
theorem Recorded.mfg_cases {entry : ScanSeenEntry} (h : entry.Recorded) :
    entry.mfg = none ∨
    (∃ totalLen payload, entry.mfg = some ⟨none, totalLen, payload⟩ ∧ totalLen.toNat < 2) ∨
    ∃ companyId totalLen payload, entry.mfg = some ⟨some companyId, totalLen, payload⟩ ∧
      totalLen.toNat ≤ 253 ∧ payload.items.length = min scanSeenMfgPayloadMax totalLen.toNat := by
  cases hmfg : entry.mfg with
  | none => exact .inl rfl
  | some mfg =>
    obtain ⟨⟨data, hfits⟩, hparse⟩ := h mfg hmfg
    rcases data with _ | ⟨lo, _ | ⟨hi, payload⟩⟩
    · obtain rfl := Option.some.inj hparse
      exact .inr (.inl ⟨_, _, rfl, show 0 < 2 by decide⟩)
    · obtain rfl := Option.some.inj hparse
      exact .inr (.inl ⟨_, _, rfl, show 1 < 2 by decide⟩)
    · obtain rfl := Option.some.inj hparse
      simp only [List.length_cons] at hfits
      have htotal : (UInt8.ofNat payload.length).toNat = payload.length :=
        UInt8.toNat_ofNat_of_lt' (show payload.length < 256 by omega)
      refine .inr (.inr ⟨_, _, _, rfl, by omega, ?_⟩)
      rw [htotal]
      exact List.length_take

/-- How long the manufacturer data is rendered. -/
theorem Recorded.length_scanSeenMfgText {entry : ScanSeenEntry} (h : entry.Recorded) :
    (scanSeenMfgText entry.mfg).length =
      match entry.mfg with
      | none => 17
      | some ⟨none, _, _⟩ => 49
      | some ⟨some _, totalLen, _⟩ =>
        if totalLen.toNat ≤ scanSeenMfgPayloadMax then 20 + 2 * totalLen.toNat
        else 57 + byteDigits (totalLen.toNat - scanSeenMfgPayloadMax) := by
  rcases h.mfg_cases with hmfg | ⟨totalLen, payload, hmfg, htotal⟩ |
      ⟨companyId, totalLen, payload, hmfg, htotal, hstored⟩
  · rw [hmfg]
    rfl
  · rw [hmfg]
    have hdigits : (toString totalLen.toNat).length = 1 := by
      rw [length_toString (by omega), byteDigits, if_pos (by omega)]
    simp only [scanSeenMfgText, length_ascii, String.length_append, hdigits]
    rfl
  · rw [hmfg]
    have hpayload : (payload.items.flatMap fun (b : UInt8) => hexDigits 2 b.toNat).length =
        payload.items.length * 2 := by
      simp [List.length_flatMap]
    simp only [scanSeenMfgText, List.length_append, length_hexDigits, hpayload, length_ascii,
      scanSeenMfgPayloadMax] at hstored ⊢
    have hcompany : "company=0x".length = 10 ∧ " data=".length = 6 := ⟨rfl, rfl⟩
    rw [hcompany.1, hcompany.2]
    by_cases hwhole : totalLen.toNat ≤ 4
    · rw [if_neg (by omega), if_pos hwhole, List.length_nil]
      omega
    · rw [if_pos (by omega), if_neg hwhole, length_ascii]
      have hleft : totalLen.toNat - payload.items.length = totalLen.toNat - 4 := by omega
      have hnote : (toString " (+").length = 3 ∧
        (toString " more byte(s), not stored)").length = 26 := ⟨rfl, rfl⟩
      simp only [String.length_append, hleft, length_toString (show totalLen.toNat - 4 < 1000 by
        omega), hnote]
      omega

/-- The buffer `report_scan_seen` has for it is never filled. -/
theorem Recorded.scanSeenMfgDataRender_eq {entry : ScanSeenEntry} (h : entry.Recorded) :
    scanSeenMfgDataRender 64 entry.mfg = scanSeenMfgText entry.mfg := by
  rw [Bridge.scanSeenMfgDataRender_eq]
  apply List.take_of_length_le
  rw [h.length_scanSeenMfgText]
  rcases entry.mfg with _ | ⟨_ | companyId, totalLen, payload⟩
  · exact show 17 ≤ 63 by decide
  · exact show 49 ≤ 63 by decide
  · have hdigits := byteDigits_le (totalLen.toNat - scanSeenMfgPayloadMax)
    simp only [scanSeenMfgPayloadMax] at hdigits ⊢
    split_ifs <;> omega

/-- The parts of the line in front of the manufacturer data. -/
theorem length_lineHead {addrToStr : BtAddr → List UInt8} (haddr : SpellsAddr addrToStr)
    (entry : ScanSeenEntry) :
    (entry.lineHead addrToStr).length =
      40 + (if entry.connectable then 11 else 15) + entry.shownName.length := by
  have hlengths : (ascii "  ").length = 2 ∧ (ascii " ").length = 1 ∧ (ascii " name=").length = 6 ∧
    (ascii " mfg=").length = 5 := ⟨rfl, rfl, rfl, rfl⟩
  have hkind : (if entry.connectable then ascii "connectable" else ascii "non-connectable").length =
      if entry.connectable then 11 else 15 := by
    cases entry.connectable <;> rfl
  simp only [lineHead, List.length_append, haddr.length_eq, hlengths, hkind]
  omega

/-- A name is shown as far as it was kept. -/
theorem length_shownName_le (entry : ScanSeenEntry) :
    entry.shownName.length ≤ bleMaxLocalNameLen := by
  rw [shownName]
  split
  · exact Nat.le_of_lt_succ entry.name.length_str_lt
  · exact show 17 ≤ 26 by decide

/-- A line is whole when all of its parts together are within the limit. -/
theorem Recorded.whole_iff {entry : ScanSeenEntry} (h : entry.Recorded)
    (addrToStr : BtAddr → List UInt8) : entry.Whole addrToStr ↔
      (entry.lineHead addrToStr).length + (scanSeenMfgText entry.mfg).length ≤
        bleMaxLogLineLen := by
  have htext : entry.lineText addrToStr =
      entry.lineHead addrToStr ++ scanSeenMfgText entry.mfg := by
    rw [lineText, h.scanSeenMfgDataRender_eq]
  rw [← List.length_append, ← htext]
  constructor
  · exact Whole.fits
  · intro hfits
    refine ⟨hfits, ?_⟩
    rw [line_eq, bridgeLog, List.take_of_length_le hfits, htext]

/-- **Which lines are cut.** After any scan, whatever the table held before it, the line about an
entry is whole if and only if the entry is one of those that leave room. -/
theorem whole_iff_fitsLine {addrToStr : BtAddr → List UInt8} (haddr : SpellsAddr addrToStr)
    {c : Census} {ads : List Advertisement} {entry : ScanSeenEntry}
    (hentry : entry ∈ (c.clear.recordAll ads).entries) :
    entry.Whole addrToStr ↔ entry.FitsLine := by
  have hrec : entry.Recorded := Census.recorded_recordAll (c := c.clear)
    (fun entry hmem => absurd hmem (c.entries_clear ▸ List.not_mem_nil)) ads entry hentry
  have hname := entry.length_shownName_le
  rw [hrec.whole_iff, length_lineHead haddr, hrec.length_scanSeenMfgText, FitsLine]
  simp only [bleMaxLogLineLen, bleMaxLocalNameLen] at hname ⊢
  rcases entry.mfg with _ | ⟨_ | companyId, totalLen, payload⟩
  · simp only [iff_true]
    split_ifs <;> omega
  · cases entry.connectable <;> simp <;> omega
  · have hdigits := byteDigits_le (totalLen.toNat - scanSeenMfgPayloadMax)
    simp only [scanSeenMfgPayloadMax] at hdigits ⊢
    cases entry.connectable with
    | false =>
      simp only [Bool.false_eq_true, if_false]
      split_ifs <;> omega
    | true =>
      simp only [if_true]
      split_ifs <;> omega

end ScanSeenEntry

/-- A beacon without a name: one advertisement that is not connectable, with five bytes behind a
company. -/
def beacon : Advertisement :=
  ⟨⟨btAddrLeRandom, #v[0x5a, 0x42, 0x31, 0x2c, 0x1d, 0xc0]⟩, 3,
    [⟨btDataManufacturerData, .ofList [0x59, 0, 0xde, 0xad, 0xbe, 0xef, 0]⟩]⟩

/-- The entry of an advertiser with manufacturer data. -/
def beaconEntry : ScanSeenEntry :=
  ⟨beacon.addr, .empty, false, some ⟨some 0x59, 5, .ofList [0xde, 0xad, 0xbe, 0xef]⟩⟩

example : beaconEntry.line btAddrLeToStr =
    ascii "  C0:1D:2C:31:42:5A (random) non-connectable name=(none advertised) " ++
      ascii "mfg=company=0x0059 data=DEADBEEF (+1 more byte(s), not store" := by
  decide +kernel

/-- It is recorded. -/
theorem mem_entries_beacon : beaconEntry ∈ (Census.zero.clear.recordAll [beacon]).entries := by
  decide +kernel

/-- Its line is whole exactly when it fits. -/
theorem ScanSeenEntry.whole_iff_fitsLine_beacon :
    beaconEntry.Whole btAddrLeToStr ↔ beaconEntry.FitsLine :=
  ScanSeenEntry.whole_iff_fitsLine spellsAddr_btAddrLeToStr mem_entries_beacon

/-- The note on the beacon's fifth byte loses its end. -/
theorem not_whole_beacon : ¬ ∀ ads, ∀ entry ∈ (Census.zero.clear.recordAll ads).entries,
    entry.Whole btAddrLeToStr := by
  intro h
  have hcut := (h [beacon] beaconEntry mem_entries_beacon).reaches
  have hlengths := congrArg List.length hcut
  revert hlengths
  decide +kernel

end DevBench.Bridge
