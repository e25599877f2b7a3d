import Mathlib.Data.List.Induction
import Mathlib.Data.List.Nodup
import DevBench.Core.Counter
import DevBench.Bridge.Census

/-!
# The census of a whole scan

The loops over the table of `Bridge/Census`, as the code counts them, and what the table holds
after any sequence of advertisements: the distinct addresses in the order they were first heard
in, up to the 256th, with which the eight bits of the length start over.
-/

namespace DevBench.Bridge

open DevBench.Core DevBench.Bench DevBench.Wire

/-! ## The lines of the report -/

/-- `BLE_MAX_LOG_LINE_LEN`. -/
abbrev bleMaxLogLineLen : Nat := 128

/-- `%0*X`: the low digits of a number in base sixteen. -/
def hexDigits (width n : Nat) : List UInt8 :=
  (List.range width).reverse.map fun k =>
    let digit := n / 16 ^ k % 16
    UInt8.ofNat (if digit < 10 then '0'.toNat + digit else 'A'.toNat + (digit - 10))

/-- `scan_seen_mfg_data_render`: the string it leaves in the buffer. A piece that does not fit
fills the buffer to its end, and nothing follows it. -/
def scanSeenMfgDataRender (bufLen : Nat) (mfg : Option ScanSeenMfgData) : List UInt8 :=
  let text := match mfg with
    | none => ascii "(none advertised)"
    | some ⟨none, totalLen, _⟩ =>
      ascii s!"(malformed: {totalLen.toNat} byte(s), shorter than a company ID)"
    | some ⟨some companyId, totalLen, payload⟩ =>
      ascii "company=0x" ++ hexDigits 4 companyId.toNat ++ ascii " data=" ++
        payload.items.flatMap (fun (b : UInt8) => hexDigits 2 b.toNat) ++
        if payload.items.length < totalLen.toNat then
          ascii s!" (+{totalLen.toNat - payload.items.length} more byte(s), not stored)"
        else []
  text.take (bufLen - 1)

/-- `bridge_log` with a sink: the line is cut to what the link takes. -/
def bridgeLog (line : List UInt8) : List UInt8 := line.take bleMaxLogLineLen

/-- The line of `report_scan_seen` about one advertiser; the text of an address is the host's. -/
def ScanSeenEntry.line (addrToStr : BtAddr → List UInt8) (entry : ScanSeenEntry) : List UInt8 :=
  bridgeLog (ascii "  " ++ addrToStr entry.addr ++ ascii " " ++
    (if entry.connectable then ascii "connectable" else ascii "non-connectable") ++
    ascii " name=" ++ (if entry.name.str ≠ [] then entry.name.str else ascii "(none advertised)") ++
    ascii " mfg=" ++ scanSeenMfgDataRender 64 entry.mfg)

namespace Census

/-- The line of `report_scan_seen` in front of the others. -/
def headline (c : Census) : List UInt8 :=
  bridgeLog (ascii s!"scan saw {c.len.toNat} advertiser(s)" ++
    (if c.overflowed then ascii " (more than this firmware records)" else []) ++ ascii ":")

/-! ## The loops -/

/-- `scan_seen[i]`: a counter of eight bits stays inside the table. -/
def place (c : Census) (i : UInt8) : ScanSeenEntry := c.seen.get i.toFin

/-- The loop of `scan_seen_entry_for`, left with the place of the address. -/
def lookupLoop (c : Census) (addr : BtAddr) (fuel : Nat) : Option (Except UInt8 Unit) :=
  countUp (fun i _ => if (c.place i).addr = addr then .error i else .ok ()) c.len fuel 0 ()

/-- The loop of `scan_seen_named_count`, with its counter of eight bits. -/
def namedCountLoop (c : Census) (fuel : Nat) : Option (Except Empty UInt8) :=
  countUp (fun i named => .ok (if (c.place i).name.str ≠ [] then named + 1 else named))
    c.len fuel 0 0

/-- The loop of `report_scan_seen`, with the lines given to the sink. -/
def reportLoop (c : Census) (addrToStr : BtAddr → List UInt8) (fuel : Nat) :
    Option (Except Empty (List (List UInt8))) :=
  countUp (fun i lines => .ok (lines ++ [(c.place i).line addrToStr])) c.len fuel 0 [c.headline]

/-- The entries in use are counted. -/
@[simp] theorem length_entries (c : Census) : c.entries.length = c.len.toNat := by
  have h := c.len.toNat_lt
  simp only [entries, List.length_take, Vector.length_toList, scanSeenMax]
  omega

/-- An index below the count names one of them. -/
theorem place_eq_getElem (c : Census) (i : UInt8) (h : i.toNat < c.entries.length) :
    c.place i = c.entries[i.toNat] := by
  simp only [place, entries, List.getElem_take, Vector.getElem_toList]
  rfl

/-- How a search ends: left at the place found, or run to the end of the table. -/
def searchEnd {α : Type} : Option (α × Nat) → Except UInt8 Unit
  | some (_, i) => .error (UInt8.ofNat i)
  | none => .ok ()

/-- Leaving a search at the first place that satisfies it is finding that place. -/
theorem foldlM_find {α : Type} (p : α → Prop) [DecidablePred p] (table : List (α × Nat)) :
    table.foldlM (m := Except UInt8)
        (fun _ x => if p x.1 then .error (UInt8.ofNat x.2) else .ok ()) () =
      searchEnd (table.find? (fun x => p x.1)) := by
  induction table with
  | nil => rfl
  | cons x table ih =>
    by_cases h : p x.1
    · simp only [List.foldlM_cons, h, if_true, List.find?_cons, decide_true]
      rfl
    · simp only [List.foldlM_cons, h, if_false, List.find?_cons, decide_false]
      exact ih

/-- The search of the code ends, where `entryFor` finds the address or behind the last place. -/
theorem lookupLoop_eq (c : Census) (addr : BtAddr) {fuel : Nat} (hfuel : c.len.toNat < fuel) :
    c.lookupLoop addr fuel = some (searchEnd (c.entries.zipIdx.find? (·.1.addr = addr))) := by
  rw [lookupLoop, countUp_eq_foldlM
    (fun x _ => if x.1.addr = addr then .error (UInt8.ofNat x.2) else .ok ())
    c.length_entries.symm
    (fun i h s => by rw [c.place_eq_getElem i h, UInt8.ofNat_toNat]) (by simpa using hfuel)]
  exact congrArg some (foldlM_find (fun entry => entry.addr = addr) c.entries.zipIdx)

/-- A loop over the table that is never left early ends with the fold over the entries. -/
theorem countUp_entries {σ : Type} (c : Census) (f : σ → ScanSeenEntry → σ) {fuel : Nat}
    (hfuel : c.len.toNat < fuel) (s : σ) :
    countUp (ρ := Empty) (fun i s => .ok (f s (c.place i))) c.len fuel 0 s =
      some (.ok (c.entries.foldl f s)) := by
  apply countUp_eq_foldl f c.length_entries.symm
  · intro i h s
    rw [c.place_eq_getElem i h]
  · rwa [length_entries]

/-- The count of the code ends, and its eight bits are enough for the entries counted. -/
theorem namedCountLoop_eq (c : Census) {fuel : Nat} (hfuel : c.len.toNat < fuel) :
    ∃ named, c.namedCountLoop fuel = some (.ok named) ∧ named.toNat = c.namedCount := by
  have hcount : ∀ (entries : List ScanSeenEntry) (named : UInt8),
      named.toNat + entries.length < 256 →
      (entries.foldl (fun named entry => if entry.name.str ≠ [] then named + 1 else named)
        named).toNat = named.toNat + (entries.filter (·.name.str ≠ [])).length := by
    intro entries
    induction entries with
    | nil => intro named h; rfl
    | cons entry entries ih =>
      intro named h
      rw [List.length_cons] at h
      by_cases hname : entry.name.str ≠ []
      · have hnext : (named + 1).toNat = named.toNat + 1 := by
          rw [UInt8.toNat_add, UInt8.toNat_one]
          exact Nat.mod_eq_of_lt (by omega)
        rw [List.foldl_cons, if_pos hname, ih (named + 1) (by omega), hnext,
          List.filter_cons_of_pos (by simpa using hname), List.length_cons]
        omega
      · rw [List.foldl_cons, if_neg hname, ih named (by omega),
          List.filter_cons_of_neg (by simpa using hname)]
  refine ⟨_, c.countUp_entries
    (fun named entry => if entry.name.str ≠ [] then named + 1 else named) hfuel 0, ?_⟩
  have hlt := c.len.toNat_lt
  rw [hcount c.entries 0 (by simpa using hlt), namedCount]
  simp

/-- The report ends, with one line for each entry behind the first one. -/
theorem reportLoop_eq (c : Census) (addrToStr : BtAddr → List UInt8) {fuel : Nat}
    (hfuel : c.len.toNat < fuel) :
    c.reportLoop addrToStr fuel =
      some (.ok (c.headline :: c.entries.map (·.line addrToStr))) := by
  have hlines : ∀ (entries : List ScanSeenEntry) (lines : List (List UInt8)),
      entries.foldl (fun lines entry => lines ++ [entry.line addrToStr]) lines =
        lines ++ entries.map (·.line addrToStr) := by
    intro entries
    induction entries with
    | nil => intro lines; simp
    | cons entry entries ih => intro lines; rw [List.foldl_cons, ih]; simp
  rw [reportLoop, c.countUp_entries (fun lines entry => lines ++ [entry.line addrToStr]) hfuel,
    hlines]
  rfl

/-! ## One call -/

/-- The addresses recorded, in the order of the table. -/
def keys (c : Census) : List BtAddr := c.entries.map (·.addr)

/-- Each has an address. -/
@[simp] theorem length_keys (c : Census) : c.keys.length = c.len.toNat := by
  rw [keys, List.length_map, length_entries]

/-- An entry is written in its place. -/
theorem entries_write (c : Census) (i : Nat) (entry : ScanSeenEntry) :
    (c.write i entry).entries = c.entries.set i entry := by
  simp only [entries, write, Vector.toList_setIfInBounds, List.take_set]

/-- A census that starts over has none. -/
@[simp] theorem entries_clear (c : Census) : c.clear.entries = [] := rfl

/-- A search for an address that is recorded finds its first place. -/
theorem find_zipIdx {addr : BtAddr} (table : List ScanSeenEntry) (k : Nat)
    (h : addr ∈ table.map (·.addr)) :
    ∃ entry, (table.zipIdx k).find? (·.1.addr = addr) =
        some (entry, k + (table.map (·.addr)).idxOf addr) ∧
      table[(table.map (·.addr)).idxOf addr]? = some entry ∧ entry.addr = addr := by
  induction table generalizing k with
  | nil => cases h
  | cons entry table ih =>
    by_cases heq : entry.addr = addr
    · exact ⟨entry, by simp [heq], by simp [heq], heq⟩
    · obtain ⟨found, hfind, hget, haddr⟩ := ih (k + 1) (by
        rcases List.mem_cons.mp h with h | h
        · exact absurd h.symm heq
        · exact h)
      refine ⟨found, ?_, ?_, haddr⟩
      · rw [List.zipIdx_cons, List.find?_cons_of_neg (by simpa using heq), hfind, List.map_cons,
          List.idxOf_cons_ne _ heq]
        simp only [Option.some.injEq, Prod.mk.injEq, true_and]
        omega
      · rw [List.map_cons, List.idxOf_cons_ne _ heq, List.getElem?_cons_succ]
        exact hget

/-- A recorded address gets its place, and the call changes nothing. -/
theorem entryFor_of_mem {c : Census} {addr : BtAddr} (h : addr ∈ c.keys) :
    ∃ entry, c.entryFor addr = (some (c.keys.idxOf addr, entry), c) ∧
      c.entries[c.keys.idxOf addr]? = some entry ∧ entry.addr = addr := by
  obtain ⟨entry, hfind, hget, haddr⟩ := find_zipIdx c.entries 0 h
  refine ⟨entry, ?_, hget, haddr⟩
  rw [entryFor, hfind, Nat.zero_add]
  rfl

/-- An address that is not recorded is put behind the others, while the length is short of
starting over. -/
theorem entryFor_of_notMem {c : Census} {addr : BtAddr} (h : addr ∉ c.keys)
    (hlen : c.len.toNat + 1 < scanSeenMax) :
    (c.entryFor addr).1 = some (c.len.toNat, .fresh addr) ∧
      (c.entryFor addr).2.entries = c.entries ++ [.fresh addr] ∧
      (c.entryFor addr).2.overflowed = c.overflowed := by
  have hfind : c.entries.zipIdx.find? (·.1.addr = addr) = none := by
    rw [List.find?_eq_none]
    intro x hx heq
    exact h (List.mem_map.mpr ⟨x.1, List.fst_mem_of_mem_zipIdx hx, by simpa using heq⟩)
  have hnext : (c.len + 1).toNat = c.len.toNat + 1 := by
    rw [UInt8.toNat_add, UInt8.toNat_one]
    exact Nat.mod_eq_of_lt (by simpa using hlen)
  rw [entryFor, hfind]
  simp only [scanSeenMax] at hlen
  simp only [if_neg (show ¬ scanSeenMax ≤ c.len.toNat by simp only [scanSeenMax]; omega), true_and]
  simp only [entries, write, Vector.toList_setIfInBounds, hnext]
  have hlt : c.len.toNat < (c.seen.toList.set c.len.toNat (.fresh addr)).length := by
    simp only [List.length_set, Vector.length_toList, scanSeenMax]
    omega
  rw [List.take_succ_eq_append_getElem hlt, List.take_set_of_le (Nat.le_refl _),
    List.getElem_set_self]
  exact ⟨rfl, trivial⟩

/-- A length of eight bits grows by one at most. -/
theorem toNat_add_one_le (n : UInt8) : (n + 1).toNat ≤ n.toNat + 1 := by
  rw [UInt8.toNat_add]
  exact Nat.mod_le _ _

/-! ## What holds of every entry -/

section EveryEntry

variable {P : ScanSeenEntry → Prop} {c : Census}

/-- What holds of all entries holds still when it holds of the new one. -/
theorem forall_mem_write (h : ∀ entry ∈ c.entries, P entry) (i : Nat) {entry : ScanSeenEntry}
    (hentry : P entry) : ∀ entry' ∈ (c.write i entry).entries, P entry' := by
  intro entry' hmem
  rw [entries_write] at hmem
  rcases List.mem_or_eq_of_mem_set hmem with hmem | rfl
  · exact h entry' hmem
  · exact hentry

/-- The entry an address is found at or inserted with is its own. -/
theorem forall_mem_entryFor (h : ∀ entry ∈ c.entries, P entry) {addr : BtAddr}
    (hfresh : P (.fresh addr)) :
    (∀ place ∈ (c.entryFor addr).1, place.2.addr = addr ∧ P place.2) ∧
      ∀ entry ∈ (c.entryFor addr).2.entries, P entry := by
  rw [entryFor]
  split
  · next entry i hfound =>
    refine ⟨fun place hplace => ?_, h⟩
    obtain rfl := Option.some.inj hplace
    refine ⟨of_decide_eq_true (List.find?_some hfound :), h entry ?_⟩
    exact List.fst_mem_of_mem_zipIdx (List.mem_of_find?_eq_some hfound)
  · split
    · exact ⟨nofun, h⟩
    · next hlen =>
      refine ⟨fun place hplace => ?_, fun entry hmem => ?_⟩
      · obtain rfl := Option.some.inj hplace
        exact ⟨rfl, hfresh⟩
      · -- behind the last place but one the length starts over, and fewer entries are counted
        have hmem' : entry ∈ (c.seen.toList.set c.len.toNat (.fresh addr)).take
            (c.len.toNat + 1) := by
          rw [entries, write, Vector.toList_setIfInBounds] at hmem
          exact List.take_subset_take_left _ (toNat_add_one_le c.len) hmem
        have hlt : c.len.toNat < (c.seen.toList.set c.len.toNat (.fresh addr)).length := by
          rw [List.length_set, Vector.length_toList]
          exact c.len.toNat_lt
        rw [List.take_succ_eq_append_getElem hlt, List.take_set_of_le (Nat.le_refl _),
          List.getElem_set_self, List.mem_append, List.mem_singleton] at hmem'
        rcases hmem' with hold | rfl
        · exact h entry hold
        · exact hfresh

/-- What an element leaves alone, and a connectable advertisement too, holds after any
advertisement of an address. -/
theorem forall_mem_record (h : ∀ entry ∈ c.entries, P entry) {addr : BtAddr}
    (hfresh : P (.fresh addr)) (hstep : ∀ entry d, P entry → P (scanSeenAdRecord entry d))
    (hconnectable : ∀ entry connectable, P entry → P { entry with connectable })
    (advType : UInt8) (elements : List BtData) :
    ∀ entry ∈ (c.record addr advType elements).2.entries, P entry := by
  obtain ⟨hplace, hcensus⟩ := forall_mem_entryFor h hfresh
  rw [record]
  split
  · next c' heq =>
    rw [heq] at hcensus
    exact hcensus
  · next i entry c' heq =>
    rw [heq] at hplace hcensus
    have hfold : ∀ entry, P entry → P (elements.foldl scanSeenAdRecord entry) := by
      induction elements with
      | nil => exact fun _ hentry => hentry
      | cons d elements ih => exact fun entry hentry => ih _ (hstep entry d hentry)
    exact forall_mem_write hcensus i (hconnectable _ _ (hfold entry (hplace (i, entry) rfl).2))

end EveryEntry

/-! ## A whole scan -/

end Census

/-- A call of `scan_seen_entry_for`, and what its caller then makes of the entry it got: anything
that leaves the address alone. -/
structure Sighting where
  addr : BtAddr
  fill : ScanSeenEntry → ScanSeenEntry
  addr_fill : ∀ entry, (fill entry).addr = entry.addr

namespace Census

/-- The call, and the caller's writes to the entry. -/
def hear (c : Census) (s : Sighting) : Census :=
  match c.entryFor s.addr with
  | (none, c) => c
  | (some (i, entry), c) => c.write i (s.fill entry)

/-- The calls of a scan, in order. -/
def hearAll (c : Census) (calls : List Sighting) : Census := calls.foldl hear c

/-- The place in the table the next call gets, none for a null pointer. -/
def placeFor (c : Census) (addr : BtAddr) : Option Nat := (c.entryFor addr).1.map Prod.fst

/-- No element of an advertisement changes whose entry it is. -/
theorem scanSeenAdRecord_addr (entry : ScanSeenEntry) (d : BtData) :
    (scanSeenAdRecord entry d).addr = entry.addr := by
  unfold scanSeenAdRecord
  split_ifs <;> rfl

/-- A report does not change whose entry it is. -/
theorem foldl_scanSeenAdRecord_addr (elements : List BtData) (entry : ScanSeenEntry) :
    (elements.foldl scanSeenAdRecord entry).addr = entry.addr := by
  induction elements generalizing entry with
  | nil => rfl
  | cons d elements ih => rw [List.foldl_cons, ih, scanSeenAdRecord_addr]

/-- What `scan_cb` does with an advertisement is such a call. -/
theorem record_eq_hear (c : Census) (addr : BtAddr) (advType : UInt8) (elements : List BtData) :
    ∃ s : Sighting, s.addr = addr ∧ (c.record addr advType elements).2 = c.hear s := by
  refine ⟨⟨addr, fun entry =>
    { elements.foldl scanSeenAdRecord entry with
      connectable := (elements.foldl scanSeenAdRecord entry).connectable ||
        advType == btGapAdvTypeAdvInd || advType == btGapAdvTypeAdvDirectInd },
    fun entry => foldl_scanSeenAdRecord_addr elements entry⟩, rfl, ?_⟩
  unfold record hear
  rcases c.entryFor addr with ⟨_ | ⟨i, entry⟩, c'⟩ <;> rfl

/-- Writing over an entry with the same address keeps the addresses. -/
theorem keys_write {c : Census} {i : Nat} {entry entry' : ScanSeenEntry}
    (hget : c.entries[i]? = some entry) (haddr : entry'.addr = entry.addr) :
    (c.write i entry').keys = c.keys := by
  rw [keys, keys, entries_write, List.map_set, haddr]
  obtain ⟨hlt, heq⟩ := List.getElem?_eq_some_iff.mp hget
  have hlt' : i < (c.entries.map (·.addr)).length := by rwa [List.length_map]
  have hmap : entry.addr = (c.entries.map (·.addr))[i] := by rw [List.getElem_map, heq]
  rw [hmap, List.set_getElem_self]

/-- A call adds its address behind the others unless it is recorded, as long as the length does
not start over. -/
theorem hear_keys {c : Census} {s : Sighting}
    (hlen : s.addr ∉ c.keys → c.len.toNat + 1 < scanSeenMax) :
    (c.hear s).keys = (if s.addr ∈ c.keys then c.keys else c.keys ++ [s.addr]) ∧
      (c.hear s).overflowed = c.overflowed := by
  by_cases h : s.addr ∈ c.keys
  · obtain ⟨entry, heq, hget, _⟩ := entryFor_of_mem h
    have hhear : c.hear s = c.write (c.keys.idxOf s.addr) (s.fill entry) := by
      rw [hear, heq]
    rw [hhear, if_pos h]
    exact ⟨keys_write hget (s.addr_fill entry), rfl⟩
  · obtain ⟨hplace, hentries, hover⟩ := entryFor_of_notMem h (hlen h)
    have hhear : c.hear s =
        (c.entryFor s.addr).2.write c.len.toNat (s.fill (.fresh s.addr)) := by
      rw [hear]
      rcases hf : c.entryFor s.addr with ⟨_ | ⟨i, entry⟩, c'⟩
      · rw [hf] at hplace
        cases hplace
      · rw [hf] at hplace
        cases hplace
        rfl
    have hget : (c.entryFor s.addr).2.entries[c.len.toNat]? = some (.fresh s.addr) := by
      rw [hentries, List.getElem?_append_right (by simp)]
      simp
    rw [hhear, if_neg h, keys_write hget (s.addr_fill _)]
    refine ⟨?_, hover⟩
    rw [keys, hentries, List.map_append]
    rfl

/-- An address that came before is not new. -/
theorem eraseDups_concat (addrs : List BtAddr) (addr : BtAddr) :
    (addrs ++ [addr]).eraseDups =
      if addr ∈ addrs.eraseDups then addrs.eraseDups else addrs.eraseDups ++ [addr] := by
  rw [List.eraseDups_append]
  by_cases h : addr ∈ addrs
  · simp [h, List.removeAll]
  · have hone : [addr].eraseDups = [addr] := rfl
    simp [h, List.removeAll, hone]

/-- No address is counted twice. -/
theorem nodup_eraseDups (addrs : List BtAddr) : addrs.eraseDups.Nodup := by
  induction addrs using List.reverseRecOn with
  | nil => exact List.nodup_nil
  | append_singleton addrs addr ih =>
    rw [eraseDups_concat]
    split_ifs with h
    · exact ih
    · exact List.nodup_append.mpr ⟨ih, List.nodup_singleton _, fun a ha b hb hab =>
        h (List.mem_singleton.mp hb ▸ hab ▸ ha)⟩

/-- Where none came twice all count. -/
theorem eraseDups_of_nodup {addrs : List BtAddr} (h : addrs.Nodup) : addrs.eraseDups = addrs := by
  induction addrs using List.reverseRecOn with
  | nil => rfl
  | append_singleton addrs addr ih =>
    obtain ⟨haddrs, _, hnew⟩ := List.nodup_append.mp h
    rw [eraseDups_concat, ih haddrs, if_neg]
    exact fun hmem => hnew addr hmem addr (List.mem_singleton_self addr) rfl

/-- More calls have no fewer addresses. -/
theorem length_eraseDups_le_append (addrs more : List BtAddr) :
    addrs.eraseDups.length ≤ (addrs ++ more).eraseDups.length := by
  rw [List.eraseDups_append, List.length_append]
  exact Nat.le_add_right _ _

/-- The addresses of a scan's calls. -/
def heard (calls : List Sighting) : List BtAddr := calls.map (·.addr)

/-- The addresses of one list of calls behind those of another. -/
@[simp] theorem heard_append (calls more : List Sighting) :
    heard (calls ++ more) = heard calls ++ heard more := List.map_append

/-- What the table holds while the length has not started over: the distinct addresses heard,
in the order they were first heard in. -/
structure Records (c : Census) (calls : List Sighting) : Prop where
  keys : c.keys = (heard calls).eraseDups
  overflowed : c.overflowed = false

/-- A new address still has a place when the calls to come leave fewer than 256. -/
theorem Records.room {c : Census} {before after : List Sighting} {s : Sighting}
    (hrec : c.Records before)
    (hd : (heard (before ++ s :: after)).eraseDups.length < scanSeenMax)
    (h : s.addr ∉ c.keys) : c.len.toNat + 1 < scanSeenMax := by
  have hall : heard (before ++ s :: after) = (heard before ++ [s.addr]) ++ heard after := by
    simp [heard]
  have hle := length_eraseDups_le_append (heard before ++ [s.addr]) (heard after)
  rw [eraseDups_concat, ← hrec.keys, if_neg h, List.length_append, length_keys] at hle
  rw [hall] at hd
  exact Nat.lt_of_le_of_lt hle hd

/-- Nor have they earlier fewer than later. -/
theorem length_eraseDups_before_le (before after : List Sighting) :
    (heard before).eraseDups.length ≤ (heard (before ++ after)).eraseDups.length := by
  rw [heard_append]
  exact length_eraseDups_le_append _ _

/-- From an empty table, every sequence of calls with fewer than 256 distinct addresses records
them all. -/
theorem hearAll_records {c : Census} (hc : c.Records []) (calls : List Sighting)
    (hd : (heard calls).eraseDups.length < scanSeenMax) : (c.hearAll calls).Records calls := by
  induction calls using List.reverseRecOn with
  | nil => exact hc
  | append_singleton calls s ih =>
    have hrec := ih (Nat.lt_of_le_of_lt (length_eraseDups_before_le calls [s]) hd)
    obtain ⟨hkeys, hover⟩ := hear_keys (hrec.room hd)
    have hsnoc : c.hearAll (calls ++ [s]) = (c.hearAll calls).hear s := by
      rw [hearAll, List.foldl_append]
      rfl
    constructor
    · rw [hsnoc, hkeys, hrec.keys, heard_append]
      exact (eraseDups_concat _ _).symm
    · rw [hsnoc, hover, hrec.overflowed]

/-- A census that starts over has recorded nothing. -/
theorem records_clear (c : Census) : c.clear.Records [] := by
  constructor
  · rw [keys, entries, clear]
    rfl
  · rfl

/-- The place a call gets is that of its address among all the addresses of the scan. -/
theorem placeFor_eq {c : Census} {before after : List Sighting} {s : Sighting}
    (hc : c.Records []) (hd : (heard (before ++ s :: after)).eraseDups.length < scanSeenMax) :
    (c.hearAll before).placeFor s.addr =
      some ((heard (before ++ s :: after)).eraseDups.idxOf s.addr) := by
  have hall : heard (before ++ s :: after) = (heard before ++ [s.addr]) ++ heard after := by
    simp [heard]
  have hrec := hearAll_records hc before
    (Nat.lt_of_le_of_lt (length_eraseDups_before_le before (s :: after)) hd)
  have hmem : s.addr ∈ (heard before ++ [s.addr]).eraseDups := by simp
  rw [hall, List.eraseDups_append, List.idxOf_append_of_mem hmem, eraseDups_concat, ← hrec.keys]
  by_cases h : s.addr ∈ (c.hearAll before).keys
  · obtain ⟨entry, heq, _⟩ := entryFor_of_mem h
    rw [placeFor, heq, if_pos h]
    rfl
  · rw [placeFor, (entryFor_of_notMem h (hrec.room hd h)).1, if_neg h,
      List.idxOf_append_of_notMem h]
    simp

/-- What the census promises of a scan's calls: the first 256 distinct addresses are recorded in
the order they were first heard in, once each; an address heard again gets the entry it got
first; no call writes to an entry that is recorded; the overflow is flagged exactly when there
were more addresses than places; and the loops over the table end. -/
structure Keeps (start : Census) (calls : List Sighting) : Prop where
  recorded : (start.hearAll calls).keys = (heard calls).eraseDups.take scanSeenMax
  nodup : (start.hearAll calls).keys.Nodup
  same_place : ∀ before first between again after,
    calls = before ++ first :: between ++ again :: after → again.addr = first.addr →
    (start.hearAll (before ++ first :: between)).placeFor again.addr =
      (start.hearAll before).placeFor first.addr
  kept : ∀ before s after, calls = before ++ s :: after →
    (start.hearAll before).entries <+: ((start.hearAll before).entryFor s.addr).2.entries
  overflowed : (start.hearAll calls).overflowed = true ↔
    scanSeenMax < (heard calls).eraseDups.length
  lookup_ends : ∀ addr, ∃ fuel, ((start.hearAll calls).lookupLoop addr fuel).isSome
  namedCount_ends : ∃ fuel, ((start.hearAll calls).namedCountLoop fuel).isSome
  report_ends : ∀ addrToStr, ∃ fuel, ((start.hearAll calls).reportLoop addrToStr fuel).isSome

/-- A call keeps the entries recorded while the length does not start over. -/
theorem entries_prefix_entryFor {c : Census} {addr : BtAddr}
    (hlen : addr ∉ c.keys → c.len.toNat + 1 < scanSeenMax) :
    c.entries <+: (c.entryFor addr).2.entries := by
  by_cases h : addr ∈ c.keys
  · obtain ⟨entry, heq, _⟩ := entryFor_of_mem h
    have hsame : (c.entryFor addr).2.entries = c.entries := congrArg (fun r => r.2.entries) heq
    exact hsame ▸ List.prefix_rfl
  · rw [(entryFor_of_notMem h (hlen h)).2.1]
    exact List.prefix_append _ _

/-- The census keeps what it promises of every scan with fewer than 256 distinct addresses. -/
theorem keeps_of_lt (c : Census) {calls : List Sighting}
    (hd : (heard calls).eraseDups.length < scanSeenMax) : c.clear.Keeps calls := by
  have hc := c.records_clear
  have hrec := hearAll_records hc calls hd
  constructor
  · rw [hrec.keys, List.take_of_length_le (Nat.le_of_lt hd)]
  · rw [hrec.keys]
    exact nodup_eraseDups _
  · intro before first between again after heq haddr
    have hfirst : calls = before ++ first :: (between ++ again :: after) := by simpa using heq
    rw [placeFor_eq hc (heq ▸ hd), placeFor_eq hc (hfirst ▸ hd), ← heq, ← hfirst, haddr]
  · intro before s after heq
    have hle := length_eraseDups_before_le before (s :: after)
    have hbefore := hearAll_records hc before (Nat.lt_of_le_of_lt hle (heq ▸ hd))
    exact entries_prefix_entryFor (hbefore.room (heq ▸ hd))
  · rw [hrec.overflowed]
    constructor
    · intro h
      cases h
    · intro h
      exact absurd hd (by omega)
  · intro addr
    exact ⟨_, by rw [lookupLoop_eq _ _ (Nat.lt_succ_self _)]; rfl⟩
  · obtain ⟨named, h, _⟩ := (c.clear.hearAll calls).namedCountLoop_eq (Nat.lt_succ_self _)
    exact ⟨_, by rw [h]; rfl⟩
  · intro addrToStr
    exact ⟨_, by rw [reportLoop_eq _ _ (Nat.lt_succ_self _)]; rfl⟩

/-- With 256 distinct addresses no table of a length of eight bits records them. -/
theorem not_keeps_of_le {c : Census} {calls : List Sighting}
    (hd : scanSeenMax ≤ (heard calls).eraseDups.length) : ¬ c.Keeps calls := by
  intro h
  have hlen := congrArg List.length h.recorded
  rw [length_keys, List.length_take, Nat.min_eq_left hd] at hlen
  have hlt := (c.hearAll calls).len.toNat_lt
  simp only [scanSeenMax] at hlen
  omega

/-- **The census keeps its promise exactly for fewer than 256 distinct addresses.** -/
theorem keeps_iff (c : Census) (calls : List Sighting) :
    c.clear.Keeps calls ↔ (heard calls).eraseDups.length < scanSeenMax := by
  constructor
  · intro h
    by_contra hd
    exact not_keeps_of_le (Nat.le_of_not_lt hd) h
  · exact c.keeps_of_lt

/-- A call whose caller writes nothing, for the public address ending in `k`. -/
def sighting (k : Nat) : Sighting :=
  ⟨⟨btAddrLePublic, #v[UInt8.ofNat k, 0, 0, 0, 0, 0]⟩, id, fun _ => rfl⟩

/-- 256 advertisers, each heard once. -/
def advertisers : List Sighting := (List.range 256).map sighting

/-- With the 256th advertiser the length starts over, and the census no longer holds the first
256 of them. -/
theorem not_keeps_advertisers : ¬ Census.zero.clear.Keeps advertisers := by
  have hfirst : (heard advertisers).map (fun addr => addr.val[0].toNat) = List.range 256 := by
    decide +kernel
  have hdistinct : (heard advertisers).Nodup := by
    apply List.Nodup.of_map
    rw [hfirst]
    exact List.nodup_range
  apply not_keeps_of_le
  rw [eraseDups_of_nodup hdistinct]
  simp [heard, advertisers]

end Census

end DevBench.Bridge
