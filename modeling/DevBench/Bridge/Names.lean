import DevBench.Bridge.Advertisers
import DevBench.Core.Buffers
import DevBench.Core.Fitting

/-!
# The names in a failure's reason

`scan_seen_names_append` with the buffer it is handed, the loop of `scan_seen_names_summary`
over it, and the reason `connect_as_central` puts together: its budget leaves room for
whatever comes before and behind the names, so that nothing of it is ever cut.
-/

namespace DevBench.Bridge

open DevBench.Core DevBench.Core.Buffers DevBench.Bench DevBench.Wire

/-! ## One name -/

/-- The largest `int`, which has 32 bits. -/
abbrev intMax : Nat := 2 ^ 31 - 1

/-- `snprintk`: what it leaves in an array, and the length the whole text has; a length that is
not an `int` is an error. -/
def snprintk {n : Nat} (text : List UInt8) : CharArray (n + 1) × Int :=
  (.copy text, if text.length ≤ intMax then text.length else -1)

/-- `buf` and `*used`. -/
structure NamesBuf where
  buf : List UInt8
  used : Nat
  deriving DecidableEq, Repr

/-- `scan_seen_names_append`, for a buffer of `buf_len` bytes. -/
def NamesBuf.append (s : NamesBuf) (maxLen : Nat) (sep name : List UInt8) :
    Except Fault (Bool × NamesBuf) :=
  let maxLen := min maxLen s.buf.length
  if maxLen < s.used then .ok (false, s)
  else
    let (entry, entryLen) : CharArray (127 + 1) × Int :=
      snprintk (sep ++ ascii "'" ++ name ++ ascii "'")
    if entryLen < 0 ∨ scanSeenNamesEntryMax ≤ entryLen.toNat then .ok (false, s)
    else if maxLen - s.used < entryLen.toNat then .ok (false, s)
    else if s.buf.length < s.used + entryLen.toNat + 1 then .ok (false, s)
    else do
      let buf ← storeAll s.buf s.used (entry.bytes ++ [0])
      return (true, ⟨buf, s.used + entryLen.toNat⟩)

/-- A call that returns false leaves the buffer and the count as they were. -/
theorem NamesBuf.append_false {s s' : NamesBuf} {maxLen : Nat} {sep name : List UInt8}
    (h : s.append maxLen sep name = .ok (false, s')) : s' = s := by
  simp only [NamesBuf.append] at h
  split_ifs at h
  · exact (congrArg Prod.snd (Except.ok.inj h)).symm
  · exact (congrArg Prod.snd (Except.ok.inj h)).symm
  · exact (congrArg Prod.snd (Except.ok.inj h)).symm
  · exact (congrArg Prod.snd (Except.ok.inj h)).symm
  · generalize storeAll s.buf s.used _ = stored at h
    cases stored with
    | error fault => cases h
    | ok buf => cases h

/-- The buffer holds a string of as many bytes as are used. -/
structure NamesBuf.Holds (s : NamesBuf) (text : List UInt8) : Prop where
  buf : ∃ spare, s.buf = text ++ 0 :: spare
  used : s.used = text.length

namespace NamesBuf.Holds

variable {s : NamesBuf} {text : List UInt8}

theorem behind (h : s.Holds text) : Behind s.buf s.used text := by
  obtain ⟨spare, hbuf⟩ := h.buf
  exact ⟨0 :: spare, hbuf, h.used⟩

/-- The string in the buffer. -/
theorem str (h : s.Holds text) (hzero : ∀ b ∈ text, b ≠ 0) :
    s.buf.takeWhile (· ≠ 0) = text := by
  obtain ⟨spare, hbuf⟩ := h.buf
  rw [hbuf, List.takeWhile_append_of_pos (by simpa using hzero)]
  simp

/-- A call on a buffer that holds a string does what the one on lists does, and touches
nothing outside the buffer. -/
theorem append_eq (h : s.Holds text) (maxLen : Nat) (sep name : List UInt8) :
    match scanSeenNamesAppend s.buf.length maxLen text sep name with
    | some text' => ∃ s', s.append maxLen sep name = .ok (true, s') ∧ s'.Holds text' ∧
        s'.buf.length = s.buf.length
    | none => s.append maxLen sep name = .ok (false, s) := by
  obtain ⟨spare, hbuf⟩ := h.buf
  have hused : text.length < s.buf.length := by
    rw [hbuf, List.length_append, List.length_cons]
    omega
  generalize hentry : sep ++ ascii "'" ++ name ++ ascii "'" = entry
  simp only [scanSeenNamesAppend, NamesBuf.append, hentry, h.used]
  by_cases hover : min maxLen s.buf.length < text.length
  · rw [if_pos hover, if_pos hover]
  rw [if_neg hover, if_neg hover]
  by_cases hlong : scanSeenNamesEntryMax ≤ entry.length
  · have hrefused : (snprintk (n := 127) entry).2 < 0 ∨
        scanSeenNamesEntryMax ≤ (snprintk (n := 127) entry).2.toNat := by
      rw [snprintk]
      split
      · exact .inr hlong
      · exact .inl (show (-1 : Int) < 0 by decide)
    rw [if_pos hlong, if_pos hrefused]
  have hshort : entry.length < 128 := Nat.not_le.mp hlong
  have hlen : (snprintk (n := 127) entry).2 = entry.length := by
    rw [snprintk, if_pos (show entry.length ≤ 2 ^ 31 - 1 by omega)]
  have hbytes : (snprintk (n := 127) entry).1.bytes = entry :=
    List.take_of_length_le (by omega)
  have haccepted : ¬ ((entry.length : Int) < 0 ∨ scanSeenNamesEntryMax ≤ entry.length) :=
    not_or.mpr ⟨Int.not_lt.mpr (Int.natCast_nonneg _), hlong⟩
  rw [hlen, hbytes, Int.toNat_natCast, if_neg hlong, if_neg haccepted]
  by_cases hroom : min maxLen s.buf.length - text.length < entry.length
  · rw [if_pos hroom, if_pos hroom]
  rw [if_neg hroom, if_neg hroom]
  by_cases hend : s.buf.length < text.length + entry.length + 1
  · rw [if_pos hend, if_pos hend]
  rw [if_neg hend, if_neg hend]
  have hlength : (entry ++ [0]).length = entry.length + 1 := by simp
  obtain ⟨rest, hstore, hsame⟩ := h.behind.storeAll (entry ++ [0]) (by
    rw [hlength, h.used]
    omega)
  rw [h.used] at hstore
  rw [hstore]
  refine ⟨_, rfl, ⟨⟨rest, ?_⟩, ?_⟩, hsame⟩
  · simp
  · rw [List.length_append]

end NamesBuf.Holds

/-! ## The loop over the table -/

/-- What the loop of `scan_seen_names_summary` does with one entry, its count of names beside the
buffer. It is left with the buffer at the first name that does not fit. -/
def summaryStep (maxLen : Nat) (entry : ScanSeenEntry) (s : NamesBuf × UInt8) :
    Except (Except Fault NamesBuf) (NamesBuf × UInt8) :=
  if entry.name.str = [] then .ok s
  else
    match s.1.append maxLen (if s.2 = 0 then [] else ascii ", ") entry.name.str with
    | .ok (true, buf) => .ok (buf, s.2 + 1)
    | .ok (false, buf) => .error (.ok buf)
    | .error fault => .error (.error fault)

/-- The string the loop returns, and `*truncated`. -/
def summaryEnd : Except (Except Fault NamesBuf) (NamesBuf × UInt8) →
    Except Fault (List UInt8 × Bool)
  | .ok (s, _) => .ok (s.buf.takeWhile (· ≠ 0), false)
  | .error (.ok s) => .ok (s.buf.takeWhile (· ≠ 0), true)
  | .error (.error fault) => .error fault

namespace Census

/-- `scan_seen_names_summary` over its static buffer, which still holds an earlier summary. -/
def scanSeenNamesSummaryInto (c : Census) (maxLen : Nat)
    (summary : Vector UInt8 (outcomeMaxFailReasonLen + 1)) (fuel : Nat) :
    Option (Except Fault (List UInt8 × Bool)) :=
  (countUp (fun i => summaryStep maxLen (c.place i)) c.len fuel 0
    (⟨(summary.set 0 0).toList, 0⟩, 0)).map summaryEnd

/-- The names recorded, in the order of the table. -/
def names (c : Census) : List (List UInt8) :=
  (c.entries.filter (·.name.str ≠ [])).map fun entry => entry.name.str

end Census

/-- What a name that fits is appended as. -/
theorem scanSeenNamesAppend_eq_some {bufLen maxLen : Nat} {buf sep name text : List UInt8}
    (h : scanSeenNamesAppend bufLen maxLen buf sep name = some text) :
    text = buf ++ (sep ++ ascii "'" ++ name ++ ascii "'") := by
  simp only [scanSeenNamesAppend] at h
  split_ifs at h
  exact (Option.some.inj h).symm

/-- A zero byte in what is appended would be in one of its parts. -/
theorem ne_zero_of_mem_append {buf name : List UInt8} (hbuf : ∀ b ∈ buf, b ≠ 0)
    (hname : ∀ b ∈ name, b ≠ 0) (first : Bool) :
    ∀ b ∈ buf ++ ((if first = true then [] else ascii ", ") ++ ascii "'" ++ name ++ ascii "'"),
      b ≠ 0 := by
  have hquote : ∀ b ∈ ascii "'", b ≠ 0 := by simp [ascii]
  have hsep : ∀ b ∈ (if first = true then [] else ascii ", "), b ≠ 0 := by
    cases first <;> simp [ascii]
  intro b hb
  simp only [List.mem_append] at hb
  rcases hb with hb | ((hb | hb) | hb) | hb
  · exact hbuf b hb
  · exact hsep b hb
  · exact hquote b hb
  · exact hname b hb
  · exact hquote b hb

/-- The loop over the entries from one on does what the one on their names does. -/
theorem summaryEnd_foldlM (maxLen : Nat) (entries : List ScanSeenEntry) :
    ∀ (k : Nat) (s : NamesBuf) (text : List UInt8) (named : UInt8) (first : Bool),
      s.Holds text → s.buf.length = outcomeMaxFailReasonLen + 1 → (∀ b ∈ text, b ≠ 0) →
      named.toNat + entries.length < 256 → (named = 0 ↔ first = true) →
        summaryEnd ((entries.zipIdx k).foldlM (fun s x => summaryStep maxLen x.1 s) (s, named)) =
          .ok (scanSeenNamesLoop maxLen text first
            ((entries.filter (·.name.str ≠ [])).map fun entry => entry.name.str)) := by
  induction entries with
  | nil =>
    intro k s text named first hs _ hzero _ _
    exact congrArg (fun text => Except.ok (text, false)) (hs.str hzero)
  | cons entry entries ih =>
    intro k s text named first hs hbuf hzero hfew hfirst
    rw [List.length_cons] at hfew
    rw [List.zipIdx_cons, List.foldlM_cons]
    by_cases hname : entry.name.str = []
    · rw [summaryStep, if_pos hname, List.filter_cons_of_neg (by simpa using hname)]
      exact ih (k + 1) s text named first hs hbuf hzero (by omega) hfirst
    · rw [List.filter_cons_of_pos (by simpa using hname), List.map_cons, scanSeenNamesLoop,
        summaryStep, if_neg hname]
      have hsep : (if named = 0 then [] else ascii ", ") =
          if first = true then [] else ascii ", " := by simp only [hfirst]
      have happend := hs.append_eq maxLen (if first = true then [] else ascii ", ") entry.name.str
      rw [hbuf] at happend
      simp only [hsep]
      cases hfits : scanSeenNamesAppend (outcomeMaxFailReasonLen + 1) maxLen text
          (if first = true then [] else ascii ", ") entry.name.str with
      | none =>
        rw [hfits] at happend
        rw [happend]
        exact congrArg (fun text => Except.ok (text, true)) (hs.str hzero)
      | some text' =>
        rw [hfits] at happend
        obtain ⟨s', hs', hholds, hbuf'⟩ := happend
        rw [hs']
        have hnext : (named + 1).toNat = named.toNat + 1 := by
          rw [UInt8.toNat_add, UInt8.toNat_one]
          omega
        refine ih (k + 1) s' text' (named + 1) false hholds hbuf' ?_ (by omega) ?_
        · rw [scanSeenNamesAppend_eq_some hfits]
          exact ne_zero_of_mem_append hzero entry.name.ne_zero_of_mem_str first
        · have hne : named + 1 ≠ 0 := by
            intro heq
            rw [heq] at hnext
            exact Nat.succ_ne_zero _ hnext.symm
          simp [hne]

/-- The loop ends, and finds the names and the cut that the one on lists does. -/
theorem scanSeenNamesSummaryInto_eq (c : Census) (maxLen : Nat)
    (summary : Vector UInt8 (outcomeMaxFailReasonLen + 1)) {fuel : Nat}
    (hfuel : c.len.toNat < fuel) :
    c.scanSeenNamesSummaryInto maxLen summary fuel =
      some (.ok (scanSeenNamesSummary c maxLen)) := by
  have hlen := c.len.toNat_lt
  have hloop : countUp (fun i => summaryStep maxLen (c.place i)) c.len fuel 0
      (⟨(summary.set 0 0).toList, 0⟩, 0) =
        some (c.entries.zipIdx.foldlM (fun s x => summaryStep maxLen x.1 s)
          (⟨(summary.set 0 0).toList, 0⟩, 0)) :=
    countUp_eq_foldlM (fun x s => summaryStep maxLen x.1 s) c.length_entries.symm
      (fun i h s => by rw [c.place_eq_getElem i h]) (by simpa using hfuel) _
  have hholds : NamesBuf.Holds ⟨(summary.set 0 0).toList, 0⟩ [] := by
    refine ⟨⟨summary.toList.tail, ?_⟩, rfl⟩
    rw [Vector.toList_set]
    have hcons : ∃ b rest, summary.toList = b :: rest :=
      List.exists_cons_of_length_pos (by rw [Vector.length_toList]; decide)
    obtain ⟨b, rest, hcons⟩ := hcons
    rw [hcons]
    rfl
  rw [Census.scanSeenNamesSummaryInto, hloop, Option.map_some,
    summaryEnd_foldlM maxLen c.entries 0 _ [] 0 true hholds (by simp) (by simp)
      (by rw [c.length_entries]; simpa using hlen) (by simp)]
  rfl

/-! ## The names that fit -/

/-- A name as it is listed. -/
def quoted (name : List UInt8) : List UInt8 := ascii "'" ++ name ++ ascii "'"

/-- Names in a list, between commas. -/
def nameList (names : List (List UInt8)) : List UInt8 :=
  List.intercalate (ascii ", ") (names.map quoted)

/-- The pieces a list of names is put together from. -/
def namePieces : Bool → List (List UInt8) → List (List UInt8)
  | _, [] => []
  | first, name :: names =>
    ((if first then [] else ascii ", ") ++ ascii "'" ++ name ++ ascii "'") ::
      namePieces false names

@[simp] theorem length_namePieces (first : Bool) (names : List (List UInt8)) :
    (namePieces first names).length = names.length := by
  induction names generalizing first with
  | nil => rfl
  | cons name names ih => rw [namePieces, List.length_cons, ih, List.length_cons]

theorem take_namePieces (first : Bool) (names : List (List UInt8)) (k : Nat) :
    (namePieces first names).take k = namePieces first (names.take k) := by
  induction names generalizing first k with
  | nil => simp [namePieces]
  | cons name names ih =>
    cases k with
    | zero => rfl
    | succ k => rw [namePieces, List.take_succ_cons, ih, List.take_succ_cons, namePieces]

theorem flatten_namePieces (names : List (List UInt8)) :
    (namePieces true names).flatten = nameList names ∧
      (names ≠ [] → (namePieces false names).flatten = ascii ", " ++ nameList names) := by
  induction names with
  | nil => exact ⟨rfl, fun h => absurd rfl h⟩
  | cons name names ih =>
    have hlist : nameList (name :: names) =
        quoted name ++ (namePieces false names).flatten := by
      by_cases hnames : names = []
      · rw [hnames]
        simp [nameList, namePieces]
      · rw [ih.2 hnames, nameList, List.map_cons,
          List.intercalate_cons_of_ne_nil (by simpa using hnames), nameList]
        simp
    rw [hlist]
    constructor
    · simp [namePieces, quoted]
    · intro _
      simp [namePieces, quoted]

/-- Below the size of the scratch entry and of the buffer only the budget counts. -/
theorem scanSeenNamesLoop_eq_fill {maxLen : Nat} (hmax : maxLen ≤ outcomeMaxFailReasonLen)
    (names : List (List UInt8)) (hshort : ∀ name ∈ names, name.length ≤ bleMaxLocalNameLen) :
    ∀ (summary : List UInt8) (first : Bool), summary.length ≤ maxLen →
      scanSeenNamesLoop maxLen summary first names =
        fill maxLen (namePieces first names) summary := by
  induction names with
  | nil => exact fun _ _ _ => rfl
  | cons name names ih =>
    intro summary first hsummary
    have hname : name.length ≤ 26 := hshort name List.mem_cons_self
    have hentry : ((if first = true then [] else ascii ", ") ++ ascii "'" ++ name ++
        ascii "'").length ≤ 30 := by
      have hsep : (if first = true then [] else ascii ", ").length ≤ 2 := by
        cases first <;> decide
      have hquote : (ascii "'").length = 1 := rfl
      simp only [List.length_append, hquote]
      omega
    simp only [outcomeMaxFailReasonLen] at hmax
    rw [scanSeenNamesLoop, namePieces, fill, scanSeenNamesAppend]
    simp only [outcomeMaxFailReasonLen, scanSeenNamesEntryMax]
    generalize hpiece : (if first = true then [] else ascii ", ") ++ ascii "'" ++ name ++
      ascii "'" = piece at hentry
    rw [if_neg (by omega), if_neg (by omega)]
    by_cases hfits : summary.length + piece.length ≤ maxLen
    · rw [if_neg (by omega), if_neg (by omega), if_pos hfits]
      exact ih (fun name h => hshort name (List.mem_cons_of_mem _ h)) _ false
        (by rw [List.length_append]; exact hfits)
    · rw [if_pos (by omega), if_neg hfits]

/-! ## The reason -/

namespace Census

/-- What `connect_as_central` may spend on the names. -/
def nameBudget (c : Census) : Nat :=
  outcomeMaxFailReasonLen - scanSeenPrefixMaxLen - scanSeenNamesSep.length -
    (scanSeenTruncatedMarker.length + if c.overflowed then scanSeenOverflowMarker.length else 0)

/-- How many of the names are listed. -/
def listedCount (c : Census) : Nat := fitCount c.nameBudget (namePieces true c.names)

/-- `SCAN_SEEN_PREFIX` with its counts. -/
def namesPrefix (c : Census) : List UInt8 :=
  ascii s!"no name match; {c.namedCount}/{c.len.toNat} named"

theorem listedCount_le (c : Census) : c.listedCount ≤ c.names.length :=
  (fitCount_le _ _).trans_eq (length_namePieces true c.names)

/-- The summary lists the names that fit, and is truncated when one is left out. -/
theorem scanSeenNamesSummary_eq (c : Census) : scanSeenNamesSummary c c.nameBudget =
    (nameList (c.names.take c.listedCount), decide (c.listedCount < c.names.length)) := by
  have hbudget : c.nameBudget ≤ outcomeMaxFailReasonLen := by
    rw [nameBudget]
    omega
  have hshort : ∀ name ∈ c.names, name.length ≤ bleMaxLocalNameLen := by
    intro name hname
    obtain ⟨entry, -, rfl⟩ := List.mem_map.mp hname
    exact Nat.le_of_lt_succ entry.name.length_str_lt
  have hloop := scanSeenNamesLoop_eq_fill hbudget c.names hshort [] true (Nat.zero_le _)
  have hnil : ([] : List UInt8).length ≤ c.nameBudget := Nat.zero_le _
  have hfill := fill_eq (namePieces true c.names) hnil
  rw [List.nil_append, List.length_nil, Nat.sub_zero, length_namePieces, take_namePieces] at hfill
  rw [scanSeenNamesSummary, ← names, hloop, hfill, (flatten_namePieces _).1]
  rfl

/-- The names listed are within their budget. -/
theorem length_nameList_le (c : Census) :
    (nameList (c.names.take c.listedCount)).length ≤ c.nameBudget := by
  rw [← (flatten_namePieces _).1, ← take_namePieces]
  exact length_fitting_le c.nameBudget (namePieces true c.names)

/-- Both counts have three digits at most. -/
theorem length_namesPrefix_le (c : Census) : c.namesPrefix.length ≤ scanSeenPrefixMaxLen := by
  have hlen := c.len.toNat_lt
  have hnamed : c.namedCount ≤ c.len.toNat := by
    rw [namedCount, ← c.length_entries]
    exact List.length_filter_le _ _
  have hdigits : ∀ n < 256, (toString n).length ≤ 3 := fun n hn =>
    (Nat.length_repr_le_iff (by decide)).mpr (by omega)
  have hnamedDigits := hdigits c.namedCount (by omega)
  have hlenDigits := hdigits c.len.toNat (by omega)
  have htext : c.namesPrefix.length = 15 + (toString c.namedCount).length + 1 +
      (toString c.len.toNat).length + 6 := by
    rw [namesPrefix, length_ascii]
    simp only [String.length_append]
    rfl
  have hmax : scanSeenPrefixMaxLen = 28 := rfl
  omega

/-- Something is listed when a name fits. -/
theorem nameList_take_eq_nil_iff (c : Census) :
    nameList (c.names.take c.listedCount) = [] ↔ c.listedCount = 0 := by
  constructor
  · intro hnil
    by_contra hne
    obtain ⟨name, rest, hcons⟩ : ∃ name rest, c.names.take c.listedCount = name :: rest := by
      apply List.exists_cons_of_length_pos
      have hle := c.listedCount_le
      rw [List.length_take]
      omega
    rw [hcons, ← (flatten_namePieces _).1] at hnil
    simp [namePieces, ascii] at hnil
  · intro hzero
    rw [hzero]
    rfl

/-- The reason, put together: what is listed follows a separator, and a marker follows for names
left out and for an overflow. -/
theorem noNameMatch_eq (c : Census) :
    noNameMatch c = c.namesPrefix ++
      (if c.listedCount = 0 then [] else
        scanSeenNamesSep ++ nameList (c.names.take c.listedCount)) ++
      (if c.listedCount < c.names.length then scanSeenTruncatedMarker else []) ++
      (if c.overflowed then scanSeenOverflowMarker else []) := by
  have hsummary := c.scanSeenNamesSummary_eq
  rw [nameBudget] at hsummary
  rw [noNameMatch]
  simp only [hsummary, c.nameList_take_eq_nil_iff, decide_eq_true_eq]
  rw [← namesPrefix]
  by_cases hzero : c.listedCount = 0
  · have hnil := c.nameList_take_eq_nil_iff.mpr hzero
    rw [if_pos hzero, if_pos hzero, hnil, List.append_nil]
  · rw [if_neg hzero, if_neg hzero, List.append_assoc c.namesPrefix]

/-- The names may spend what the prefix, the separator and the markers leave. -/
theorem nameBudget_eq (c : Census) : c.nameBudget = if c.overflowed then 8 else 22 := by
  rw [nameBudget]
  cases c.overflowed <;> rfl

/-- What comes before the names, the names and both markers are within the reason. -/
theorem length_noNameMatch_le (c : Census) :
    (noNameMatch c).length ≤ outcomeMaxFailReasonLen := by
  have hprefix : c.namesPrefix.length ≤ 28 := c.length_namesPrefix_le
  have hlist := c.length_nameList_le
  have hbudget := c.nameBudget_eq
  have hnames : (if c.listedCount = 0 then [] else
      scanSeenNamesSep ++ nameList (c.names.take c.listedCount)).length ≤ 2 + c.nameBudget := by
    split
    · exact Nat.zero_le _
    · rw [List.length_append]
      exact Nat.add_le_add_left hlist 2
  have hcut : (if c.listedCount < c.names.length then scanSeenTruncatedMarker
      else []).length ≤ 12 := by
    split
    · exact Nat.le_refl 12
    · exact Nat.zero_le _
  -- without an overflow its marker is not written, and its room goes to the names
  have hfull : (if c.overflowed then scanSeenOverflowMarker else []).length + c.nameBudget =
      22 := by
    rw [hbudget]
    cases c.overflowed <;> rfl
  rw [c.noNameMatch_eq]
  simp only [List.length_append, outcomeMaxFailReasonLen]
  omega

/-- **The reason is never cut.** Whatever the table holds, and whatever an earlier summary left
in the buffer, the names listed are the first ones of the table, as many as fit; one more would
not have fitted; a marker follows if and only if a name is left out or the table overflowed;
all of it is within the field `outcome_fail` copies it to; and a call of
`scan_seen_names_append` that returns false changes neither buffer nor count. -/
theorem noNameMatch_whole (c : Census) :
    (∃ k ≤ c.names.length,
      (∀ summary, c.scanSeenNamesSummaryInto c.nameBudget summary scanSeenMax =
        some (.ok (nameList (c.names.take k), decide (k < c.names.length)))) ∧
      (k < c.names.length → c.nameBudget < (nameList (c.names.take (k + 1))).length) ∧
      noNameMatch c = c.namesPrefix ++
        (if k = 0 then [] else scanSeenNamesSep ++ nameList (c.names.take k)) ++
        (if k < c.names.length then scanSeenTruncatedMarker else []) ++
        (if c.overflowed then scanSeenOverflowMarker else [])) ∧
    (noNameMatch c).length ≤ outcomeMaxFailReasonLen ∧
    (.copy (noNameMatch c) : CharArray (outcomeMaxFailReasonLen + 1)).bytes = noNameMatch c ∧
    ∀ (s s' : NamesBuf) (maxLen : Nat) (sep name : List UInt8),
      s.append maxLen sep name = .ok (false, s') → s' = s := by
  have hlength := c.length_noNameMatch_le
  refine ⟨⟨c.listedCount, c.listedCount_le, ?_, ?_, c.noNameMatch_eq⟩, hlength,
    CharArray.bytes_copy hlength, fun s s' maxLen sep name => NamesBuf.append_false⟩
  · intro summary
    have hfuel : c.len.toNat < scanSeenMax := c.len.toNat_lt
    rw [scanSeenNamesSummaryInto_eq c _ summary hfuel, c.scanSeenNamesSummary_eq]
  · intro hleft
    rw [← (flatten_namePieces _).1, ← take_namePieces]
    exact lt_length_fitting (hleft.trans_eq (length_namePieces true c.names).symm)

end Census

end DevBench.Bridge
