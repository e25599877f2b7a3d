import DevBench.Core.PrefixCode
import DevBench.Wire.Sizes
import DevBench.Wire.Transcript

/-!
# Transcript entries as bytes

What the encoder of an entry emits, how many bytes that is, and that it can be read back in
one way only.
-/

namespace DevBench.Wire

open DevBench.Core DevBench.Core.Emit DevBench.Eap

/-! ## Fields -/

/-- No varint of a `uint64_t` begins another. -/
theorem prefixCodeOn_pcWriteVarint : PrefixCodeOn {value | value < 2 ^ 64} pcWriteVarint :=
  fun _ ha _ hb _ _ h => (encodes_pcWriteVarint ha).cancel (encodes_pcWriteVarint hb) h

/-- The varints of bytes are a prefix code. -/
theorem prefixCode_uint8 : PrefixCode fun v : UInt8 => pcWriteVarint v.toNat :=
  prefixCodeOn_pcWriteVarint.comap (fun _ _ => UInt8.toNat_inj.mp) fun v =>
    v.toNat_lt.trans (by decide)

/-- The varints of 32-bit words are a prefix code. -/
theorem prefixCode_uint32 : PrefixCode fun v : UInt32 => pcWriteVarint v.toNat :=
  prefixCodeOn_pcWriteVarint.comap (fun _ _ => UInt32.toNat_inj.mp) fun v =>
    v.toNat_lt.trans (by decide)

/-- The varints of 64-bit words are a prefix code. -/
theorem prefixCode_uint64 : PrefixCode fun v : UInt64 => pcWriteVarint v.toNat :=
  prefixCodeOn_pcWriteVarint.comap (fun _ _ => UInt64.toNat_inj.mp) UInt64.toNat_lt

/-- Single bytes are a prefix code. -/
theorem prefixCode_byte : PrefixCode fun b : UInt8 => [b] :=
  .of_length (fun _ => rfl) fun _ _ h => (List.cons.inj h).1

/-- UUIDs are a prefix code. -/
theorem prefixCode_uuid : PrefixCode fun uuid : Uuid => uuid.toList :=
  .of_length (fun uuid => uuid.length_toList) fun _ _ h => Vector.toList_inj.mp h

/-- An optional value of a prefix code is one. -/
theorem prefixCode_optionBytes {α : Type} {enc : α → List UInt8} (h : PrefixCode enc) :
    PrefixCode (optionBytes enc) := by
  intro a b r t heq
  cases a with
  | none =>
    cases b with
    | none => exact ⟨rfl, (List.cons.inj heq).2⟩
    | some b => exact absurd (List.cons.inj heq).1 (by decide)
  | some a =>
    cases b with
    | none => exact absurd (List.cons.inj heq).1 (by decide)
    | some b =>
      obtain ⟨rfl, hrt⟩ := h a b r t (List.cons.inj heq).2
      exact ⟨rfl, hrt⟩

/-- A payload no longer than its array. -/
theorem prefixCode_payload {capacity : Nat} (hcap : capacity < 2 ^ 64) :
    PrefixCode fun payload : Slots UInt8 capacity => pcWriteBytes payload.items := by
  intro a b r t heq
  have hlen : ∀ p : Slots UInt8 capacity, p.items.length < 2 ^ 64 := fun p =>
    Nat.lt_of_le_of_lt p.fits hcap
  obtain ⟨hitems, hrt⟩ :=
    PrefixCode.lengthPrefixed prefixCodeOn_pcWriteVarint (hlen a) (hlen b) heq
  exact ⟨Slots.ext hitems, hrt⟩

/-! ## Entries -/

namespace TranscriptEntry

/-- What is emitted of an entry. -/
def bytes (e : TranscriptEntry) : List UInt8 :=
  pcWriteVarint e.rxUtcMs.toNat ++ (pcWriteVarint e.direction.toNat ++
    (pcWriteVarint e.kind.toNat ++ (optionBytes (fun uuid : Uuid => uuid.toList) e.serviceUuid ++
      (optionBytes (fun uuid : Uuid => uuid.toList) e.characteristicUuid ++
        ([e.attStatus] ++ pcWriteBytes e.payload.items)))))

/-- Two numbers, a flag, and a UUID if there is one, for each of which. -/
def size (e : TranscriptEntry) : Nat :=
  varintSize e.rxUtcMs.toNat + varintSize e.direction.toNat + varintSize e.kind.toNat +
    optionSize (fun _ => 16) e.serviceUuid + optionSize (fun _ => 16) e.characteristicUuid +
    1 + stringSize e.payload.items.length

/-- The encoder emits an entry as the grammar has it. -/
theorem emits_bytes (e : TranscriptEntry) : Emits e.bytes (encodeTranscriptEntryAt e) :=
  (emits_writeVarint _).bind ((emits_writeVarint _).bind ((emits_writeVarint _).bind
    ((emits_writeOption e.serviceUuid fun _ _ => emits_put _).bind
      ((emits_writeOption e.characteristicUuid fun _ _ => emits_put _).bind
        ((emits_put _).bind (emits_put _))))))

/-- An entry is as long as its fields. -/
theorem length_bytes (e : TranscriptEntry) : e.bytes.length = e.size := by
  have huuid : ∀ o : Option Uuid,
      (optionBytes (fun uuid : Uuid => uuid.toList) o).length = optionSize (fun _ => 16) o :=
    length_optionBytes fun uuid => uuid.length_toList
  simp only [bytes, size, List.length_append, length_varint, length_pcWriteBytes, huuid,
    List.length_singleton]
  omega

/-- No transcript entry begins another. -/
theorem prefixCode_bytes : PrefixCode TranscriptEntry.bytes := by
  intro a b r t heq
  simp only [bytes, List.append_assoc] at heq
  obtain ⟨htime, heq⟩ := prefixCode_uint64 _ _ _ _ heq
  obtain ⟨hdirection, heq⟩ := prefixCode_uint8 _ _ _ _ heq
  obtain ⟨hkind, heq⟩ := prefixCode_uint8 _ _ _ _ heq
  obtain ⟨hservice, heq⟩ := prefixCode_optionBytes prefixCode_uuid _ _ _ _ heq
  obtain ⟨hcharacteristic, heq⟩ := prefixCode_optionBytes prefixCode_uuid _ _ _ _ heq
  obtain ⟨hstatus, heq⟩ := prefixCode_byte _ _ _ _ heq
  obtain ⟨hpayload, hrt⟩ := prefixCode_payload (by decide) _ _ _ _ heq
  refine ⟨?_, hrt⟩
  cases a
  cases b
  rw [mk.injEq]
  exact ⟨htime, hdirection, hkind, hservice, hcharacteristic, hstatus, hpayload⟩

end TranscriptEntry

/-- An entry is encoded whole, or not at all. -/
theorem dbmEncodeTranscriptEntry_eq (e : TranscriptEntry) (outCap : Nat) :
    dbmEncodeTranscriptEntry e outCap = if e.size ≤ outCap then some e.bytes else none := by
  have hrun := e.emits_bytes outCap [] (Nat.zero_le _)
  rw [List.length_nil, Nat.zero_add, e.length_bytes, List.nil_append] at hrun
  rw [dbmEncodeTranscriptEntry, hrun]
  split <;> rfl

/-- An entry fits a record when its payload leaves room for the numbers and the UUIDs in front
of it. -/
theorem encodes_entry_iff (e : TranscriptEntry) :
    (dbmEncodeTranscriptEntry e dbmMaxStreamChunkBytes).isSome = true ↔
      varintSize e.rxUtcMs.toNat + varintSize e.direction.toNat + varintSize e.kind.toNat +
        optionSize (fun _ => 16) e.serviceUuid + optionSize (fun _ => 16) e.characteristicUuid +
        1 + stringSize e.payload.items.length ≤ dbmMaxStreamChunkBytes := by
  rw [dbmEncodeTranscriptEntry_eq, TranscriptEntry.size]
  split
  · next h => exact ⟨fun _ => h, fun _ => rfl⟩
  · next h => exact ⟨nofun, fun h' => absurd h' h⟩

/-- A notification of one whole MTU, of a characteristic that is known. -/
def fullNotification : TranscriptEntry where
  rxUtcMs := 1000
  direction := 1
  kind := bleGattEvtNotification
  serviceUuid := some (.replicate 16 1)
  characteristicUuid := some (.replicate 16 2)
  attStatus := 0
  payload := .clamp (.replicate dbmMaxTranscriptPayloadLen 3)

/-- It takes more than a record has. -/
theorem fullNotification_not_encoded :
    dbmEncodeTranscriptEntry fullNotification dbmMaxStreamChunkBytes = none := by
  decide +kernel

end DevBench.Wire
