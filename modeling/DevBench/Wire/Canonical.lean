import DevBench.Core.Spelling
import DevBench.Wire.Encode
import DevBench.Wire.Exact
import DevBench.Wire.Seals

/-!
# Canonical steps

The first seal of a study is held against the bytes received, so it is a seal of the
decoded steps only if these have no other spelling. The language `steps` is what the
encoder can write of any steps; outside it lie the padded numbers, the numbers wider
than their field, the odd flags, the strings with a terminator inside and the service
UUIDs, all of which the decoder accepts.
-/

namespace DevBench.Wire

open DevBench.Core DevBench.Core.Reader DevBench.Core.Emit DevBench.Eap
open scoped Computability

namespace Canonical

/-! ## The language -/

/-- A number below the bound, in its fewest bytes. -/
def number (bound : Nat) : Language UInt8 := {bs | ∃ v < bound, Leb128.Shortest bs v}

/-- As many bytes as that, whatever they are. -/
def raw (count : Nat) : Language UInt8 := {bs | bs.length = count}

/-- A byte that terminates no string. -/
def letter : Language UInt8 := {bs | ∃ b, b ≠ 0 ∧ bs = [b]}

/-- Nothing, or something behind the byte 1 and no other. -/
def maybe (L : Language UInt8) : Language UInt8 := {[0]} + {[1]} * L

/-- A count that an array can hold, in its fewest bytes, and that many elements. -/
def counted (capacity : Nat) (L : Language UInt8) : Language UInt8 :=
  {bs | ∃ (count : List UInt8) (words : List (List UInt8)), bs = count ++ words.flatten ∧
    Leb128.Shortest count words.length ∧ words.length ≤ capacity ∧ ∀ word ∈ words, word ∈ L}

/-- A discriminant, and what an operation of that kind carries. -/
def operation : Language UInt8 :=
  {[0]} + ({[1]} * counted dbmMaxPayloadLen (raw 1) + ({[2]} * number (2 ^ 32) +
    ({[3]} * number (2 ^ 32) + ({[4]} + {[5]}))))

/-- A count and that many pairs of UUIDs. -/
def targets : Language UInt8 := counted dbmMaxMonitorTargets (raw 16 * raw 16)

/-- The fields behind the tag of an action; no service UUIDs are counted. -/
def fields : Nat → Language UInt8
  | 0 => maybe (counted dbmMaxLocalNameLen letter) * ({[0]} * number (2 ^ 16))
  | 1 => number (2 ^ 8) * (maybe (raw 6 * number (2 ^ 8)) *
      maybe (counted dbmMaxLocalNameLen letter))
  | 2 => raw 16 * raw 16 * operation
  | 3 => 1
  | 4 => 1
  | 5 => 1
  | 6 => 1
  | 7 => number (dbmSecurityL4 + 1)
  | 8 => 1
  | 9 => targets
  | 10 => targets
  | 11 => raw 1 * raw 1
  | _ => 0

/-- A tag and the fields of that action. -/
def action : Language UInt8 :=
  {bs | ∃ (tag : Nat) (rest : List UInt8), bs = UInt8.ofNat tag :: rest ∧ rest ∈ fields tag}

/-- A name, an action, a time and whether to go on. -/
def step : Language UInt8 :=
  counted dbmMaxNameLen letter * (action * (number (2 ^ 32) * (({[0]} + {[1]}) *
    number (2 ^ 32))))

/-- Any number of them. -/
def steps : Language UInt8 := step∗

/-! ## What spells its parts -/

/-- A bounded number is spelled one way. -/
theorem spelling_number {bound : Nat} (h : bound ≤ 2 ^ 64) :
    Spelling (fun v : Fin bound => pcWriteVarint v) (number bound) := by
  intro bs
  constructor
  · rintro ⟨v, hv, hbs⟩
    exact ⟨⟨v, hv⟩, (shortest_pcWriteVarint (hv.trans_le h)).unique hbs⟩
  · rintro ⟨v, rfl⟩
    exact ⟨v, v.isLt, shortest_pcWriteVarint (v.isLt.trans_le h)⟩

/-- So is one of eight bits. -/
theorem spelling_number8 :
    Spelling (fun v : UInt8 => pcWriteVarint v.toNat) (number (2 ^ 8)) :=
  (spelling_number (by decide)).comp (f := UInt8.toFin) fun v => ⟨.ofFin v, rfl⟩

/-- Of sixteen. -/
theorem spelling_number16 :
    Spelling (fun v : UInt16 => pcWriteVarint v.toNat) (number (2 ^ 16)) :=
  (spelling_number (by decide)).comp (f := UInt16.toFin) fun v => ⟨.ofFin v, rfl⟩

/-- And of thirty-two. -/
theorem spelling_number32 :
    Spelling (fun v : UInt32 => pcWriteVarint v.toNat) (number (2 ^ 32)) :=
  (spelling_number (by decide)).comp (f := UInt32.toFin) fun v => ⟨.ofFin v, rfl⟩

/-- So many bytes spell themselves. -/
theorem spelling_raw (count : Nat) :
    Spelling (fun v : Vector UInt8 count => v.toList) (raw count) := by
  intro bs
  constructor
  · intro h
    exact ⟨⟨bs.toArray, h⟩, rfl⟩
  · rintro ⟨v, rfl⟩
    exact v.length_toList

/-- So does one. -/
theorem spelling_byte : Spelling (fun b : UInt8 => [b]) (raw 1) := by
  intro bs
  constructor
  · intro h
    obtain ⟨b, rfl⟩ := List.length_eq_one_iff.mp h
    exact ⟨b, rfl⟩
  · rintro ⟨b, rfl⟩
    rfl

/-- A flag is the byte 0 or the byte 1. -/
theorem spelling_flag : Spelling (fun b : Bool => [boolByte b]) ({[0]} + {[1]}) := by
  refine ((spelling_singleton [0]).add (spelling_singleton [1])).congr ?_ ?_
  · rintro (_ | _)
    · exact ⟨false, rfl⟩
    · exact ⟨true, rfl⟩
  · rintro (_ | _)
    · exact ⟨.inl (), rfl⟩
    · exact ⟨.inr (), rfl⟩

/-- A value that may be missing. -/
theorem spelling_maybe {α : Type} {enc : α → List UInt8} {L : Language UInt8}
    (h : Spelling enc L) : Spelling (optionBytes enc) (maybe L) := by
  refine ((spelling_singleton [0]).add ((spelling_singleton [1]).mul h)).congr ?_ ?_
  · rintro (_ | ⟨_, a⟩)
    · exact ⟨none, rfl⟩
    · exact ⟨some a, rfl⟩
  · rintro (_ | a)
    · exact ⟨.inl (), rfl⟩
    · exact ⟨.inr ((), a), rfl⟩

/-- A sequence behind its count. -/
theorem spelling_counted {α : Type} {enc : α → List UInt8} {L : Language UInt8}
    {capacity : Nat} (hcap : capacity < 2 ^ 64) (h : Spelling enc L) :
    Spelling (fun xs : Slots α capacity => seqBytes enc xs.items) (counted capacity L) := by
  intro bs
  constructor
  · rintro ⟨count, words, rfl, hcount, hle, hwords⟩
    obtain ⟨xs, rfl⟩ := (h.words words).mp hwords
    rw [List.length_map] at hcount hle
    refine ⟨⟨xs, hle⟩, ?_⟩
    simp only [seqBytes, (shortest_pcWriteVarint (hle.trans_lt hcap)).unique hcount,
      List.flatMap_def]
  · rintro ⟨xs, rfl⟩
    refine ⟨pcWriteVarint xs.items.length, xs.items.map enc, ?_, ?_, ?_, ?_⟩
    · simp only [seqBytes, List.flatMap_def]
    · rw [List.length_map]
      exact shortest_pcWriteVarint (xs.fits.trans_lt hcap)
    · rw [List.length_map]
      exact xs.fits
    · exact (h.words _).mpr ⟨xs.items, rfl⟩

/-- A payload is the list of its bytes. -/
theorem spelling_payload {capacity : Nat} (hcap : capacity < 2 ^ 64) :
    Spelling (fun xs : Slots UInt8 capacity => pcWriteBytes xs.items)
      (counted capacity (raw 1)) := by
  have h := spelling_counted hcap spelling_byte
  simp only [seqBytes, List.flatMap_singleton'] at h
  exact h

/-- A string is the list of its letters, up to the terminator. -/
theorem spelling_text {capacity : Nat} (hcap : capacity < 2 ^ 64) :
    Spelling (fun s : CharArray (capacity + 1) => pcWriteBytes s.str)
      (counted capacity letter) := by
  have hletter : Spelling (fun b : {b : UInt8 // b ≠ 0} => [b.1]) letter := by
    intro bs
    constructor
    · rintro ⟨b, hb, rfl⟩
      exact ⟨⟨b, hb⟩, rfl⟩
    · rintro ⟨b, rfl⟩
      exact ⟨b.1, b.2, rfl⟩
  have hbytes : ∀ bs : List {b : UInt8 // b ≠ 0},
      seqBytes (fun b => [b.1]) bs = pcWriteBytes (bs.map Subtype.val) := by
    intro bs
    rw [seqBytes, pcWriteBytes, List.length_map, List.map_eq_flatMap]
  refine (spelling_counted hcap hletter).congr ?_ ?_
  · intro xs
    have hlen : (xs.items.map Subtype.val).length < capacity + 1 := by
      rw [List.length_map]
      exact Nat.lt_succ_of_le xs.fits
    refine ⟨⟨xs.items.map Subtype.val, hlen⟩, ?_⟩
    rw [hbytes, CharArray.str_eq_bytes]
    intro b hb
    obtain ⟨c, -, rfl⟩ := List.mem_map.mp hb
    exact c.2
  · intro s
    obtain ⟨xs, hxs⟩ : ∃ xs : List {b : UInt8 // b ≠ 0}, xs.map Subtype.val = s.str :=
      CanLift.prf s.str s.ne_zero_of_mem_str
    have hlen : xs.length ≤ capacity := by
      rw [← List.length_map, hxs]
      exact Nat.le_of_lt_succ s.length_str_lt
    exact ⟨⟨xs, hlen⟩, by rw [hbytes, hxs]⟩

/-! ## What spells a step -/

/-- Operations. -/
theorem spelling_operation : Spelling GattOperation.bytes operation := by
  have hpayload : Spelling _ (counted dbmMaxPayloadLen (raw 1)) := spelling_payload (by decide)
  refine ((spelling_singleton [0]).add (((spelling_singleton [1]).mul hpayload).add
    (((spelling_singleton [2]).mul spelling_number32).add
      (((spelling_singleton [3]).mul spelling_number32).add
        ((spelling_singleton [4]).add (spelling_singleton [5])))))).congr ?_ ?_
  · rintro (_ | ⟨_, payload⟩ | ⟨_, timeoutMs⟩ | ⟨_, timeoutMs⟩ | _ | _)
    · exact ⟨.read, rfl⟩
    · exact ⟨.write payload, rfl⟩
    · exact ⟨.notify timeoutMs, rfl⟩
    · exact ⟨.indicate timeoutMs, rfl⟩
    · exact ⟨.subscribe, rfl⟩
    · exact ⟨.streamCapture, rfl⟩
  · intro o
    cases o with
    | read => exact ⟨.inl (), rfl⟩
    | write payload => exact ⟨.inr (.inl ((), payload)), rfl⟩
    | notify timeoutMs => exact ⟨.inr (.inr (.inl ((), timeoutMs))), rfl⟩
    | indicate timeoutMs => exact ⟨.inr (.inr (.inr (.inl ((), timeoutMs)))), rfl⟩
    | subscribe => exact ⟨.inr (.inr (.inr (.inr (.inl ())))), rfl⟩
    | streamCapture => exact ⟨.inr (.inr (.inr (.inr (.inr ())))), rfl⟩

/-- Targets. -/
theorem spelling_targets :
    Spelling (fun ts : Slots GattTarget dbmMaxMonitorTargets => seqBytes GattTarget.bytes ts.items)
      targets := by
  have htarget : Spelling GattTarget.bytes (raw 16 * raw 16) := by
    refine ((spelling_raw 16).mul (spelling_raw 16)).congr ?_ ?_
    · rintro ⟨service, characteristic⟩
      exact ⟨⟨service, characteristic⟩, rfl⟩
    · rintro ⟨service, characteristic⟩
      exact ⟨(service, characteristic), rfl⟩
  exact spelling_counted (by decide) htarget

/-- Addresses with their kind. -/
theorem spelling_address : Spelling TargetAddress.bytes (raw 6 * number (2 ^ 8)) := by
  refine ((spelling_raw 6).mul spelling_number8).congr ?_ ?_
  · rintro ⟨address, kind⟩
    exact ⟨⟨address, kind⟩, rfl⟩
  · rintro ⟨address, kind⟩
    exact ⟨(address, kind), rfl⟩

/-- An optional name is sent up to its terminator. -/
theorem spelling_name : Spelling
    (fun o : Option (CharArray (dbmMaxLocalNameLen + 1)) =>
      optionBytes (fun s => pcWriteBytes s.bytes) (o.map CharArray.trimmed))
    (maybe (counted dbmMaxLocalNameLen letter)) := by
  refine (spelling_maybe (spelling_text (by decide))).congr ?_ ?_
  · rintro (_ | s)
    · exact ⟨none, rfl⟩
    · exact ⟨some s, rfl⟩
  · rintro (_ | s)
    · exact ⟨none, rfl⟩
    · exact ⟨some s, rfl⟩

/-- A security level that the decoder lets through. -/
theorem spelling_level :
    Spelling (fun l : {l : UInt8 // l.toNat ≤ dbmSecurityL4} => pcWriteVarint l.1.toNat)
      (number (dbmSecurityL4 + 1)) := by
  refine (spelling_number (by decide)).congr ?_ ?_
  · intro v
    have hv : (UInt8.ofNat v).toNat = v := toNat_ofNat_of_lt (v.isLt.trans_le (by decide))
    exact ⟨⟨UInt8.ofNat v, by rw [hv]; exact Nat.le_of_lt_succ v.isLt⟩, by rw [hv]⟩
  · intro l
    exact ⟨⟨l.1.toNat, Nat.lt_succ_of_le l.2⟩, rfl⟩

/-- The actions the decoder lets through. -/
abbrev Known : Type := {a : Action // a.Declared}

/-- What is written of an action: its tag and what is sent of its fields. -/
def Known.bytes (a : Known) : List UInt8 := UInt8.ofNat a.1.tag :: a.1.sent.fields []

/-- An action is its tag and its fields. -/
theorem Known.bytes_eq (a : Known) : a.bytes = pcWriteVarint a.1.tag ++ a.1.sent.fields [] := by
  have htag : a.1.tag < 128 := by cases a.1 <;> simp [Action.tag]
  rw [bytes, pcWriteVarint_of_lt htag, List.singleton_append]

/-- The fields of an advertisement. -/
theorem spelling_advertise : Spelling
    (fun x : Option (CharArray (dbmMaxLocalNameLen + 1)) × Unit × UInt16 =>
      optionBytes (fun s => pcWriteBytes s.bytes) (x.1.map CharArray.trimmed) ++
        ([0] ++ pcWriteVarint x.2.2.toNat)) (fields 0) :=
  spelling_name.mul ((spelling_singleton [0]).mul spelling_number16)

/-- Of a connection. -/
theorem spelling_connect : Spelling
    (fun x : UInt8 × Option TargetAddress × Option (CharArray (dbmMaxLocalNameLen + 1)) =>
      pcWriteVarint x.1.toNat ++ (optionBytes TargetAddress.bytes x.2.1 ++
        optionBytes (fun s => pcWriteBytes s.bytes) (x.2.2.map CharArray.trimmed))) (fields 1) :=
  spelling_number8.mul ((spelling_maybe spelling_address).mul spelling_name)

/-- Of a data exchange. -/
theorem spelling_exchange : Spelling
    (fun x : (Uuid × Uuid) × GattOperation => x.1.1.toList ++ x.1.2.toList ++ x.2.bytes)
    (fields 2) :=
  ((spelling_raw 16).mul (spelling_raw 16)).mul spelling_operation

/-- Of a protocol run. -/
theorem spelling_protocol :
    Spelling (fun x : UInt8 × UInt8 => [x.1] ++ [x.2]) (fields 11) :=
  spelling_byte.mul spelling_byte

/-- One case for each of the twelve actions. -/
theorem spelling_action : Spelling Known.bytes action := by
  intro bs
  constructor
  · rintro ⟨tag, rest, rfl, hrest⟩
    unfold fields at hrest
    split at hrest
    · obtain ⟨x, rfl⟩ := (spelling_advertise rest).mp hrest
      exact ⟨⟨.bleAdvertise x.1 x.2.2, trivial⟩, rfl⟩
    · obtain ⟨x, rfl⟩ := (spelling_connect rest).mp hrest
      exact ⟨⟨.bleConnect x.1 x.2.1 x.2.2, trivial⟩, rfl⟩
    · obtain ⟨x, rfl⟩ := (spelling_exchange rest).mp hrest
      exact ⟨⟨.dataExchange x.1.1 x.1.2 x.2, trivial⟩, rfl⟩
    · obtain rfl := hrest
      exact ⟨⟨.gattDiscover, trivial⟩, rfl⟩
    · obtain rfl := hrest
      exact ⟨⟨.gattMonitorAll, trivial⟩, rfl⟩
    · obtain rfl := hrest
      exact ⟨⟨.gattMonitorStart, trivial⟩, rfl⟩
    · obtain rfl := hrest
      exact ⟨⟨.gattMonitorStop, trivial⟩, rfl⟩
    · obtain ⟨level, rfl⟩ := (spelling_level rest).mp hrest
      exact ⟨⟨.bleSecurity level.1, level.2⟩, rfl⟩
    · obtain rfl := hrest
      exact ⟨⟨.bleUnbond, trivial⟩, rfl⟩
    · obtain ⟨targets, rfl⟩ := (spelling_targets rest).mp hrest
      exact ⟨⟨.gattMonitorSelected targets, trivial⟩, rfl⟩
    · obtain ⟨targets, rfl⟩ := (spelling_targets rest).mp hrest
      exact ⟨⟨.gattMonitorSelectedStart targets, trivial⟩, rfl⟩
    · obtain ⟨x, rfl⟩ := (spelling_protocol rest).mp hrest
      exact ⟨⟨.runProtocol x.1 x.2, trivial⟩, rfl⟩
    · exact absurd hrest (Language.notMem_zero rest)
  · rintro ⟨⟨a, ha⟩, rfl⟩
    cases a with
    | bleAdvertise localName interval =>
      exact ⟨0, _, rfl, spelling_advertise.mem (localName, (), interval)⟩
    | bleConnect role target targetName =>
      exact ⟨1, _, rfl, spelling_connect.mem (role, target, targetName)⟩
    | dataExchange service characteristic operation =>
      exact ⟨2, _, rfl, spelling_exchange.mem ((service, characteristic), operation)⟩
    | gattDiscover => exact ⟨3, _, rfl, rfl⟩
    | gattMonitorAll => exact ⟨4, _, rfl, rfl⟩
    | gattMonitorStart => exact ⟨5, _, rfl, rfl⟩
    | gattMonitorStop => exact ⟨6, _, rfl, rfl⟩
    | bleSecurity level => exact ⟨7, _, rfl, spelling_level.mem ⟨level, ha⟩⟩
    | bleUnbond => exact ⟨8, _, rfl, rfl⟩
    | gattMonitorSelected targets => exact ⟨9, _, rfl, spelling_targets.mem targets⟩
    | gattMonitorSelectedStart targets => exact ⟨10, _, rfl, spelling_targets.mem targets⟩
    | runProtocol protocol entry =>
      exact ⟨11, _, rfl, spelling_protocol.mem (protocol, entry)⟩

/-- The steps the decoder lets through. -/
abbrev KnownStep : Type := {s : Step // s.action.Declared}

/-- What is written of a step. -/
def KnownStep.bytes (s : KnownStep) : List UInt8 := StepDecl.bytes ⟨s.1.sent, []⟩

/-- Steps. -/
theorem spelling_step : Spelling KnownStep.bytes step := by
  refine ((spelling_text (by decide)).mul (spelling_action.mul (spelling_number32.mul
    (spelling_flag.mul spelling_number32)))).congr ?_ ?_
  · rintro ⟨name, action, timeoutMs, continueOnFail, delayBeforeMs⟩
    refine ⟨⟨⟨name, action.1, timeoutMs, continueOnFail, delayBeforeMs⟩, action.2⟩, ?_⟩
    simp [KnownStep.bytes, StepDecl.bytes, Step.sent, Known.bytes_eq, Action.tag_sent,
      CharArray.trimmed]
  · rintro ⟨⟨name, action, timeoutMs, continueOnFail, delayBeforeMs⟩, haction⟩
    refine ⟨(name, ⟨action, haction⟩, timeoutMs, continueOnFail, delayBeforeMs), ?_⟩
    simp [KnownStep.bytes, StepDecl.bytes, Step.sent, Known.bytes_eq, Action.tag_sent,
      CharArray.trimmed]

/-- The language is what can be written of known steps. -/
theorem spelling_steps :
    Spelling (fun ss : List KnownStep => ss.flatMap KnownStep.bytes) steps :=
  spelling_step.star

end Canonical

/-! ## What is decoded and written again -/

/-- A number takes at least a byte. -/
theorem lt_of_pcReadVarint {i : Input} {p q n : Nat} (h : RunsTo i p pcReadVarint q n) :
    p < q := by
  obtain ⟨v, ⟨_, bs, _, -, -, rfl, hv⟩, -⟩ := fieldAt_of_runsTo h
  exact Nat.lt_add_of_pos_right (List.length_pos_iff.mpr hv.ne_nil)

/-- A step has a tag, so reading one moves on. -/
theorem lt_of_readStep {i : Input} {p q : Nat} {s : Option Step}
    (h : Crosses i p readStep q s) : p < q := by
  obtain ⟨p₁, name, hname, h⟩ := h.accepts.bind (sound_pcReadStr (by decide) i p)
  obtain ⟨p₂, tag, htag, h⟩ := h.bind (sound_pcReadVarint i p₁)
  obtain ⟨p₃, action, haction, h⟩ := h.bind (sound_readAction tag i p₂)
  have hlt : p < p₃ :=
    (hname.le.trans_lt (lt_of_pcReadVarint htag.runsTo)).trans_le haction.le
  cases action with
  | none =>
    obtain ⟨rfl, -⟩ := h.pure
    exact hlt
  | some action =>
    obtain ⟨p₄, _, htimeout, h⟩ := h.bind (sound_readVarint32 i p₃)
    obtain ⟨p₅, _, hflag, h⟩ := h.bind (sound_byte i p₄)
    obtain ⟨p₆, _, hdelay, h⟩ := h.bind (sound_readVarint32 i p₅)
    obtain ⟨rfl, -⟩ := h.pure
    exact hlt.trans_le (htimeout.le.trans (hflag.le.trans hdelay.le))

/-- A step that is kept has an action that is declared. -/
theorem Step.declared_of_runsTo {i : Input} {p q : Nat} {s : Step}
    (h : RunsTo i p readStep q (some s)) : s.action.Declared := by
  obtain ⟨_, _, _, _, _, _, -, -, haction, -⟩ := stepAt_of_runsTo h
  cases hs : s.action with
  | bleSecurity level =>
    rw [hs] at haction
    exact haction.2
  | _ => trivial

/-- So has every one of them. -/
theorem declared_of_elements {i : Input} {p q : Nat} {ss : List (Option Step)}
    (h : Elements i readStep p q ss) : ∀ s, some s ∈ ss → s.action.Declared := by
  induction h with
  | nil =>
    intro s hs
    cases hs
  | cons hx _ ih =>
    intro s hs
    cases List.mem_cons.mp hs with
    | inl hhead =>
      rw [← hhead] at hx
      exact Step.declared_of_runsTo hx.runsTo
    | inr htail => exact ih s htail

/-- What is sent is sent the same again. -/
theorem Step.sent_sent (s : Step) : s.sent.sent = s.sent := by
  have haction : s.action.sent.sent = s.action.sent := by
    cases s.action <;>
      simp [Action.sent, Option.map_map, Function.comp_def, CharArray.trimmed_trimmed]
  simp only [Step.sent, CharArray.trimmed_trimmed, haction]

/-- A step that was sent is read back. -/
theorem reads_knownStep (s : Canonical.KnownStep) :
    Reads s.bytes readStep (some s.1.sent) := by
  have hdeclared : s.1.sent.action.Declared := by
    obtain ⟨s, hs⟩ := s
    cases haction : s.action with
    | bleSecurity level =>
      simpa [Step.sent, Action.sent, Action.Declared, haction] using hs
    | _ => simp [Step.sent, Action.sent, Action.Declared, haction]
  exact reads_readStep (d := ⟨s.1.sent, []⟩) hdeclared

/-- Encoding the decoded steps one behind the other gives the bytes of the span, and so
their CRC. -/
def Resealed (i : Input) (m : StudyStart) (s : Span) : Prop :=
  ∃ bytes, Emits bytes (m.steps.items.forM encodeStep) ∧ bytes = s.bytes i ∧
    dbmCrc32 bytes = dbmCrc32 (s.bytes i)

/-- What is written of decoded steps is in the language. -/
theorem canonical_of_emits {i : Input} {p q : Nat} {ss : List Step} {bytes : List UInt8}
    (h : Elements i readStep p q (ss.map some)) (hemits : Emits bytes (ss.forM encodeStep)) :
    bytes ∈ Canonical.steps := by
  have hdeclared : ∀ s ∈ ss, s.action.Declared := fun s hs =>
    declared_of_elements h s (List.mem_map_of_mem hs)
  have hwritten := emits_forM ss fun s _ => emits_encodeStep s
  obtain ⟨known, rfl⟩ : ∃ known : List Canonical.KnownStep, known.map Subtype.val = ss :=
    CanLift.prf ss hdeclared
  rw [hemits.unique hwritten, List.flatMap_map]
  exact Canonical.spelling_steps.mem known

/-- Steps in the language are decoded to what is written of them again. -/
theorem emits_of_canonical {i : Input} {s : Span} {ss : List Step}
    (h : Elements i readStep s.start s.stop (ss.map some))
    (hcanonical : s.bytes i ∈ Canonical.steps) :
    Emits (s.bytes i) (ss.forM encodeStep) := by
  obtain ⟨known, hknown⟩ : ∃ known : List Canonical.KnownStep,
      known.flatMap Canonical.KnownStep.bytes = s.bytes i :=
    (Canonical.spelling_steps _).mp hcanonical
  obtain ⟨hle, hin⟩ := h.le
  have hlen : (s.bytes i).length = s.stop - s.start := by
    have hroom : s.stop ≤ i.bytes.length := hin
    rw [Span.bytes, List.length_take, List.length_drop]
    omega
  have hsplit : i.bytes = i.bytes.take s.start ++ known.flatMap Canonical.KnownStep.bytes ++
      i.bytes.drop s.stop := by
    have hstop : i.bytes.drop s.stop = (i.bytes.drop s.start).drop (s.stop - s.start) := by
      rw [List.drop_drop, Nat.add_sub_cancel' hle]
    rw [hknown, hstop, Span.bytes, List.append_assoc, List.take_append_drop,
      List.take_append_drop]
  have hsame : ss.map some = known.map fun k => some k.1.sent := by
    apply h.eq_map_of_reads reads_knownStep ?_ lt_of_readStep known hsplit
    · rw [List.length_take_of_le (hle.trans hin)]
    · rw [hknown, hlen, Nat.add_sub_cancel' hle]
    · intro k
      simp [Canonical.KnownStep.bytes, StepDecl.bytes, pcWriteBytes, pcWriteVarint_ne_nil]
  have hss : ss = known.map fun k => k.1.sent := by
    have hsome : ss.map some = (known.map fun k => k.1.sent).map some := by
      rw [hsame, List.map_map]
      rfl
    exact List.map_injective_iff.mpr (Option.some_injective _) hsome
  have hwritten := emits_forM ss fun s _ => emits_encodeStep s
  simp only [hss, List.flatMap_map, Step.sent_sent] at hwritten
  rw [← hknown, hss]
  exact hwritten

/-- The steps of an accepted study, written again, are the bytes their seal was held
against just when those are spelled as the encoder spells. -/
theorem resealed_iff_canonical {i : Input} {m : StudyStart}
    (hlog : Unwrapped (decodeBody i 0).log)
    (hm : (decodeBody i 0).value = some (.studyStart m)) (hsup : m.hasUnsupportedAction = false) :
    ∃ spans, Layout i m spans ∧
      m.stepsCrcValid = (dbmCrc32 ((spans .steps).bytes i) == m.stepsCrc) ∧
      (Resealed i m (spans .steps) ↔ (spans .steps).bytes i ∈ Canonical.steps) := by
  obtain ⟨hnone, -⟩ | ⟨spans, hlayout, hvalid⟩ := layout_of_accepts (.of_value (Nat.zero_le _)
    hm hlog)
  · rw [hsup] at hnone
    cases hnone
  obtain ⟨_, _, _, _, _, _, _, -, -, hsteps, -, -, -⟩ := hlayout.parts
  refine ⟨spans, hlayout, hvalid .steps, ?_⟩
  constructor
  · rintro ⟨bytes, hemits, rfl, -⟩
    exact canonical_of_emits hsteps.elements hemits
  · intro hcanonical
    exact ⟨_, emits_of_canonical hsteps.elements hcanonical, rfl, rfl⟩

/-- A study of one discover step whose tag is spelled `83 00`, sealed by the CRC of the
step as the encoder writes it. -/
def paddedBody : Input :=
  { width32 with
    bytes := [6, 1, 0, 0x83, 0, 0, 0, 0, 243, 177, 221, 164, 13, 0, 0, 0, 0, 0]
    fits := width32.lt_two_pow (show 18 < 2 ^ 32 by decide) }

/-- What is kept of it. -/
def paddedStudy : StudyStart where
  steps := ⟨[⟨.empty, .gattDiscover, 0, false, 0⟩], by decide⟩
  stepsCrc := 3566688499
  stepsCrcValid := false
  streams := .empty
  streamsCrc := 0
  streamsCrcValid := true
  hasUnsupportedAction := false
  devBenchLogLevel := 0
  protocols := .empty
  protocolsCrc := 0
  protocolsCrcValid := true

/-- The sealed parts of that body. -/
def paddedSpans : SealedPart → Span
  | .steps => ⟨2, 8⟩
  | .streams => ⟨14, 14⟩
  | .protocols => ⟨17, 17⟩

/-- A reader that succeeds inside the input without wrapping around crosses it. -/
theorem crosses_of_run {α : Type} {i : Input} {p q : Nat} {m : Reader α} {a : α} (hpq : p ≤ q)
    (hq : q ≤ i.len) (hvalue : (m i p).value = some a) (hpos : (m i p).pos = q)
    (hlog : Unwrapped (m i p).log) : Crosses i p m q a := by
  have hrun : Accepts i p m (m i p).pos a := .of_value (hpq.trans hq) hvalue hlog
  rw [hpos] at hrun
  exact ⟨hrun, hpq, hq⟩

/-- The body is laid out so. -/
theorem layout_paddedBody : Layout paddedBody paddedStudy paddedSpans := by
  have hv : ∀ v ∈ [(0, 1, 6), (1, 2, 1), (8, 13, 3566688499), (13, 14, 0), (14, 15, 0),
      (15, 16, 0), (16, 17, 0), (17, 18, 0)],
      Crosses paddedBody v.1 pcReadVarint v.2.1 v.2.2 := by
    have hrun : ∀ v ∈ [(0, 1, 6), (1, 2, 1), (8, 13, 3566688499), (13, 14, 0), (14, 15, 0),
        (15, 16, 0), (16, 17, 0), (17, 18, 0)],
        (pcReadVarint paddedBody v.1).value = some v.2.2 ∧
        (pcReadVarint paddedBody v.1).pos = v.2.1 ∧
        Unwrapped (pcReadVarint paddedBody v.1).log ∧ v.1 ≤ v.2.1 ∧ v.2.1 ≤ 18 := by
      decide +kernel
    intro v hv
    obtain ⟨hvalue, hpos, hlog, hle, hin⟩ := hrun v hv
    exact crosses_of_run hle hin hvalue hpos hlog
  have hstep : Crosses paddedBody 2 readStep 8 (some ⟨.empty, .gattDiscover, 0, false, 0⟩) := by
    refine crosses_of_run (by decide) (show 8 ≤ 18 by decide) ?_ ?_ ?_ <;> decide +kernel
  refine ⟨rfl, 1, 6, 13, 15, 16, 0, 18, hv (0, 1, 6) (by decide), by decide, ⟨?_, ?_, ?_⟩,
    ⟨?_, ?_, ?_⟩, hv (15, 16, 0) (by decide), ⟨?_, ?_, ?_⟩⟩
  · exact hv (1, 2, 1) (by decide)
  · exact .cons hstep (.nil (show 8 ≤ 18 by decide))
  · exact ⟨3566688499, hv (8, 13, 3566688499) (by decide), rfl⟩
  · exact hv (13, 14, 0) (by decide)
  · exact .nil (show 14 ≤ 18 by decide)
  · exact ⟨0, hv (14, 15, 0) (by decide), rfl⟩
  · exact hv (16, 17, 0) (by decide)
  · exact .nil (show 17 ≤ 18 by decide)
  · exact ⟨0, hv (17, 18, 0) (by decide), rfl⟩

/-- The decoder accepts the padded tag; the step is encoded one byte shorter, and the
seal refused is the CRC of that. -/
theorem not_resealed_paddedBody :
    (decodeBody paddedBody 0).value = some (.studyStart paddedStudy) ∧
    Unwrapped (decodeBody paddedBody 0).log ∧
    (∃ spans, Layout paddedBody paddedStudy spans ∧
      ¬ Resealed paddedBody paddedStudy (spans .steps)) ∧
    Emits [0, 3, 0, 0, 0] (paddedStudy.steps.items.forM encodeStep) ∧
    dbmCrc32 [0, 3, 0, 0, 0] = paddedStudy.stepsCrc ∧ paddedStudy.stepsCrcValid = false := by
  have hemits : Emits [0, 3, 0, 0, 0] (paddedStudy.steps.items.forM encodeStep) :=
    emits_forM paddedStudy.steps.items fun s _ => emits_encodeStep s
  have hspan : (paddedSpans .steps).bytes paddedBody = [0, 0x83, 0, 0, 0, 0] := rfl
  refine ⟨by decide +kernel, by decide +kernel, ⟨paddedSpans, layout_paddedBody, ?_⟩, hemits,
    by decide +kernel, rfl⟩
  rintro ⟨bytes, hbytes, rfl, -⟩
  have hsame := hbytes.unique hemits
  rw [hspan] at hsame
  exact absurd hsame (by decide)

/-- Where its steps stand they are not spelled as the encoder spells, or the encoder
writes just them. -/
theorem resealed_iff_canonical_paddedBody :
    ∃ spans, Layout paddedBody paddedStudy spans ∧
      paddedStudy.stepsCrcValid =
        (dbmCrc32 ((spans .steps).bytes paddedBody) == paddedStudy.stepsCrc) ∧
      (Resealed paddedBody paddedStudy (spans .steps) ↔
        (spans .steps).bytes paddedBody ∈ Canonical.steps) :=
  resealed_iff_canonical (by decide +kernel) (by decide +kernel) rfl

end DevBench.Wire
