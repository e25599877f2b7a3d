import Mathlib.Algebra.Group.Nat.Defs
import Mathlib.Data.List.Basic
import Mathlib.Tactic.Common

/-!
# Cursor readers over a byte buffer

A reader walks a buffer with one cursor, the way a hand-written C decoder does:
every index is a machine word, every bounds test is computed in machine
arithmetic, and a failed read leaves the cursor where it stopped. Each access is
logged, so that memory safety is a statement about the log. Two logics are
provided. `Sound` says when a reader stays inside its buffer; `Reads` says which
bytes a reader consumes and what it makes of them. Both compose along `bind`.
-/

namespace DevBench.Core

/-- The width of a machine's index type. -/
structure Width where
  /-- The number of bits of an index. -/
  bits : Nat
  bits_ge : 32 ≤ bits
  bits_le : bits ≤ 64

/-- What fits 32 bits is an index on every machine. -/
theorem Width.lt_two_pow (w : Width) {n : Nat} (h : n < 2 ^ 32) : n < 2 ^ w.bits :=
  Nat.lt_of_lt_of_le h (Nat.pow_le_pow_right Nat.two_pos w.bits_ge)

/-- An index fits 64 bits. -/
theorem Width.lt_of_lt_two_pow (w : Width) {n : Nat} (h : n < 2 ^ w.bits) : n < 2 ^ 64 :=
  Nat.lt_of_lt_of_le h (Nat.pow_le_pow_right Nat.two_pos w.bits_le)

/-- A 32-bit machine. -/
def width32 : Width := ⟨32, Nat.le_refl 32, Nat.le_add_right 32 32⟩

/-- A buffer on a machine of some width. -/
structure Input extends Width where
  /-- The bytes of the buffer. -/
  bytes : List UInt8
  /-- The length of a buffer is itself an index. -/
  fits : bytes.length < 2 ^ bits

/-- The length of the buffer. -/
abbrev Input.len (i : Input) : Nat := i.bytes.length

/-- The length fits the width of an index. -/
theorem Input.len_lt (i : Input) : i.len < 2 ^ i.bits := i.fits

/-- Machine addition of indices. -/
def Input.add (i : Input) (a b : Nat) : Nat := (a + b) % 2 ^ i.bits

/-- Machine multiplication of indices. -/
def Input.mul (i : Input) (a b : Nat) : Nat := a * b % 2 ^ i.bits

/-- Machine subtraction of indices. -/
def Input.sub (i : Input) (a b : Nat) : Nat := (2 ^ i.bits + a - b) % 2 ^ i.bits

/-- The conversion of a wider unsigned value to an index. -/
def Input.cast (i : Input) (a : Nat) : Nat := a % 2 ^ i.bits

/-- One access of a reader to its cursor, its buffer or its result. -/
inductive Access where
  /-- The cursor is assigned. -/
  | move (before after : Nat)
  /-- Buffer bytes `index, …, index + count - 1` are read. -/
  | fetch (index count : Nat)
  /-- `count` elements are stored from `offset` on in an array of `capacity`. -/
  | store (offset count capacity : Nat)
  /-- The bytes from `start` up to `stop` are handed on as one span. -/
  | span (start stop : Nat)
  /-- The bounds test `pos + count > len`, computed modulo `modulus`. -/
  | test (pos count modulus : Nat)
  deriving DecidableEq, Repr

/-- What memory safety asks of one access to a buffer of `len` bytes. -/
def Access.Ok (len : Nat) : Access → Prop
  | move before after => before ≤ after ∧ after ≤ len
  | fetch index count => index + count ≤ len
  | store offset count capacity => offset + count ≤ capacity
  | span start stop => start ≤ stop ∧ stop ≤ len
  | test _ _ _ => True

instance (len : Nat) : DecidablePred (Access.Ok len) := fun a => by
  cases a <;> unfold Access.Ok <;> infer_instance

/-- A bounds test whose sum does not wrap around. -/
def Access.Fits : Access → Prop
  | test pos count modulus => pos + count < modulus
  | _ => True

instance : DecidablePred Access.Fits := fun a => by
  cases a <;> unfold Access.Fits <;> infer_instance

/-- Every access of the log is safe. -/
def Safe (len : Nat) (log : List Access) : Prop := ∀ a ∈ log, a.Ok len

/-- No bounds test of the log wraps around. -/
def Unwrapped (log : List Access) : Prop := ∀ a ∈ log, a.Fits

instance (len : Nat) (log : List Access) : Decidable (Safe len log) := by
  unfold Safe; infer_instance

instance (log : List Access) : Decidable (Unwrapped log) := by
  unfold Unwrapped; infer_instance

/-- The empty log is safe. -/
@[simp] theorem safe_nil (len : Nat) : Safe len [] := by simp [Safe]

/-- And nothing in it wraps around. -/
@[simp] theorem unwrapped_nil : Unwrapped [] := by simp [Unwrapped]

/-- One log behind another is safe when both are. -/
@[simp] theorem safe_append {len : Nat} {a b : List Access} :
    Safe len (a ++ b) ↔ Safe len a ∧ Safe len b := by
  simp only [Safe, List.mem_append, or_imp, forall_and]

/-- The same for wrapping around. -/
@[simp] theorem unwrapped_append {a b : List Access} :
    Unwrapped (a ++ b) ↔ Unwrapped a ∧ Unwrapped b := by
  simp only [Unwrapped, List.mem_append, or_imp, forall_and]

/-- An access is safe on its own. -/
@[simp] theorem safe_cons {len : Nat} {a : Access} {b : List Access} :
    Safe len (a :: b) ↔ a.Ok len ∧ Safe len b := by
  simp only [Safe, List.mem_cons, forall_eq_or_imp]

/-- Or does not wrap around on its own. -/
@[simp] theorem unwrapped_cons {a : Access} {b : List Access} :
    Unwrapped (a :: b) ↔ a.Fits ∧ Unwrapped b := by
  simp only [Unwrapped, List.mem_cons, forall_eq_or_imp]

/-- What a reader leaves behind. -/
structure Outcome (α : Type) where
  /-- The value read, unless the input was refused. -/
  value : Option α
  /-- The index the cursor stands at, refused or not. -/
  pos : Nat
  /-- The accesses made, in order. -/
  log : List Access

/-- A reader is started on a buffer at an index. -/
def Reader (α : Type) : Type := Input → Nat → Outcome α

namespace Reader

variable {α β : Type}

instance : Monad Reader where
  pure a := fun _ p => ⟨some a, p, []⟩
  bind m f := fun i p =>
    match m i p with
    | ⟨none, q, log⟩ => ⟨none, q, log⟩
    | ⟨some a, q, log⟩ =>
      let rest := f a i q
      { rest with log := log ++ rest.log }

/-- A value reads nothing. -/
theorem pure_apply (a : α) (i : Input) (p : Nat) : (pure a : Reader α) i p = ⟨some a, p, []⟩ := rfl

/-- What follows goes on where the first reader stopped. -/
theorem bind_apply (m : Reader α) (f : α → Reader β) (i : Input) (p : Nat) :
    (m >>= f) i p = match m i p with
      | ⟨none, q, log⟩ => ⟨none, q, log⟩
      | ⟨some a, q, log⟩ => ⟨(f a i q).value, (f a i q).pos, log ++ (f a i q).log⟩ := rfl

/-- Readers compose in either grouping. -/
theorem bind_assoc {γ : Type} (m : Reader α) (f : α → Reader β) (g : β → Reader γ) :
    m >>= f >>= g = m >>= fun a => f a >>= g := by
  funext i p
  simp only [bind_apply]
  rcases m i p with ⟨_ | a, q, log⟩
  · rfl
  · simp only
    rcases f a i q with ⟨_ | b, r, more⟩
    · rfl
    · simp only [List.append_assoc]

/-- Refuse the input. -/
def fail : Reader α := fun _ p => ⟨none, p, []⟩

/-- The cursor's index. -/
def position : Reader Nat := fun _ p => ⟨some p, p, []⟩

/-- The buffer being read, for a computation that touches no cursor. -/
def buffer : Reader Input := fun i p => ⟨some i, p, []⟩

/-- Log an access. -/
def record (a : Access) : Reader Unit := fun _ p => ⟨some (), p, [a]⟩

/-- The bounds test `pos + count > len`, in arithmetic modulo `modulus`. -/
def requireMod (modulus count : Nat) : Reader Unit := fun i p =>
  ⟨if (p + count) % modulus > i.len then none else some (), p, [.test p count modulus]⟩

/-- The bounds test in index arithmetic. -/
def require (count : Nat) : Reader Unit := fun i => requireMod (2 ^ i.bits) count i

/-- The bounds test of a 64-bit count: the sum is 64 bits wide whatever an index is. -/
def requireWide (count : Nat) : Reader Unit := requireMod (2 ^ 64) count

/-- The bounds test `pos >= len` before a single byte. -/
def remains : Reader Unit := fun i p => ⟨if i.len ≤ p then none else some (), p, []⟩

/-- Advance the cursor. -/
def skip (count : Nat) : Reader Unit := fun i p =>
  ⟨some (), i.add p count, [.move p (i.add p count)]⟩

/-- Copy `count` bytes found `ahead` of the cursor to `offset` in an array of
`capacity`. Past the buffer the bytes are arbitrary, here zero. -/
def copyAhead (ahead count offset capacity : Nat) : Reader (Vector UInt8 count) := fun i p =>
  ⟨some (Vector.ofFn fun k => i.bytes.getD (p + ahead + k) 0), p,
    [.fetch (p + ahead) count, .store offset count capacity]⟩

/-- Copy `count` bytes to an array of exactly that size and step over them. -/
def take (count : Nat) : Reader (Vector UInt8 count) := do
  let v ← copyAhead 0 count 0 count
  skip count
  pure v

/-- The byte at the cursor, stepped over without a test. -/
def next : Reader UInt8 := do
  let v ← take 1
  pure v[0]

/-- The byte at the cursor, if there is one. -/
def byte : Reader UInt8 := do
  remains
  next

/-- The bytes of a span crossed earlier. -/
def spanned (start stop : Nat) : Reader (List UInt8) := do
  record (.span start stop)
  let i ← buffer
  pure ((i.bytes.drop start).take (stop - start))

/-- Read `count` elements, storing them from `offset` on in an array of `capacity`. -/
def fill (m : Reader α) (capacity : Nat) :
    (offset count : Nat) → Reader {xs : List α // xs.length = count}
  | _, 0 => pure ⟨[], rfl⟩
  | offset, count + 1 => do
    record (.store offset 1 capacity)
    let x ← m
    let xs ← fill m capacity (offset + 1) count
    pure ⟨x :: xs.1, by rw [List.length_cons, xs.2]⟩

/-! ## Soundness -/

/-- On this buffer, started at index `p` or later, the accesses a reader makes are
safe exactly when none of its bounds tests wraps around, and then the cursor
neither retreats nor leaves the buffer. -/
def SoundFrom (i : Input) (p : Nat) (m : Reader α) : Prop :=
  ∀ c, p ≤ c → c ≤ i.len →
    (Safe i.len (m i c).log ↔ Unwrapped (m i c).log) ∧
    (Unwrapped (m i c).log → c ≤ (m i c).pos ∧ (m i c).pos ≤ i.len)

/-- A reader is sound when it is sound from anywhere on every buffer. -/
def Sound (m : Reader α) : Prop := ∀ i p, SoundFrom i p m

/-- A reader that takes exactly `count` bytes without any test of its own. -/
def Unguarded (i : Input) (count : Nat) (m : Reader α) : Prop :=
  ∀ c, ∃ a q log, m i c = ⟨some a, q, log⟩ ∧ Unwrapped log ∧ (c ≤ i.len →
    (c + count ≤ i.len → Safe i.len log ∧ q = c + count) ∧
    (i.len < c + count → ¬ Safe i.len log))

/-- A reader without accesses. -/
theorem sound_of_still {m : Reader α} (h : ∀ i p, (m i p).log = [] ∧ (m i p).pos = p) :
    Sound m := by
  intro i p c _ hc
  simp [(h i c).1, (h i c).2, hc]

/-- A value makes no access. -/
theorem sound_pure (a : α) : Sound (pure a : Reader α) := sound_of_still fun _ _ => ⟨rfl, rfl⟩

/-- Nor does a failure. -/
theorem sound_fail : Sound (fail : Reader α) := sound_of_still fun _ _ => ⟨rfl, rfl⟩

/-- Sound readers compose: the second starts inside the buffer and no earlier than
the first, unless a test of the first already wrapped around. -/
theorem SoundFrom.bind {i : Input} {p : Nat} {m : Reader α} {f : α → Reader β}
    (hm : SoundFrom i p m) (hf : ∀ a, SoundFrom i p (f a)) : SoundFrom i p (m >>= f) := by
  intro c hp hc
  obtain ⟨hsafe, hpos⟩ := hm c hp hc
  rw [bind_apply]
  rcases h : m i c with ⟨_ | a, q, log⟩
  · rw [h] at hsafe hpos
    exact ⟨hsafe, hpos⟩
  · rw [h] at hsafe hpos
    simp only at hsafe hpos ⊢
    rw [safe_append, unwrapped_append, hsafe]
    by_cases hu : Unwrapped log
    · obtain ⟨hle, hlen⟩ := hpos hu
      obtain ⟨hsafe', hpos'⟩ := hf a q (Nat.le_trans hp hle) hlen
      refine ⟨by rw [hsafe'], fun h => ?_⟩
      exact ⟨Nat.le_trans hle (hpos' h.2).1, (hpos' h.2).2⟩
    · simp only [hu, false_and, false_implies, and_self]

/-- A sound reader behind another. -/
theorem Sound.bind {m : Reader α} {f : α → Reader β} (hm : Sound m) (hf : ∀ a, Sound (f a)) :
    Sound (m >>= f) := fun i p => (hm i p).bind fun a => hf a i p

/-- A look at the buffer finds the buffer at hand. -/
theorem SoundFrom.buffer {i : Input} {p : Nat} {f : Input → Reader α}
    (hf : SoundFrom i p (f i)) : SoundFrom i p (Reader.buffer >>= f) := hf

/-- What follows a look at the cursor starts no earlier than the index it found. -/
theorem SoundFrom.position {i : Input} {p : Nat} {f : Nat → Reader α}
    (hf : ∀ q, p ≤ q → SoundFrom i q (f q)) : SoundFrom i p (Reader.position >>= f) :=
  fun c hp hc => hf c hp c (Nat.le_refl c) hc

/-- A span between two indices the cursor stood at, in this order. -/
theorem soundFrom_spanned (i : Input) {start stop : Nat} (h : start ≤ stop) :
    SoundFrom i stop (spanned start stop) := by
  intro c hp hc
  have hok : start ≤ stop ∧ stop ≤ i.len := ⟨h, Nat.le_trans hp hc⟩
  simp [spanned, bind_apply, record, buffer, pure_apply, Access.Ok, Access.Fits, hok, hc]

/-- Storing inside an array is sound. -/
theorem sound_store {offset count capacity : Nat} (h : offset + count ≤ capacity) :
    Sound (record (.store offset count capacity)) := by
  intro i p c _ hc
  simp [record, Access.Ok, Access.Fits, h, hc]

/-- Filling an array up to its capacity is sound. -/
theorem sound_fill {m : Reader α} (hm : Sound m) {capacity : Nat} :
    ∀ {count offset : Nat}, offset + count ≤ capacity → Sound (fill m capacity offset count)
  | 0, _, _ => sound_pure _
  | _ + 1, _, h =>
      (sound_store (by omega)).bind fun _ => hm.bind fun _ =>
        (sound_fill hm (by omega)).bind fun _ => sound_pure _

/-- Blocks without tests compose to a longer block. -/
theorem Unguarded.bind {i : Input} {n k : Nat} {m : Reader α} {f : α → Reader β}
    (hm : Unguarded i n m) (hf : ∀ a, Unguarded i k (f a)) : Unguarded i (n + k) (m >>= f) := by
  intro c
  obtain ⟨a, q, log, hrun, hun, hlog⟩ := hm c
  obtain ⟨b, r, more, hrun', hun', hmore⟩ := hf a q
  refine ⟨b, r, log ++ more, by rw [bind_apply, hrun]; simp only [hrun'],
    unwrapped_append.mpr ⟨hun, hun'⟩, fun hc => ?_⟩
  obtain ⟨hin, hout⟩ := hlog hc
  rw [safe_append]
  by_cases hq : c + n ≤ i.len
  · obtain ⟨hs, rfl⟩ := hin hq
    obtain ⟨hin', hout'⟩ := hmore hq
    refine ⟨fun h => ?_, fun h hs' => hout' (by omega) hs'.2⟩
    obtain ⟨hs', hr⟩ := hin' (by omega)
    exact ⟨⟨hs, hs'⟩, by omega⟩
  · -- The first block already ran past the buffer, wherever the second goes.
    exact ⟨fun h => by omega, fun _ hs => hout (by omega) hs.1⟩

/-- The bytes tested for may be counted another way. -/
theorem Unguarded.of_eq {i : Input} {n k : Nat} {m : Reader α} (hm : Unguarded i n m)
    (h : n = k) : Unguarded i k m := h ▸ hm

/-- A value needs none. -/
theorem unguarded_pure (i : Input) (a : α) : Unguarded i 0 (pure a : Reader α) := fun c =>
  ⟨a, c, [], rfl, by simp, fun _ => ⟨fun _ => ⟨by simp, rfl⟩, fun h => by omega⟩⟩

/-- A change of the value needs no more. -/
theorem Unguarded.map {i : Input} {n : Nat} {m : Reader α} (hm : Unguarded i n m) (f : α → β) :
    Unguarded i n (m >>= fun a => pure (f a)) :=
  hm.bind fun a => unguarded_pure i (f a)

/-- A store inside its array needs none either. -/
theorem unguarded_store (i : Input) {offset count capacity : Nat}
    (h : offset + count ≤ capacity) :
    Unguarded i 0 (record (.store offset count capacity)) := fun c =>
  ⟨(), c, [.store offset count capacity], rfl, by simp [Access.Fits], fun _ =>
    ⟨fun _ => ⟨by simp [Access.Ok, h], rfl⟩, fun _ => by omega⟩⟩

/-- Advancing by an index: past the buffer the cursor leaves it or wraps to before
where it was. -/
theorem unguarded_skip (i : Input) {count : Nat} (h : count < 2 ^ i.bits) :
    Unguarded i count (skip count) := by
  intro c
  have hl := i.len_lt
  refine ⟨(), i.add c count, [.move c (i.add c count)], rfl, by simp [Access.Fits],
    fun hc => ⟨fun hin => ?_, fun hout hs => ?_⟩⟩
  · have hadd : i.add c count = c + count := Nat.mod_eq_of_lt (by omega)
    simp only [hadd, safe_cons, safe_nil, Access.Ok, and_true]
    omega
  · simp only [safe_cons, safe_nil, Access.Ok, and_true, Input.add] at hs
    by_cases hw : c + count < 2 ^ i.bits
    · rw [Nat.mod_eq_of_lt hw] at hs
      omega
    · rw [Nat.mod_eq_sub_mod (by omega), Nat.mod_eq_of_lt (by omega)] at hs
      omega

/-- A copy inside a block changes neither where the block ends nor whether it
stays inside the buffer. -/
theorem unguarded_copy {i : Input} {ahead count offset capacity size : Nat}
    (hsize : ahead + count ≤ size) (hstore : offset + count ≤ capacity)
    {f : Vector UInt8 count → Reader α} (hf : ∀ v, Unguarded i size (f v)) :
    Unguarded i size (copyAhead ahead count offset capacity >>= f) := by
  intro c
  obtain ⟨a, q, log, hrun, hun, hlog⟩ :=
    hf (Vector.ofFn fun k => i.bytes.getD (c + ahead + k) 0) c
  refine ⟨a, q, [.fetch (c + ahead) count, .store offset count capacity] ++ log,
    by simp only [bind_apply, copyAhead, hrun],
    unwrapped_append.mpr ⟨by simp [Access.Fits], hun⟩, fun hc => ?_⟩
  obtain ⟨hin, hout⟩ := hlog hc
  rw [safe_append]
  refine ⟨fun h => ?_, fun h hs => hout h hs.2⟩
  obtain ⟨hs, hq⟩ := hin h
  refine ⟨⟨?_, hs⟩, hq⟩
  simp only [safe_cons, safe_nil, Access.Ok, and_true]
  omega

/-- So many bytes are taken. -/
theorem unguarded_take (i : Input) {count : Nat} (h : count < 2 ^ i.bits) :
    Unguarded i count (take count) :=
  unguarded_copy (by omega) (by omega) fun v => (unguarded_skip i h).map fun _ => v

/-- Or one. -/
theorem unguarded_next (i : Input) : Unguarded i 1 next :=
  (unguarded_take i (Nat.one_lt_two_pow (by have := i.bits_ge; omega))).map fun v => v[0]

/-- Filling an array from a block of fixed-size elements. -/
theorem unguarded_fill {i : Input} {n : Nat} {m : Reader α} (hm : Unguarded i n m)
    {capacity : Nat} : ∀ {count offset : Nat}, offset + count ≤ capacity →
      Unguarded i (count * n) (fill m capacity offset count)
  | 0, _, _ => by
      rw [Nat.zero_mul]
      exact unguarded_pure i _
  | count + 1, offset, h => by
      have he : (count + 1) * n = 0 + (n + count * n) := by rw [Nat.succ_mul]; omega
      rw [he]
      have hrest : Unguarded i (count * n) (fill m capacity (offset + 1) count) :=
        unguarded_fill hm (by omega)
      exact (unguarded_store i (by omega)).bind fun _ => hm.bind fun x => hrest.map _

/-- A guarded block is sound: if its test wraps around, the test passes and the
block runs past the buffer; if not, the block stays inside. -/
theorem soundFrom_requireMod {i : Input} {p count modulus : Nat} {m : Reader α}
    (hm : Unguarded i count m) (hlen : i.len < modulus) (hcount : count < modulus) :
    SoundFrom i p (requireMod modulus count >>= fun _ => m) := by
  intro c _ hc
  obtain ⟨a, q, log, hrun, hun, hlog⟩ := hm c
  obtain ⟨hin, hout⟩ := hlog hc
  by_cases ht : (c + count) % modulus > i.len
  · have hfit : c + count < modulus := by
      by_contra hge
      rw [Nat.mod_eq_sub_mod (by omega), Nat.mod_eq_of_lt (by omega)] at ht
      omega
    simp [bind_apply, requireMod, ht, Access.Ok, Access.Fits, hfit, hc]
  · simp only [bind_apply, requireMod, ht, if_false, hrun, List.singleton_append, safe_cons,
      unwrapped_cons, Access.Ok, Access.Fits, hun, true_and, and_true]
    by_cases hfit : c + count < modulus
    · rw [Nat.mod_eq_of_lt hfit] at ht
      obtain ⟨hs, rfl⟩ := hin (by omega)
      simp only [hs, hfit, true_and, forall_true_left]
      omega
    · simp only [hout (by omega), hfit, false_implies, and_self, iff_self]

/-- A bounds test in index arithmetic followed by the block it guards. -/
theorem soundFrom_require {i : Input} {p count : Nat} {m : Reader α} (hm : Unguarded i count m)
    (h : count < 2 ^ i.bits) : SoundFrom i p (require count >>= fun _ => m) :=
  soundFrom_requireMod hm i.len_lt h

/-- A constant below `2 ^ 32` is an index on every machine. -/
theorem sound_require {count : Nat} {m : Reader α} (hm : ∀ i, Unguarded i count m)
    (h : count < 2 ^ 32) : Sound (require count >>= fun _ => m) := fun i _ =>
  soundFrom_require (hm i) (i.lt_two_pow h)

/-- The same with a test 64 bits wide. -/
theorem sound_requireWide {count : Nat} {m : Reader α} (hm : ∀ i, Unguarded i count m)
    (h : count < 2 ^ 64) : Sound (requireWide count >>= fun _ => m) := fun i _ =>
  soundFrom_requireMod (hm i) (i.lt_of_lt_two_pow i.len_lt) h

/-- A guarded block and what a sound reader goes on with. -/
theorem sound_require_bind {count : Nat} {m : Reader α} {f : α → Reader β}
    (hm : ∀ i, Unguarded i count m) (h : count < 2 ^ 32) (hf : ∀ a, Sound (f a)) :
    Sound (require count >>= fun _ => m >>= f) := by
  have hblock : Sound (require count >>= (fun _ => m) >>= f) := (sound_require hm h).bind hf
  rwa [bind_assoc] at hblock

/-- A byte read after the test that there is one never leaves the buffer. -/
theorem sound_byte : Sound byte := by
  intro i p c _ hc
  by_cases h : i.len ≤ c
  · simp [byte, bind_apply, remains, h, hc]
  · obtain ⟨a, q, log, hrun, hun, hlog⟩ := unguarded_next i c
    obtain ⟨hs, rfl⟩ := (hlog hc).1 (by omega)
    simp only [byte, bind_apply, remains, h, if_false, hrun, List.nil_append, hs, hun, true_and,
      forall_true_left]
    omega

end Reader

end DevBench.Core
