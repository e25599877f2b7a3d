import Mathlib.Data.List.Basic
import Mathlib.Data.List.TakeWhile

/-!
# Fixed-capacity arrays

A C array with a separate element count, and a C character array. Both carry
their capacity in the type, so a count that would reach past the array cannot
be written down.
-/

namespace DevBench.Core

/-- An array of at most `capacity` elements together with its element count. -/
structure Slots (α : Type) (capacity : Nat) where
  /-- The elements counted, in order. -/
  items : List α
  fits : items.length ≤ capacity
  deriving DecidableEq, Repr

namespace Slots

variable {α β : Type} {n : Nat}

/-- Slots with the same items are the same. -/
@[ext] theorem ext {a b : Slots α n} (h : a.items = b.items) : a = b := by
  cases a
  cases b
  exact Slots.mk.injEq .. ▸ h

/-- The array counting no element. -/
def empty : Slots α n := ⟨[], Nat.zero_le n⟩

/-- Elementwise translation keeps the count. -/
def map (f : α → β) (a : Slots α n) : Slots β n :=
  ⟨a.items.map f, by rw [List.length_map]; exact a.fits⟩

/-- The items of a mapped array are the items mapped. -/
@[simp] theorem items_map (f : α → β) (a : Slots α n) : (a.map f).items = a.items.map f := rfl

/-- As many elements as the array takes. -/
def clamp (xs : List α) : Slots α n := ⟨xs.take n, List.length_take_le n xs⟩

/-- A list known to fit. -/
def ofList (xs : List α) (h : xs.length ≤ n := by decide) : Slots α n := ⟨xs, h⟩

end Slots

/-- A character array of `capacity` bytes: `bytes` are those stored before the
terminator the last writer put behind them. -/
structure CharArray (capacity : Nat) where
  /-- The bytes in front of the terminator. -/
  bytes : List UInt8
  fits : bytes.length < capacity
  deriving DecidableEq, Repr

namespace CharArray

variable {n : Nat}

/-- Arrays with the same bytes are the same. -/
@[ext] theorem ext {a b : CharArray n} (h : a.bytes = b.bytes) : a = b := by
  cases a
  cases b
  exact CharArray.mk.injEq .. ▸ h

/-- The empty string. -/
def empty : CharArray (n + 1) := ⟨[], Nat.succ_pos n⟩

/-- The C string in the array ends at the first zero byte. -/
def str (a : CharArray n) : List UInt8 := a.bytes.takeWhile (· ≠ 0)

/-- There is room for the terminator. -/
theorem length_str_lt (a : CharArray n) : a.str.length < n :=
  Nat.lt_of_le_of_lt (List.takeWhile_sublist _).length_le a.fits

/-- A string has no zero byte in it. -/
theorem ne_zero_of_mem_str (a : CharArray n) (b : UInt8) (h : b ∈ a.str) : b ≠ 0 := by
  simpa using List.mem_takeWhile_imp h

/-- Without a zero byte inside, the string is everything stored. -/
theorem str_eq_bytes {a : CharArray n} (h : ∀ b ∈ a.bytes, b ≠ 0) : a.str = a.bytes := by
  rw [str, List.takeWhile_eq_self_iff]
  simpa using h

/-- The same array as far as string functions can tell. -/
def trimmed (a : CharArray n) : CharArray n := ⟨a.str, a.length_str_lt⟩

/-- An array trimmed has nothing left to trim. -/
theorem trimmed_trimmed (a : CharArray n) : a.trimmed.trimmed = a.trimmed :=
  ext (str_eq_bytes a.ne_zero_of_mem_str)

/-- `strncpy` with a terminator behind it, and what `snprintk` leaves of a longer text. -/
def copy (xs : List UInt8) : CharArray (n + 1) :=
  ⟨xs.take n, Nat.lt_succ_of_le (List.length_take_le n xs)⟩

/-- A text within the array is copied whole. -/
theorem bytes_copy {xs : List UInt8} (h : xs.length ≤ n) :
    (copy xs : CharArray (n + 1)).bytes = xs :=
  List.take_of_length_le h

end CharArray

/-- The bytes of an ASCII literal. -/
def ascii (s : String) : List UInt8 := s.toList.map fun c => UInt8.ofNat c.toNat

/-- A text has as many bytes as characters. -/
theorem length_ascii (s : String) : (ascii s).length = s.length := by
  rw [ascii, List.length_map, String.length_toList]

end DevBench.Core
