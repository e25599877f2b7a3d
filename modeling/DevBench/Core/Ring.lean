import Mathlib.Data.List.Basic
import Mathlib.Logic.Function.Basic

/-!
# Rings

A ring keeps the last `depth` elements put into it. The place the next one goes to and the
number held are all it stores beside the slots; an element put into a full ring takes the place
of the oldest one held.
-/

namespace DevBench.Core

/-- An array used as a ring, with the place of the next write and the number of elements held. -/
structure Ring (α : Type) (depth : Nat) where
  slots : Fin depth → α
  head : Nat
  count : Nat
  head_lt : head < depth
  count_le : count ≤ depth

namespace Ring

variable {α : Type} {depth : Nat}

/-- The ring holding nothing, its slots filled with one element. -/
def empty (x : α) (h : 0 < depth) : Ring α depth := ⟨fun _ => x, 0, 0, h, Nat.zero_le _⟩

/-- The slot an index names once it is wrapped. -/
def slot (r : Ring α depth) (i : Nat) : α :=
  r.slots ⟨i % depth, Nat.mod_lt _ (Nat.zero_lt_of_lt r.head_lt)⟩

/-- The elements held, oldest first. -/
def contents (r : Ring α depth) : List α :=
  (List.range r.count).map fun k => r.slot (r.head + depth - r.count + k)

/-- Write an element, over the oldest one when the ring is full. -/
def put (r : Ring α depth) (x : α) : Ring α depth where
  slots := Function.update r.slots ⟨r.head, r.head_lt⟩ x
  head := (r.head + 1) % depth
  count := if r.count < depth then r.count + 1 else r.count
  head_lt := Nat.mod_lt _ (Nat.zero_lt_of_lt r.head_lt)
  count_le := by
    split
    · omega
    · exact r.count_le

/-- What a write takes out of the ring. -/
def overwritten (r : Ring α depth) : List α := if r.count < depth then [] else [r.slot r.head]

/-- Take out the oldest element. -/
def pop (r : Ring α depth) : Option (α × Ring α depth) :=
  if r.count = 0 then none
  else some (r.slot (r.head + depth - r.count),
    { r with count := r.count - 1, count_le := Nat.le_trans (Nat.sub_le _ _) r.count_le })

@[simp] theorem length_contents (r : Ring α depth) : r.contents.length = r.count := by
  rw [contents, List.length_map, List.length_range]

theorem length_contents_le (r : Ring α depth) : r.contents.length ≤ depth :=
  r.length_contents ▸ r.count_le

theorem contents_eq_nil {r : Ring α depth} : r.contents = [] ↔ r.count = 0 := by
  rw [← List.length_eq_zero_iff, length_contents]

/-- Only where an index is wrapped matters for the slot it names. -/
theorem slot_congr (r : Ring α depth) {i j : Nat} (h : i % depth = j % depth) :
    r.slot i = r.slot j := by
  rw [slot, slot]
  congr 2

/-- Indices that differ by the depth name the same slot. -/
theorem slot_add_depth (r : Ring α depth) (i : Nat) : r.slot (i + depth) = r.slot i :=
  r.slot_congr (Nat.add_mod_right i depth)

theorem slot_put_head (r : Ring α depth) (x : α) : (r.put x).slot r.head = x := by
  have h : (⟨r.head % depth, Nat.mod_lt _ (Nat.zero_lt_of_lt r.head_lt)⟩ : Fin depth) =
      ⟨r.head, r.head_lt⟩ := Fin.ext (Nat.mod_eq_of_lt r.head_lt)
  rw [slot, h]
  exact Function.update_self ..

/-- A write changes the slot it goes to and no other one. -/
theorem slot_put_of_ne (r : Ring α depth) (x : α) {i : Nat} (h : i % depth ≠ r.head) :
    (r.put x).slot i = r.slot i := by
  rw [slot, slot]
  exact Function.update_of_ne (fun heq => h (Fin.ext_iff.mp heq)) _ _

/-- The head is reached again only after a whole turn. -/
theorem wrap_ne {h n k : Nat} (hh : h < n) (hk : k < n) (hpos : 0 < k) : (h + k) % n ≠ h := by
  rcases Nat.lt_or_ge (h + k) n with hlt | hge
  · rw [Nat.mod_eq_of_lt hlt]
    omega
  · rw [Nat.mod_eq_sub_mod hge, Nat.mod_eq_of_lt (by omega)]
    omega

/-- The element held at a place from the oldest on. -/
theorem getElem_contents (r : Ring α depth) {k : Nat} (hk : k < r.contents.length) :
    r.contents[k] = r.slot (r.head + depth - r.count + k) := by
  simp only [contents, List.getElem_map, List.getElem_range]

/-- A write into a ring with room puts the element behind those held. -/
theorem contents_put_room {r : Ring α depth} (hroom : r.count < depth) (x : α) :
    (r.put x).contents = r.contents ++ [x] := by
  have hcount : (r.put x).count = r.count + 1 := if_pos hroom
  have hhead : (r.put x).head = (r.head + 1) % depth := rfl
  have hlt := r.head_lt
  refine List.ext_getElem (by simp [hcount]) fun k hk _ => ?_
  have hk' : k ≤ r.count := by
    rw [length_contents, hcount] at hk
    omega
  have hwrap : ((r.put x).head + depth - (r.put x).count + k) % depth =
      (r.head + depth - r.count + k) % depth := by
    rw [hcount, hhead]
    rcases Nat.lt_or_ge (r.head + 1) depth with hin | hout
    · rw [Nat.mod_eq_of_lt hin]
      congr 1
      omega
    · have hself : r.head + 1 = depth := by omega
      rw [hself, Nat.mod_self, Nat.zero_add]
      have hidx : r.head + depth - r.count + k = depth - (r.count + 1) + k + depth := by omega
      rw [hidx, Nat.add_mod_right]
  rw [getElem_contents, slot_congr _ hwrap]
  rcases Nat.lt_or_ge k r.count with hold | hnew
  · have hback : (r.head + depth - r.count + k) % depth ≠ r.head := by
      have hidx : r.head + depth - r.count + k = r.head + (depth - r.count + k) := by omega
      rw [hidx]
      exact wrap_ne hlt (by omega) (by omega)
    rw [slot_put_of_ne r x hback, List.getElem_append_left (by simpa using hold),
      getElem_contents]
  · have hk_eq : k = r.count := by omega
    have hidx : r.head + depth - r.count + k = r.head + depth := by omega
    rw [hidx, slot_add_depth, slot_put_head]
    simp [hk_eq]

/-- A write into a full ring puts the element in the oldest one's place. -/
theorem contents_put_full {r : Ring α depth} (hfull : r.count = depth) (x : α) :
    r.overwritten ++ (r.put x).contents = r.contents ++ [x] := by
  have hcount : (r.put x).count = depth := by
    rw [put]
    simp [hfull]
  have hhead : (r.put x).head = (r.head + 1) % depth := rfl
  have hlt := r.head_lt
  have hover : r.overwritten = [r.slot r.head] := by
    rw [overwritten, if_neg (by omega)]
  rw [hover]
  refine List.ext_getElem (by simp [hcount, hfull]) fun k hk _ => ?_
  cases k with
  | zero =>
    have hne : 0 < r.contents.length := by
      rw [length_contents, hfull]
      omega
    rw [List.getElem_append_left (by simp), List.getElem_append_left hne, getElem_contents]
    refine r.slot_congr ?_
    rw [hfull, Nat.add_zero, Nat.add_sub_cancel]
  | succ k =>
    have hk' : k < depth := by
      simp only [List.length_append, List.length_cons, List.length_nil, length_contents,
        hcount] at hk
      omega
    have hwrap : ((r.put x).head + depth - (r.put x).count + k) % depth =
        (r.head + (k + 1)) % depth := by
      rw [hcount, hhead, Nat.add_sub_cancel, Nat.mod_add_mod]
      congr 1
      omega
    simp only [List.singleton_append, List.getElem_cons_succ]
    rw [getElem_contents, slot_congr _ hwrap]
    rcases Nat.lt_or_ge (k + 1) depth with hold | hnew
    · have hin : k + 1 < r.contents.length := by
        rw [length_contents, hfull]
        exact hold
      rw [slot_put_of_ne r x (wrap_ne hlt hold (Nat.succ_pos k)),
        List.getElem_append_left hin, getElem_contents]
      refine r.slot_congr ?_
      congr 1
      omega
    · have hlast : r.contents.length = k + 1 := by
        rw [length_contents, hfull]
        omega
      have hself : r.head + (k + 1) = r.head + depth := by omega
      rw [hself, slot_add_depth, slot_put_head]
      simp [hlast]

/-- A write puts the element behind those held, and what leaves the ring for it is in front. -/
theorem contents_put (r : Ring α depth) (x : α) :
    r.overwritten ++ (r.put x).contents = r.contents ++ [x] := by
  rcases Nat.lt_or_ge r.count depth with hroom | hfull
  · rw [overwritten, if_pos hroom, List.nil_append, contents_put_room hroom]
  · exact contents_put_full (Nat.le_antisymm r.count_le hfull) x

/-- Nothing comes out of a ring that holds nothing. -/
theorem pop_eq_none {r : Ring α depth} : r.pop = none ↔ r.contents = [] := by
  rw [contents_eq_nil, pop]
  split <;> simp_all

/-- The oldest element comes out and the others stay. -/
theorem contents_of_pop {r r' : Ring α depth} {x : α} (h : r.pop = some (x, r')) :
    r.contents = x :: r'.contents := by
  rw [pop] at h
  split at h
  · cases h
  · rename_i hne
    obtain ⟨rfl, rfl⟩ := Prod.mk.inj (Option.some.inj h)
    have hle := r.count_le
    refine List.ext_getElem (by simp; omega) fun k hk hk' => ?_
    rw [getElem_contents]
    cases k with
    | zero => rfl
    | succ k =>
      rw [List.getElem_cons_succ, getElem_contents]
      refine r.slot_congr ?_
      congr 1
      simp only
      omega

end Ring

end DevBench.Core
