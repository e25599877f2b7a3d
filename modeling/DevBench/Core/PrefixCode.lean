import Mathlib.Data.List.Infix
import Mathlib.Data.Set.Basic

/-!
# Prefix codes

An encoding is a prefix code on a set of values when the code word at the front of a string
determines its value, and with it what stands behind. Words put behind one another are taken
apart again from the front, so a format built of prefix codes is one.
-/

namespace DevBench.Core

variable {α β γ : Type}

/-- What begins with the words of two values begins with one word of one value. -/
def PrefixCodeOn (s : Set α) (enc : α → List β) : Prop :=
  ∀ a ∈ s, ∀ b ∈ s, ∀ r t : List β, enc a ++ r = enc b ++ t → a = b ∧ r = t

/-- The same for all values. -/
def PrefixCode (enc : α → List β) : Prop :=
  ∀ (a b : α) (r t : List β), enc a ++ r = enc b ++ t → a = b ∧ r = t

theorem PrefixCodeOn.comap {s : Set α} {enc : α → List β} (h : PrefixCodeOn s enc) {f : γ → α}
    (hf : f.Injective) (hs : ∀ c, f c ∈ s) : PrefixCode fun c => enc (f c) := by
  intro a b r t heq
  obtain ⟨hab, hrt⟩ := h (f a) (hs a) (f b) (hs b) r t heq
  exact ⟨hf hab, hrt⟩

namespace PrefixCode

variable {enc : α → List β} {enc' : γ → List β}

/-- No word is a proper prefix of another one. -/
theorem eq_of_prefix (h : PrefixCode enc) {a b : α} (hab : enc a <+: enc b) : a = b := by
  obtain ⟨r, hr⟩ := hab
  exact (h a b r [] (by rw [List.append_nil, hr])).1

theorem injective (h : PrefixCode enc) : enc.Injective := fun _ _ heq =>
  h.eq_of_prefix (heq ▸ List.prefix_refl _)

/-- Words of one length are told apart by their letters. -/
theorem of_length {n : Nat} (hlen : ∀ a, (enc a).length = n) (hinj : enc.Injective) :
    PrefixCode enc := by
  intro a b r t heq
  obtain ⟨hab, hrt⟩ := List.append_inj heq ((hlen a).trans (hlen b).symm)
  exact ⟨hinj hab, hrt⟩

/-- A word that says how long the rest is. -/
theorem lengthPrefixed {s : Set Nat} {num : Nat → List β} (hnum : PrefixCodeOn s num)
    {xs ys r t : List β} (hx : xs.length ∈ s) (hy : ys.length ∈ s)
    (heq : num xs.length ++ xs ++ r = num ys.length ++ ys ++ t) : xs = ys ∧ r = t := by
  rw [List.append_assoc, List.append_assoc] at heq
  obtain ⟨hlen, hrest⟩ := hnum _ hx _ hy _ _ heq
  exact List.append_inj hrest hlen

/-- As many words as there are, one after the other. -/
theorem flatMap (h : PrefixCode enc) : ∀ {xs ys : List α}, xs.length = ys.length →
    ∀ {r t : List β}, xs.flatMap enc ++ r = ys.flatMap enc ++ t → xs = ys ∧ r = t
  | [], [], _, _, _, heq => ⟨rfl, heq⟩
  | x :: xs, y :: ys, hlen, r, t, heq => by
    rw [List.flatMap_cons, List.flatMap_cons, List.append_assoc, List.append_assoc] at heq
    obtain ⟨rfl, hrest⟩ := h x y _ _ heq
    obtain ⟨rfl, hrt⟩ := h.flatMap (Nat.succ.inj hlen) hrest
    exact ⟨rfl, hrt⟩

/-- A count in front of the words. -/
theorem counted (h : PrefixCode enc) {s : Set Nat} {num : Nat → List β}
    (hnum : PrefixCodeOn s num) {xs ys : List α} (hx : xs.length ∈ s) (hy : ys.length ∈ s)
    {r t : List β}
    (heq : num xs.length ++ xs.flatMap enc ++ r = num ys.length ++ ys.flatMap enc ++ t) :
    xs = ys ∧ r = t := by
  rw [List.append_assoc, List.append_assoc] at heq
  obtain ⟨hlen, hrest⟩ := hnum _ hx _ hy _ _ heq
  exact h.flatMap hlen hrest

end PrefixCode

end DevBench.Core
