import DevBench.Core.Reads
import Mathlib.Computability.Language
import Mathlib.Data.Set.List

/-!
# Encodings as languages

A format is described twice: by what an encoder writes of each value, and by the
strings that belong to it. `Spelling enc L` says that the two agree. The relation
composes along the operations on languages, and a reader that undoes the encoder
can only have read, out of a string of `L∗`, the values that spell it.
-/

namespace DevBench.Core

open scoped Computability

variable {α β γ σ : Type}

/-- The strings of the language are the encodings of the values. -/
def Spelling (enc : α → List σ) (L : Language σ) : Prop := ∀ bs, bs ∈ L ↔ ∃ a, enc a = bs

theorem Spelling.mem {enc : α → List σ} {L : Language σ} (h : Spelling enc L) (a : α) :
    enc a ∈ L := (h _).mpr ⟨a, rfl⟩

theorem spelling_singleton (bs : List σ) : Spelling (fun _ : Unit => bs) {bs} := by
  intro cs
  constructor
  · intro h
    exact ⟨(), (Set.mem_singleton_iff.mp h).symm⟩
  · rintro ⟨_, rfl⟩
    exact Set.mem_singleton _

/-- Another encoder that writes the same strings. -/
theorem Spelling.congr {enc : α → List σ} {enc' : β → List σ} {L : Language σ}
    (h : Spelling enc L) (hto : ∀ a, ∃ b, enc' b = enc a) (hfrom : ∀ b, ∃ a, enc a = enc' b) :
    Spelling enc' L := by
  intro bs
  rw [h bs]
  constructor
  · rintro ⟨a, rfl⟩
    exact hto a
  · rintro ⟨b, rfl⟩
    exact hfrom b

/-- The same strings from other values. -/
theorem Spelling.comp {enc : α → List σ} {L : Language σ} (h : Spelling enc L) {f : β → α}
    (hf : Function.Surjective f) : Spelling (fun b => enc (f b)) L := by
  intro bs
  rw [h bs]
  constructor
  · rintro ⟨a, rfl⟩
    obtain ⟨b, rfl⟩ := hf a
    exact ⟨b, rfl⟩
  · rintro ⟨b, rfl⟩
    exact ⟨f b, rfl⟩

/-- One encoding behind the other. -/
theorem Spelling.mul {enc : α → List σ} {enc' : β → List σ} {L M : Language σ}
    (h : Spelling enc L) (h' : Spelling enc' M) :
    Spelling (fun x : α × β => enc x.1 ++ enc' x.2) (L * M) := by
  intro bs
  rw [Language.mem_mul]
  constructor
  · rintro ⟨cs, hcs, ds, hds, rfl⟩
    obtain ⟨a, rfl⟩ := (h cs).mp hcs
    obtain ⟨b, rfl⟩ := (h' ds).mp hds
    exact ⟨(a, b), rfl⟩
  · rintro ⟨⟨a, b⟩, rfl⟩
    exact ⟨enc a, h.mem a, enc' b, h'.mem b, rfl⟩

/-- Either encoding. -/
theorem Spelling.add {enc : α → List σ} {enc' : β → List σ} {L M : Language σ}
    (h : Spelling enc L) (h' : Spelling enc' M) : Spelling (Sum.elim enc enc') (L + M) := by
  intro bs
  rw [Language.mem_add, h bs, h' bs]
  constructor
  · rintro (⟨a, rfl⟩ | ⟨b, rfl⟩)
    · exact ⟨.inl a, rfl⟩
    · exact ⟨.inr b, rfl⟩
  · rintro ⟨a | b, rfl⟩
    · exact .inl ⟨a, rfl⟩
    · exact .inr ⟨b, rfl⟩

/-- Words of the language are the encodings of a list. -/
theorem Spelling.words {enc : α → List σ} {L : Language σ} (h : Spelling enc L)
    (words : List (List σ)) : (∀ word ∈ words, word ∈ L) ↔
    ∃ as : List α, as.map enc = words := by
  have hrange : words ∈ Set.range (List.map enc) ↔ ∀ word ∈ words, word ∈ Set.range enc := by
    rw [Set.range_list_map]
    rfl
  rw [← Set.mem_range, hrange]
  exact forall₂_congr fun word _ => h word

/-- Any number of encodings one behind the other. -/
theorem Spelling.star {enc : α → List σ} {L : Language σ} (h : Spelling enc L) :
    Spelling (fun xs : List α => xs.flatMap enc) L∗ := by
  intro bs
  rw [Language.mem_kstar]
  constructor
  · rintro ⟨words, rfl, hwords⟩
    obtain ⟨as, rfl⟩ := (h.words words).mp hwords
    exact ⟨as, List.flatMap_def⟩
  · rintro ⟨as, rfl⟩
    exact ⟨as.map enc, List.flatMap_def, (h.words _).mpr ⟨as, rfl⟩⟩

/-! ## Readers -/

namespace Reader

/-- A reader that moves on with every element, and crossed some encodings from one end
to the other, has read what they encode. -/
theorem Elements.eq_map_of_reads {m : Reader α} {enc : γ → List UInt8} {dec : γ → α}
    (hreads : ∀ c, Reads (enc c) m (dec c)) (hne : ∀ c, enc c ≠ []) {i : Input}
    (hm : ∀ {p q : Nat} {x : α}, Crosses i p m q x → p < q) {p q : Nat} {xs : List α}
    (h : Elements i m p q xs) {pre post : List UInt8} (cs : List γ)
    (hi : i.bytes = pre ++ cs.flatMap enc ++ post) (hp : p = pre.length)
    (hq : q = p + (cs.flatMap enc).length) : xs = cs.map dec := by
  induction h generalizing pre cs with
  | nil =>
    cases cs with
    | nil => rfl
    | cons c cs =>
      have hpos := List.length_pos_iff.mpr (hne c)
      rw [List.flatMap_cons, List.length_append] at hq
      omega
  | cons hx hxs ih =>
    cases cs with
    | nil =>
      have hmoves := hm hx
      have hle := hxs.le.1
      rw [List.flatMap_nil, List.length_nil] at hq
      omega
    | cons c cs =>
      have hi' : i.bytes = pre ++ enc c ++ (cs.flatMap enc ++ post) := by
        rw [hi, List.flatMap_cons]
        simp only [List.append_assoc]
      have hbehind : i.bytes = pre ++ enc c ++ cs.flatMap enc ++ post := by
        rw [hi', List.append_assoc (pre ++ enc c)]
      have hrun := hreads c i pre _ hi'
      rw [← hp] at hrun
      obtain ⟨rfl, rfl⟩ := hx.runsTo.unique hrun
      rw [List.flatMap_cons, List.length_append] at hq
      rw [List.map_cons]
      congr 1
      apply ih cs hbehind
      · rw [hp, List.length_append]
      · omega

end Reader

end DevBench.Core
