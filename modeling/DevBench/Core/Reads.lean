import DevBench.Core.Reader
import Mathlib.Data.List.GetD

/-!
# What a reader consumes

`Reads bs m a` says that wherever the bytes `bs` stand in a buffer, the reader
`m` started before them consumes exactly `bs` and returns `a`. The statement
composes along `bind` by concatenation, so a positional format is walked by one
lemma per field. `ReadsSince` is the same for a reader that remembers an earlier
index, and `Accepts.bind` is the converse tool: it takes a successful run apart.
-/

namespace DevBench.Core.Reader

variable {α β : Type}

/-- From index `p` the reader succeeds with `a` and leaves the cursor at `q`. -/
def RunsTo (i : Input) (p : Nat) (m : Reader α) (q : Nat) (a : α) : Prop :=
  ∃ log, m i p = ⟨some a, q, log⟩

/-- The reader turns the bytes `bs` into `a`, whatever stands around them. -/
def Reads (bs : List UInt8) (m : Reader α) (a : α) : Prop :=
  ∀ (i : Input) (pre post : List UInt8), i.bytes = pre ++ bs ++ post →
    RunsTo i pre.length m (pre.length + bs.length) a

/-- A run and what follows it. -/
theorem RunsTo.bind {i : Input} {p q r : Nat} {m : Reader α} {f : α → Reader β} {a : α} {b : β}
    (hm : RunsTo i p m q a) (hf : RunsTo i q (f a) r b) : RunsTo i p (m >>= f) r b := by
  obtain ⟨log₁, h₁⟩ := hm
  obtain ⟨log₂, h₂⟩ := hf
  exact ⟨log₁ ++ log₂, by rw [bind_apply, h₁]; simp only [h₂]⟩

/-- A run that ends with a value has it. -/
theorem RunsTo.value {i : Input} {p q : Nat} {m : Reader α} {a : α} (h : RunsTo i p m q a) :
    (m i p).value = some a := by
  obtain ⟨log, h⟩ := h
  rw [h]

/-- Nothing is read. -/
theorem runsTo_pure (i : Input) (p : Nat) (a : α) : RunsTo i p (pure a) p a := ⟨[], rfl⟩

/-- The position is where the reader is. -/
theorem runsTo_position (i : Input) (p : Nat) : RunsTo i p position p p := ⟨[], rfl⟩

/-- The buffer is the whole input. -/
theorem runsTo_buffer (i : Input) (p : Nat) : RunsTo i p buffer p i := ⟨[], rfl⟩

/-- A span is the bytes between its two indices. -/
theorem runsTo_spanned {i : Input} {pre bs post : List UInt8} (hi : i.bytes = pre ++ bs ++ post)
    (p : Nat) : RunsTo i p (spanned pre.length (pre.length + bs.length)) p bs := by
  refine ⟨[.span pre.length (pre.length + bs.length)], ?_⟩
  have hb : (i.bytes.drop pre.length).take bs.length = bs := by
    rw [hi, List.append_assoc, List.drop_left, List.take_left]
  simp [spanned, bind_apply, record, buffer, pure_apply, hb]

/-- A value without bytes. -/
theorem reads_pure (a : α) : Reads [] (pure a : Reader α) a := fun i pre _ _ =>
  runsTo_pure i pre.length a

/-- An access that is only recorded. -/
theorem reads_record (a : Access) : Reads [] (record a) () := fun _ _ _ _ => ⟨[a], rfl⟩

/-- A reader that looks at the whole input may know what stands in front of it. -/
theorem Reads.buffer {bs : List UInt8} {f : Input → Reader α} {a : α}
    (h : ∀ (i : Input) (pre post : List UInt8), i.bytes = pre ++ bs ++ post →
      Reads bs (f i) a) : Reads bs (Reader.buffer >>= f) a := fun i pre post hi =>
  (runsTo_buffer i pre.length).bind (h i pre post hi i pre post hi)

/-- Readers in sequence consume their strings in sequence. -/
theorem Reads.bind {bs cs : List UInt8} {m : Reader α} {f : α → Reader β} {a : α} {b : β}
    (hm : Reads bs m a) (hf : Reads cs (f a) b) : Reads (bs ++ cs) (m >>= f) b := by
  intro i pre post hi
  have h₁ := hm i pre (cs ++ post) (by simpa using hi)
  have h₂ := hf i (pre ++ bs) post (by simpa using hi)
  rw [List.length_append] at h₂
  rw [List.length_append, ← Nat.add_assoc]
  exact h₁.bind h₂

/-- A step that consumes nothing. -/
theorem Reads.bind_nil {bs : List UInt8} {m : Reader α} {f : α → Reader β} {a : α} {b : β}
    (hm : Reads [] m a) (hf : Reads bs (f a) b) : Reads bs (m >>= f) b := hm.bind hf

/-- A last step that only rearranges the value. -/
theorem Reads.map {bs : List UInt8} {m : Reader α} {a : α} (hm : Reads bs m a) (f : α → β) :
    Reads bs (m >>= fun x => pure (f x)) (f a) := by
  have h : Reads (bs ++ []) (m >>= fun x => pure (f x)) (f a) := hm.bind (reads_pure (f a))
  rwa [List.append_nil] at h

/-- A bounds test passes before the bytes it asks for. -/
theorem RunsTo.requireMod {bs : List UInt8} {m : Reader α} {a : α} {i : Input}
    {pre post : List UInt8} (hi : i.bytes = pre ++ bs ++ post) {count modulus : Nat}
    (hmod : i.len < modulus) (h : count ≤ bs.length)
    (hm : RunsTo i pre.length m (pre.length + bs.length) a) :
    RunsTo i pre.length (requireMod modulus count >>= fun _ => m) (pre.length + bs.length) a := by
  have hlen : i.len = pre.length + bs.length + post.length := by
    simp [Input.len, hi, Nat.add_assoc]
  have ht : ¬ (pre.length + count) % modulus > i.len := by
    rw [Nat.mod_eq_of_lt (by omega)]
    omega
  have hr : RunsTo i pre.length (Reader.requireMod modulus count) pre.length () :=
    ⟨[.test pre.length count modulus], by simp [Reader.requireMod, ht]⟩
  exact hr.bind hm

/-- A test for bytes that are there. -/
theorem Reads.require {bs : List UInt8} {m : Reader α} {a : α} (hm : Reads bs m a) {count : Nat}
    (h : count ≤ bs.length) : Reads bs (require count >>= fun _ => m) a := fun i pre post hi =>
  RunsTo.requireMod hi i.len_lt h (hm i pre post hi)

/-- The same with the wide sum. -/
theorem Reads.requireWide {bs : List UInt8} {m : Reader α} {a : α} (hm : Reads bs m a)
    {count : Nat} (h : count ≤ bs.length) :
    Reads bs (requireWide count >>= fun _ => m) a := fun i pre post hi =>
  RunsTo.requireMod hi (i.lt_of_lt_two_pow i.len_lt) h (hm i pre post hi)

/-- Bytes that are stepped over. -/
theorem reads_skip (bs : List UInt8) : Reads bs (skip bs.length) () := by
  intro i pre post hi
  have hl := i.len_lt
  have hlen : i.len = pre.length + bs.length + post.length := by
    simp [Input.len, hi, Nat.add_assoc]
  have hadd : i.add pre.length bs.length = pre.length + bs.length :=
    Nat.mod_eq_of_lt (by omega)
  exact ⟨[.move pre.length (pre.length + bs.length)], by simp [skip, hadd]⟩

/-- A copy of bytes ahead of the cursor, still to be stepped over. -/
theorem Reads.copyAhead {front back : List UInt8} {count : Nat} (v : Vector UInt8 count)
    {offset capacity : Nat} {f : Vector UInt8 count → Reader α} {a : α}
    (hf : Reads (front ++ v.toList ++ back) (f v) a) :
    Reads (front ++ v.toList ++ back)
      (Reader.copyAhead front.length count offset capacity >>= f) a := by
  intro i pre post hi
  have hv : (Vector.ofFn fun k : Fin count =>
      i.bytes.getD (pre.length + front.length + k) 0) = v := by
    apply Vector.ext
    intro k hk
    have hb : i.bytes = (pre ++ front) ++ (v.toList ++ (back ++ post)) := by
      simp only [hi, List.append_assoc]
    rw [Vector.getElem_ofFn, hb, ← List.length_append, List.getD_append_right _ _ _ _ (by simp),
      Nat.add_sub_cancel_left, List.getD_append _ _ _ _ (by simpa using hk),
      List.getD_eq_getElem _ _ (by simpa using hk), Vector.getElem_toList]
  have hcopy : RunsTo i pre.length (Reader.copyAhead front.length count offset capacity)
      pre.length v := ⟨_, by simp only [Reader.copyAhead, hv]; rfl⟩
  exact hcopy.bind (hf i pre post hi)

/-- A copy of the bytes at the cursor, still to be stepped over. -/
theorem Reads.copy {bs : List UInt8} {offset capacity : Nat}
    {f : Vector UInt8 bs.length → Reader α} {a : α} (hf : Reads bs (f ⟨bs.toArray, rfl⟩) a) :
    Reads bs (Reader.copyAhead 0 bs.length offset capacity >>= f) a := by
  have he : bs = [] ++ (⟨bs.toArray, rfl⟩ : Vector UInt8 bs.length).toList ++ [] :=
    (List.append_nil bs).symm
  have h : Reads ([] ++ (⟨bs.toArray, rfl⟩ : Vector UInt8 bs.length).toList ++ [])
      (Reader.copyAhead 0 bs.length offset capacity >>= f) a :=
    Reads.copyAhead _ (he ▸ hf)
  rwa [← he] at h

/-- Bytes that are taken. -/
theorem reads_take {count : Nat} (v : Vector UInt8 count) : Reads v.toList (take count) v := by
  have hskip : Reads v.toList (skip count >>= fun _ => (pure v : Reader _)) v := by
    have h := (reads_skip v.toList).map fun _ => v
    rwa [Vector.length_toList] at h
  have he : ([] : List UInt8) ++ v.toList ++ [] = v.toList := List.append_nil _
  rw [← he] at hskip ⊢
  exact Reads.copyAhead v hskip

/-- One of them. -/
theorem reads_next (b : UInt8) : Reads [b] next b := (reads_take #v[b]).map fun v => v[0]

/-- The same, tested for first. -/
theorem reads_byte (b : UInt8) : Reads [b] byte b := by
  intro i pre post hi
  have hlen : ¬ i.len ≤ pre.length := by simp [Input.len, hi]
  have hr : RunsTo i pre.length remains pre.length () := ⟨[], by simp [remains, hlen]⟩
  exact hr.bind (reads_next b i pre post hi)

/-- Elements read one after the other into an array. -/
theorem reads_fill {γ : Type} {m : Reader α} {enc : γ → List UInt8} {dec : γ → α}
    (capacity : Nat) : ∀ (xs : List γ) (offset : Nat), (∀ x ∈ xs, Reads (enc x) m (dec x)) →
      Reads (xs.flatMap enc) (fill m capacity offset xs.length)
        ⟨xs.map dec, List.length_map dec⟩
  | [], _, _ => reads_pure _
  | x :: xs, offset, h => by
      have hx := h x List.mem_cons_self
      have hxs := reads_fill capacity xs (offset + 1) fun y hy => h y (List.mem_cons_of_mem _ hy)
      rw [List.flatMap_cons]
      exact Reads.bind_nil (reads_record _) (hx.bind (hxs.map _))

/-- A byte string has no more bytes than an index can count. -/
theorem Reads.of_length {bs : List UInt8} {m : Reader α} {a : α}
    (h : bs.length < 2 ^ 64 → Reads bs m a) : Reads bs m a := by
  intro i pre post hi
  have hlen := i.lt_of_lt_two_pow i.len_lt
  simp only [Input.len, hi, List.length_append] at hlen
  exact h (by omega) i pre post hi

/-! ## Looking back -/

/-- Started behind the bytes `bs` and told where they began, the reader consumes
`cs` and returns `a`. -/
def ReadsSince (bs cs : List UInt8) (m : Nat → Reader α) (a : α) : Prop :=
  ∀ (i : Input) (pre post : List UInt8), i.bytes = pre ++ bs ++ cs ++ post →
    RunsTo i (pre.length + bs.length) (m pre.length) (pre.length + bs.length + cs.length) a

/-- An index noted is where the bytes read since began. -/
theorem Reads.position {cs : List UInt8} {m : Nat → Reader α} {a : α}
    (h : ReadsSince [] cs m a) : Reads cs (Reader.position >>= m) a := fun i pre post hi =>
  (runsTo_position i pre.length).bind (h i pre post (by simpa using hi))

/-- What a reader without memory consumes is seen by the one after it. -/
theorem ReadsSince.bind {bs cs ds : List UInt8} {m : Reader α} {f : α → Nat → Reader β} {a : α}
    {b : β} (hm : Reads cs m a) (hf : ReadsSince (bs ++ cs) ds (f a) b) :
    ReadsSince bs (cs ++ ds) (fun start => m >>= fun a => f a start) b := by
  intro i pre post hi
  have h₁ := hm i (pre ++ bs) (ds ++ post) (by simpa using hi)
  have h₂ := hf i pre post (by simpa using hi)
  simp only [List.length_append, ← Nat.add_assoc] at h₁ h₂ ⊢
  exact h₁.bind h₂

/-- What follows a reader with memory need not share it. -/
theorem ReadsSince.bind_reads {bs cs ds : List UInt8} {m : Nat → Reader α} {f : α → Reader β}
    {a : α} {b : β} (hm : ReadsSince bs cs m a) (hf : Reads ds (f a) b) :
    ReadsSince bs (cs ++ ds) (fun start => m start >>= f) b := by
  intro i pre post hi
  have h₁ := hm i pre (ds ++ post) (by simpa using hi)
  have h₂ := hf i (pre ++ bs ++ cs) post (by simpa using hi)
  simp only [List.length_append, ← Nat.add_assoc] at h₁ h₂ ⊢
  exact h₁.bind h₂

/-- A last step that only rearranges the value. -/
theorem ReadsSince.map {bs cs : List UInt8} {m : Nat → Reader α} {a : α}
    (hm : ReadsSince bs cs m a) (f : α → β) :
    ReadsSince bs cs (fun start => m start >>= fun x => pure (f x)) (f a) := by
  have h : ReadsSince bs (cs ++ []) (fun start => m start >>= fun x => pure (f x)) (f a) :=
    hm.bind_reads (reads_pure (f a))
  rwa [List.append_nil] at h

/-! ## Taking a run apart -/

/-- A run from `p` to `q` that succeeds, with no bounds test wrapping around. -/
structure Accepts (i : Input) (p : Nat) (m : Reader α) (q : Nat) (a : α) : Prop where
  inside : p ≤ i.len
  runs : ∃ log, m i p = ⟨some a, q, log⟩ ∧ Unwrapped log

/-- Such a run that takes the cursor forward, inside the buffer. -/
structure Crosses (i : Input) (p : Nat) (m : Reader α) (q : Nat) (a : α) : Prop where
  accepts : Accepts i p m q a
  le : p ≤ q
  inside : q ≤ i.len

/-- A run has one end. -/
theorem RunsTo.unique {i : Input} {p q q' : Nat} {m : Reader α} {a a' : α}
    (h : RunsTo i p m q a) (h' : RunsTo i p m q' a') : q = q' ∧ a = a' := by
  obtain ⟨log, h⟩ := h
  obtain ⟨log', h'⟩ := h'
  cases h.symm.trans h'
  exact ⟨rfl, rfl⟩

/-- A sequence runs when the first reader runs to where the second goes on. -/
theorem runsTo_bind {i : Input} {p r : Nat} {m : Reader α} {f : α → Reader β} {b : β} :
    RunsTo i p (m >>= f) r b ↔ ∃ q a, RunsTo i p m q a ∧ RunsTo i q (f a) r b := by
  constructor
  · rintro ⟨log, h⟩
    rw [bind_apply] at h
    rcases hfirst : m i p with ⟨_ | a, q, first⟩
    · rw [hfirst] at h
      cases h
    · rw [hfirst] at h
      simp only at h
      rcases hrest : f a i q with ⟨value, pos, rest⟩
      rw [hrest] at h
      cases h
      exact ⟨q, a, ⟨first, hfirst⟩, rest, hrest⟩
  · rintro ⟨q, a, hm, hf⟩
    exact hm.bind hf

/-- A value that was only returned. -/
theorem RunsTo.pure {i : Input} {p q : Nat} {a b : α} (h : RunsTo i p (pure a : Reader α) q b) :
    p = q ∧ a = b := (runsTo_pure i p a).unique h

/-- A value that was changed behind a run. -/
theorem RunsTo.map {i : Input} {p q : Nat} {m : Reader α} {f : α → β} {b : β}
    (h : RunsTo i p (m >>= fun a => Pure.pure (f a)) q b) : ∃ a, RunsTo i p m q a ∧ f a = b := by
  obtain ⟨r, a, hm, h⟩ := runsTo_bind.mp h
  obtain ⟨rfl, rfl⟩ := h.pure
  exact ⟨a, hm, rfl⟩

/-- An access that was recorded in front. -/
theorem RunsTo.record {i : Input} {p q : Nat} {e : Access} {f : Unit → Reader α} {a : α}
    (h : RunsTo i p (Reader.record e >>= f) q a) : RunsTo i p (f ()) q a := by
  obtain ⟨r, _, hrecord, h⟩ := runsTo_bind.mp h
  obtain ⟨hr, -⟩ := hrecord.unique ⟨_, rfl⟩
  rwa [hr] at h

/-- A look at the position in front. -/
theorem RunsTo.position {i : Input} {p q : Nat} {f : Nat → Reader α} {a : α}
    (h : RunsTo i p (Reader.position >>= f) q a) : RunsTo i p (f p) q a := by
  obtain ⟨r, n, hn, h⟩ := runsTo_bind.mp h
  obtain ⟨hr, hp⟩ := hn.unique (runsTo_position i p)
  rwa [hr, hp] at h

/-- A look at the input in front. -/
theorem RunsTo.buffer {i : Input} {p q : Nat} {f : Input → Reader α} {a : α}
    (h : RunsTo i p (Reader.buffer >>= f) q a) : RunsTo i p (f i) q a := by
  obtain ⟨r, j, hj, h⟩ := runsTo_bind.mp h
  obtain ⟨hr, hi⟩ := hj.unique (runsTo_buffer i p)
  rwa [hr, hi] at h

/-- A failure has no end. -/
theorem not_runsTo_fail {i : Input} {p q : Nat} {a : α} : ¬ RunsTo i p fail q a := by
  rintro ⟨log, h⟩
  cases h

/-- A value was read up to where the reader stopped. -/
theorem runsTo_of_value {i : Input} {p : Nat} {m : Reader α} {a : α}
    (h : (m i p).value = some a) : RunsTo i p m (m i p).pos a := by
  refine ⟨(m i p).log, ?_⟩
  rw [← h]

/-- A byte read stands at the cursor. -/
theorem RunsTo.byte {i : Input} {p q : Nat} {b : UInt8} (h : RunsTo i p byte q b) :
    ∃ pre post, i.bytes = pre ++ b :: post ∧ p = pre.length ∧ q = p + 1 := by
  obtain ⟨log, h⟩ := h
  have hp : p < i.len := by
    by_contra hge
    have hnone : (Reader.byte i p).value = none := by
      simp [Reader.byte, bind_apply, remains, Nat.le_of_not_lt hge]
    rw [h] at hnone
    cases hnone
  have hsplit : i.bytes = i.bytes.take p ++ i.bytes[p] :: i.bytes.drop (p + 1) := by
    rw [List.getElem_cons_drop, List.take_append_drop]
  have hlen : (i.bytes.take p).length = p := List.length_take_of_le (Nat.le_of_lt hp)
  have hrun := reads_byte i.bytes[p] i (i.bytes.take p) (i.bytes.drop (p + 1)) (by simp)
  rw [hlen] at hrun
  obtain ⟨hq, hb⟩ := hrun.unique ⟨log, h⟩
  refine ⟨i.bytes.take p, i.bytes.drop (p + 1), ?_, hlen.symm, hq.symm⟩
  rw [← hb]
  exact hsplit

/-- Inside the input, where nothing wrapped around. -/
theorem Accepts.of_value {i : Input} {p : Nat} {m : Reader α} {a : α} (hp : p ≤ i.len)
    (hvalue : (m i p).value = some a) (hlog : Unwrapped (m i p).log) :
    Accepts i p m (m i p).pos a := by
  refine ⟨hp, (m i p).log, ?_, hlog⟩
  rw [← hvalue]

/-- To cross is to run. -/
theorem Crosses.runsTo {i : Input} {p q : Nat} {m : Reader α} {a : α}
    (h : Crosses i p m q a) : RunsTo i p m q a := by
  obtain ⟨log, hrun, -⟩ := h.accepts.runs
  exact ⟨log, hrun⟩

/-- A failure accepts nothing. -/
theorem not_accepts_fail {i : Input} {p q : Nat} {a : α} : ¬ Accepts i p fail q a := by
  rintro ⟨-, log, hrun, -⟩
  cases hrun

/-- Where nothing is read the end is the start. -/
theorem Accepts.pure {i : Input} {p q : Nat} {a b : α}
    (h : Accepts i p (pure a : Reader α) q b) : p = q ∧ a = b := by
  obtain ⟨-, log, hrun, -⟩ := h
  exact (runsTo_pure i p a).unique ⟨log, hrun⟩

/-- An accepted sequence is one reader crossing its bytes and the other accepting
what stands behind them. -/
theorem Accepts.bind {i : Input} {p r : Nat} {m : Reader α} {f : α → Reader β} {b : β}
    (hm : SoundFrom i p m) (h : Accepts i p (m >>= f) r b) :
    ∃ q a, Crosses i p m q a ∧ Accepts i q (f a) r b := by
  obtain ⟨hin, log, hrun, hlog⟩ := h
  obtain ⟨-, hpos⟩ := hm p (Nat.le_refl p) hin
  rw [bind_apply] at hrun
  rcases hfirst : m i p with ⟨_ | a, q, first⟩
  · rw [hfirst] at hrun
    cases hrun
  · rw [hfirst] at hrun hpos
    simp only at hrun
    rcases hrest : f a i q with ⟨value, pos, rest⟩
    rw [hrest] at hrun
    cases hrun
    obtain ⟨hlog₁, hlog₂⟩ := unwrapped_append.mp hlog
    obtain ⟨hle, hq⟩ := hpos hlog₁
    exact ⟨q, a, ⟨⟨hin, first, hfirst, hlog₁⟩, hle, hq⟩, hq, rest, hrest, hlog₂⟩

/-- A look at the cursor is behind the reader that follows it. -/
theorem Accepts.position {i : Input} {p q : Nat} {f : Nat → Reader α} {a : α}
    (h : Accepts i p (Reader.position >>= f) q a) : Accepts i p (f p) q a := ⟨h.inside, h.runs⟩

/-- The input may be looked at in front. -/
theorem Accepts.buffer {i : Input} {p q : Nat} {f : Input → Reader α} {a : α}
    (h : Accepts i p (Reader.buffer >>= f) q a) : Accepts i p (f i) q a := ⟨h.inside, h.runs⟩

/-- An access may be recorded in front. -/
theorem Accepts.record {i : Input} {p q : Nat} {e : Access} {f : Unit → Reader α} {a : α}
    (h : Accepts i p (Reader.record e >>= f) q a) : Accepts i p (f ()) q a := by
  obtain ⟨hin, log, hrun, hlog⟩ := h
  rw [bind_apply] at hrun
  rcases hrest : f () i p with ⟨value, pos, rest⟩
  simp only [Reader.record, hrest] at hrun
  cases hrun
  exact ⟨hin, rest, hrest, (unwrapped_cons.mp hlog).2⟩

/-- Bytes may be looked back at in front. -/
theorem Accepts.spanned {i : Input} {p q start stop : Nat} {f : List UInt8 → Reader α} {a : α}
    (h : Accepts i p (Reader.spanned start stop >>= f) q a) :
    Accepts i p (f ((i.bytes.drop start).take (stop - start))) q a := by
  rw [Reader.spanned, bind_assoc] at h
  have hspan := h.record
  exact ⟨hspan.inside, hspan.runs⟩

/-- One element after the other, from `p` to `q`. -/
inductive Elements (i : Input) (m : Reader α) : Nat → Nat → List α → Prop
  | nil {p : Nat} (h : p ≤ i.len) : Elements i m p p []
  | cons {p q r : Nat} {x : α} {xs : List α} (hx : Crosses i p m q x)
      (hxs : Elements i m q r xs) : Elements i m p r (x :: xs)

/-- Elements take the reader forward, inside the input. -/
theorem Elements.le {i : Input} {m : Reader α} {p q : Nat} {xs : List α}
    (h : Elements i m p q xs) : p ≤ q ∧ q ≤ i.len := by
  induction h with
  | nil h => exact ⟨Nat.le_refl _, h⟩
  | cons hx _ ih => exact ⟨Nat.le_trans hx.le ih.1, ih.2⟩

/-- They end at one place. -/
theorem Elements.unique {i : Input} {m : Reader α} {p q q' : Nat} {xs : List α}
    (h : Elements i m p q xs) (h' : Elements i m p q' xs) : q = q' := by
  induction h with
  | nil => cases h'; rfl
  | cons hx _ ih =>
    cases h' with
    | cons hx' hxs' =>
      obtain ⟨rfl, -⟩ := hx.runsTo.unique hx'.runsTo
      exact ih hxs'

/-- An array filled is its elements crossed. -/
theorem Accepts.elements {m : Reader α} (hm : Sound m) {i : Input} {capacity : Nat} :
    ∀ {count offset p q : Nat} {xs : {xs : List α // xs.length = count}},
      offset + count ≤ capacity → Accepts i p (fill m capacity offset count) q xs →
      Elements i m p q xs.1
  | 0, offset, p, q, xs, _, h => by
    have hin := h.inside
    obtain ⟨rfl, rfl⟩ := h.pure
    exact .nil hin
  | count + 1, offset, p, q, xs, hcap, h => by
    have hrest : Sound (fill m capacity (offset + 1) count) := sound_fill hm (by omega)
    obtain ⟨r, x, hx, h⟩ := h.record.bind (hm i p)
    obtain ⟨s, ys, hys, h⟩ := h.bind (hrest i r)
    obtain ⟨rfl, rfl⟩ := h.pure
    exact .cons hx (Accepts.elements hm (by omega) hys.accepts)

end DevBench.Core.Reader
