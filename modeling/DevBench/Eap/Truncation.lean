import DevBench.Eap.Residence
import Mathlib.Data.List.Infix

/-!
# Truncated notifications

A notification may arrive cut short. What is read of its beginning is then read of the
whole as well, or it is not read at all: only the length of an open-ended span tells a
payload from its beginnings. So a guard that holds of what arrived holds of what was
sent.
-/

namespace DevBench.Eap

open DevBench.Core DevBench.Core.Traced

variable {run : EapRun} {frame : Option Frame} {p q : List UInt8}

/-! ## What is closed -/

/-- The operand is no length of an open-ended span. -/
def Operand.Bounded (frame : Option Frame) : Operand → Prop
  | spanLen index => ∀ f ∈ frame, ∀ span ∈ f.spans.items[index.toNat]?, span.len ≠ none
  | _ => True

/-- No operand of the expression is. -/
def Expr.Bounded (frame : Option Frame) : Expr → Prop
  | term a => a.Bounded frame
  | add a b => a.Bounded frame ∧ b.Bounded frame

/-- Neither side measures an open-ended span. -/
def Condition.Bounded (frame : Option Frame) (c : Condition) : Prop :=
  c.lhs.Bounded frame ∧ c.rhs.Bounded frame

/-- No remembered value and no guard of the arm measures an open-ended span. -/
def EventArm.Bounded (frame : Option Frame) (arm : EventArm) : Prop :=
  (∀ r ∈ arm.remember.items, r.value.Bounded frame) ∧
    ∀ g ∈ arm.guards.items, g.cond.Bounded frame

/-! ## Reading a beginning -/

/-- A scalar that is read of a beginning lies within it. -/
theorem scalarReadI64_of_extends {ty : UInt8} {v : Int64} (h : q <+: p)
    (hv : scalarReadI64 ty q = some v) : scalarReadI64 ty p = some v := by
  have hlong : scalarWidth ty ≤ q.length := by
    by_contra hshort
    simp [scalarReadI64, Nat.lt_of_not_le hshort] at hv
  have htake : p.take (scalarWidth ty) = q.take (scalarWidth ty) := by
    obtain ⟨rest, rfl⟩ := h
    exact List.take_append_of_le_length hlong
  have hlong' : ¬ p.length < scalarWidth ty := Nat.not_lt.mpr (hlong.trans h.length_le)
  simp only [scalarReadI64, Nat.not_lt.mpr hlong, hlong', htake] at hv ⊢
  exact hv

theorem evalOperand_of_extends {op : Operand} {v : Int64} (hop : op.Bounded frame) (h : q <+: p)
    (hv : (evalOperand op run frame q).value = some v) :
    (evalOperand op run frame p).value = some v := by
  have hlen := h.length_le
  cases op with
  | literal value => exact hv
  | session index => exact hv
  | field index =>
    cases frame with
    | none => exact hv
    | some frame =>
      simp only [evalOperand] at hv ⊢
      cases hread : frame.fields.items[index.toNat]? with
      | none =>
        rw [hread] at hv
        exact hv
      | some read =>
        simp only [hread, value_bind] at hv ⊢
        by_cases hoff : read.offset.toNat > q.length
        · rw [if_pos hoff] at hv
          cases hv
        · rw [if_neg hoff] at hv
          rw [if_neg (by omega)]
          exact scalarReadI64_of_extends (h.drop _) hv
  | spanLen index =>
    cases frame with
    | none => exact hv
    | some frame =>
      simp only [evalOperand] at hv ⊢
      cases hspan : frame.spans.items[index.toNat]? with
      | none =>
        rw [hspan] at hv
        exact hv
      | some span =>
        simp only [hspan, value_bind] at hv ⊢
        by_cases hoff : span.offset.toNat > q.length
        · rw [if_pos hoff] at hv
          cases hv
        · rw [if_neg hoff] at hv
          rw [if_neg (by omega)]
          cases hspanlen : span.len with
          | none => exact absurd hspanlen (hop frame rfl span hspan)
          | some len =>
            simp only [hspanlen] at hv ⊢
            by_cases hshort : len.toNat > q.length - span.offset.toNat
            · rw [if_pos hshort] at hv
              cases hv
            · rw [if_neg hshort] at hv
              rw [if_neg (by omega)]
              exact hv

theorem evalExpr_of_extends {e : Expr} {v : Int64} (he : e.Bounded frame) (h : q <+: p)
    (hv : (evalExpr e run frame q).value = some v) : (evalExpr e run frame p).value = some v := by
  cases e with
  | term a => exact evalOperand_of_extends he h hv
  | add a b =>
    simp only [evalExpr, value_bind] at hv ⊢
    cases ha : (evalOperand a run frame q).value with
    | none =>
      rw [ha] at hv
      cases hv
    | some l =>
      simp only [ha, value_bind, value_pure, Option.map_eq_some_iff] at hv
      obtain ⟨r, hr, hsum⟩ := hv
      simp only [evalOperand_of_extends he.1 h ha, evalOperand_of_extends he.2 h hr, value_bind,
        value_pure, Option.map_some, hsum]

theorem evalCondition_of_extends {c : Condition} (hc : c.Bounded frame) (h : q <+: p)
    (hholds : (evalCondition c run frame q).value = true) :
    (evalCondition c run frame p).value = true := by
  simp only [evalCondition, value_bind] at hholds ⊢
  cases hl : (evalOperand c.lhs run frame q).value with
  | none =>
    rw [hl] at hholds
    cases hholds
  | some l =>
    simp only [hl, value_bind] at hholds
    cases hr : (evalOperand c.rhs run frame q).value with
    | none =>
      rw [hr] at hholds
      cases hholds
    | some r =>
      simp only [hr, value_pure] at hholds
      simp only [evalOperand_of_extends hc.1 h hl, evalOperand_of_extends hc.2 h hr, value_bind,
        value_pure, hholds]

/-- A match that lies within a beginning lies within the whole. -/
theorem frameMatch_of_extends {f : Frame} (h : q <+: p) (hmatch : frameMatch f q = true) :
    frameMatch f p = true := by
  have hlen := h.length_le
  unfold frameMatch at hmatch ⊢
  cases hselect : f.select with
  | none => rfl
  | some select =>
    simp only [hselect] at hmatch ⊢
    by_cases hshort : select.offset.toNat + select.eq.items.length > q.length
    · rw [if_pos hshort] at hmatch
      cases hmatch
    · rw [if_neg hshort] at hmatch
      rw [if_neg (by omega)]
      obtain ⟨rest, rfl⟩ := h
      rw [List.drop_append_of_le_length (by omega), List.take_append_of_le_length
        (by rw [List.length_drop]; omega)]
      exact hmatch

/-! ## Guards -/

/-- The guard a notification takes: of the first arm on its frame the first guard that
holds, under the session its remembers leave. -/
structure TakesGuard (run : EapRun) (arms : List EventArm) (source : UInt8)
    (payload : List UInt8) (f : Frame) (arm : EventArm) (reached : EapRun) (g : GuardedGoto) :
    Prop where
  selected : ∃ index, (selectFrame run.defn source payload).value = some (index, f) ∧
    (arms.find? fun a => a.frame.toNat = index) = some arm
  remembered : (applyRemembers f payload arm.remember.items run).value = reached
  first : (arm.guards.items.find? fun g =>
    (evalCondition g.cond reached (some f) payload).value) = some g

theorem firstGuard_eq_find? (run : EapRun) (f : Frame) (payload : List UInt8)
    (guards : List GuardedGoto) :
    (firstGuard run f payload guards).value =
      (guards.find? fun g => (evalCondition g.cond run (some f) payload).value).map
        GuardedGoto.gotoState := by
  induction guards with
  | nil => rfl
  | cons g guards ih =>
    simp only [firstGuard, value_bind]
    cases hholds : (evalCondition g.cond run (some f) payload).value with
    | true => simp only [List.find?_cons, hholds, if_true, value_pure, Option.map_some]
    | false =>
      simp only [List.find?_cons, hholds, Bool.false_eq_true, if_false]
      exact ih

/-- The machine goes where the guard says. -/
theorem TakesGuard.notifyTarget {arms : List EventArm} {source : UInt8} {payload : List UInt8}
    {f : Frame} {arm : EventArm} {reached : EapRun} {g : GuardedGoto}
    (h : TakesGuard run arms source payload f arm reached g) :
    (notifyTarget run arms source payload).value = (reached, some g.gotoState) := by
  obtain ⟨index, hselect, harm⟩ := h.selected
  have hguard := firstGuard_eq_find? reached f payload arm.guards.items
  rw [h.first] at hguard
  simp only [Eap.notifyTarget, value_bind, hselect, harm, h.remembered, hguard, value_pure]
  rfl

/-- The machine goes where no guard says: none of the selected arm holds, and the arm says where
to go otherwise. -/
structure TakesOtherwise (run : EapRun) (arms : List EventArm) (source : UInt8)
    (payload : List UInt8) (f : Frame) (arm : EventArm) (reached : EapRun) (target : UInt8) :
    Prop where
  selected : ∃ index, (selectFrame run.defn source payload).value = some (index, f) ∧
    (arms.find? fun a => a.frame.toNat = index) = some arm
  remembered : (applyRemembers f payload arm.remember.items run).value = reached
  fails : ∀ g ∈ arm.guards.items, (evalCondition g.cond reached (some f) payload).value = false
  otherwise : arm.otherwise = some target

/-- A notification that sends the machine somewhere has a guard taken, or none. -/
theorem takes_of_notifyTarget {arms : List EventArm} {source : UInt8} {payload : List UInt8}
    {target : UInt8} (h : (notifyTarget run arms source payload).value.2 = some target) :
    ∃ f arm reached, (notifyTarget run arms source payload).value.1 = reached ∧
      ((∃ g, TakesGuard run arms source payload f arm reached g ∧ g.gotoState = target) ∨
        TakesOtherwise run arms source payload f arm reached target) := by
  cases hselect : (selectFrame run.defn source payload).value with
  | none =>
    simp only [Eap.notifyTarget, value_bind, hselect, value_pure] at h
    exact absurd h.symm (Option.some_ne_none _)
  | some selected =>
    obtain ⟨index, f⟩ := selected
    cases harm : arms.find? fun a => a.frame.toNat = index with
    | none =>
      simp only [Eap.notifyTarget, value_bind, hselect, harm, value_pure] at h
      exact absurd h.symm (Option.some_ne_none _)
    | some arm =>
      have htarget : (notifyTarget run arms source payload).value =
          ((applyRemembers f payload arm.remember.items run).value,
            (arm.guards.items.find? fun g => (evalCondition g.cond
              (applyRemembers f payload arm.remember.items run).value (some f) payload).value).map
                GuardedGoto.gotoState <|> arm.otherwise) := by
        simp only [Eap.notifyTarget, value_bind, hselect, harm, firstGuard_eq_find?, value_pure]
      refine ⟨f, arm, _, rfl, ?_⟩
      rw [htarget] at h ⊢
      cases hfirst : arm.guards.items.find? fun g => (evalCondition g.cond
          (applyRemembers f payload arm.remember.items run).value (some f) payload).value with
      | some g =>
        rw [hfirst] at h
        exact .inl ⟨g, ⟨⟨index, hselect, harm⟩, rfl, hfirst⟩, Option.some.inj h⟩
      | none =>
        rw [hfirst] at h
        have hfails := List.find?_eq_none.mp hfirst
        exact .inr ⟨⟨index, hselect, harm⟩, rfl,
          fun g hg => Bool.eq_false_iff.mpr (hfails g hg), h⟩

/-- What is read of the beginning of a payload is read of the payload, and what holds of
the one holds of the other, unless it measures an open-ended span. Wherever the beginning sends
the machine, a guard of the arm was taken or none holds. -/
theorem truncation_law (h : q <+: p) :
    (∀ {op : Operand}, op.Bounded frame → (evalOperand op run frame q).value = none ∨
      (evalOperand op run frame q).value = (evalOperand op run frame p).value) ∧
    (∀ f : Frame, frameMatch f q = true → frameMatch f p = true) ∧
    (∀ {c : Condition}, c.Bounded frame → (evalCondition c run frame q).value = true →
      (evalCondition c run frame p).value = true) ∧
    (∀ {e : Expr}, e.Bounded frame → (evalExpr e run frame q).value = none ∨
      (evalExpr e run frame q).value = (evalExpr e run frame p).value) ∧
    (∀ {arms : List EventArm} {source : UInt8} {f : Frame} {arm : EventArm} {reached : EapRun}
      {g : GuardedGoto}, TakesGuard run arms source q f arm reached g → arm.Bounded (some f) →
        (notifyTarget run arms source q).value = (reached, some g.gotoState) ∧
        (evalCondition g.cond reached (some f) p).value = true) ∧
    ∀ {arms : List EventArm} {source target : UInt8},
      (notifyTarget run arms source q).value.2 = some target →
        ∃ f arm reached, (notifyTarget run arms source q).value.1 = reached ∧
          ((∃ g, TakesGuard run arms source q f arm reached g ∧ g.gotoState = target) ∨
            TakesOtherwise run arms source q f arm reached target) := by
  refine ⟨?_, fun f => frameMatch_of_extends h, fun hc => evalCondition_of_extends hc h, ?_, ?_,
    takes_of_notifyTarget⟩
  · intro op hop
    cases hv : (evalOperand op run frame q).value with
    | none => exact .inl rfl
    | some v => exact .inr (evalOperand_of_extends hop h hv).symm
  · intro e he
    cases hv : (evalExpr e run frame q).value with
    | none => exact .inl rfl
    | some v => exact .inr (evalExpr_of_extends he h hv).symm
  · intro arms source f arm reached g htakes harm
    have hmem := List.mem_of_find?_eq_some htakes.first
    have hholds : (evalCondition g.cond reached (some f) q).value = true := by
      simpa using List.find?_some htakes.first
    exact ⟨htakes.notifyTarget, evalCondition_of_extends (harm.2 g hmem) h hholds⟩

/-- A word behind one byte, and everything. -/
def wordFrame : Frame := ⟨0, none, .ofList [⟨1, 2⟩], .ofList [⟨0, none⟩]⟩

/-- A word that is not 5 ends the run. -/
def wordArm : EventArm :=
  ⟨0, .empty, .ofList [⟨⟨.field 0, .ne, .literal 5⟩, 1⟩], none⟩

/-- A protocol that waits for a word, to go on when it is not 5. -/
def awaitWord : ProtocolDef where
  sources := .empty
  frames := .ofList [wordFrame]
  sessionInitial := .empty
  states := .ofList [
    ⟨.copy (ascii "awaiting"), .active none (.ofList [wordArm]) none⟩,
    ⟨.copy (ascii "heard"), .terminal .pass⟩]

/-- The word of the first three bytes is not 5: the guard is taken, and that of all four is not 5
either. -/
theorem truncation_law_wordFrame :
    TakesGuard ⟨awaitWord, [], 0, 0, false⟩ [wordArm] 0 [7, 6, 0] wordFrame wordArm
        ⟨awaitWord, [], 0, 0, false⟩ ⟨⟨.field 0, .ne, .literal 5⟩, 1⟩ ∧
      (notifyTarget ⟨awaitWord, [], 0, 0, false⟩ [wordArm] 0 [7, 6, 0]).value =
        (⟨awaitWord, [], 0, 0, false⟩, some 1) ∧
      (evalCondition ⟨.field 0, .ne, .literal 5⟩ ⟨awaitWord, [], 0, 0, false⟩ (some wordFrame)
        [7, 6, 0, 9]).value = true := by
  have htakes : TakesGuard ⟨awaitWord, [], 0, 0, false⟩ [wordArm] 0 [7, 6, 0] wordFrame wordArm
      ⟨awaitWord, [], 0, 0, false⟩ ⟨⟨.field 0, .ne, .literal 5⟩, 1⟩ :=
    ⟨⟨0, rfl, rfl⟩, rfl, by decide +kernel⟩
  have hbounded : wordArm.Bounded (some wordFrame) := by
    refine ⟨fun r hr => absurd hr List.not_mem_nil, fun g hg => ?_⟩
    obtain rfl := List.mem_singleton.mp hg
    exact ⟨trivial, trivial⟩
  have hlaw := @truncation_law ⟨awaitWord, [], 0, 0, false⟩ (some wordFrame) [7, 6, 0, 9] [7, 6, 0]
    (List.prefix_append [7, 6, 0] [9])
  exact ⟨htakes, hlaw.2.2.2.2.1 htakes hbounded⟩

end DevBench.Eap
