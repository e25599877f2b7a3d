import Mathlib.Data.List.Forall2
import DevBench.Bridge.Frames
import DevBench.Eap.Outlines

/-!
# Protocol steps as conversations

A RunProtocol step is a conversation of its protocol: what the log tells of it, the writes
handed to the host and the arrivals and silences behind them, in their order, is what the
protocol says when it meets these, and the verdict reported is the protocol's own. The protocol
declares every state it goes to, and every call finds a connection: of any other run the program
itself says nothing.
-/

namespace DevBench.Bridge

open DevBench.Core DevBench.Core.Program DevBench.Eap DevBench.Bench DevBench.Wire Relation

variable {defn : ProtocolDef} {entryState : UInt8} {run : EapRun}

/-! ## Conversations -/

/-- What a protocol says, and what it meets. -/
inductive Said where
  | wrote (source : UInt8) (withResponse : Bool) (payload : List UInt8)
  | met (ev : Event)

/-- What an instruction says. -/
def utter : EapStep → List Said
  | .write source withResponse payload _ => [.wrote source withResponse payload]
  | .wait _ => []
  | .done _ _ => []

/-- The protocol has come to a point and an instruction; behind it lies what was said. -/
inductive Conversation (defn : ProtocolDef) (entryState : UInt8) :
    Resting UInt8 Memory → EapStep → List Said → Prop
  | nil : Conversation defn entryState (defn.begin entryState)
      (defn.entry entryState defn.sessionInitial.items) []
  | snoc {c : Resting UInt8 Memory} {step : EapStep} {spoken : List Said} (ev : Event)
      (before : Conversation defn entryState c step spoken) (hgoes : c.ended = false) :
      Conversation defn entryState (defn.flowchart.step c ev) (defn.instruction c ev)
        (spoken ++ utter step ++ [.met ev])

/-- A conversation rests where the declared transitions lead. -/
theorem Conversation.leads {c : Resting UInt8 Memory} {step : EapStep} {spoken : List Said}
    (h : Conversation defn entryState c step spoken) :
    ReflTransGen defn.Leads entryState c.location := by
  induction h with
  | nil => exact .refl
  | @snoc c step spoken ev before hgoes ih =>
    have hpath := leads_of_path (Flowchart.path_play (F := defn.flowchart) c [ev])
    exact ih.trans hpath

/-- A conversation of a closed protocol rests in a state it declares. -/
theorem Conversation.declared {c : Resting UInt8 Memory} {step : EapStep} {spoken : List Said}
    (h : Conversation defn entryState c step spoken) (hclosed : defn.Closed)
    (hentry : entryState.toNat < defn.states.items.length) :
    ∃ state, defn.states.items[c.location.toNat]? = some state :=
  ⟨_, List.getElem?_eq_getElem (hclosed.lt_of_path hentry h.leads)⟩

/-! ## The log -/

/-- What the log tells of a protocol run, with the transcript's entry. -/
inductive Line where
  | asked (live withResponse : Bool) (payload : List UInt8) (entry : TranscriptEntry)
  | heard (entry : TranscriptEntry)
  | silence
  deriving DecidableEq, Repr

/-- What a mark tells, on top of the log before it. -/
def lineOf : Mark → List Mark → Option Line
  | .gatt (.write _ payload) live, .transcript entry :: _ => some (.asked live true payload entry)
  | .gatt (.writeWithoutResponse _ payload) live, .transcript entry :: _ =>
    some (.asked live false payload entry)
  | .waited (.protocolQueue _) true _, .transcript entry :: _ => some (.heard entry)
  | .waited (.protocolQueue _) false _, _ => some .silence
  | _, _ => none

/-- What the log tells, in order. -/
def lines : List Mark → List Line
  | [] => []
  | m :: log => lines log ++ (lineOf m log).toList

/-- A write is handed to the host over a connection. -/
def Line.Linked : Line → Prop
  | asked live .. => live = true
  | _ => True

/-- Where every call found a connection, so did the writes. -/
theorem linked_of_live : ∀ {log : List Mark}, (∀ m ∈ log, m.Live) → ∀ l ∈ lines log, l.Linked
  | [], _, l, hl => absurd hl List.not_mem_nil
  | m :: log, hlive, l, hl => by
    rcases List.mem_append.mp hl with hbefore | hnow
    · exact linked_of_live (fun m' hm' => hlive m' (List.mem_cons_of_mem _ hm')) l hbefore
    · have hline := Option.mem_toList.mp hnow
      have hm := hlive m List.mem_cons_self
      unfold lineOf at hline
      split at hline
      · exact Option.some.inj hline ▸ hm
      · exact Option.some.inj hline ▸ hm
      all_goals cases hline <;> trivial

/-- The entry transcribes this of a source now. -/
def Transcribes (defn : ProtocolDef) (direction kind source : UInt8) (payload : List UInt8)
    (entry : TranscriptEntry) : Prop :=
  ∃ now, entry = ⟨now, direction, kind, defn.sources.items[source.toNat]?.map (·.serviceUuid),
    defn.sources.items[source.toNat]?.map (·.characteristicUuid), 0, .clamp payload⟩

/-- What the log tells is this. An arrival is transcribed as a whole. -/
inductive Tells (defn : ProtocolDef) : Line → Said → Prop
  | asked {source : UInt8} {live withResponse : Bool} {payload : List UInt8}
      {entry : TranscriptEntry}
      (h : Transcribes defn bleGattDirOut bleGattEvtWriteRequest source payload entry) :
      Tells defn (.asked live withResponse payload entry) (.wrote source withResponse payload)
  | heard {source : UInt8} {payload : List UInt8} {entry : TranscriptEntry}
      (h : Transcribes defn bleGattDirIn bleGattEvtNotification source payload entry)
      (hwhole : entry.payload.items = payload) :
      Tells defn (.heard entry) (.met (.notify source payload))
  | silence : Tells defn .silence (.met .timeout)

/-- Since a log that told so much, this was said. -/
def Spoken (defn : ProtocolDef) (past : List Line) (spoken : List Said) (s : BridgeState) : Prop :=
  ∃ told, lines s.log = past ++ told ∧ List.Forall₂ (Tells defn) told spoken

variable {past : List Line} {spoken : List Said} {s s' : BridgeState}

/-- One more line that tells the next thing said. -/
theorem Spoken.snoc {l : Line} {x : Said} (h : Spoken defn past spoken s)
    (hlog : lines s'.log = lines s.log ++ [l]) (hl : Tells defn l x) :
    Spoken defn past (spoken ++ [x]) s' := by
  obtain ⟨told, htold, hspoken⟩ := h
  refine ⟨told ++ [l], ?_, List.rel_append hspoken (.cons hl .nil)⟩
  rw [hlog, htold, List.append_assoc]

/-! ## Verdicts -/

/-- What is reported of a protocol beside the kind of the outcome. -/
def verdictAt (finalState : List UInt8) (verdict : RunOutcome) : Option ProtocolOutcome :=
  some ⟨.copy finalState, (outcomeOf verdict).reported⟩

/-- The outcome is the end of a conversation, since a log that told so much. -/
inductive Concludes (defn : ProtocolDef) (entryState : UInt8) (past : List Line) (s : BridgeState)
    (o : BridgeOutcome) : Prop
  /-- The protocol came to its own end. -/
  | ended {c : Resting UInt8 Memory} {finalState : List UInt8} {verdict : RunOutcome}
      {spoken : List Said} (h : Conversation defn entryState c (.done finalState verdict) spoken)
      (hspoken : Spoken defn past spoken s) (hended : c.ended = true)
      (hdone : defn.entry c.location c.store.session = .done finalState verdict)
      (hkind : o.kind = outcomeOf verdict) (hprotocol : o.protocol = verdictAt finalState verdict)
  /-- It met a silence when the time of the step was over. -/
  | abandoned {c : Resting UInt8 Memory} {step : EapStep} {spoken : List Said}
      {state : State} (h : Conversation defn entryState c step spoken)
      (hspoken : Spoken defn past (spoken ++ utter step ++ [.met .timeout]) s)
      (hgoes : c.ended = false) (hkind : o.kind = .timedOut)
      (hstate : defn.states.items[c.location.toNat]? = some state)
      (hprotocol : o.protocol = verdictAt state.name.str .timedOut)
  /-- What it had to write could not be written; the host was asked to or was not. -/
  | writeFailed {c : Resting UInt8 Memory} {step : EapStep} {spoken : List Said}
      {state : State} (h : Conversation defn entryState c step spoken)
      (hspoken : Spoken defn past spoken s ∨ Spoken defn past (spoken ++ utter step) s)
      (hwrites : utter step ≠ []) (hgoes : c.ended = false) (hkind : o.kind ≠ .pass)
      (hstate : defn.states.items[c.location.toNat]? = some state)
      (hprotocol : o.protocol = verdictAt state.name.str (.fail []))

/-! ## The instructions -/

/-- The machine's step ends the run. -/
def IsDone : EapStep → Prop
  | .done .. => True
  | .write .. => False
  | .wait _ => False

/-- Entering a state that ends the run says that it is done, entering any other does not. -/
theorem entry_done (defn : ProtocolDef) (s : UInt8) (session : List Int64) :
    IsDone (defn.entry s session) ↔ defn.ends s = true := by
  cases hkind : defn.kindOf s with
  | terminal outcome =>
    have hends : defn.ends s = true := by simp only [ProtocolDef.ends, hkind]
    cases outcome with
    | pass =>
      obtain ⟨name, hentry⟩ := entry_pass hkind session
      simp [hentry, hends, IsDone]
    | fail =>
      obtain ⟨name, reason, hentry⟩ := entry_fail hkind session
      simp [hentry, hends, IsDone]
  | active onEnter arms timeout =>
    cases hends : defn.ends s with
    | true =>
      obtain ⟨name, reason, hentry⟩ := entry_refused hkind hends session
      simp [hentry, IsDone]
    | false =>
      rw [entry_active hkind hends]
      cases onEnter <;> simp [entryStep, IsDone]

/-- The instruction behind a move is done exactly when the move ends the run, and then it is
that of the state entered. -/
theorem instruction_done {c : Resting UInt8 Memory} (hc : c.ended = false) (ev : Event) :
    let c' := defn.flowchart.step c ev
    (c'.ended = false ∧ ¬ IsDone (defn.instruction c ev)) ∨
      (c'.ended = true ∧ IsDone (defn.instruction c ev) ∧
        defn.instruction c ev = defn.entry c'.location c'.store.session) := by
  simp only [Flowchart.step, ProtocolDef.instruction, ProtocolDef.flowchart, hc,
    Bool.false_eq_true, if_false]
  rcases (defn.move c.location ev).run c.store with ⟨m, _ | s⟩
  · exact .inl ⟨rfl, id⟩
  · have hdone := entry_done defn s m.session
    cases hends : defn.ends s with
    | true => exact .inr ⟨hends, hdone.mpr hends, rfl⟩
    | false =>
      refine .inl ⟨hends, fun h => ?_⟩
      rw [hdone.mp h] at hends
      cases hends

/-! ## What tells nothing -/

/-- What is quietly logged is no line. -/
theorem lines_quiet {m : Mark} (hm : m.Quiet) (log : List Mark) : lines (m :: log) = lines log := by
  cases m <;> first | exact List.append_nil _ | exact hm.elim

/-- Nor is a wait that is not for the machine. -/
theorem lines_waited {site : Site} (hsite : ∀ calls, site ≠ .protocolQueue calls)
    (taken live : Bool) (log : List Mark) : lines (.waited site taken live :: log) = lines log := by
  cases site with
  | protocolQueue calls => exact absurd rfl (hsite calls)
  | _ => exact List.append_nil _

/-- A call that writes nothing. -/
def GattCall.Writeless : GattCall → Prop
  | discover _ | read _ | subscribe .. | unsubscribe _ => True
  | write .. | writeWithoutResponse .. => False

/-- Nor is a call that writes nothing. -/
theorem lines_gatt {call : GattCall} (hcall : call.Writeless) (live : Bool) (log : List Mark) :
    lines (.gatt call live :: log) = lines log := by
  cases call <;> first | exact List.append_nil _ | exact hcall.elim

/-- The log has told so much. -/
def Told (past : List Line) (s : BridgeState) : Prop := lines s.log = past

/-- So the code without calls tells nothing. -/
theorem keptWithoutCalls_told (past : List Line) : KeptWithoutCalls (Told past) where
  same {s s'} hcore h := by
    have hlog : s'.log = s.log := congrArg (fun c => c.2.2.2.2) hcore
    rw [Told, hlog]
    exact h
  quiet hm h := (lines_quiet hm _).trans h
  idle {s site} taken hsite h := by
    refine (lines_waited (fun calls hcalls => ?_) taken s.live s.log).trans h
    rw [hcalls] at hsite
    exact hsite
  up _ _ h := h
  down h := h
  delivered {s on} data host _ h := by
    refine (List.append_nil _).trans ?_
    exact (@lines_quiet (.transcript _) trivial s.log).trans h

/-- Nor does a wait for the link. -/
theorem keeps_told_wait {sem : Sem} {site : Site} (hsite : ∀ calls, site ≠ .protocolQueue calls) :
    Keeps (Told past) (wait sem site) :=
  (keptWithoutCalls_told past).wait fun {s} taken h =>
    (lines_waited hsite taken s.live s.log).trans h

/-- Or one that is left out. -/
theorem keeps_told_waitIf {p : Prop} [Decidable p] {sem : Sem} {site : Site}
    (hsite : ∀ calls, site ≠ .protocolQueue calls) : Keeps (Told past) (waitIf p sem site) :=
  keeps_ite (fun _ => keeps_told_wait hsite) fun _ => keeps_pure true

/-- Nor a call that writes nothing. -/
theorem keeps_told_gattCall {call : GattCall} (hcall : call.Writeless) :
    Keeps (Told past) (gattCall call) := by
  refine keeps_get.bind fun s => Keeps.bind ?_ fun _ =>
    keeps_ite (fun _ => (keptWithoutCalls_told past).answer) fun _ => keeps_pure _
  exact fun _ s' h => (lines_gatt hcall _ s'.log).trans h

/-- Nor such a request. -/
theorem keeps_told_request {call : GattCall} (hcall : call.Writeless) (procedure : Procedure) :
    Keeps (Told past) (request call procedure) :=
  (keeps_told_gattCall hcall).bind fun _ =>
    Keeps.bind (keeps_when fun _ => (keptWithoutCalls_told past).modify fun _ => rfl) fun _ =>
      keeps_pure _

/-! ## Writing -/

/-- A write of the transcript's last entry is handed to the host. -/
theorem triple_told_write {call : GattCall} {l : Bool → Line} {entry : TranscriptEntry}
    (hcall : ∀ live log, lineOf (.gatt call live) (.transcript entry :: log) = some (l live)) :
    Triple (fun s => Told past s ∧ ∃ log, s.log = .transcript entry :: log) (gattCall call)
      fun _ s => ∃ live, Told (past ++ [l live]) s := by
  refine triple_get fun s => ?_
  refine Triple.bind (q := fun _ => Told (past ++ [l s.live])) ?_ fun _ =>
    Triple.strengthen (keeps_ite (fun _ => (keptWithoutCalls_told _).answer) fun _ => keeps_pure _)
      fun _ _ hs => ⟨s.live, hs⟩
  rintro host s' ⟨rfl, htold, log, hlog⟩
  have hline := hcall s'.live log
  rw [← hlog] at hline
  change lines (.gatt call s'.live :: s'.log) = past ++ [l s'.live]
  rw [lines, hline, htold]
  rfl

/-- What is told of a write stays told, with or without a connection. -/
theorem keeps_told_live {α : Type} {l : Bool → Line} {m : Act α}
    (h : ∀ live, Keeps (Told (past ++ [l live])) m) :
    Keeps (fun s => ∃ live, Told (past ++ [l live]) s) m :=
  fun host s hs => hs.imp fun live => h live host s

/-- What is emitted of a source is the transcript's last entry. -/
theorem triple_told_emitSource (direction kind source : UInt8) (payload : List UInt8) :
    Triple (Told past) (emitSource defn direction kind source payload) fun _ s =>
      ∃ entry, Transcribes defn direction kind source payload entry ∧ Told past s ∧
        ∃ log, s.log = .transcript entry :: log := by
  intro host s h
  exact ⟨_, ⟨_, rfl⟩, (@lines_quiet (.transcript _) trivial s.log).trans h, s.log, rfl⟩

/-- Behind a write: it was told, or there was nobody to tell it to and it failed. -/
def Wrote (defn : ProtocolDef) (past : List Line) (x : Said) (o : BridgeOutcome)
    (s : BridgeState) : Prop :=
  (Told past s ∧ o.kind ≠ .pass) ∨ ∃ l, Tells defn l x ∧ Told (past ++ [l]) s

/-- A call that writes tells the write, with the entry in front of it. -/
theorem wrote_of_told {source : UInt8} {withResponse : Bool} {payload : List UInt8}
    {entry : TranscriptEntry} {o : BridgeOutcome}
    (hentry : Transcribes defn bleGattDirOut bleGattEvtWriteRequest source payload entry)
    (h : ∃ live, Told (past ++ [.asked live withResponse payload entry]) s) :
    Wrote defn past (.wrote source withResponse payload) o s := by
  obtain ⟨live, h⟩ := h
  exact .inr ⟨.asked live withResponse payload entry, .asked hentry, h⟩

/-- A write of the machine is told once, or fails untold. -/
theorem triple_protocolWriteOut_wrote (source : UInt8) (withResponse : Bool)
    (payload : List UInt8) :
    Triple (Told past) (protocolWriteOut defn source withResponse payload)
      (Wrote defn past (.wrote source withResponse payload)) := by
  refine triple_ite (fun _ => ?_) fun _ => ?_
  · exact triple_pure fun _ h => .inl ⟨h, by simp [outcomeFail, BridgeOutcome.bare]⟩
  refine (triple_told_emitSource _ _ _ _).bind fun _ => Triple.of_pre fun s₀ h₀ => ?_
  obtain ⟨entry, hentry, htold, hlog⟩ := h₀
  have hstart : ∀ s, s = s₀ → Told past s ∧ ∃ log, s.log = .transcript entry :: log := by
    rintro s rfl
    exact ⟨htold, hlog⟩
  refine Triple.bind (q := fun _ s => Told past s ∧ ∃ log, s.log = .transcript entry :: log)
    (fun _ s h => hstart s h) fun s => triple_ite (fun hno => ?_) fun hyes => ?_
  · obtain rfl : withResponse = false := by simpa using hno
    refine ((triple_told_write fun _ _ => rfl).bind fun err =>
      keeps_told_live fun live => ?_).strengthen
      fun o s h => wrote_of_told hentry h
    exact keeps_ite (fun _ => keeps_pure _) fun _ => OfCore.outcomePass
  · obtain rfl : withResponse = true := by simpa using hyes
    refine Triple.strengthen ?_ fun o s h => wrote_of_told hentry h
    refine Triple.bind (q := fun _ s => Told past s ∧ ∃ log, s.log = .transcript entry :: log)
      (fun _ _ h => h) fun _ => ?_
    refine Triple.bind (q := fun _ s => Told past s ∧ ∃ log, s.log = .transcript entry :: log)
      (fun _ _ h => h) fun _ => ?_
    have hrequest : Triple (fun s => Told past s ∧ ∃ log, s.log = .transcript entry :: log)
        (request (.write (s.protocol.sources.getD source.toNat ⟨0, 0, 0⟩).handle payload) .write)
        fun _ s => ∃ live, Told (past ++ [.asked live true payload entry]) s :=
      (triple_told_write fun _ _ => rfl).bind fun _ => keeps_told_live fun live =>
        Keeps.bind (keeps_when fun _ => (keptWithoutCalls_told _).modify fun _ => rfl) fun _ =>
          keeps_pure _
    refine hrequest.bind fun err => keeps_told_live fun live => ?_
    refine keeps_ite (fun _ => keeps_pure _) fun _ => ?_
    refine keeps_get.bind fun s => (keeps_told_wait (by simp)).bind fun taken =>
      keeps_get.bind fun s => keeps_ite (fun _ => ?_) fun _ => ?_
    · exact (keptWithoutCalls_told _).abandon.bind fun _ => keeps_pure _
    refine keeps_ite (fun _ => OfCore.outcomeDisconnected _) fun _ => ?_
    exact keeps_ite (fun _ => keeps_pure _) fun _ => OfCore.outcomePass

/-! ## The loop -/

/-- At the head of the loop: the conversation goes on, or what the loop reports next is so. -/
inductive AtTop (defn : ProtocolDef) (entryState : UInt8) (past : List Line) (run : EapRun) :
    EapStep → BridgeState → Prop
  | goes {step : EapStep} {spoken : List Said} {s : BridgeState} (hsound : run.Sound)
      (hdefn : run.defn = defn) (hgoes : run.finished = false) (hstep : ¬ IsDone step)
      (h : Conversation defn entryState run.resting step spoken)
      (hspoken : Spoken defn past spoken s) : AtTop defn entryState past run step s
  | closed {c : Resting UInt8 Memory} {finalState : List UInt8} {verdict : RunOutcome}
      {spoken : List Said} {s : BridgeState}
      (h : Conversation defn entryState c (.done finalState verdict) spoken)
      (hended : c.ended = true)
      (hdone : defn.entry c.location c.store.session = .done finalState verdict)
      (hspoken : Spoken defn past spoken s) :
      AtTop defn entryState past run (.done finalState verdict) s
  | given {c : Resting UInt8 Memory} {step : EapStep} {spoken : List Said} {s : BridgeState}
      {state : State} (h : Conversation defn entryState c step spoken) (hgoes : c.ended = false)
      (hspoken : Spoken defn past (spoken ++ utter step ++ [.met .timeout]) s)
      (hstate : defn.states.items[c.location.toNat]? = some state) :
      AtTop defn entryState past run (.done state.name.str .timedOut) s

/-- The name a run reports of where it stands is that of a state it was given. -/
theorem name_currentState {state : State} (hdefn : run.defn = defn)
    (hstate : defn.states.items[run.resting.location.toNat]? = some state) :
    run.currentState.value.name = state.name := by
  subst hdefn
  have hget : run.defn.states.items[run.state.toNat]? = some state := hstate
  change (run.defn.states.items.getD run.state.toNat EapRun.zeroState).name = _
  rw [List.getD_eq_getElem?_getD, hget, Option.getD_some]

section Feeding

variable {step : EapStep} (hsound : run.Sound) (hdefn : run.defn = defn)
  (hgoes : run.finished = false) (h : Conversation defn entryState run.resting step spoken)
  {state : State} (hstate : defn.states.items[run.resting.location.toNat]? = some state)
include hsound hdefn hgoes h

/-- An event is fed to a protocol that goes on. -/
theorem atTop_onEvent (ev : Event)
    (hspoken : Spoken defn past (spoken ++ utter step ++ [.met ev]) s) :
    AtTop defn entryState past (eapRunOnEvent run ev).value.1 (eapRunOnEvent run ev).value.2 s := by
  have hfollows := eapRunOnEvent_follows hsound hgoes ev
  have hnext := h.snoc ev hgoes
  rw [← hdefn] at hnext
  rw [← hfollows.resting, ← hfollows.instruction, hdefn] at hnext
  have hdefn' := hfollows.defn.trans hdefn
  rcases @instruction_done defn run.resting hgoes ev with
    ⟨hgoes', hnot⟩ | ⟨hover, hdone, hentry⟩
  · rw [← hdefn, ← hfollows.resting] at hgoes'
    rw [← hdefn, ← hfollows.instruction] at hnot
    exact .goes hfollows.sound hdefn' hgoes' hnot hnext hspoken
  · rw [← hdefn, ← hfollows.instruction] at hdone hentry
    rw [← hdefn, ← hfollows.resting] at hover
    rw [← hfollows.resting, hdefn] at hentry
    rcases hstep : (eapRunOnEvent run ev).value.2 with _ | _ | ⟨finalState, verdict⟩
    · simp [hstep, IsDone] at hdone
    · simp [hstep, IsDone] at hdone
    · rw [hstep] at hentry hnext
      exact .closed hnext hover hentry.symm hspoken

include hstate

omit hsound in
/-- It is given up where it stands. -/
theorem atTop_abandon (hspoken : Spoken defn past (spoken ++ utter step ++ [.met .timeout]) s) :
    AtTop defn entryState past (eapRunAbandon run).value.1 (eapRunAbandon run).value.2 s := by
  have hname : (eapRunAbandon run).value.2 = .done state.name.str .timedOut := by
    rw [← name_currentState hdefn hstate]
    rfl
  rw [hname]
  exact .given h hgoes hspoken hstate

/-- What is fed is told by the mark of the wait, and the loop goes on from there. -/
theorem triple_feed_atTop (deadline : Nat) (arrived : Option Note) {told : List Line}
    (htold : ∀ (l : Line) (x : Said), Tells defn l x → ∀ s', Told (told ++ [l]) s' →
      Spoken defn past (spoken ++ utter step ++ [x]) s') :
    Triple (Told told) (feed defn deadline run arrived) fun next s =>
      ∃ l, (∀ calls, lines (.waited (.protocolQueue calls) arrived.isSome s.live :: s.log) =
          told ++ [l]) ∧
        ∀ s', Told (told ++ [l]) s' → AtTop defn entryState past next.1 next.2 s' := by
  cases arrived with
  | some n =>
    refine (triple_told_emitSource _ _ _ _).bind fun _ => triple_pure fun s hs => ?_
    obtain ⟨entry, hentry, hs, log, hlog⟩ := hs
    have hwhole : entry.payload.items = n.payload.items := by
      obtain ⟨now, rfl⟩ := hentry
      exact List.take_of_length_le n.payload.fits
    refine ⟨.heard entry, fun calls => ?_, fun s' hs' => ?_⟩
    · rw [Option.isSome_some, lines, hlog, lineOf, ← hlog, hs]
      rfl
    · exact atTop_onEvent hsound hdefn hgoes h _ (htold _ _ (.heard hentry hwhole) s' hs')
  | none =>
    have hmark : ∀ s, Told told s → ∀ calls,
        lines (.waited (.protocolQueue calls) (none : Option Note).isSome s.live :: s.log) =
          told ++ [.silence] := by
      intro s hs calls
      rw [Option.isSome_none, lines, lineOf, hs]
      rfl
    refine Triple.bind (q := fun _ => Told told) (fun _ _ hs => hs) fun now =>
      triple_ite (fun _ => triple_pure fun s hs => ?_) fun _ => triple_pure fun s hs => ?_
    · exact ⟨.silence, hmark s hs, fun s' hs' =>
        atTop_abandon hdefn hgoes h hstate (htold _ _ .silence s' hs')⟩
    · exact ⟨.silence, hmark s hs, fun s' hs' =>
        atTop_onEvent hsound hdefn hgoes h _ (htold _ _ .silence s' hs')⟩

/-- What the loop goes on with behind a wait. -/
theorem triple_nextStep_atTop (deadline : Nat) :
    Triple (Spoken defn past (spoken ++ utter step)) (nextStep defn deadline run) fun next s =>
      AtTop defn entryState past next.1 next.2 s := by
  refine Triple.of_pre fun s₀ hs₀ => ?_
  have htake : Triple (· = s₀) takeNote fun _ => Told (lines s₀.log) := by
    refine (keptWithoutCalls_told (lines s₀.log)).takeNote.weaken ?_
    rintro s rfl
    rfl
  have htold : ∀ (l : Line) (x : Said), Tells defn l x → ∀ s', Told (lines s₀.log ++ [l]) s' →
      Spoken defn past (spoken ++ utter step ++ [x]) s' := fun l x hl s' hs' => hs₀.snoc hs' hl
  refine htake.bind fun arrived =>
    (triple_feed_atTop hsound hdefn hgoes h hstate deadline arrived htold).bind fun next => ?_
  refine triple_get fun s => Triple.bind
    (q := fun _ s' => AtTop defn entryState past next.1 next.2 s') ?_ fun _ =>
      triple_pure fun _ => id
  rintro host _ ⟨rfl, l, hmark, hnext⟩
  exact hnext _ (hmark _)

end Feeding

/-- From the head of the loop on, what the loop comes to is the end of the conversation. -/
theorem triple_protocolLoop_concludes (hclosed : defn.Closed)
    (hentry : entryState.toNat < defn.states.items.length) (deadline rounds : Nat)
    {step : EapStep} :
    Triple (AtTop defn entryState past run step) (protocolLoop defn deadline rounds run step)
      fun result s => ∀ o ∈ result, Concludes defn entryState past s o := by
  induction rounds generalizing run step with
  | zero => exact triple_pure fun _ _ o ho => absurd ho (by simp)
  | succ rounds ih =>
    refine Triple.of_pre fun s₀ hs₀ => ?_
    have hdone : ∀ {finalState : List UInt8} {verdict : RunOutcome},
        (∀ o : BridgeOutcome, o.kind = outcomeOf verdict →
          o.protocol = verdictAt finalState verdict → Concludes defn entryState past s₀ o) →
        Triple (· = s₀) (protocolLoop defn deadline (rounds + 1) run (.done finalState verdict))
          fun result s => ∀ o ∈ result, Concludes defn entryState past s o := by
      rintro finalState verdict hconcludes host s rfl o ho
      obtain rfl := Option.some.inj ho
      refine hconcludes _ ?_ rfl
      cases verdict <;> rfl
    cases hs₀ with
    | closed h hended hinstruction hspoken =>
      exact hdone fun o hkind hprotocol => .ended h hspoken hended hinstruction hkind hprotocol
    | given h hgoes hspoken hstate =>
      exact hdone fun o hkind hprotocol => .abandoned h hspoken hgoes hkind hstate hprotocol
    | @goes _ spoken _ hsound hdefn hgoes hstep h hspoken =>
      obtain ⟨state, hstate⟩ := h.declared hclosed hentry
      have hnext : Triple (Spoken defn past (spoken ++ utter step)) (nextStep defn deadline run)
          fun next s => AtTop defn entryState past next.1 next.2 s :=
        triple_nextStep_atTop hsound hdefn hgoes h hstate deadline
      cases step with
      | done finalState verdict => exact absurd trivial hstep
      | wait deadlineMs =>
        refine (hnext.weaken fun s hs => ?_).bind fun next => ih
        rw [hs, utter, List.append_nil]
        exact hspoken
      | write source withResponse payload deadlineMs =>
        have hwritten : Triple (· = s₀) (protocolWriteOut defn source withResponse payload)
            (Wrote defn (lines s₀.log) (.wrote source withResponse payload)) := by
          refine (triple_protocolWriteOut_wrote source withResponse payload).weaken ?_
          rintro s rfl
          rfl
        refine hwritten.bind fun written => ?_
        refine triple_ite (fun hfailed => triple_pure fun s hs o ho => ?_) fun hpassed => ?_
        · obtain rfl := Option.some.inj ho
          have hname : (writeFailedOutcome run written).protocol =
              verdictAt state.name.str (.fail []) := by
            rw [← name_currentState hdefn hstate]
            rfl
          refine .writeFailed h ?_ (by simp [utter]) hgoes hfailed hstate hname
          rcases hs with ⟨htold, -⟩ | ⟨l, hl, htold⟩
          · obtain ⟨told, hpast, htells⟩ := hspoken
            exact .inl ⟨told, htold.trans hpast, htells⟩
          · exact .inr (hspoken.snoc htold hl)
        · refine (hnext.weaken fun s hs => ?_).bind fun next => ih
          rcases hs with ⟨-, hfailed⟩ | ⟨l, hl, htold⟩
          · exact absurd (not_not.mp hpassed) hfailed
          · exact hspoken.snoc htold hl

/-! ## The step -/

/-- An outcome that says nothing of a protocol. -/
abbrev Mute (o : BridgeOutcome) : Prop := o.protocol = none

/-- It says nothing of a protocol, and the log has told nothing more. -/
def Silent (past : List Line) (o : BridgeOutcome) (s : BridgeState) : Prop := Mute o ∧ Told past s

/-- A program keeps what the log has told, and its outcome says nothing of a protocol. -/
abbrev KeepsSilent (past : List Line) (m : Act BridgeOutcome) : Prop :=
  Triple (Told past) m (Silent past)

/-- The same of a program that may have no outcome. -/
abbrev MaySilence (past : List Line) (m : Act (Option BridgeOutcome)) : Prop :=
  Triple (Told past) m fun result s => (∀ o ∈ result, Mute o) ∧ Told past s

/-- An outcome that says nothing of a protocol. -/
theorem silent_pure {o : BridgeOutcome} (h : Mute o) : KeepsSilent past (pure o) :=
  triple_pure fun _ hs => ⟨h, hs⟩

/-- A pass in front of the run is one. -/
theorem silent_outcomePass : KeepsSilent past outcomePass := fun _ _ hs => ⟨rfl, hs⟩

/-- The same for a program that may have none. -/
theorem silence_some {o : BridgeOutcome} (h : Mute o) : MaySilence past (pure (some o)) :=
  triple_pure fun _ hs => ⟨fun _ ho => Option.some.inj ho ▸ h, hs⟩

/-- Or has none. -/
theorem silence_none : MaySilence past (pure none) :=
  triple_pure fun _ hs => ⟨fun o ho => absurd ho (by simp), hs⟩

/-- A walk fails without a word on the protocol. -/
theorem silence_walk (procedure : Procedure) (ofWhat during : String) :
    MaySilence past (walk procedure ofWhat during) := by
  refine Triple.bind ((keptWithoutCalls_told past).clear .gatt) fun _ => ?_
  refine Triple.bind (@keeps_told_request past (.discover procedure) trivial procedure)
    fun err => ?_
  refine triple_ite (fun _ => silence_some rfl) fun _ => ?_
  refine Triple.bind (keeps_told_wait (by simp)) fun taken => Triple.bind keeps_get fun s => ?_
  refine triple_ite (fun _ => ?_) fun _ => triple_ite (fun _ => ?_) fun _ => silence_none
  · exact Triple.bind (keptWithoutCalls_told past).abandon fun _ => silence_some rfl
  · exact fun _ _ hs => ⟨fun _ ho => Option.some.inj ho ▸ rfl, hs⟩

/-- So do all of them. -/
theorem silence_walkServices (left i : Nat) : MaySilence past (walkServices left i) := by
  induction left generalizing i with
  | zero => exact silence_none
  | succ left ih =>
    refine Triple.bind (q := fun _ => Told past) (fun _ _ hs => hs) fun _ => ?_
    refine (silence_walk _ _ _).bind fun failed => ?_
    cases failed with
    | some outcome => exact triple_pure fun _ hs => hs
    | none => exact (ih (i + 1)).weaken fun _ hs => hs.2

/-- So does the discovery. -/
theorem silent_runGattDiscovery : KeepsSilent past runGattDiscovery := by
  refine Triple.bind ((keptWithoutCalls_told past).transcriptEmit _ _ _ _ _ _) fun _ => ?_
  refine Triple.bind (q := fun _ => Told past) (fun _ _ hs => hs) fun _ => ?_
  refine Triple.bind (q := fun _ => Told past) (fun _ _ hs => hs) fun _ => ?_
  refine (silence_walk _ _ _).bind fun failed => ?_
  cases failed with
  | some outcome => exact triple_pure fun _ hs => ⟨hs.1 outcome rfl, hs.2⟩
  | none =>
    refine Triple.bind (q := fun _ => Told past) (fun _ _ hs => hs.2) fun s => ?_
    refine (silence_walkServices _ _).bind fun failed => ?_
    cases failed with
    | some outcome => exact triple_pure fun _ hs => ⟨hs.1 outcome rfl, hs.2⟩
    | none => exact silent_outcomePass.weaken fun _ hs => hs.2

/-- So does a source that is not there. -/
theorem silent_resolveEach (sources : List (Source × Nat)) :
    KeepsSilent past (resolveEach sources) := by
  induction sources with
  | nil => exact silent_outcomePass
  | cons source sources ih =>
    obtain ⟨source, i⟩ := source
    refine Triple.bind keeps_get fun s => ?_
    dsimp only
    split
    · exact silent_pure rfl
    · exact Triple.bind (q := fun _ => Told past) (fun _ _ hs => hs) fun _ => ih

/-- Nothing is said while the sources are resolved. -/
theorem silent_protocolResolveSources : KeepsSilent past (protocolResolveSources defn) := by
  refine silent_runGattDiscovery.bind fun discovered => triple_ite (fun _ => ?_) fun _ => ?_
  · exact triple_pure fun _ hs => hs
  · refine Triple.bind (q := fun _ => Told past) (fun _ _ hs => hs.2) fun _ => ?_
    exact silent_resolveEach _

/-- Nor while one is subscribed to. -/
theorem silence_subscribeIfRead (source : Source) (i : Nat) :
    MaySilence past (subscribeIfRead defn source i) := by
  refine triple_ite (fun _ => ?_) fun _ => silence_none
  refine Triple.bind keeps_get fun s => triple_ite (fun _ => silence_some rfl) fun _ => ?_
  refine Triple.bind (keptWithoutCalls_told past).armCcc fun _ => ?_
  refine Triple.bind (@keeps_told_gattCall past (.subscribe ..) trivial) fun err => ?_
  refine triple_ite (fun _ => silence_some rfl) fun _ => ?_
  refine Triple.bind (keeps_told_waitIf (by simp)) fun taken => Triple.bind keeps_get fun s => ?_
  refine triple_ite (fun _ => silence_some rfl) fun _ => triple_ite (fun _ => silence_some rfl)
    fun _ => triple_ite (fun _ => silence_some rfl) fun _ => ?_
  have hrecord : Keeps (Told past) (recordSource source i) :=
    ((keptWithoutCalls_told past).transcriptEmit _ _ _ _ _ _).bind fun _ => fun _ _ hs => hs
  exact Triple.bind hrecord fun _ => silence_none

/-- Nor while all are. -/
theorem silent_subscribeEach (sources : List (Source × Nat)) :
    KeepsSilent past (subscribeEach defn sources) := by
  induction sources with
  | nil => exact silent_outcomePass
  | cons source sources ih =>
    refine (silence_subscribeIfRead source.1 source.2).bind fun failed => ?_
    cases failed with
    | some outcome => exact triple_pure fun _ hs => ⟨hs.1 outcome rfl, hs.2⟩
    | none => exact ih.weaken fun _ hs => hs.2

/-- Nor when the subscriptions end. -/
theorem keeps_told_protocolUnsubscribeAll :
    Keeps (Told past) (protocolUnsubscribeAll defn) := by
  refine keeps_get.bind fun s => Keeps.bind (keeps_each fun x _ => ?_) fun _ => fun _ _ hs => hs
  exact Keeps.bind (@keeps_told_gattCall past (.unsubscribe _) trivial) fun _ =>
    (keptWithoutCalls_told past).emitSource _ _ _ _ _

/-- The machine is started and entered. -/
theorem atTop_entered {start : EapRun} (hstart : eapRunStart defn entryState = some start)
    (hs : Told past s) :
    AtTop defn entryState past (eapRunEnter start).value.1 (eapRunEnter start).value.2 s := by
  obtain ⟨hsound, hdefn, hbegin, hentry⟩ := entered_sound hstart
  have hspoken : Spoken defn past [] s := ⟨[], by rw [hs, List.append_nil], .nil⟩
  have hnil : Conversation defn entryState (eapRunEnter start).value.1.resting
      (eapRunEnter start).value.2 [] := by
    rw [hbegin, hentry]
    exact .nil
  have hdone := entry_done defn entryState defn.sessionInitial.items
  have hfinished : (eapRunEnter start).value.1.finished = defn.ends entryState :=
    congrArg Resting.ended hbegin
  cases hends : defn.ends entryState with
  | false =>
    refine .goes hsound hdefn (hfinished.trans hends) ?_ hnil hspoken
    rw [hentry, hdone, hends]
    simp
  | true =>
    rw [hends] at hdone hfinished
    rw [hbegin] at hnil
    rcases hstep : defn.entry entryState defn.sessionInitial.items with _ | _ | ⟨name, verdict⟩
    · simp [hstep, IsDone] at hdone
    · simp [hstep, IsDone] at hdone
    · rw [hentry, hstep] at hnil ⊢
      exact .closed hnil hends hstep hspoken

/-- How a RunProtocol step ends. -/
def Ended (defn : ProtocolDef) (entryState : UInt8) (past : List Line) (o : BridgeOutcome)
    (s : BridgeState) : Prop :=
  (Silent past o s ∧ o.kind ≠ .pass) ∨
    entryState.toNat < defn.states.items.length ∧ Concludes defn entryState past s o

/-- What is told, and what is reported of the protocol, alone matter to how the step ended. -/
theorem Ended.congr {o o' : BridgeOutcome} (h : Ended defn entryState past o s)
    (hkind : o'.kind = o.kind) (hprotocol : o'.protocol = o.protocol)
    (hlog : lines s'.log = lines s.log) : Ended defn entryState past o' s' := by
  have hspoken : ∀ {spoken}, Spoken defn past spoken s → Spoken defn past spoken s' := by
    rintro spoken ⟨told, htold, htells⟩
    exact ⟨told, hlog.trans htold, htells⟩
  rcases h with ⟨⟨hmute, htold⟩, hfailed⟩ | ⟨hentry, h⟩
  · exact .inl ⟨⟨hprotocol.trans hmute, hlog.trans htold⟩, hkind ▸ hfailed⟩
  · refine .inr ⟨hentry, ?_⟩
    cases h with
    | ended h hs hended hdone hk hp =>
      exact .ended h (hspoken hs) hended hdone (hkind.trans hk) (hprotocol.trans hp)
    | abandoned h hs hgoes hk hstate hp =>
      exact .abandoned h (hspoken hs) hgoes (hkind.trans hk) hstate (hprotocol.trans hp)
    | writeFailed h hs hwrites hgoes hk hstate hp =>
      exact .writeFailed h (hs.imp hspoken hspoken) hwrites hgoes (hkind ▸ hk) hstate
        (hprotocol.trans hp)

/-- A run that is over ended as its conversation says. -/
theorem triple_runMachine_ended (hclosed : defn.Closed) (deadline rounds : Nat) :
    Triple (Told past) (runMachine defn entryState deadline rounds) fun result s =>
      ∀ o ∈ result, Ended defn entryState past o s := by
  rw [runMachine]
  cases hstart : eapRunStart defn entryState with
  | none => exact triple_pure fun _ _ o ho => absurd ho (by simp)
  | some start =>
    have hentry : entryState.toNat < defn.states.items.length := by
      rw [eapRunStart] at hstart
      split at hstart
      · exact absurd hstart (Option.some_ne_none _).symm
      · next hlt => exact Nat.not_le.mp hlt
    refine ((triple_protocolLoop_concludes hclosed hentry deadline rounds).weaken
      fun s hs => atTop_entered hstart hs).bind fun result => ?_
    cases result with
    | none => exact triple_pure fun _ _ o ho => absurd ho (by simp)
    | some result =>
      refine Triple.of_pre fun s₀ hs₀ => ?_
      have hended : Ended defn entryState past result s₀ := .inr ⟨hentry, hs₀ result rfl⟩
      have hquiet : Triple (· = s₀) (protocolUnsubscribeAll defn) fun _ => Told (lines s₀.log) := by
        refine keeps_told_protocolUnsubscribeAll.weaken ?_
        rintro s rfl
        rfl
      refine hquiet.bind fun _ => triple_pure fun s hs o ho => ?_
      obtain rfl := Option.some.inj ho
      exact hended.congr rfl rfl hs

/-- So does the action, unless it failed before the run. -/
theorem triple_executeRunProtocol_ended (hclosed : defn.Closed) (deadline rounds : Nat) :
    Triple (Told past) (executeRunProtocol defn entryState deadline rounds) fun result s =>
      ∀ o ∈ result, Ended defn entryState past o s := by
  have hunrun {o : BridgeOutcome} (hkind : o.kind ≠ .pass) : Triple (Silent past o)
      (pure (some o) : Act (Option BridgeOutcome)) fun result s =>
        ∀ o ∈ result, Ended defn entryState past o s :=
    triple_pure fun _ hs o' ho' => Option.some.inj ho' ▸ .inl ⟨hs, hkind⟩
  refine Triple.bind keeps_get fun s => triple_ite (fun _ => ?_) fun _ =>
    triple_ite (fun _ => ?_) fun _ => ?_
  · refine (hunrun ?_).weaken fun _ hs => ⟨rfl, hs⟩
    simp [noActiveConnection, outcomeFail, BridgeOutcome.bare]
  · refine (hunrun ?_).weaken fun _ hs => ⟨rfl, hs⟩
    simp [outcomeFail, BridgeOutcome.bare]
  refine silent_protocolResolveSources.bind fun resolved =>
    triple_ite (fun hkind => hunrun hkind) fun _ => ?_
  refine Triple.bind (q := fun _ => Told past) (fun _ _ hs => hs.2) fun _ => ?_
  have hsubscribe : KeepsSilent past (protocolSubscribeSources defn) :=
    Triple.bind (q := fun _ => Told past) (fun _ _ hs => hs) fun _ => silent_subscribeEach _
  refine hsubscribe.bind fun subscribed => triple_ite (fun hkind => ?_) fun _ => ?_
  · refine Triple.of_pre fun s₀ hs₀ => ?_
    have hquiet : Triple (· = s₀) (protocolUnsubscribeAll defn)
        fun _ => Silent past subscribed := by
      refine Triple.conseq (@keeps_told_protocolUnsubscribeAll defn past) ?_
        fun _ _ hs => ⟨hs₀.1, hs⟩
      rintro s rfl
      exact hs₀.2
    exact hquiet.bind fun _ => hunrun hkind
  · exact (triple_runMachine_ended hclosed deadline rounds).weaken fun _ hs => hs.2

/-- A step that passes names a declared state that declares a pass and that the transitions
lead to. -/
theorem Concludes.pass {o : BridgeOutcome} (h : Concludes defn entryState past s o)
    (hclosed : defn.Closed) (hentry : entryState.toNat < defn.states.items.length)
    (hpass : o.kind = .pass) :
    ∃ t state, ReflTransGen defn.Leads entryState t ∧
      defn.states.items[t.toNat]? = some state ∧ state.kind = .terminal .pass ∧
        o.protocol = verdictAt state.name.str .pass := by
  cases h with
  | abandoned _ _ _ hkind =>
    rw [hpass] at hkind
    cases hkind
  | writeFailed _ _ _ _ hkind => exact absurd hpass hkind
  | @ended c finalState verdict spoken h hspoken hended hdone hkind hprotocol =>
    obtain ⟨state, hstate⟩ := h.declared hclosed hentry
    have hget : defn.states.items.getD c.location.toNat EapRun.zeroState = state := by
      rw [List.getD_eq_getElem?_getD, hstate, Option.getD_some]
    refine ⟨c.location, state, h.leads, hstate, ?_⟩
    obtain rfl : verdict = .pass := by
      rw [hpass] at hkind
      cases verdict with
      | pass => rfl
      | fail reason => cases hkind
      | timedOut => cases hkind
    have hkind : state.kind = .terminal .pass := by
      have hkindOf := kindOf_of_entry_pass hdone
      rwa [ProtocolDef.kindOf, hget] at hkindOf
    have hname : defn.entry c.location c.store.session = .done state.name.str .pass := by
      simp only [ProtocolDef.entry, hget, hkind]
    rw [hname] at hdone
    obtain ⟨rfl, -⟩ := EapStep.done.inj hdone
    exact ⟨hkind, hprotocol⟩

/-- Whatever the host does, a RunProtocol step of a closed protocol, as long as every GATT call
finds a connection, either fails before the protocol is begun, or is a conversation of its
protocol: its writes, each handed to the host over a connection, its arrivals and silences, in
the order the log tells them, are those of the protocol, and its verdict is where this leaves the
protocol. It passes only in a declared state that declares a pass and that the transitions lead
to. -/
theorem runProtocol_converses (defn : ProtocolDef) (hclosed : defn.Closed) (entryState : UInt8)
    (timeoutMs : UInt32) (rounds : Nat) (host : Host) (s : BridgeState) :
    let result := bleBridgeExecute (.runProtocol defn entryState) timeoutMs rounds host s
    (∀ m ∈ result.2.log, m.Live) →
    ∀ o ∈ result.1, Ended defn entryState (lines s.log) o result.2 ∧
      (∀ l ∈ lines result.2.log, l.Linked) ∧
      (o.kind = .pass → ∃ t state, ReflTransGen defn.Leads entryState t ∧
        defn.states.items[t.toNat]? = some state ∧ state.kind = .terminal .pass ∧
          o.protocol = verdictAt state.name.str .pass) := by
  have hended : Triple (Told (lines s.log))
      (bleBridgeExecute (.runProtocol defn entryState) timeoutMs rounds) fun result s' =>
        ∀ o ∈ result, Ended defn entryState (lines s.log) o s' := by
    refine Triple.bind (q := fun _ => Told (lines s.log)) (fun _ _ hs => hs) fun now => ?_
    refine Triple.bind (q := fun _ => Told (lines s.log)) (fun _ _ hs => hs) fun _ => ?_
    refine Triple.bind (q := fun _ => Told (lines s.log)) (fun _ _ hs => hs) fun _ => ?_
    refine Triple.bind (q := fun _ => Told (lines s.log)) (fun _ _ hs => hs) fun _ => ?_
    refine (triple_executeRunProtocol_ended hclosed _ rounds).bind fun result => ?_
    cases result with
    | none => exact triple_pure fun _ _ o ho => absurd ho (by simp)
    | some outcome =>
      refine Triple.bind (q := fun o s' => Ended defn entryState (lines s.log) o s') ?_
        fun o => triple_pure fun _ hs o' ho' => Option.some.inj ho' ▸ hs
      refine Triple.bind (q := fun _ s' => Ended defn entryState (lines s.log) outcome s')
        (fun _ _ hs => hs outcome rfl) fun s' => triple_ite (fun _ => ?_) fun _ =>
          triple_pure fun _ hs => hs
      refine Triple.bind (q := fun _ s' => Ended defn entryState (lines s.log) outcome s')
        (fun _ _ hs => hs.congr rfl rfl rfl) fun level => ?_
      exact triple_pure fun _ hs => hs.congr rfl rfl rfl
  intro result hlive o ho
  have h := hended host s rfl o ho
  refine ⟨h, linked_of_live hlive, fun hpass => ?_⟩
  rcases h with hsilent | ⟨hentry, hconcludes⟩
  · exact absurd hpass hsilent.2
  · exact hconcludes.pass hclosed hentry hpass

/-- The ping over the one characteristic of the sample peer. -/
def pingPeer : ProtocolDef :=
  { pingDef with sources := .ofList [⟨fromBtUuid (.uuid16 0x180d), fromBtUuid (.uuid16 0x2a37)⟩] }

/-- The peer answers the second time it is asked. -/
def pingScript : List (Nat × List HostEvent) :=
  [(1, sampleService), (3, sampleCharacteristic), (5, [.cccAnswer 0]),
    (9, [.notified (.protocol 0) (some [5])])]

/-- A peer that answers makes the protocol and its step pass. -/
theorem runProtocol_converses_ping : ∃ o s, o.kind = .pass ∧ Ended pingPeer 0 [] o s ∧
    ∃ (t : Nat) (state : State), pingPeer.states.items[t]? = some state ∧
      state.kind = .terminal .pass ∧
      o.protocol = verdictAt state.name.str .pass := by
  let s : BridgeState := { BridgeState.initial with link.activeConn := some samplePeer }
  have hrun : (bleBridgeExecute (.runProtocol pingPeer 0) 1000 4 (.scripted pingScript) s).1.any
        (fun o => o.kind = .pass) = true ∧
      ∀ m ∈ (bleBridgeExecute (.runProtocol pingPeer 0) 1000 4 (.scripted pingScript) s).2.log,
        m.Live := by
    decide +kernel
  have hconverses :=
    runProtocol_converses pingPeer (by decide +kernel) 0 1000 4 (.scripted pingScript) s
  dsimp only at hconverses
  generalize bleBridgeExecute (.runProtocol pingPeer 0) 1000 4 (.scripted pingScript) s = run
    at hrun hconverses
  obtain ⟨o, ho, hpass⟩ := (Option.any_eq_true _ _).mp hrun.1
  obtain ⟨hended, -, hpassed⟩ := hconverses hrun.2 o ho
  obtain ⟨t, state, -, hstate, hkind, hprotocol⟩ := hpassed (of_decide_eq_true hpass)
  exact ⟨o, _, of_decide_eq_true hpass, hended, t.toNat, state, hstate, hkind, hprotocol⟩

end DevBench.Bridge
