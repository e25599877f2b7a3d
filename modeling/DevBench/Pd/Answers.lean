import DevBench.Pd.Refusals

/-!
# What `pd ask` prints

The partner's answers are kept as they come, whoever asked for them, and the command prints what
is kept when it goes on. Between the two stands a semaphore that is given outside the lock.
-/

namespace DevBench.Pd

open DevBench.Core

/-! ## The partner's information -/

/-- `struct pd_sdb`. -/
structure PdSdb where
  internalTemp : UInt8
  presentInput : UInt8
  presentBatteryInput : UInt8
  eventFlags : UInt8
  temperatureStatus : UInt8
  powerStatus : UInt8
  powerStateChange : UInt8
  deriving DecidableEq, Repr

/-- `union pd_ppssdb`, in its fields. -/
structure PdPpssdb where
  outputVoltage : UInt16
  outputCurrent : UInt8
  ptf : Fin 4
  omf : Bool
  deriving DecidableEq, Repr

/-- `union pd_bsdo`, in its fields. -/
structure PdBsdo where
  invalidBatteryReference : Bool
  batteryPresent : Bool
  batteryChargingStatus : Fin 4
  batteryPresentCapacity : UInt16
  deriving DecidableEq, Repr

/-- The answers kept. -/
structure Answers where
  sdb : PdSdb
  ppssdb : PdPpssdb
  bsdo : PdBsdo
  partnerSnkCaps : Slots Word pdoMaxDataObjects
  deriving DecidableEq, Repr

/-- What a callback is handed: what the partner sent, or nothing. -/
inductive Sent where
  | status (sdb : Option PdSdb)
  | ppsStatus (ppssdb : Option PdPpssdb)
  | battStatus (bsdo : Option PdBsdo)
  | snkCaps (pdos : List Word)
  deriving DecidableEq, Repr

namespace Sent

/-- The callback without the data of the answer. -/
def answer : Sent → Answer
  | status sdb => .policySetStatus sdb.isSome
  | ppsStatus ppssdb => .policySetPpsStatus ppssdb.isSome
  | battStatus bsdo => .policySetBatteryStatus bsdo.isSome
  | snkCaps _ => .policySetPortPartnerSnkCap

/-- What it answers. -/
def kind (sent : Sent) : AskKind := sent.answer.answered.1

/-- Whether something was sent. -/
def got (sent : Sent) : Bool := sent.answer.answered.2

/-- Something of this kind was sent. -/
def Brings (sent : Sent) (kind : AskKind) : Prop := sent.kind = kind ∧ sent.got = true

instance (sent : Sent) (kind : AskKind) : Decidable (sent.Brings kind) :=
  inferInstanceAs (Decidable (_ ∧ _))

end Sent

/-- What a callback keeps under the lock. -/
def Answers.keep (a : Answers) : Sent → Answers
  | .status sdb => { a with sdb := sdb.getD a.sdb }
  | .ppsStatus ppssdb => { a with ppssdb := ppssdb.getD a.ppssdb }
  | .battStatus bsdo => { a with bsdo := bsdo.getD a.bsdo }
  | .snkCaps pdos => { a with partnerSnkCaps := .clamp pdos }

/-! ## Printing -/

/-- What `print_answer` gives the shell to print. -/
inductive Shown where
  | nothing
  | status (sdb : PdSdb)
  /-- In mV and mA, -1 where the source does not report it. -/
  | ppsStatus (mv ma : Int) (ptf : Fin 4) (omf : Bool)
  | invalidBattery
  | battStatus (present : Bool) (charging : Fin 4) (capacity : UInt16)
  | snkCaps (pdos : List Word)
  deriving DecidableEq, Repr

/-- `print_answer` on a Status. -/
def PdSdb.shown (sdb : PdSdb) : Shown := .status sdb

/-- `print_answer` on a PPS_Status: an all-ones field is one the source does not report. -/
def PdPpssdb.shown (pps : PdPpssdb) : Shown :=
  .ppsStatus (if pps.outputVoltage = 0xffff then -1 else pps.outputVoltage.toNat * 20)
    (if pps.outputCurrent = 0xff then -1 else pps.outputCurrent.toNat * 50) pps.ptf pps.omf

/-- `print_answer` on a Battery_Status. -/
def PdBsdo.shown (bsdo : PdBsdo) : Shown :=
  if bsdo.invalidBatteryReference then .invalidBattery
  else .battStatus bsdo.batteryPresent bsdo.batteryChargingStatus bsdo.batteryPresentCapacity

/-- `print_answer`: what is kept of a kind. -/
def Answers.printAnswer (a : Answers) : AskKind → Shown
  | .status => a.sdb.shown
  | .ppsStatus => a.ppssdb.shown
  | .battStatus => a.bsdo.shown
  | .snkCaps => .snkCaps a.partnerSnkCaps.items
  | .none => .nothing

/-- What was sent, as it is printed. -/
def Sent.shown : Sent → Shown
  | status sdb => sdb.elim .nothing PdSdb.shown
  | ppsStatus ppssdb => ppssdb.elim .nothing PdPpssdb.shown
  | battStatus bsdo => bsdo.elim .nothing PdBsdo.shown
  | snkCaps pdos => .snkCaps (pdos.take pdoMaxDataObjects)

/-- What is kept of a kind is what was sent of it last. -/
theorem printAnswer_keep (a : Answers) (sent : Sent) (kind : AskKind) :
    (a.keep sent).printAnswer kind =
      if sent.Brings kind then sent.shown else a.printAnswer kind := by
  cases sent with
  | status sdb => cases sdb <;> cases kind <;> rfl
  | ppsStatus ppssdb => cases ppssdb <;> cases kind <;> rfl
  | battStatus bsdo => cases bsdo <;> cases kind <;> rfl
  | snkCaps pdos => cases kind <;> rfl

/-! ## The command to its end -/

/-- How a `pd ask` ends. -/
inductive Said where
  /-- The checks or the stack turned it down. -/
  | error
  | noAnswer
  | sentNone
  | answered (kind : AskKind) (shown : Shown)
  deriving DecidableEq, Repr

/-- The port with the answers kept and what `pd ask` has said, the last first. -/
structure Desk where
  port : Port
  answers : Answers
  /-- What the command last typed asks for. -/
  kind : AskKind
  /-- Its `k_sem_take` returned in time. -/
  waited : Bool
  /-- It goes on to `print_answer`. -/
  printing : Bool
  said : List Said

/-- A move of the bench, of the command or of a callback, with what the partner sent. -/
inductive DeskMove where
  | port (m : PortMove)
  | answer (sent : Sent)
  | print

/-- A move of the shell. -/
def PortMove.ofShell : PortMove → Bool
  | bench m => decide (m.thread = .shell)
  | cmdAsk _ | ask _ => true
  | answer _ | tell => false

namespace Desk

/-- What `pd ask` keeps of its own, and what it says. -/
def follow (d : Desk) : PortMove → Desk
  | .cmdAsk arg =>
    match d.port.sys.bench.cmdAsk arg with
    | some _ => { d with kind := askOf arg }
    | none => { d with said := .error :: d.said }
  | .ask env =>
    match d.port.asking with
    | some .notQueued => { d with said := .error :: d.said }
    | some .takeSem => { d with waited := decide (0 ≤ env.ret) }
    | some .takeBack =>
      if d.waited = false then { d with said := .noAnswer :: d.said }
      else if d.port.question.askGot = false then { d with said := .sentNone :: d.said }
      else { d with printing := true }
    | _ => d
  | _ => d

variable (z : Layout) (offerMax : List Word)

/-- One move; a callback keeps what was sent before it tells. -/
def step (d : Desk) : DeskMove → Option Desk
  | .port (.answer _) => none
  | .port m =>
    if d.printing && m.ofShell then none
    else (d.port.step z offerMax m).map fun port => { d.follow m with port := port }
  | .answer sent =>
    (d.port.step z offerMax (.answer sent.answer)).map fun port =>
      { d with port := port, answers := d.answers.keep sent }
  | .print =>
    if d.printing then
      some { d with
        printing := false
        said := .answered d.kind (d.answers.printAnswer d.kind) :: d.said }
    else none

/-- The bench at its start, nothing kept. -/
def start (offerMax : Slots Word pdoMaxDataObjects) (sinkPdos : List Word) : Desk where
  port := .start z offerMax sinkPdos
  answers := ⟨⟨0, 0, 0, 0, 0, 0, 0⟩, ⟨0, 0, 0, false⟩, ⟨false, false, 0, 0⟩, .empty⟩
  kind := .none
  waited := false
  printing := false
  said := []

/-- What was sent since the last `pd ask` was typed, the last first. -/
def see (_ : Desk) (m : DeskMove) (since : List Sent) : List Sent :=
  match m with
  | .port (.cmdAsk _) => []
  | .answer sent => sent :: since
  | _ => since

/-- No `pd ask` is typed while a callback is still telling of an answer. -/
def Prompt (d : Desk) : DeskMove → Prop
  | .port (.cmdAsk _) => d.port.telling = none
  | _ => True

end Desk

/-! ## Whose answer is printed -/

/-- The piece asks for this kind, if it says for which. -/
def AskStep.AsksFor (kind : AskKind) : AskStep → Prop
  | resetSem k | pose k | request k => k = kind
  | _ => True

namespace Desk

/-- A `pd ask` is under way. -/
def Busy (d : Desk) : Prop := d.port.asking ≠ none ∨ d.printing = true

/-- What the question was told was sent since the command was typed. -/
def Told (d : Desk) (since : List Sent) : Prop :=
  ∃ sent ∈ since, sent.kind = d.kind ∧ sent.got = d.port.question.askGot

/-- The command's wait is over, or bound to be. -/
def Awake (d : Desk) : Prop :=
  d.printing = true ∨ ∃ piece ∈ d.port.asking, piece.posed = true ∧
    (d.port.question.askSem = true ∨ d.port.telling = some .giveSem ∨
      (piece = .takeBack ∧ d.waited = true))

end Desk

/-- While a command is under way, every answer told of was sent since it was typed. -/
structure DeskInv (d : Desk) (since : List Sent) : Prop where
  port : PortInv d.port
  shown : ∀ kind sent, since.find? (·.Brings kind) = some sent →
    d.answers.printAnswer kind = sent.shown
  ended : d.printing = true → d.port.asking = none
  asked : ∀ piece ∈ d.port.asking, piece.AsksFor d.kind
  posed : d.port.question.ask ≠ .none → d.port.question.ask = d.kind
  /-- Between the reset of the semaphore and the question nothing gives it. -/
  cleared : ∀ kind, d.port.asking = some (.pose kind) → d.port.question.askSem = false
  unposed : ∀ piece ∈ d.port.asking, piece.posed = false → d.port.telling ≠ some .giveSem
  named : ∀ got, d.port.telling ≠ some (.askAnswered .none got)
  telling : d.Busy → ∀ kind got, d.port.telling = some (.askAnswered kind got) →
    ∃ sent ∈ since, sent.kind = kind ∧ sent.got = got
  told : d.Awake → d.Told since
  got : d.printing = true → d.port.question.askGot = true

variable {z : Layout} {offerMax : List Word} {d d' : Desk} {since : List Sent}

/-- No callback answers nothing. -/
theorem Sent.kind_ne_none (sent : Sent) : sent.kind ≠ .none := by
  cases sent <;> exact AskKind.noConfusion

theorem Desk.Told.cons {sent : Sent} (h : d.Told since) : d.Told (sent :: since) := by
  obtain ⟨x, hx, hsame⟩ := h
  exact ⟨x, List.mem_cons_of_mem _ hx, hsame⟩

/-- Where no command is under way there is no question. -/
theorem PortInv.unasked {p : Port} (h : PortInv p) (hidle : p.asking = none) :
    p.question.ask = .none := by
  by_contra hask
  obtain ⟨piece, hpiece, -⟩ := h.question hask
  rw [hidle] at hpiece
  cases hpiece

/-- The bench beside it changes nothing of the question. -/
theorem DeskInv.congr {sys : System} (h : DeskInv d since) (hport : PortInv { d.port with sys }) :
    DeskInv { d with port := { d.port with sys } } since :=
  ⟨hport, h.shown, h.ended, h.asked, h.posed, h.cleared, h.unposed, h.named, h.telling, h.told,
    h.got⟩

/-- Nothing is asked of a command that is not under way. -/
theorem no_piece {P : AskStep → Prop} : ∀ piece ∈ (none : Option AskStep), P piece :=
  fun piece hpiece => absurd hpiece (Option.not_mem_none piece)

theorem not_posing {P : Prop} (kind : AskKind) (h : none = some (AskStep.pose kind)) : P :=
  absurd h (Option.some_ne_none _).symm

/-- Nothing has been sent yet. -/
theorem none_sent {P : AskKind → Sent → Prop} (kind : AskKind) (sent : Sent)
    (h : [].find? (fun x : Sent => decide (x.Brings kind)) = some sent) : P kind sent :=
  absurd h (Option.some_ne_none _).symm

theorem DeskInv.cmdAsk {arg : Arg} (h : DeskInv d since) (hprompt : d.port.telling = none)
    (hprinting : d.printing = false) (hidle : d.port.asking = none) :
    DeskInv { d.follow (.cmdAsk arg) with
      port := { d.port with asking := d.port.sys.bench.cmdAsk arg } } [] := by
  have hnone := h.port.unasked hidle
  cases hchecks : d.port.sys.bench.cmdAsk arg with
  | none =>
    simp only [Desk.follow, hchecks]
    refine ⟨⟨h.port.work, fun hask => absurd hnone hask⟩, none_sent, fun _ => rfl, no_piece,
      fun hask => absurd hnone hask, not_posing, no_piece, h.named, ?_, ?_, h.got⟩
    · rintro (hbusy | hbusy)
      · exact absurd rfl hbusy
      · exact absurd hbusy (Bool.eq_false_iff.mp hprinting)
    · rintro (hbusy | ⟨piece, hpiece, -⟩)
      · exact absurd hbusy (Bool.eq_false_iff.mp hprinting)
      · cases hpiece
  | some piece =>
    obtain rfl : piece = .resetSem (askOf arg) := by
      simp only [Bench.cmdAsk] at hchecks
      split_ifs at hchecks
      exact (Option.some.inj hchecks).symm
    simp only [Desk.follow, hchecks]
    refine ⟨⟨h.port.work, fun hask => absurd hnone hask⟩, none_sent, fun hbusy => ?_, ?_,
      fun hask => absurd hnone hask, fun _ hpose => ?_, fun _ _ _ => ?_, h.named, ?_, ?_, h.got⟩
    · exact absurd hbusy (Bool.eq_false_iff.mp hprinting)
    · rintro piece ⟨⟩
      exact rfl
    · cases hpose
    · rw [hprompt]
      exact (Option.some_ne_none _).symm
    · intro _ kind got htelling
      rw [hprompt] at htelling
      cases htelling
    · rintro (hbusy | ⟨piece, ⟨⟩, hposed, -⟩)
      · exact absurd hbusy (Bool.eq_false_iff.mp hprinting)
      · cases hposed

/-- While a piece of the command is still to come nothing is printed. -/
theorem DeskInv.notPrinting {piece : AskStep} (h : DeskInv d since)
    (hasking : d.port.asking = some piece) : d.printing = false := by
  by_contra hp
  rw [h.ended (Bool.eq_true_of_not_eq_false hp)] at hasking
  cases hasking

/-- So nothing is owed to what is printed. -/
theorem DeskInv.of_printing {piece : AskStep} {P : Prop} (h : DeskInv d since)
    (hasking : d.port.asking = some piece) (hp : d.printing = true) : P :=
  absurd hp (Bool.eq_false_iff.mp (h.notPrinting hasking))

/-- A command that ends without printing has no question left. -/
theorem DeskInv.leave {piece : AskStep} (h : DeskInv d since)
    (hasking : d.port.asking = some piece) (said : List Said) (hport : PortInv { d.port with
      question := { d.port.question with ask := .none }, asking := none }) :
    DeskInv { d with
      said := said
      port := { d.port with
        question := { d.port.question with ask := .none }, asking := none } } since := by
  have hbusy : d.Busy := .inl (hasking ▸ Option.some_ne_none piece)
  refine ⟨hport, h.shown, h.of_printing hasking, no_piece, fun hask => absurd rfl hask, not_posing,
    no_piece, h.named, fun _ => h.telling hbusy, ?_, h.of_printing hasking⟩
  rintro (hp | ⟨piece, hpiece, -⟩)
  · exact h.of_printing hasking hp
  · cases hpiece

/-- A command that goes on to another piece asks what it asked, and is told only of what was sent
since it was typed. -/
theorem DeskInv.goOn {piece next : AskStep} {question : Question} {waited : Bool}
    (h : DeskInv d since) (hasking : d.port.asking = some piece)
    (hport : PortInv { d.port with question := question, asking := some next })
    (hasks : next.AsksFor d.kind) (hposed : question.ask ≠ .none → question.ask = d.kind)
    (hcleared : ∀ kind, next = .pose kind → question.askSem = false)
    (hunposed : next.posed = false → d.port.telling ≠ some .giveSem)
    (htold : next.posed = true → (question.askSem = true ∨ d.port.telling = some .giveSem ∨
        (next = .takeBack ∧ waited = true)) →
      ∃ sent ∈ since, sent.kind = d.kind ∧ sent.got = question.askGot) :
    DeskInv { d with
      waited := waited
      port := { d.port with question := question, asking := some next } } since := by
  have hbusy : d.Busy := .inl (hasking ▸ Option.some_ne_none piece)
  refine ⟨hport, h.shown, h.of_printing hasking, ?_, hposed, ?_, ?_, h.named,
    fun _ => h.telling hbusy, ?_, h.of_printing hasking⟩
  · rintro _ ⟨⟩
    exact hasks
  · rintro kind ⟨⟩
    exact hcleared kind rfl
  · rintro _ ⟨⟩
    exact hunposed
  · rintro (hp | ⟨_, ⟨⟩, hnext, hcause⟩)
    · exact h.of_printing hasking hp
    · exact htold hnext hcause

/-- The semaphore is reset before the question is posed. -/
theorem DeskInv.resetSem {kind : AskKind} (h : DeskInv d since)
    (hasking : d.port.asking = some (.resetSem kind))
    (hport : PortInv { d.port with
      question := { d.port.question with askSem := false }, asking := some (.pose kind) }) :
    DeskInv { d with port := { d.port with
      question := { d.port.question with askSem := false }
      asking := some (.pose kind) } } since := by
  have hkind : kind = d.kind := h.asked _ hasking
  exact h.goOn hasking hport hkind h.posed (fun _ _ => rfl) (fun _ => h.unposed _ hasking rfl)
    fun hposed => absurd hposed Bool.false_ne_true

/-- The question is posed: nothing has given the semaphore since its reset. -/
theorem DeskInv.pose {kind : AskKind} (h : DeskInv d since)
    (hasking : d.port.asking = some (.pose kind))
    (hport : PortInv { d.port with
      question := { d.port.question with ask := kind }, asking := some (.request kind) }) :
    DeskInv { d with port := { d.port with
      question := { d.port.question with ask := kind }
      asking := some (.request kind) } } since := by
  have hkind : kind = d.kind := h.asked _ hasking
  refine h.goOn hasking hport hkind (fun _ => hkind) (fun _ hpose => by cases hpose)
    (fun hposed => absurd hposed.symm Bool.false_ne_true) fun _ hcause => ?_
  rcases hcause with hsem | hgiving | ⟨hpiece, -⟩
  · exact absurd ((h.cleared kind hasking).symm.trans hsem) Bool.false_ne_true
  · exact absurd hgiving (h.unposed _ hasking rfl)
  · cases hpiece

/-- The request is queued, or the command will say that it is not. -/
theorem DeskInv.request {kind : AskKind} {next : AskStep} (h : DeskInv d since)
    (hasking : d.port.asking = some (.request kind))
    (hnext : next = .notQueued ∨ next = .takeSem)
    (hport : PortInv { d.port with asking := some next }) :
    DeskInv { d with port := { d.port with asking := some next } } since := by
  have htold (hcause : d.port.question.askSem = true ∨ d.port.telling = some .giveSem) :
      d.Told since :=
    h.told (.inr ⟨_, hasking, rfl, hcause.imp_right .inl⟩)
  refine h.goOn hasking hport ?_ h.posed ?_ ?_ fun _ hcause => ?_
  · rcases hnext with rfl | rfl <;> trivial
  · rcases hnext with rfl | rfl <;> exact fun _ hpose => AskStep.noConfusion hpose
  · rcases hnext with rfl | rfl <;> exact fun hposed => absurd hposed.symm Bool.false_ne_true
  · rcases hcause with hsem | hgiving | ⟨hpiece, -⟩
    · exact htold (.inl hsem)
    · exact htold (.inr hgiving)
    · rcases hnext with rfl | rfl <;> cases hpiece

/-- The wait is over. Where it was over in time the question is told of. -/
theorem DeskInv.awaken {question : Question} {waited : Bool} (h : DeskInv d since)
    (hasking : d.port.asking = some .takeSem)
    (hask : question.ask = d.port.question.ask) (hgot : question.askGot = d.port.question.askGot)
    (hsem : question.askSem = true → d.port.question.askSem = true)
    (hwaited : waited = true → d.Told since)
    (hport : PortInv { d.port with question := question, asking := some .takeBack }) :
    DeskInv { d with
      waited := waited
      port := { d.port with question := question, asking := some .takeBack } } since := by
  have hsame : d.Told since → ∃ sent ∈ since, sent.kind = d.kind ∧ sent.got = question.askGot :=
    fun htold => hgot ▸ htold
  refine h.goOn hasking hport trivial (fun hne => hask.trans (h.posed (hask ▸ hne)))
    (fun _ hpose => by cases hpose) (fun hposed => absurd hposed.symm Bool.false_ne_true)
    fun _ hcause => ?_
  rcases hcause with hgiven | hgiving | ⟨-, htaken⟩
  · exact hsame (h.told (.inr ⟨_, hasking, rfl, .inl (hsem hgiven)⟩))
  · exact hsame (h.told (.inr ⟨_, hasking, rfl, .inr (.inl hgiving)⟩))
  · exact hsame (hwaited htaken)

/-- The semaphore is waited for until it is given or the time is up. -/
theorem DeskInv.takeSem {env : Env} {question : Question} {asking : Option AskStep}
    (h : DeskInv d since) (hasking : d.port.asking = some .takeSem)
    (hadvance : d.port.question.advance env .takeSem = some (question, asking))
    (hport : PortInv { d.port with question, asking }) :
    DeskInv { d.follow (.ask env) with port := { d.port with question, asking } } since := by
  simp only [Question.advance] at hadvance
  simp only [Desk.follow, hasking]
  split_ifs at hadvance with hret hsem
  · obtain ⟨rfl, rfl⟩ := Prod.mk.inj (Option.some.inj hadvance)
    refine h.awaken hasking rfl rfl id (fun hwaited => ?_) hport
    exact absurd (of_decide_eq_true hwaited) (Int.not_le.mpr hret)
  · obtain ⟨rfl, rfl⟩ := Prod.mk.inj (Option.some.inj hadvance)
    exact h.awaken hasking rfl rfl (fun hgiven => absurd hgiven Bool.false_ne_true)
      (fun _ => h.told (.inr ⟨_, hasking, rfl, .inl hsem⟩)) hport

/-- The question is taken back: the command says that the wait was in vain, or prints. -/
theorem DeskInv.takeBack {env : Env} (h : DeskInv d since)
    (hasking : d.port.asking = some .takeBack)
    (hport : PortInv { d.port with
      question := { d.port.question with ask := .none }, asking := none }) :
    DeskInv { d.follow (.ask env) with port := { d.port with
      question := { d.port.question with ask := .none }
      asking := none } } since := by
  have hbusy : d.Busy := .inl (hasking ▸ Option.some_ne_none _)
  simp only [Desk.follow, hasking]
  split_ifs with hwaited hgot
  · exact h.leave hasking _ hport
  · exact h.leave hasking _ hport
  · have htold : d.Told since := h.told
      (.inr ⟨_, hasking, rfl, .inr (.inr ⟨rfl, Bool.eq_true_of_not_eq_false hwaited⟩)⟩)
    exact ⟨hport, h.shown, fun _ => rfl, no_piece, fun hask => absurd rfl hask, not_posing,
      no_piece, h.named, fun _ => h.telling hbusy, fun _ => htold,
      fun _ => Bool.eq_true_of_not_eq_false hgot⟩

/-- A piece of the command: one step lemma for each. -/
theorem DeskInv.advance {env : Env} {piece : AskStep} {question : Question}
    {asking : Option AskStep} (h : DeskInv d since) (hasking : d.port.asking = some piece)
    (hadvance : d.port.question.advance env piece = some (question, asking))
    (hport : PortInv { d.port with question, asking }) :
    DeskInv { d.follow (.ask env) with port := { d.port with question, asking } } since := by
  cases piece with
  | resetSem kind =>
    obtain ⟨rfl, rfl⟩ := Prod.mk.inj (Option.some.inj hadvance)
    simp only [Desk.follow, hasking]
    exact h.resetSem hasking hport
  | pose kind =>
    obtain ⟨rfl, rfl⟩ := Prod.mk.inj (Option.some.inj hadvance)
    simp only [Desk.follow, hasking]
    exact h.pose hasking hport
  | request kind =>
    obtain ⟨rfl, rfl⟩ := Prod.mk.inj (Option.some.inj hadvance)
    simp only [Desk.follow, hasking]
    refine h.request hasking ?_ hport
    split_ifs
    · exact .inl rfl
    · exact .inr rfl
  | notQueued =>
    obtain ⟨rfl, rfl⟩ := Prod.mk.inj (Option.some.inj hadvance)
    simp only [Desk.follow, hasking]
    exact h.leave hasking _ hport
  | takeSem => exact h.takeSem hasking hadvance hport
  | takeBack =>
    obtain ⟨rfl, rfl⟩ := Prod.mk.inj (Option.some.inj hadvance)
    exact h.takeBack hasking hport

/-- A piece of a callback. -/
theorem DeskInv.tell {piece : TellStep} (h : DeskInv d since)
    (htelling : d.port.telling = some piece)
    (hport : PortInv { d.port with
      question := (d.port.question.tell piece).1, telling := (d.port.question.tell piece).2 }) :
    DeskInv { d with port := { d.port with
      question := (d.port.question.tell piece).1
      telling := (d.port.question.tell piece).2 } } since := by
  cases piece with
  | giveSem =>
    refine ⟨hport, h.shown, h.ended, h.asked, h.posed, ?_, fun _ _ _ => nofun, nofun,
      fun _ => nofun, ?_, h.got⟩
    · intro kind hpose
      exact absurd htelling (h.unposed _ hpose rfl)
    · rintro (hp | ⟨piece, hpiece, hposed, -⟩)
      · exact h.told (.inl hp)
      · exact h.told (.inr ⟨piece, hpiece, hposed, .inr (.inl htelling)⟩)
  | askAnswered kind got =>
    by_cases hask : d.port.question.ask = kind
    · have hkind : kind ≠ .none := fun hnone => h.named got (hnone ▸ htelling)
      obtain ⟨posed, hposed, hafter⟩ := h.port.question (hask ▸ hkind)
      have hbusy : d.Busy := .inl (hposed ▸ Option.some_ne_none posed)
      have hsame : kind = d.kind := hask ▸ h.posed (hask ▸ hkind)
      have htold := hsame ▸ h.telling hbusy kind got htelling
      have hnot {P : Prop} (hp : d.printing = true) : P := by
        rw [h.ended hp] at hposed
        cases hposed
      have htells : d.port.question.tell (.askAnswered kind got) =
          ({ d.port.question with ask := .none, askGot := got }, some .giveSem) := if_pos hask
      rw [htells] at hport ⊢
      refine ⟨hport, h.shown, h.ended, h.asked, fun hne => absurd rfl hne, h.cleared, ?_, nofun,
        fun _ _ _ => nofun, fun _ => htold, hnot⟩
      intro piece hpiece hunposed
      obtain rfl := Option.some.inj (hposed.symm.trans hpiece)
      rw [hafter] at hunposed
      cases hunposed
    · have htells : d.port.question.tell (.askAnswered kind got) = (d.port.question, none) :=
        if_neg hask
      rw [htells] at hport ⊢
      refine ⟨hport, h.shown, h.ended, h.asked, h.posed, h.cleared, fun _ _ _ => nofun, nofun,
        fun _ => nofun, ?_, h.got⟩
      rintro (hp | ⟨piece, hpiece, hposed, hsem | hgiving | hback⟩)
      · exact h.told (.inl hp)
      · exact h.told (.inr ⟨piece, hpiece, hposed, .inl hsem⟩)
      · cases hgiving
      · exact h.told (.inr ⟨piece, hpiece, hposed, .inr (.inr hback)⟩)

/-- A callback is entered with what the partner sent. -/
theorem DeskInv.answer {sent : Sent} (h : DeskInv d since) :
    DeskInv { d with
      port := { d.port with telling := some (.askAnswered sent.kind sent.got) }
      answers := d.answers.keep sent } (sent :: since) := by
  refine ⟨⟨h.port.work, h.port.question⟩, ?_, h.ended, h.asked, h.posed, h.cleared,
    fun _ _ _ => nofun, ?_, ?_, ?_, h.got⟩
  · intro kind last hlast
    simp only [printAnswer_keep]
    rw [List.find?_cons] at hlast
    split at hlast
    · next hbrings =>
      obtain rfl := Option.some.inj hlast
      exact if_pos (of_decide_eq_true hbrings)
    · next hbrings =>
      rw [if_neg (of_decide_eq_false hbrings)]
      exact h.shown kind last hlast
  · intro got htelling
    obtain ⟨hkind, -⟩ := TellStep.askAnswered.inj (Option.some.inj htelling)
    exact sent.kind_ne_none hkind
  · intro _ kind got htelling
    obtain ⟨rfl, rfl⟩ := TellStep.askAnswered.inj (Option.some.inj htelling)
    exact ⟨sent, List.mem_cons_self, rfl, rfl⟩
  · rintro (hp | ⟨piece, hpiece, hposed, hsem | hgiving | hback⟩)
    · exact (h.told (.inl hp)).cons
    · exact (h.told (.inr ⟨piece, hpiece, hposed, .inl hsem⟩)).cons
    · cases hgiving
    · exact (h.told (.inr ⟨piece, hpiece, hposed, .inr (.inr hback)⟩)).cons

/-- A move of the port is one of the port's own, with what the command makes of it. -/
theorem Desk.port_of_step {m : PortMove} (h : d.step z offerMax (.port m) = some d') :
    ¬ (d.printing && m.ofShell) = true ∧
      ∃ port, d.port.step z offerMax m = some port ∧ d' = { d.follow m with port := port } := by
  cases m with
  | answer a => cases h
  | bench | cmdAsk | ask | tell =>
    obtain ⟨hfree, h⟩ := Option.ite_none_left_eq_some.mp h
    obtain ⟨port, hport, hd'⟩ := Option.map_eq_some_iff.mp h
    exact ⟨hfree, port, hport, hd'.symm⟩

theorem DeskInv.step {m : DeskMove} (h : DeskInv d since) (hprompt : d.Prompt m)
    (hstep : d.step z offerMax m = some d') : DeskInv d' (d.see m since) := by
  cases m with
  | print =>
    obtain ⟨hprinting, hstep⟩ := Option.ite_none_right_eq_some.mp hstep
    obtain rfl := Option.some.inj hstep
    have hidle := h.ended hprinting
    refine ⟨h.port, h.shown, fun _ => hidle, h.asked, h.posed, h.cleared, h.unposed, h.named,
      ?_, ?_, nofun⟩
    · rintro (hbusy | hbusy)
      · exact absurd hidle hbusy
      · cases hbusy
    · rintro (hbusy | ⟨piece, hpiece, -⟩)
      · cases hbusy
      · have hnone : piece ∈ d.port.asking := hpiece
        rw [hidle] at hnone
        cases hnone
  | answer sent =>
    obtain ⟨port, hport, rfl⟩ := Option.map_eq_some_iff.mp hstep
    obtain ⟨-, hport⟩ := Option.ite_none_right_eq_some.mp hport
    obtain rfl := Option.some.inj hport
    exact h.answer
  | port m =>
    obtain ⟨hfree, port, hport, rfl⟩ := Desk.port_of_step hstep
    have hinv := h.port.step hport
    cases m with
    | answer a => cases hstep
    | bench m =>
      obtain ⟨-, hport⟩ := Option.ite_none_left_eq_some.mp hport
      obtain ⟨sys, -, rfl⟩ := Option.map_eq_some_iff.mp hport
      exact h.congr hinv
    | cmdAsk arg =>
      obtain ⟨⟨-, hidle⟩, hport⟩ := Option.ite_none_right_eq_some.mp hport
      obtain rfl := Option.some.inj hport
      refine h.cmdAsk hprompt ?_ hidle
      exact Bool.eq_false_of_not_eq_true fun hp => hfree (by rw [hp]; rfl)
    | ask env =>
      obtain ⟨piece, hasking, hport⟩ := Option.bind_eq_some_iff.mp hport
      obtain ⟨⟨question, asking⟩, hadvance, hport⟩ := Option.bind_eq_some_iff.mp hport
      obtain rfl := Option.some.inj hport
      exact h.advance hasking hadvance hinv
    | tell =>
      obtain ⟨piece, htelling, hport⟩ := Option.bind_eq_some_iff.mp hport
      obtain rfl := Option.some.inj hport
      exact h.tell htelling hinv

theorem deskInv_start (offerMax : Slots Word pdoMaxDataObjects) (sinkPdos : List Word) :
    DeskInv (Desk.start z offerMax sinkPdos) [] where
  port := portInv_start offerMax sinkPdos
  shown := nofun
  ended := nofun
  asked := nofun
  posed h := absurd rfl h
  cleared := nofun
  unposed := nofun
  named := nofun
  telling := fun _ => nofun
  told := by
    rintro (hbusy | ⟨piece, hpiece, -⟩)
    · cases hbusy
    · cases hpiece
  got := nofun

theorem deskInv_of_reaches {offerMax : Slots Word pdoMaxDataObjects} {sinkPdos : List Word}
    (h : Reaches (watched (Desk.step z offerMax.items) Desk.see) (fun s m => s.1.Prompt m)
      (Desk.start z offerMax sinkPdos, []) (d, since)) : DeskInv d since := by
  refine h.invariant (fun s => DeskInv s.1 s.2) (deskInv_start offerMax sinkPdos)
    fun s s' m hs hprompt hstep => ?_
  obtain ⟨d', hd', rfl⟩ := Option.map_eq_some_iff.mp hstep
  exact hs.step hprompt hd'

/-- Only `print_answer` says an answer, and only a wait that was over in time and told of nothing
sent ends with `sentNone`. -/
theorem said_follow {m : PortMove} {x : Said} (h : (d.follow m).said = x :: d.said) :
    x = .error ∨ x = .noAnswer ∨ (x = .sentNone ∧ d.port.asking = some .takeBack ∧
      d.waited = true ∧ d.port.question.askGot = false) := by
  have hself {P : Prop} (h : d.said = x :: d.said) : P := absurd h (List.cons_ne_self _ _).symm
  cases m with
  | cmdAsk arg =>
    simp only [Desk.follow] at h
    split at h
    · exact hself h
    · exact .inl (List.cons.inj h).1.symm
  | ask env =>
    simp only [Desk.follow] at h
    split at h
    · exact .inl (List.cons.inj h).1.symm
    · exact hself h
    · next hasking =>
      split_ifs at h with hwaited hgot
      · exact .inr (.inl (List.cons.inj h).1.symm)
      · exact .inr (.inr ⟨(List.cons.inj h).1.symm, hasking,
          Bool.eq_true_of_not_eq_false hwaited, hgot⟩)
      · exact hself h
    · exact hself h
  | bench | answer | tell => exact hself h

/-- **What `pd ask` prints.** In every run in which no `pd ask` is typed while a callback is still
telling of an answer, whatever the partner, the stack and the threads do: what the command prints
is what the partner sent last of the kind asked for, and it was sent since the command was typed.
It says that the partner sent none only when since then the callback came with nothing. -/
theorem ask_answered {offerMax : Slots Word pdoMaxDataObjects} {sinkPdos : List Word}
    (h : Reaches (watched (Desk.step z offerMax.items) Desk.see) (fun s m => s.1.Prompt m)
      (Desk.start z offerMax sinkPdos, []) (d, since))
    {m : DeskMove} (hstep : d.step z offerMax.items m = some d') :
    (∀ kind shown, d'.said = .answered kind shown :: d.said → kind = d.kind ∧
      ∃ sent, since.find? (·.Brings kind) = some sent ∧ shown = sent.shown) ∧
    (d'.said = .sentNone :: d.said → ∃ sent ∈ since, sent.kind = d.kind ∧ sent.got = false) := by
  have hinv := deskInv_of_reaches h
  have hself (x : Said) : d.said ≠ x :: d.said := (List.cons_ne_self _ _).symm
  cases m with
  | print =>
    obtain ⟨hprinting, hstep⟩ := Option.ite_none_right_eq_some.mp hstep
    obtain rfl := Option.some.inj hstep
    refine ⟨fun kind shown hsaid => ?_, fun hsaid => Said.noConfusion (List.cons.inj hsaid).1⟩
    obtain ⟨rfl, rfl⟩ := Said.answered.inj (List.cons.inj hsaid).1
    obtain ⟨sent, hsent, hkind, hgot⟩ := hinv.told (.inl hprinting)
    have hbrings : sent.Brings d.kind := ⟨hkind, hgot.trans (hinv.got hprinting)⟩
    have hsome : (since.find? (·.Brings d.kind)).isSome = true :=
      List.find?_isSome.mpr ⟨sent, hsent, decide_eq_true hbrings⟩
    obtain ⟨last, hlast⟩ := Option.isSome_iff_exists.mp hsome
    exact ⟨rfl, last, hlast, hinv.shown d.kind last hlast⟩
  | answer sent =>
    obtain ⟨port, -, rfl⟩ := Option.map_eq_some_iff.mp hstep
    exact ⟨fun kind shown hsaid => absurd hsaid (hself _), fun hsaid => absurd hsaid (hself _)⟩
  | port m =>
    obtain ⟨-, port, -, rfl⟩ := Desk.port_of_step hstep
    refine ⟨fun kind shown hsaid => ?_, fun hsaid => ?_⟩
    · rcases said_follow hsaid with h | h | ⟨h, -⟩ <;> cases h
    · rcases said_follow hsaid with h | h | ⟨-, hasking, hwaited, hgot⟩
      · cases h
      · cases h
      · obtain ⟨sent, hsent, hkind, hsame⟩ :=
          hinv.told (.inr ⟨.takeBack, hasking, rfl, .inr (.inr ⟨rfl, hwaited⟩)⟩)
        exact ⟨sent, hsent, hkind, hsame.trans hgot⟩

instance (d : Desk) : (m : DeskMove) → Decidable (d.Prompt m)
  | .port (.cmdAsk _) => inferInstanceAs (Decidable (d.port.telling = none))
  | .port (.bench _) | .port (.answer _) | .port (.ask _) | .port .tell => .isTrue trivial
  | .answer _ | .print => .isTrue trivial

/-- A partner at 25 degrees on external power. -/
def warmSdb : PdSdb := ⟨25, 2, 0, 0, 0, 0, 0⟩

/-- The bench attaches as a sink and asks for the status, which is answered while it waits. -/
def statusAsked : List DeskMove :=
  [.port (.bench (.enter (.policyNotify .powerRoleIsSink) quiet)),
    .port (.cmdAsk (ascii "status")), .port (.ask quiet), .port (.ask quiet), .port (.ask quiet),
    .answer (.status (some warmSdb)), .port .tell, .port .tell, .port (.ask quiet),
    .port (.ask quiet)]

theorem ask_answered_status : ∃ (d' : Desk) (since : List Sent) (sent : Sent),
    since.find? (·.Brings .status) = some sent ∧ d'.said = [.answered .status sent.shown] := by
  have hplay : ∃ s d', play (watched (Desk.step usbPd shieldPdos.items) Desk.see)
      (fun s m => s.1.Prompt m) (Desk.start usbPd shieldPdos [], []) statusAsked = some s ∧
        s.1.step usbPd shieldPdos.items .print = some d' ∧ s.1.said = [] ∧
        d'.said = [.answered .status warmSdb.shown] := ⟨_, _, rfl, rfl, rfl, rfl⟩
  obtain ⟨⟨d, since⟩, d', hplay, hstep, hsaid, hprinted⟩ := hplay
  have hfirst : d'.said = .answered .status warmSdb.shown :: d.said := by
    rw [hprinted]
    exact congrArg _ hsaid.symm
  obtain ⟨hkind, sent, hsent, hshown⟩ :=
    (ask_answered (reaches_of_play .start hplay) hstep).1 _ _ hfirst
  exact ⟨d', since, sent, hsent, hprinted.trans (by rw [hshown])⟩

end DevBench.Pd
