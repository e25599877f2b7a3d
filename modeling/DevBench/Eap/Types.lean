import DevBench.Core.Arrays

/-!
# Protocol manifests

The decoded form of a `.eap` manifest (`eap.h`). Every tagged union is an
inductive type and every counted array carries its cap, so what the decoder's
switches and count checks guarantee holds of every value. Names other than a
state's are not kept. Cross-references are raw indices, as on the wire.
-/

namespace DevBench.Eap

open DevBench.Core

/-- `EAP_MAX_SOURCES_PER_PROTOCOL`. -/
abbrev maxSourcesPerProtocol : Nat := 6

/-- `EAP_MAX_FRAMES_PER_PROTOCOL`. -/
abbrev maxFramesPerProtocol : Nat := 8

/-- `EAP_MAX_FRAME_FIELDS`. -/
abbrev maxFrameFields : Nat := 8

/-- `EAP_MAX_FRAME_SPANS`. -/
abbrev maxFrameSpans : Nat := 4

/-- `EAP_MAX_SESSION_VARS`. -/
abbrev maxSessionVars : Nat := 6

/-- `EAP_MAX_STATES_PER_PROTOCOL`. -/
abbrev maxStatesPerProtocol : Nat := 12

/-- `EAP_MAX_STATE_NAME_LEN`. -/
abbrev maxStateNameLen : Nat := 24

/-- `EAP_MAX_EVENT_ARMS_PER_STATE`. -/
abbrev maxEventArmsPerState : Nat := 2

/-- `EAP_MAX_GUARDS_PER_ARM`. -/
abbrev maxGuardsPerArm : Nat := 2

/-- `EAP_MAX_REMEMBER_PER_ARM`. -/
abbrev maxRememberPerArm : Nat := 2

/-- `EAP_MAX_WRITE_FIELDS`. -/
abbrev maxWriteFields : Nat := 6

/-- `EAP_MAX_SELECT_MATCH_LEN`. -/
abbrev maxSelectMatchLen : Nat := 8

/-- `EAP_MAX_FAIL_REASON_LEN`. -/
abbrev maxFailReasonLen : Nat := 64

/-- Sixteen raw big-endian bytes. -/
abbrev Uuid : Type := Vector UInt8 16

/-- `struct eap_operand`: the index of a literal and the literal of an index are unused. -/
inductive Operand where
  | literal (value : Int64)
  | field (index : UInt8)
  | session (index : UInt8)
  | spanLen (index : UInt8)
  deriving DecidableEq, Repr

/-- `struct eap_expr`. -/
inductive Expr where
  | term (a : Operand)
  | add (a b : Operand)
  deriving DecidableEq, Repr

/-- `enum eap_compare_op`. -/
inductive CompareOp where
  | eq | ne | lt | le | gt | ge
  deriving DecidableEq, Repr

/-- `struct eap_condition`. -/
structure Condition where
  lhs : Operand
  op : CompareOp
  rhs : Operand
  deriving DecidableEq, Repr

/-- `struct eap_remember`, applied before the guards of its arm. -/
structure Remember where
  /-- Session-variable index. -/
  var : UInt8
  value : Expr
  deriving DecidableEq, Repr

/-- `struct eap_guarded_goto`. -/
structure GuardedGoto where
  cond : Condition
  gotoState : UInt8
  deriving DecidableEq, Repr

/-- `struct eap_event_arm`. No `otherwise` is not the same as an `otherwise`
pointing at the state itself. -/
structure EventArm where
  /-- Index into the frames of the protocol. -/
  frame : UInt8
  remember : Slots Remember maxRememberPerArm
  guards : Slots GuardedGoto maxGuardsPerArm
  otherwise : Option UInt8
  deriving DecidableEq, Repr

/-- `struct eap_write_field`; `ty` is a scalar type's discriminant. -/
structure WriteField where
  ty : UInt8
  value : Operand
  deriving DecidableEq, Repr

/-- `struct eap_write`. -/
structure Write where
  /-- Index into the sources of the protocol. -/
  source : UInt8
  fields : Slots WriteField maxWriteFields
  withResponse : Bool
  deriving DecidableEq, Repr

/-- `struct eap_timeout_arm`. -/
structure TimeoutArm where
  afterMs : UInt32
  retry : UInt8
  gotoState : UInt8
  deriving DecidableEq, Repr

/-- `enum eap_terminal_outcome`. -/
inductive TerminalOutcome where
  | pass | fail
  deriving DecidableEq, Repr

/-- `enum eap_state_kind` with the fields valid for each kind. -/
inductive StateKind where
  | active (onEnter : Option Write) (onEvent : Slots EventArm maxEventArmsPerState)
      (onTimeout : Option TimeoutArm)
  | terminal (outcome : TerminalOutcome)
  deriving DecidableEq, Repr

/-- `struct eap_state`. -/
structure State where
  name : CharArray (maxStateNameLen + 1)
  kind : StateKind
  deriving DecidableEq, Repr

/-- `struct eap_scalar_read`. -/
structure ScalarRead where
  offset : UInt16
  ty : UInt8
  deriving DecidableEq, Repr

/-- `struct eap_span_read`; no length means the rest of the payload. -/
structure SpanRead where
  offset : UInt16
  len : Option UInt16
  deriving DecidableEq, Repr

/-- The `select_*` fields of `struct eap_frame`. -/
structure Select where
  offset : UInt16
  eq : Slots UInt8 maxSelectMatchLen
  deriving DecidableEq, Repr

/-- `struct eap_frame`. -/
structure Frame where
  /-- Index into the sources of the protocol. -/
  source : UInt8
  select : Option Select
  fields : Slots ScalarRead maxFrameFields
  spans : Slots SpanRead maxFrameSpans
  deriving DecidableEq, Repr

/-- `struct eap_source`. -/
structure Source where
  serviceUuid : Uuid
  characteristicUuid : Uuid
  deriving DecidableEq, Repr

/-- `struct eap_protocol_def`. -/
structure ProtocolDef where
  sources : Slots Source maxSourcesPerProtocol
  frames : Slots Frame maxFramesPerProtocol
  /-- The initial value of each session variable. -/
  sessionInitial : Slots Int64 maxSessionVars
  states : Slots State maxStatesPerProtocol
  deriving DecidableEq, Repr

end DevBench.Eap
