import ScxAgent.Rules.Store

/-!
# The control protocol

The messages between the scheduler daemon and its control clients. A request names one of three
operations; `validate` checks that it carries the fields of its operation and no others.
-/

namespace ScxAgent.Control

open Rules JsonText

def controlVersion : UInt32 := 1

def maxRequestIdBytes : ℕ := 256

def maxSnapshotComms : ℕ := 128

/-- The rule state on the wire, which need not be valid. -/
structure WireState where
  present : Bool
  ruleClass : Option RuleClass
  deriving DecidableEq

namespace WireState

def isValid (state : WireState) : Bool := state.present == state.ruleClass.isSome

def ofState : RuleState → WireState
  | .absent => ⟨false, none⟩
  | .present ruleClass => ⟨true, some ruleClass⟩

def toState : WireState → Except String RuleState
  | ⟨false, none⟩ => .ok .absent
  | ⟨true, some ruleClass⟩ => .ok (.present ruleClass)
  | ⟨true, none⟩ => .error "class is required when present is true"
  | ⟨false, some _⟩ => .error "class must be omitted when present is false"

theorem toState_of_isValid {state : WireState} (h : state.isValid) :
    ∃ domain, state.toState = .ok domain := by
  match state, h with
  | ⟨false, none⟩, _ => exact ⟨.absent, rfl⟩
  | ⟨true, some ruleClass⟩, _ => exact ⟨.present ruleClass, rfl⟩

end WireState

inductive ControlOp where
  | getRule
  | snapshot
  | compareAndSetRule
  deriving DecidableEq, Repr

structure ControlRequest where
  version : UInt32
  requestId : String
  op : ControlOp
  comm : Option String
  comms : Option (List String)
  expected : Option WireState
  desired : Option WireState
  deriving DecidableEq

def validRequestId (requestId : String) : Bool :=
  !requestId.isEmpty && requestId.utf8ByteSize ≤ maxRequestIdBytes &&
    !requestId.toList.any isControl

namespace ControlRequest

def validComm (comm : String) : Bool := (validateComm comm).isOk

/-- The fields of the operation are there and valid, and no others. -/
def fieldsMatch (request : ControlRequest) : Bool :=
  match request.op with
  | .getRule =>
    request.comm.any validComm && request.comms.isNone && request.expected.isNone &&
      request.desired.isNone
  | .snapshot =>
    request.comm.isNone &&
      request.comms.any (fun comms =>
        !comms.isEmpty && comms.length ≤ maxSnapshotComms && comms.all validComm) &&
      request.expected.isNone && request.desired.isNone
  | .compareAndSetRule =>
    request.comm.any validComm && request.comms.isNone && request.expected.any WireState.isValid &&
      request.desired.any WireState.isValid

def validate (request : ControlRequest) : Except String Unit :=
  if request.version ≠ controlVersion then
    .error s!"unsupported control version {request.version}; expected {controlVersion}"
  else if !validRequestId request.requestId then .error "invalid control request_id"
  else if !request.fieldsMatch then .error "control request fields do not match operation"
  else .ok ()

theorem fieldsMatch_of_validate {request : ControlRequest} (h : request.validate = .ok ()) :
    request.fieldsMatch = true := by
  unfold validate at h
  split_ifs at h with hversion hid hfields
  simpa using hfields

end ControlRequest

inductive ControlStatus where
  | ok
  | applied
  | noop
  | conflict
  | error
  deriving DecidableEq, Repr

inductive WireRuleSource where
  | base
  | learned
  | default
  deriving DecidableEq, Repr

structure RuleObservation where
  comm : String
  ruleClass : RuleClass
  source : WireRuleSource
  activeClass : Option RuleClass
  persistedClass : Option RuleClass
  consistent : Bool
  deriving DecidableEq

structure ControlStats where
  taskStateErrors : UInt64
  ruleRefreshDeferred : UInt64
  deriving DecidableEq

structure ControlResponse where
  version : UInt32
  requestId : String
  status : ControlStatus
  current : Option WireState
  rules : List RuleObservation
  revision : UInt64
  rulesSeq : UInt64
  effectiveDigest : String
  stats : Option ControlStats
  workloadFingerprint : Option String
  message : Option String
  deriving DecidableEq

end ScxAgent.Control
