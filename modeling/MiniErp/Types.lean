import MiniErp.Lib.Json

/-! Apparatus identities, and the records and enumerations shared by the queue, the routes and
the stage evaluator. A field that no modelled function reads is left out. -/
namespace MiniErp
open Text

/-- `ApparatusId::is_valid`: the shape `apparatus:<namespace>:<opaque-key>`. -/
def ApparatusId.isValid (value : String) : Bool :=
  let segmentChar (c : Char) : Bool :=
    isAsciiLowercase c || isAsciiDigit c || c == '-' || c == '_' || c == '.'
  !isBlank value && value == trim value &&
    !value.toList.any (fun c => isWhitespace c || isControl c) &&
    value.utf8ByteSize≤128 && "apparatus:".toList.isPrefixOf value.toList &&
    match (value.toList.drop 10).splitOn ':' with
    | [namespaceText,opaqueKey] =>
      !namespaceText.isEmpty && !opaqueKey.isEmpty &&
        namespaceText.all segmentChar && opaqueKey.all segmentChar
    | _ => false

def isCanonicalApparatusId (value : String) : Bool := ApparatusId.isValid (trim value)

def apparatusIdsMatch (left right : String) : Bool :=
  trim left == trim right && ApparatusId.isValid (trim left)

theorem ApparatusId.trim_eq {value : String} (h : ApparatusId.isValid value=true) :
    trim value=value := by
  simp only [ApparatusId.isValid,Bool.and_eq_true,beq_iff_eq] at h
  exact h.1.1.1.1.2.symm

theorem ApparatusId.ne_empty {value : String} (h : ApparatusId.isValid value=true) :
    value ≠ "" := by
  rintro rfl
  simp [ApparatusId.isValid,isBlank] at h

/-- A text that has the canonical shape. -/
structure ApparatusId where
  value : String
  valid : ApparatusId.isValid value=true
  deriving DecidableEq

def ApparatusId.new (value : String) : Option ApparatusId :=
  if h : ApparatusId.isValid value=true then some ⟨value,h⟩ else none

structure QueueActionActor where
  role : String
  ref : String
  displayName : String
  deriving DecidableEq, Repr

inductive ProductionMapError where
  | missingId
  | missingProductCode
  | missingTitle
  | missingStart
  | missingEnd
  | duplicateNode (id : String)
  | missingEdgeNode (id : String)
  | cycle
  | missingFormulaTarget
  | missingFormulaExpression
  | invalidFormulaTarget (target : String)
  | invalidFormulaExpression (expression : String)
  | unknownFormulaVariable (variableName : String)
  | formulaDivisionByZero
  | invalidOrderQty
  | invalidNodeQty (nodeId : String)
  | invalidPrintValSize
  | invalidLocation (location : String)
  | invalidRezkaFrameGroups
  | missingConditionBranch
  | mapNotFound
  | moveNotAllowed
  | startedOrderMoveRequiresTransfer
  | startedProductionMapStageLocked
  | openedOrderCalculationLocked
  | apparatusTransferReasonRequired
  | apparatusTransferIdempotencyRequired
  | apparatusTransferIdempotencyConflict
  | apparatusTransferOrderNotPaused
  | apparatusTransferSessionNotFound
  | apparatusTransferProgressNotFound
  | apparatusTransferSessionMismatch
  | apparatusTransferProgressMismatch
  | apparatusTransferTargetConflict
  | orderNumberImmutable
  | duplicateOrderNumber
  | printPreflightActive
  | storeFailed
  | queueActionNotAllowed
  | queueReorderInvalid
  | queueReorderConflict
  | queueReorderFrozen
  | queueReorderBlocked
  | queueReorderIdempotencyConflict
  | queueSequenceOrderNotFound (orderId : String)
  | queueSequenceApparatusMismatch (orderId : String)
  | capacityUnavailable
  | capacityNoWorkingWindow
  | capacityConflict
  | capabilityNotSupported
  | capabilityLevelInsufficient
  | scheduleInputInvalid
  | scheduleIdempotencyConflict
  | scheduleReservationNotFound
  | scheduleReservationLocked
  | apparatusWidthExceedsCapability
  | apparatusWidthBelowCapability
  | rawMaterialInvalidInput
  | rawMaterialGroupNotAllowed
  | rawMaterialGroupAmbiguous (apparatuses : List String)
  | rawMaterialAssignmentNotFound
  | rawMaterialAlreadyAssigned
  | rawMaterialAlreadyAssignedToOrder
  | rawMaterialScanRequired
  | rawMaterialMismatch
  | rawMaterialStateNotReady
  | rawMaterialScanIncomplete
  | rawMaterialRequirementNotMet
  | orderAlreadyCompleted
  | orderFreezeRequested
  | orderFrozen
  | orderControlActionNotAllowed
  | orderFreezeRequestMismatch
  | orderFreezeTargetNotFound
  | qolipAlreadyInUse
  | progressInputInvalid
  | progressBatchNotAccepted
  | progressBatchNotResumable
  | progressBatchNotFound
  | wipRouteSourceUnresolved
  | wipRouteDestinationUnresolved
  | wipRouteAmbiguous
  | wipRouteChanged
  deriving DecidableEq, Repr

inductive OrderRunStatus where
  | active
  | paused
  | frozen
  | rollDetached
  | completed
  deriving DecidableEq, Repr

def OrderRunStatus.asStr : OrderRunStatus → String
  | .active => "active"
  | .paused => "paused"
  | .frozen => "frozen"
  | .rollDetached => "roll_detached"
  | .completed => "completed"

def OrderRunStatus.isOpen : OrderRunStatus → Bool
  | .active | .paused | .frozen | .rollDetached => true
  | .completed => false

structure OrderRunSession where
  sessionId : String
  apparatus : String
  orderId : String
  stageNodeId : String
  status : OrderRunStatus
  workerRole : String
  workerRef : String
  workerDisplayName : String
  startedAtUnix : Int
  updatedAtUnix : Int
  payloadJson : Json

end MiniErp
