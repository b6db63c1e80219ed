import MiniErp.Catalog.OrderStore
import MiniErp.Live.SnapshotPatch

/-! The records of a live snapshot, as far as the lists of a worker read them. -/
namespace MiniErp.Live
open Std Queue Catalog

def policyName : ApparatusQueuePolicy → String
  | .strictSequence => "strict_sequence"
  | .freePick => "free_pick"

def controlName : OrderControlState → String
  | .active => "active"
  | .freezeRequested => "freeze_requested"
  | .frozen => "frozen"

structure ApparatusQueuePolicyRecord where
  apparatusId : String
  apparatus : String
  policy : ApparatusQueuePolicy
  locked : Bool
  reason : String
  deriving DecidableEq

def ApparatusQueuePolicyRecord.toJson (record : ApparatusQueuePolicyRecord) : Json :=
  -- an empty reason is not written
  Json.ofFields ([("apparatus_id", .string record.apparatusId),("apparatus", .string record.apparatus),
    ("policy", .string (policyName record.policy)),("locked", .bool record.locked)] ++
      if record.reason = "" then [] else [("reason", .string record.reason)])

inductive ApparatusQueueInteractionMode where
  | freshStart
  | freshStartBlocked
  | requeuedWaiting
  | requeuedReady
  | inProgress
  | freezeRequested
  | paused
  | frozen
  | completed
  | waitingPreviousStage
  deriving DecidableEq, Repr

structure StageWorkControl where
  upstreamClosed : Bool
  astatkaAvailable : Bool
  astatkaRequired : Bool
  reportSessionId : String
  upstreamTitle : String
  deriving DecidableEq, Repr

structure ApparatusQueueOrderActionControl where
  stageWork : Option StageWorkControl
  temporarilyPaused : Bool
  state : ApparatusQueueOrderState
  mode : ApparatusQueueInteractionMode
  printPreflight : Option PrintPreflightHold
  deriving DecidableEq, Repr

structure ProductionOrderStatusDetail where
  orderStatus : String
  completedWithIssueCount : Nat
  deriving DecidableEq, Repr

/-- How the records of a snapshot are read. A record may have further fields; a policy has none. -/
structure LiveRecords extends SnapshotTypes where
  map : Saved → ProductionMapDefinition
  control : Control → ApparatusQueueOrderActionControl
  status : Status → ProductionOrderStatusDetail
  controlState : OrderControl → OrderControlState
  controlOrderId : OrderControl → String
  policy : Policy → ApparatusQueuePolicyRecord
  policy_injective : Function.Injective policy
  apparatusId_eq : ∀ record, apparatusId record=(policy record).apparatusId
  policyJson_eq : ∀ record, policyJson record=(policy record).toJson

abbrev LiveRecords.Snapshot (R : LiveRecords) := ProductionMapLiveSnapshot R.toSnapshotTypes

section Reads
variable {R : LiveRecords}

section
variable (snapshot : R.Snapshot)

def isFreePick (apparatus : String) : Bool :=
  snapshot.queuePolicies.any fun record =>
    (R.policy record).apparatusId == apparatus && (R.policy record).policy == .freePick

def orderControl (id : String) : Option OrderControlState :=
  snapshot.orderControls[id]?.map R.controlState

def orderStatus (id : String) : Option ProductionOrderStatusDetail :=
  snapshot.orderStatuses[id]?.map R.status

def actionControl (apparatus id : String) : Option ApparatusQueueOrderActionControl :=
  snapshot.queueActionControls[apparatus]?.bind fun controls => controls[id]?.map R.control

end

end Reads

end MiniErp.Live
