import MiniErp.Lib.JsonText
import MiniErp.Queue.State

/-! Rolls of work in progress: the routing data of a progress batch, its display status, the
recovery of a roll that its own producer consumed, and the claim of a waiting roll. Quantities,
labels, worker and time fields of a batch take no part in routing and are left out. -/
namespace MiniErp.Wip
open Text Queue

inductive OrderProgressBatchStatus where
  | paused
  | rollDetached
  | completed
  | resumed
  deriving DecidableEq, Repr

inductive OrderProgressBatchWipStatus where
  | waiting
  | inUse
  | processed
  | peremotka
  deriving DecidableEq, Repr

def OrderProgressBatchWipStatus.asStr : OrderProgressBatchWipStatus → String
  | .waiting => "waiting"
  | .peremotka => "peremotka"
  | .inUse => "in_use"
  | .processed => "processed"

structure OrderProgressBatchStatusDetail where
  workStatus : String
  wipStatus : String
  flowStatus : String
  stockStatus : String
  deriving DecidableEq, Repr

structure OrderProgressBatch where
  sessionId : String
  apparatus : String
  orderId : String
  action : ApparatusQueueAction
  status : OrderProgressBatchStatus
  wipStatus : OrderProgressBatchWipStatus
  statusDetail : OrderProgressBatchStatusDetail
  currentApparatus : String
  currentLocation : String
  nextApparatus : String
  usedBySessionId : String
  usedByApparatus : String
  processedBySessionId : String
  processedByApparatus : String
  payloadJson : Json

namespace OrderProgressBatch

section
variable (batch : OrderProgressBatch)

def isLayerRemainder : Bool :=
  (batch.payloadJson.get "origin").bind Json.asStr == some "layer_remainder"

def hasConsistentActionStatus : Bool :=
  match batch.action with
  | .pause => batch.status == .paused || batch.status == .resumed
  | .detachRoll => batch.status == .rollDetached || batch.status == .resumed
  | .rollComplete | .complete => batch.status == .completed
  | _ => false

def isFinishedGoodsOutput : Bool :=
  batch.wipStatus != .peremotka && !batch.isLayerRemainder && isBlank batch.nextApparatus &&
    batch.hasConsistentActionStatus

def flowStatus : String :=
  match batch.wipStatus with
  | .waiting => if batch.isFinishedGoodsOutput then "free_wip" else "waiting_next_stage"
  | .inUse => "in_progress"
  | .peremotka => "peremotka"
  | .processed =>
    if "warehouse:".toList.isPrefixOf
        (toAsciiLowercase (trim batch.processedByApparatus)).toList then
      "accepted_to_stock"
    else "consumed_by_next_stage"

def refreshStatusDetail : OrderProgressBatch :=
  { batch with
    statusDetail :=
      { workStatus :=
          match batch.status with
          | .paused => "paused"
          | .rollDetached => "roll_detached"
          | .resumed => "in_progress"
          | .completed => "completed"
        wipStatus := batch.wipStatus.asStr
        flowStatus := batch.flowStatus
        stockStatus := if batch.flowStatus = "accepted_to_stock" then "accepted" else "" } }

def clearWipProcessingFields : OrderProgressBatch :=
  { batch with
    processedBySessionId := ""
    processedByApparatus := ""
    payloadJson := batch.payloadJson.remove "wip_processed_at_unix" }

def clearWipUsageFields : OrderProgressBatch :=
  let cleared := clearWipProcessingFields { batch with usedBySessionId := "", usedByApparatus := "" }
  { cleared with payloadJson := cleared.payloadJson.remove "wip_in_use_at_unix" }

end

def wipWaitingLocation (apparatus : String) : String :=
  let apparatus := trim apparatus
  if apparatus = "" then "" else apparatus ++ " chiqim"

def wipBatchWasConsumedByProducer (batch : OrderProgressBatch) : Bool :=
  (batch.payloadJson.get "layer_remainder_operation_id").isNone &&
    batch.action.createsResumableOutput && batch.wipStatus == .processed &&
    apparatusIdsMatch batch.processedByApparatus batch.apparatus &&
    (isBlank batch.usedByApparatus || apparatusIdsMatch batch.usedByApparatus batch.apparatus) &&
    (isBlank batch.processedBySessionId || trim batch.processedBySessionId == trim batch.sessionId)

/-- A payload that is no object is replaced by an empty one before the mark is written. -/
def markRecovered (payload : Json) : Json :=
  match payload with
  | .object fields => .object (Json.setField "recovered_self_consumed_wip" (.bool true) fields)
  | _ => .object [("recovered_self_consumed_wip", .bool true)]

section
variable (batch : OrderProgressBatch)

def restoreSelfConsumedWip : OrderProgressBatch :=
  if batch.wipBatchWasConsumedByProducer then
    let cleared := batch.clearWipUsageFields
    refreshStatusDetail
      { cleared with
        wipStatus := .waiting
        currentApparatus := trim batch.apparatus
        currentLocation := wipWaitingLocation batch.apparatus
        payloadJson := markRecovered cleared.payloadJson }
  else batch

def normalizedRouteBatch : OrderProgressBatch := batch.restoreSelfConsumedWip.refreshStatusDetail

/-- The claim of a roll by a session. `none`: the payload is neither null nor an object, and
writing the time into it panics. -/
def wipBatchInUse (apparatus sessionId : String) (now : Int) : Option OrderProgressBatch :=
  let cleared := batch.clearWipProcessingFields
  (cleared.payloadJson.set "wip_in_use_at_unix" (.number (.int now))).map fun payload =>
    refreshStatusDetail
      { cleared with
        wipStatus := .inUse
        currentApparatus := trim apparatus
        currentLocation := trim apparatus
        usedBySessionId := trim sessionId
        usedByApparatus := trim apparatus
        payloadJson := payload }

/-- A trimmed text field of the payload; absent and other values read as empty. -/
def field (key : String) : String := trim (((batch.payloadJson.get key).bind Json.asStr).getD "")

def actionableWip : Bool :=
  batch.wipStatus == .waiting && isBlank batch.usedByApparatus &&
    isBlank batch.usedBySessionId && isBlank batch.processedByApparatus &&
    isBlank batch.processedBySessionId && batch.action.recordsProgressOutput

end

/-- A roll in use is no roll that its producer consumed: normalising changes only the display
status. -/
theorem restoreSelfConsumedWip_of_inUse {batch : OrderProgressBatch}
    (h : batch.wipStatus=.inUse) : batch.restoreSelfConsumedWip=batch := by
  simp [restoreSelfConsumedWip,wipBatchWasConsumedByProducer,h]

end OrderProgressBatch

/-- Where a roll is consumed. A claimed roll carries it in its payload as its binding. -/
structure WipInputRoute where
  sourceStageNodeId : String
  stageNodeId : String
  consumerApparatusIds : List String
  mapFingerprint : String
  remapped : Bool
  deriving DecidableEq, Repr

namespace WipInputRoute

def toJson (route : WipInputRoute) : Json :=
  Json.ofFields
    [("source_stage_node_id", .string route.sourceStageNodeId),
      ("stage_node_id", .string route.stageNodeId),
      ("consumer_apparatus_ids", .array (route.consumerApparatusIds.map .string)),
      ("map_fingerprint", .string route.mapFingerprint),("remapped", .bool route.remapped)]

/-- Deserialisation of the record: from an object, whose other fields are ignored, or from an
array of exactly its fields in order. -/
def ofJson : Json → Option WipInputRoute
  | .object fields => do
    return {
      sourceStageNodeId := ← (← fields.lookup "source_stage_node_id").asStr
      stageNodeId := ← (← fields.lookup "stage_node_id").asStr
      consumerApparatusIds := ← (← fields.lookup "consumer_apparatus_ids").asStrings
      mapFingerprint := ← (← fields.lookup "map_fingerprint").asStr
      remapped := ← (← fields.lookup "remapped").asBool }
  | .array [source,stage,consumers,fingerprint,remapped] => do
    return {
      sourceStageNodeId := ← source.asStr
      stageNodeId := ← stage.asStr
      consumerApparatusIds := ← consumers.asStrings
      mapFingerprint := ← fingerprint.asStr
      remapped := ← remapped.asBool }
  | _ => none

@[simp] theorem ofJson_toJson (route : WipInputRoute) : ofJson route.toJson=some route := by
  simp [toJson,Json.ofFields,ofJson,Json.lookup_setField,Json.asStrings_map_string,Json.asBool]

end WipInputRoute

end MiniErp.Wip
