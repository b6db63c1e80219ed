import MiniErp.Stage.Reference
import MiniErp.Wip.RouteCache

/-! The inputs of the operations: the rolls in progress of the order and its opening stock. A
cached projection does not route rolls that are already processed; the statuses are the same,
since only outstanding inputs count. Of an opening stock record only the fields that locate it
are kept. -/
namespace MiniErp.Stage
open Text Chain Memo Wip List

inductive OpeningWipIntakeStatus where
  | confirmed
  | cancelled
  deriving DecidableEq, Repr

inductive OpeningWipBatchStatus where
  | waiting
  | inUse
  | processed
  | void
  deriving DecidableEq, Repr

structure OpeningWipIntake where
  status : OpeningWipIntakeStatus
  sourceApparatus : String
  resumeApparatus : String
  resumeStageNodeId : String

structure OpeningWipBatch where
  wipStatus : OpeningWipBatchStatus

structure OpeningWipRecord where
  intake : OpeningWipIntake
  batches : List OpeningWipBatch

section
variable (batch : OrderProgressBatch)

def progressBatchNextStageNodeId : String :=
  match ((batch.payloadJson.get "wip_route_binding").bind fun binding =>
      binding.get "stage_node_id").bind Json.asStr with
  | some stage => trim stage
  | none => batch.field "next_stage_node_id"

def batchIsOutstanding : Bool := batch.wipStatus == .waiting || batch.wipStatus == .inUse

def batchInput (targetNode : String) : StageWorkInput where
  sourceNode := ((batch.payloadJson.get "stage_node_id").bind Json.asStr).getD ""
  targetNode
  sourceApparatus := batch.apparatus
  targetApparatus := batch.nextApparatus
  outstanding := batchIsOutstanding batch
  available := batch.wipStatus == .waiting

end

/-- Opening stock that is confirmed and not used up. Without a source it is located at the
stage it resumes, otherwise after it. -/
def openingInputs (opening : List OpeningWipRecord) : List StageWorkInput :=
  (opening.filter fun record => record.intake.status == .confirmed &&
      record.batches.any fun batch => batch.wipStatus == .waiting || batch.wipStatus == .inUse).map
    fun record =>
      { sourceNode :=
          if record.intake.sourceApparatus = "" then "" else record.intake.resumeStageNodeId
        targetNode :=
          if record.intake.sourceApparatus = "" then record.intake.resumeStageNodeId else ""
        sourceApparatus := record.intake.sourceApparatus
        targetApparatus := record.intake.resumeApparatus
        outstanding := true
        available := record.batches.any fun batch => batch.wipStatus == .waiting }

section
variable (digest : ProductionMapDefinition → String)

def batchTargetProjected (batch : OrderProgressBatch) : StateM ProjectionMap String := do
  if (← ProjectionMap.isCached) && batch.wipStatus == .processed then
    return progressBatchNextStageNodeId batch
  match ← route digest batch with
  | .ok route => return route.stageNodeId
  | .error _ => return progressBatchNextStageNodeId batch

section
variable (batches : List OrderProgressBatch) (opening : List OpeningWipRecord)

def workInputsProjected : StateM ProjectionMap (List StageWorkInput) := do
  let inputs ← batches.mapM fun batch => do
    return batchInput batch (← batchTargetProjected digest batch)
  return inputs++openingInputs opening

/-- The inputs and then the statuses, as a read projection computes them. -/
def workStatusesOf
    (sessions : List OrderRunSession) (states : ApparatusStates)
    (events : List ProductionStageLifecycleEvent) :
    StateM ProjectionMap (List StageWorkStatus) := do
  let inputs ← workInputsProjected digest batches opening
  stageWorkStatusesProjected sessions inputs states events

end

/-- The target node of a roll, with the route computed from the map. -/
def batchTarget (map : ProductionMapDefinition)
    (cached : Bool) (batch : OrderProgressBatch) : String :=
  if cached && batch.wipStatus == .processed then progressBatchNextStageNodeId batch
  else
    match resolvedRoute digest map batch with
    | .ok route => route.stageNodeId
    | .error _ => progressBatchNextStageNodeId batch

def workInputsOf (map : ProductionMapDefinition) (cached : Bool) (batches : List OrderProgressBatch)
    (opening : List OpeningWipRecord) : List StageWorkInput :=
  (batches.map fun batch => batchInput batch (batchTarget digest map cached batch)) ++
    openingInputs opening

end

section Answers
variable (digest : ProductionMapDefinition → String) (map : ProductionMapDefinition) (cached : Bool)

theorem answers_batchTarget (batch : OrderProgressBatch) :
    Answers (ProjectionMap.Sound digest map cached (CachedRoute digest map))
      (batchTargetProjected digest batch) (batchTarget digest map cached batch) := by
  refine ProjectionMap.answers_isCached.bind ?_
  unfold batchTarget
  split
  · exact answers_pure _
  · refine (answers_route batch).bind ?_
    cases resolvedRoute digest map batch with
    | ok route => exact answers_pure _
    | error e => exact answers_pure _

theorem answers_workInputsProjected (batches : List OrderProgressBatch)
    (opening : List OpeningWipRecord) :
    Answers (ProjectionMap.Sound digest map cached (CachedRoute digest map))
      (workInputsProjected digest batches opening)
      (workInputsOf digest map cached batches opening) := by
  refine (answers_mapM fun batch _ => ?_).bind (answers_pure _)
  exact (answers_batchTarget digest map cached batch).bind (answers_pure _)

end Answers

/-- A processed roll is not outstanding, and every other roll is routed in both cases. -/
theorem filter_outstanding_workInputsOf (digest : ProductionMapDefinition → String)
    (map : ProductionMapDefinition) (cached : Bool) (batches : List OrderProgressBatch)
    (opening : List OpeningWipRecord) :
    (workInputsOf digest map cached batches opening).filter (·.outstanding) =
      (workInputsOf digest map false batches opening).filter (·.outstanding) := by
  unfold workInputsOf
  rw [filter_append,filter_append,filter_map,filter_map]
  congr 1
  refine map_congr_left fun batch hbatch => ?_
  have houtstanding : batchIsOutstanding batch=true := (mem_filter.mp hbatch).2
  have hopen : (batch.wipStatus == .processed)=false := by
    cases hstatus : batch.wipStatus <;> simp_all [batchIsOutstanding]
  rw [batchTarget,batchTarget,hopen,Bool.and_false,Bool.and_false]

theorem operations_congr_outstanding {inputs others : List StageWorkInput}
    (h : inputs.filter (·.outstanding)=others.filter (·.outstanding))
    (map : ProductionMapDefinition) (sessions : List OrderRunSession) (states : ApparatusStates)
    (events : List ProductionStageLifecycleEvent) :
    StageWorkReference.operations map sessions inputs states events =
      StageWorkReference.operations map sessions others states events := by
  simp only [StageWorkReference.operations,StageWorkReference.operation,h]

/-- The inputs of a cached projection differ from those of the reference projection in processed
rolls only, and the statuses computed from them, by either projection, are the same. -/
theorem cached_inputs_same_statuses (digest : ProductionMapDefinition → String)
    (map : ProductionMapDefinition) (batches : List OrderProgressBatch)
    (opening : List OpeningWipRecord) (sessions : List OrderRunSession)
    (states : ApparatusStates) (events : List ProductionStageLifecycleEvent) :
    ((workStatusesOf digest batches opening sessions states events).run (ProjectionMap.new map)).1 =
      ((workStatusesOf digest batches opening sessions states events).run
        (ProjectionMap.reference map)).1 ∧
    stageWorkStatuses map sessions
        ((workInputsProjected digest batches opening).run (ProjectionMap.new map)).1
        states events =
      stageWorkStatuses map sessions
        ((workInputsProjected digest batches opening).run (ProjectionMap.reference map)).1
        states events := by
  have hsame := congrArg closeStatuses (operations_congr_outstanding
    (filter_outstanding_workInputsOf digest map true batches opening) map sessions states events)
  constructor
  · have hanswers : ∀ cached, Answers (ProjectionMap.Sound digest map cached (CachedRoute digest map))
        (workStatusesOf digest batches opening sessions states events)
        (StageWorkReference.stageWorkStatuses map sessions
          (workInputsOf digest map cached batches opening) states events) := fun cached =>
      (answers_workInputsProjected digest map cached batches opening).bind
        (StageWorkReference.answers_stageWorkStatusesProjected _ _ _ _)
    exact ((hanswers true _ ProjectionMap.sound_new).1.trans hsame).trans
      (hanswers false _ ProjectionMap.sound_reference).1.symm
  · have hstatuses := fun inputs => congrArg closeStatuses
      (StageWorkReference.stageOperations_eq map sessions inputs states events)
    rw [(answers_workInputsProjected digest map true batches opening _ ProjectionMap.sound_new).1,
      (answers_workInputsProjected digest map false batches opening _
        ProjectionMap.sound_reference).1]
    exact (hstatuses _).trans (hsame.trans (hstatuses _).symm)

example : ((workInputsProjected (fun map => map.id)
        [{ printedRoll with wipStatus := .processed }] []).run
          (ProjectionMap.new pressThenLaminator)).1 ≠
      ((workInputsProjected (fun map => map.id)
        [{ printedRoll with wipStatus := .processed }] []).run
          (ProjectionMap.reference pressThenLaminator)).1 := by
  decide +kernel

end MiniErp.Stage
