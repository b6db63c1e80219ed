import MiniErp.Queue.Prepare

/-! The run session of a prepared queue action. The queue states of the write come from the
transition table; its session comes from the progress builders, which dispatch on an action of
their own, and from the marks that are put on the built session afterwards. -/
namespace MiniErp.Queue
open Text Std Run List

/-- Fields written into a payload, all of them among the `allowed` ones. -/
structure PayloadFields (allowed : List String) where
  fields : List (String × Json)
  fst_mem : ∀ field∈fields, field.1∈allowed

/-- The fields of `progress_session_payload`, with those of its metrics. -/
def progressSessionFields : List String :=
  ["last_action","last_qty","last_uom","input_progress_batch_id","input_progress_qr_payload",
    "input_progress_apparatus","input_wip_source_kind","return_ink_kg",
    "lamination_print_leftover_rolls","lamination_film_leftover_rolls","rezka_bosma_waste",
    "rezka_lamination_waste","rezka_edge_waste","total_waste","finished_goods_kg","bobina_kg",
    "finished_goods_meter","diameter","total_waste_uom","description","layout_lanes",
    "contained_kadr_count"]

def qolipLineageFields : List String :=
  ["qolip_set_id","qolip_code","qolip_codes","qolip_set_snapshot"]

/-- The fields a session keeps when its payload is replaced. -/
def preservedFields : List String :=
  ["qolip_confirmation","qolip_released_on_return","_reactivation_of_session_id",
    "_reactivation_reserved_outputs","reactivation_token","start_resources","input_lineage",
    "rezka_active_partial_rolls","rezka_output_report","rezka_reference_frame_index",
    "rezka_output_cycle","rezka_output_revision","rezka_recorded_kadr_counts",
    "wip_started_at_unix","wip_waiting_for_resume","_temporary_pause_revision",
    "_temporary_pause_last_interval"]

/-- The roll a resume names: none, an opening roll, a roll that goes back on a released
lamination input, or an output roll with the session it was made in. -/
inductive ResumeInput where
  | unnamed
  | openingRoll
  | releasedInput
  | ownOutput (session : Option OrderRunSession)

/-- What the progress builders read beside the queue request. `progressChecks` is the result of
their guards on rolls, routes and metrics; the payloads given here whole are those of sessions
that are left running. -/
structure ProgressContext extends QueueActionContext where
  actor : MiniErp.QueueActionActor
  now : Int
  isRezka : Bool
  hasReportedOutput : Bool
  completeSafeStopOutput : Bool
  recording : Bool
  recordedFrames : Bool
  progressChecks : Except ProductionMapError Unit
  reported : PayloadFields progressSessionFields
  lineage : PayloadFields qolipLineageFields
  boundary : PayloadFields ["input_lineage","rezka_active_partial_rolls"]
  frameIssues : Option Json
  eventId : String
  outputBatchId : Option String
  closingOutputBatchId : String
  recordedPayload : Json
  apparatus : String
  startedSessionId : String
  startedStageNodeId : String
  startedPayload : Json
  resumeInput : ResumeInput
  resumedPayload : Json
  mergedPayload : Json
  freezeRequestId : String
  resumePauseAllowed : Bool
  checkpoint : Option Json
  holdStage : String
  stageControl : String → OrderControlState

structure PreparedWrite where
  states : StoredStates
  session : Option OrderRunSession

/-- An assignment into a payload that is no object panics, and no write is prepared. -/
def assigned (payload : Option Json) : Except ProductionMapError Json :=
  match payload with
  | some value => .ok value
  | none => .error .storeFailed

def ensureWipStartedAt (session : OrderRunSession) : Except ProductionMapError OrderRunSession :=
  if (session.payloadJson.get "wip_started_at_unix").isSome then .ok session
  else do
    let started :=
      if (session.payloadJson.get "_resume_pause").isSome then session.updatedAtUnix
      else session.startedAtUnix
    let payload ← assigned (session.payloadJson.set "wip_started_at_unix" (.number (.int started)))
    return { session with payloadJson := payload }

def isTemporarilyPaused (session : OrderRunSession) : Bool :=
  session.status=.paused &&
    match session.payloadJson.get "_temporary_pause" with
    | none => false
    | some marker =>
      (match (marker.get "revision").bind Json.asU64 with
        | none => false
        | some revision => revision > 0 &&
          (session.payloadJson.get "_temporary_pause_revision").bind Json.asU64 == some revision) &&
      ((marker.get "paused_at_unix").bind Json.asI64).isSome

def payloadFlag (payload : Json) (key : String) : Bool :=
  (payload.get key).bind Json.asBool == some true

def preserveLockOwner (current replacement : Json) : Except ProductionMapError Json :=
  match replacement.get "qolip_lock_owner", current.get "qolip_lock_owner" with
  | none, some owner => assigned (replacement.set "qolip_lock_owner" owner)
  | _, _ => .ok replacement

def runStatusForProgressAction : ApparatusQueueAction → OrderRunStatus
  | .pause => .paused
  | .freeze => .frozen
  | .detachRoll => .rollDetached
  | .complete => .completed
  | .rollComplete => .active
  | _ => .active

def latchReactivation (payload : Json) : Except ProductionMapError Json :=
  if (payload.get "_reactivation_reclose").isSome then do
    let payload ← assigned (payload.set "_reactivation_started" (.bool true))
    return payload.remove "_reactivation_reclose"
  else .ok payload

def resumeWipClock (now : Int) (session : OrderRunSession) :
    Except ProductionMapError OrderRunSession :=
  if payloadFlag session.payloadJson "wip_waiting_for_resume" then do
    let payload ← assigned (session.payloadJson.extend
      [("wip_started_at_unix", .number (.int now)),("wip_waiting_for_resume", .bool false)])
    return { session with payloadJson := payload }
  else .ok session

namespace ProgressContext
variable (ctx : ProgressContext)

def freezeRequestSafeStop : Bool :=
  ctx.control=.freezeRequested && ctx.requestedAction.createsResumableOutput

def freezeRequestSafeStopWithIssue : Bool :=
  ctx.freezeRequestSafeStop && !ctx.hasReportedOutput && !isBlank ctx.progress.description

/-- The action of the builders: a safe stop with output detaches the roll. -/
def progressAction : ApparatusQueueAction :=
  if ctx.freezeRequestSafeStop && !ctx.freezeRequestSafeStopWithIssue then .detachRoll
  else ctx.queueAction

def printPreflightFreeze (stored : StoredStates) : Bool :=
  ctx.control=.freezeRequested && ctx.queueAction=.freeze &&
    ctx.fromState stored=.printPreflight && ctx.printPreflightHold

/-- The guards that tie the reported output to the action. -/
def checkProgress : Except ProductionMapError Unit := do
  ensure (!(ctx.recording && (!ctx.isRezka || ctx.queueAction ≠ .rollComplete ||
    ctx.progress.workerHandoff || ctx.progress.removeRollFromApparatus || ctx.freezeWithIssue ||
    ctx.progress.freezeRequestId ≠ ""))) .progressInputInvalid
  ensure (!(ctx.freezeRequestSafeStop && !ctx.hasReportedOutput &&
    !ctx.freezeRequestSafeStopWithIssue)) .progressInputInvalid
  ensure (!(ctx.freezeRequestSafeStop && ctx.hasReportedOutput && !ctx.completeSafeStopOutput))
    .progressInputInvalid

def openSession (error : ProductionMapError) : Except ProductionMapError OrderRunSession :=
  match ctx.activeSession with
  | some session => .ok session
  | none => .error error

def workSession (session : OrderRunSession) (status : OrderRunStatus) (payload : Json) :
    OrderRunSession :=
  { session with
    status := status
    workerRole := trim ctx.actor.role
    workerRef := trim ctx.actor.ref
    workerDisplayName := trim ctx.actor.displayName
    updatedAtUnix := ctx.now
    payloadJson := payload }

def preserveQolipLineage (current replacement : Json) : Except ProductionMapError Json := do
  let replacement ← assigned (replacement.extend ctx.lineage.fields)
  let replacement ← preserveLockOwner current replacement.asObject
  assigned (current.copyFields replacement preservedFields)

def buildFrozenProgress : Except ProductionMapError OrderRunSession := do
  let session ← ctx.openSession .queueActionNotAllowed
  let session ← ensureWipStartedAt session
  let payload ← ctx.preserveQolipLineage session.payloadJson (Json.ofFields ctx.reported.fields)
  let payload ← assigned (payload.extend (("frozen_order", .bool true) ::
    if ctx.freezeWithIssue then
      [("freeze_with_issue", .bool true),("issue_note", .string (trim ctx.progress.description))]
    else []))
  return ctx.workSession session .frozen payload

def buildLaminatsiyaWorkerTransition : Except ProductionMapError OrderRunSession := do
  let removeRoll := ctx.progress.removeRollFromApparatus
  ensure (!(!ctx.usesLaminationWorkflow || ctx.progress.workerHandoff && removeRoll))
    .progressInputInvalid
  let session ← ctx.openSession .progressBatchNotAccepted
  let session ← ensureWipStartedAt session
  ensure (!(!removeRoll && session.status ≠ .active || removeRoll && session.status ≠ .paused))
    .queueActionNotAllowed
  ctx.progressChecks
  let payload := Json.ofFields (ctx.reported.fields ++
    [("worker_handoff", .bool (!removeRoll)),("roll_removed_from_apparatus", .bool removeRoll)])
  let payload ← ctx.preserveQolipLineage session.payloadJson payload
  return ctx.workSession session (if removeRoll then .rollDetached else .paused) payload

def buildStartedProgress : Except ProductionMapError OrderRunSession := do
  ctx.progressChecks
  return {
    sessionId := ctx.startedSessionId
    apparatus := ctx.apparatus
    orderId := trim ctx.orderId
    stageNodeId := ctx.startedStageNodeId
    status := .active
    workerRole := trim ctx.actor.role
    workerRef := trim ctx.actor.ref
    workerDisplayName := trim ctx.actor.displayName
    startedAtUnix := ctx.now
    updatedAtUnix := ctx.now
    payloadJson := ctx.startedPayload }

section
variable (action : ApparatusQueueAction)

/-- `apply_output_boundary_to_session_payload`. -/
def outputBoundaryFields : List (String × Json) :=
  match action with
  | .pause | .detachRoll => [("wip_waiting_for_resume", .bool true)]
  | .rollComplete => ("wip_started_at_unix", .number (.int ctx.now)) ::
      ("wip_waiting_for_resume", .bool false)::ctx.boundary.fields
  | .complete => ctx.boundary.fields
  | _ => []

/-- A closed cutting cycle starts an empty report. -/
def closeOutputReport (payload : Json) : Except ProductionMapError Json :=
  if ctx.isRezka then do
    let payload ← assigned (payload.set "rezka_output_report" (.array []))
    assigned ((payload.remove "rezka_reference_frame_index").extend
      (("rezka_output_cycle", .string ctx.eventId) ::
        if action.createsResumableOutput && ctx.recordedFrames then
          [("rezka_recorded_output_closed", .bool true)]
        else []))
  else .ok payload

def detachedOutputFields : List (String × Json) :=
  match ctx.outputBatchId with
  | some batchId =>
    if action=.detachRoll && ctx.isPechat then
      [("last_detached_output_batch_id", .string batchId)]
    else []
  | none => []

end

def frameIssueFields : List (String × Json) :=
  match ctx.frameIssues with
  | some issues => [("rezka_frame_issues", issues)]
  | none => []

def buildOutputProgress (action : ApparatusQueueAction) :
    Except ProductionMapError OrderRunSession := do
  ensure (!(action=.rollComplete && !ctx.isRezka)) .progressInputInvalid
  let session ← ctx.openSession .queueActionNotAllowed
  let session ← ensureWipStartedAt session
  ctx.progressChecks
  if ctx.recording then
    return ctx.workSession session (runStatusForProgressAction action) ctx.recordedPayload
  else
    let payload ← ctx.preserveQolipLineage session.payloadJson (Json.ofFields ctx.reported.fields)
    let payload ← assigned (payload.extend (ctx.frameIssueFields++ctx.outputBoundaryFields action))
    let payload ← ctx.closeOutputReport action payload
    let payload ← assigned (payload.extend (ctx.detachedOutputFields action))
    return ctx.workSession session (runStatusForProgressAction action) payload

/-- Work laid aside for a while is taken up as it was left. -/
def resumeTemporaryPause (session : OrderRunSession) :
    Except ProductionMapError OrderRunSession := do
  ctx.progressChecks
  let marker := (session.payloadJson.get "_temporary_pause").getD .null
  let payload := (session.payloadJson.remove "_temporary_pause").remove "_resume_pause"
  let payload ← assigned (payload.set "_temporary_pause_last_interval" (Json.ofFields
    [("paused_at_unix", (marker.get "paused_at_unix").getD .null),
      ("resumed_at_unix", .number (.int ctx.now)),
      ("revision", (marker.get "revision").getD .null)]))
  return { session with
    status := .active
    workerRole := ctx.actor.role
    workerRef := ctx.actor.ref
    workerDisplayName := ctx.actor.displayName
    updatedAtUnix := ctx.now
    payloadJson := payload }

/-- A resume without a roll: frozen and requeued work drops its marks, other work goes on with
the payload of its handoff. -/
def resumeUnnamed (session : OrderRunSession) : Except ProductionMapError OrderRunSession := do
  ensure (session.status=.paused || session.status=.frozen || session.status=.rollDetached)
    .progressBatchNotResumable
  let payload := session.payloadJson
  let isFrozen := session.status=.frozen || payloadFlag payload "frozen_order" ||
    payloadFlag payload "freeze_with_issue" || orderRunSessionWasRequeued session
  let recordedRezkaPause := ctx.isRezka && payloadFlag payload "rezka_recorded_output_closed"
  if isFrozen || recordedRezkaPause then
    let payload := (payload.asObject.remove "requeued_at_tail").remove
      "rezka_recorded_output_closed"
    let payload ← assigned (payload.extend
      [("resumed_after_freeze", .bool isFrozen),("resumed_without_progress_qr", .bool true)])
    return ctx.workSession session .active payload
  else
    ctx.progressChecks
    return ctx.workSession session .active ctx.resumedPayload

def buildResumedProgress : Except ProductionMapError OrderRunSession :=
  match ctx.activeSession.filter isTemporarilyPaused, ctx.resumeInput with
  | some session, .unnamed => ctx.resumeTemporaryPause session
  | some _, _ => .error .progressBatchNotResumable
  | none, .unnamed => do
    let session ← ctx.openSession .progressBatchNotResumable
    ctx.resumeUnnamed session
  | none, .ownOutput session => do
    ctx.progressChecks
    match session with
    | some session => return ctx.workSession session .active ctx.resumedPayload
    | none => .error .progressBatchNotFound
  | none, _ => do
    let session ← ctx.openSession .progressBatchNotResumable
    ensure (session.status=.paused || session.status=.rollDetached) .progressBatchNotResumable
    ctx.progressChecks
    return ctx.workSession session .active ctx.resumedPayload

def buildMergedProgress : Except ProductionMapError OrderRunSession := do
  ensure (ctx.isRezka || ctx.usesLaminationWorkflow) .queueActionNotAllowed
  let session ← ctx.openSession .queueActionNotAllowed
  ensure (session.status=.active) .queueActionNotAllowed
  let session ← ensureWipStartedAt session
  ctx.progressChecks
  return ctx.workSession session .active ctx.mergedPayload

/-- `build_progress_records_with_snapshot`, the session of its records. -/
def buildProgressRecords : Except ProductionMapError OrderRunSession :=
  let action := ctx.progressAction
  if action=.freeze then ctx.buildFrozenProgress
  else if (action=.pause && ctx.progress.workerHandoff) ||
      (action=.detachRoll && ctx.progress.removeRollFromApparatus) then
    ctx.buildLaminatsiyaWorkerTransition
  else match action with
    | .start => ctx.buildStartedProgress
    | .resume => do
      let session ← ctx.buildResumedProgress
      resumeWipClock ctx.now session
    | .merge => ctx.buildMergedProgress
    | action => ctx.buildOutputProgress action

def protocolFields : List (String × Json) :=
  ("stage_work_protocol", .number (.int 1)) ::
    ((if ctx.progress.completeWithoutOutput then
      [("complete_without_output", .bool true),
        ("closing_output_batch_id", .string ctx.closingOutputBatchId)]
    else []) ++
    match ctx.activeSession with
    | none => []
    | some session =>
      let revision := (session.payloadJson.get "rezka_output_revision").getD (.number (.int 0))
      match ctx.isRezka, revision.asU64 with
      | true, some revision => [("rezka_output_revision", .number (.int (revision+1)))]
      | _, _ => [])

section
variable (session : OrderRunSession)

def markFreezeRequestSafeStop : Except ProductionMapError OrderRunSession :=
  if ctx.freezeRequestSafeStop then do
    let payload ← assigned (session.payloadJson.asObject.extend
      [("frozen_order", .bool true),("freeze_request_safe_stop", .bool true),
        ("freeze_request_id", .string (trim ctx.freezeRequestId))])
    let payload ← assigned (payload.extend
      (if ctx.freezeRequestSafeStopWithIssue then
        [("freeze_with_issue", .bool true),
          ("issue_note", (payload.get "description").getD (.string ""))]
      else []))
    return { session with status := .frozen, payloadJson := payload }
  else .ok session

/-- Stopping another shift's work keeps its owner. -/
def preserveFreezeWorkOwner : Except ProductionMapError OrderRunSession :=
  if ctx.freezeRequestFinalization || ctx.freezeWithIssue then do
    let original ← ctx.openSession .orderFreezeTargetNotFound
    let worker := fun role ref displayName => Json.ofFields
      [("role", .string role),("ref", .string ref),("display_name", .string displayName)]
    let payload ← assigned (session.payloadJson.asObject.extend
      [("freeze_session_owner",
          worker original.workerRole original.workerRef original.workerDisplayName),
        ("freeze_performed_by", worker ctx.actor.role ctx.actor.ref ctx.actor.displayName)])
    return { session with
      workerRole := original.workerRole
      workerRef := original.workerRef
      workerDisplayName := original.workerDisplayName
      payloadJson := payload }
  else .ok session

/-- The latch of a reopened session and the checkpoint of a resume, on running sessions. -/
def attachCheckpoint : Except ProductionMapError OrderRunSession :=
  if ctx.resumePauseAllowed && ctx.activeSession.isSome && session.status=.active then do
    let payload ← latchReactivation session.payloadJson
    let payload ← assigned (payload.extend
      (ctx.checkpoint.toList.map fun checkpoint => ("_resume_pause", checkpoint)))
    return { session with payloadJson := payload }
  else .ok session

def checkStageControl : Except ProductionMapError Unit :=
  if session.stageNodeId=ctx.holdStage then .ok ()
  else match ctx.stageControl session.stageNodeId with
    | .active => .ok ()
    | .freezeRequested => .error .orderFreezeRequested
    | .frozen => .error .orderFrozen

end

def buildSession (stored : StoredStates) : Except ProductionMapError (Option OrderRunSession) :=
  if ctx.printPreflightFreeze stored then .ok none
  else do
    let session ← ctx.buildProgressRecords
    let payload ← assigned (session.payloadJson.extend ctx.protocolFields)
    let session ← ctx.markFreezeRequestSafeStop { session with payloadJson := payload }
    let session ← ctx.preserveFreezeWorkOwner session
    let session ← ctx.attachCheckpoint session
    ctx.checkStageControl session
    return some session

def prepareWithProgress (stored : StoredStates) : Except ProductionMapError PreparedWrite := do
  ctx.checkProgress
  let states ← ctx.prepare stored
  let session ← ctx.buildSession stored
  return ⟨states,session⟩

end ProgressContext

/- The mark of a requeued session is in none of the payloads that replace an old one. -/

theorem assigned_eq_ok {payload : Option Json} {value : Json} :
    assigned payload=.ok value ↔ payload=some value := by
  cases payload <;> simp [assigned]

def Unrequeued (payload : Json) : Prop := payload.get "requeued_at_tail" = none

theorem Unrequeued.extend {payload next : Json} {fields : List (String × Json)}
    (h : Unrequeued payload) (hnext : payload.extend fields=some next)
    (hkeys : "requeued_at_tail" ∉ fields.map Prod.fst) : Unrequeued next :=
  (Json.get_extend_ne hnext hkeys).trans h

theorem unrequeued_preserveLockOwner {current replacement next : Json}
    (h : preserveLockOwner current replacement=.ok next) (hreplacement : Unrequeued replacement) :
    Unrequeued next := by
  unfold preserveLockOwner at h
  split at h
  · rw [assigned_eq_ok] at h
    exact (Json.get_set h _).trans hreplacement
  · rw [← Except.ok.inj h]
    exact hreplacement

theorem PayloadFields.notMem {allowed : List String} (written : PayloadFields allowed)
    {key : String} (hkey : key∉allowed) : key∉written.fields.map Prod.fst := by
  intro hmem
  obtain ⟨field,hfield,rfl⟩ := mem_map.mp hmem
  exact hkey (written.fst_mem field hfield)

namespace ProgressContext
variable {ctx : ProgressContext} {session : OrderRunSession}

theorem unrequeued_preserveQolipLineage {current replacement next : Json}
    (h : ctx.preserveQolipLineage current replacement=.ok next)
    (hreplacement : Unrequeued replacement) : Unrequeued next := by
  simp only [preserveQolipLineage,bind_eq_ok,assigned_eq_ok] at h
  obtain ⟨lined,hlined,owned,howned,hnext⟩ := h
  have hobject : Unrequeued lined.asObject := by
    have hkeys : "requeued_at_tail" ∉ ctx.lineage.fields.map Prod.fst :=
      ctx.lineage.notMem (by decide)
    exact (Json.get_asObject lined _).trans (hreplacement.extend hlined hkeys)
  exact (Json.get_copyFields_ne hnext (by decide)).trans (unrequeued_preserveLockOwner howned hobject)

theorem unrequeued_reported : Unrequeued (Json.ofFields ctx.reported.fields) :=
  Json.get_ofFields_ne (ctx.reported.notMem (by decide))

theorem unrequeued_transition (removeRoll : Bool) : Unrequeued (Json.ofFields
    (ctx.reported.fields++[("worker_handoff", .bool (!removeRoll)),
      ("roll_removed_from_apparatus", .bool removeRoll)])) := by
  have hreported : "requeued_at_tail" ∉ ctx.reported.fields.map Prod.fst :=
    ctx.reported.notMem (by decide)
  apply Json.get_ofFields_ne
  rw [map_append,mem_append,not_or]
  exact ⟨hreported,by simp⟩

variable {action : ApparatusQueueAction} {old : OrderRunSession}

theorem unrequeued_closeOutputReport {payload next : Json}
    (h : ctx.closeOutputReport action payload=.ok next) (hpayload : Unrequeued payload) :
    Unrequeued next := by
  unfold closeOutputReport at h
  split at h
  · simp only [bind_eq_ok,assigned_eq_ok] at h
    obtain ⟨emptied,hemptied,hnext⟩ := h
    have hbase : Unrequeued (emptied.remove "rezka_reference_frame_index") := by
      rw [Unrequeued,Json.get_remove_ne _ (by decide),Json.get_set hemptied]
      exact hpayload
    refine hbase.extend hnext ?_
    split <;> simp
  · rw [← Except.ok.inj h]
    exact hpayload

theorem notMem_outputFields (action : ApparatusQueueAction) :
    "requeued_at_tail" ∉ (ctx.frameIssueFields++ctx.outputBoundaryFields action).map Prod.fst := by
  have hboundary : "requeued_at_tail" ∉ ctx.boundary.fields.map Prod.fst :=
    ctx.boundary.notMem (by decide)
  have hissues : "requeued_at_tail" ∉ ctx.frameIssueFields.map Prod.fst := by
    unfold frameIssueFields
    split <;> simp
  rw [map_append,mem_append,not_or]
  refine ⟨hissues,?_⟩
  cases action <;> simp_all [outputBoundaryFields]

theorem notMem_detachedOutputFields (action : ApparatusQueueAction) :
    "requeued_at_tail" ∉ (ctx.detachedOutputFields action).map Prod.fst := by
  unfold detachedOutputFields
  split
  · split <;> simp
  · simp

/- The status of the built session, and of a paused one that it is not requeued. -/

/-- What the builders promise of the session for an action. -/
structure BuiltFor (action : ApparatusQueueAction) (session : OrderRunSession) : Prop where
  status : session.status=runStatusForProgressAction action
  unrequeued : session.status=.paused → Unrequeued session.payloadJson

theorem builtFor_of_running (haction : runStatusForProgressAction action=.active)
    (h : session.status=.active) : BuiltFor action session :=
  ⟨h.trans haction.symm,fun hpaused => by simp [h] at hpaused⟩

theorem builtFor_buildFrozenProgress (h : ctx.buildFrozenProgress=.ok session) :
    BuiltFor .freeze session := by
  simp only [buildFrozenProgress,bind_eq_ok] at h
  obtain ⟨-,-,old,-,_,-,payload,-,h⟩ := h
  rw [← Except.ok.inj h]
  exact ⟨rfl,fun hpaused => by simp [workSession] at hpaused⟩

theorem builtFor_buildLaminatsiyaWorkerTransition
    (haction : (action=.pause && ctx.progress.workerHandoff) ||
      (action=.detachRoll && ctx.progress.removeRollFromApparatus))
    (h : ctx.buildLaminatsiyaWorkerTransition=.ok session) : BuiltFor action session := by
  simp only [buildLaminatsiyaWorkerTransition,bind_eq_ok,ensure_eq_ok] at h
  obtain ⟨_,hboth,_,-,old,-,_,-,_,-,payload,hpayload,h⟩ := h
  have hunrequeued := unrequeued_preserveQolipLineage hpayload (unrequeued_transition _)
  rw [← Except.ok.inj h]
  refine ⟨?_,fun _ => hunrequeued⟩
  simp only [Bool.or_eq_true,Bool.and_eq_true,decide_eq_true_eq] at haction
  rcases haction with ⟨rfl,hhandoff⟩ | ⟨rfl,hremove⟩
  · simp only [hhandoff,Bool.true_and,Bool.not_or,Bool.and_eq_true, Bool.not_eq_true'] at hboth
    rw [hboth.2]
    rfl
  · rw [hremove]
    rfl

theorem builtFor_buildOutputProgress (hrecording : ctx.recording=true → action=.rollComplete)
    (h : ctx.buildOutputProgress action=.ok session) : BuiltFor action session := by
  simp only [buildOutputProgress,bind_eq_ok] at h
  obtain ⟨-,-,_,-,old,-,-,-,h⟩ := h
  split at h
  · rename_i hrec
    rw [← Except.ok.inj h,hrecording hrec]
    exact builtFor_of_running rfl rfl
  · simp only [bind_eq_ok,assigned_eq_ok] at h
    obtain ⟨kept,hkept,written,hwritten,closed,hclosed,payload,hpayload,h⟩ := h
    have hunrequeued : Unrequeued payload := by
      have hreplaced := unrequeued_preserveQolipLineage hkept unrequeued_reported
      have hboundary := hreplaced.extend hwritten (notMem_outputFields action)
      have hreport := unrequeued_closeOutputReport hclosed hboundary
      exact hreport.extend hpayload (notMem_detachedOutputFields action)
    rw [← Except.ok.inj h]
    exact ⟨rfl,fun _ => hunrequeued⟩

theorem status_resumeWipClock {now : Int}
    (h : resumeWipClock now old=.ok session) : session.status=old.status := by
  unfold resumeWipClock at h
  split at h
  · simp only [bind_eq_ok] at h
    obtain ⟨payload,-,h⟩ := h
    rw [← Except.ok.inj h]
  · rw [Except.ok.inj h]

theorem status_resumeUnnamed (h : ctx.resumeUnnamed old=.ok session) : session.status=.active := by
  simp only [resumeUnnamed,bind_eq_ok] at h
  obtain ⟨-,-,h⟩ := h
  split at h
  · simp only [bind_eq_ok] at h
    obtain ⟨payload,-,h⟩ := h
    rw [← Except.ok.inj h]
    rfl
  · simp only [bind_eq_ok] at h
    obtain ⟨-,-,h⟩ := h
    rw [← Except.ok.inj h]
    rfl

theorem status_resumeTemporaryPause
    (h : ctx.resumeTemporaryPause old=.ok session) : session.status=.active := by
  simp only [resumeTemporaryPause,bind_eq_ok] at h
  obtain ⟨-,-,payload,-,h⟩ := h
  rw [← Except.ok.inj h]

theorem status_buildResumedProgress (h : ctx.buildResumedProgress=.ok session) :
    session.status=.active := by
  unfold buildResumedProgress at h
  split at h
  · exact status_resumeTemporaryPause h
  · cases h
  · simp only [bind_eq_ok] at h
    obtain ⟨old,-,h⟩ := h
    exact status_resumeUnnamed h
  · simp only [bind_eq_ok] at h
    obtain ⟨-,-,h⟩ := h
    split at h
    · rw [← Except.ok.inj h]
      rfl
    · cases h
  · simp only [bind_eq_ok] at h
    obtain ⟨old,-,-,-,-,-,h⟩ := h
    rw [← Except.ok.inj h]
    rfl

theorem status_buildMergedProgress (h : ctx.buildMergedProgress=.ok session) :
    session.status=.active := by
  simp only [buildMergedProgress,bind_eq_ok] at h
  obtain ⟨-,-,_,-,-,-,old,-,-,-,h⟩ := h
  rw [← Except.ok.inj h]
  rfl

theorem status_buildStartedProgress (h : ctx.buildStartedProgress=.ok session) :
    session.status=.active := by
  simp only [buildStartedProgress,bind_eq_ok] at h
  obtain ⟨-,-,h⟩ := h
  rw [← Except.ok.inj h]

theorem queueAction_of_safeStop (h : ctx.freezeRequestSafeStop=true) : ctx.queueAction=.freeze := by
  simp only [freezeRequestSafeStop,Bool.and_eq_true,decide_eq_true_eq] at h
  simp [QueueActionContext.queueAction,QueueActionContext.freezeRequestFinalization,h.1,h.2]

/-- Frames are recorded one by one only while rolls of a running cut are completed. -/
theorem progressAction_of_recording (hcheck : ctx.checkProgress=.ok ())
    (h : ctx.recording=true) : ctx.progressAction=.rollComplete := by
  simp only [checkProgress,ensure_bind_eq_ok,h,Bool.true_and,Bool.not_or,Bool.and_eq_true,
    Bool.not_eq_true',decide_eq_false_iff_not,not_not] at hcheck
  have haction : ctx.queueAction=.rollComplete := hcheck.1.1.1.1.1.2
  have hstop : ctx.freezeRequestSafeStop=false := by
    by_contra hsafe
    rw [queueAction_of_safeStop (by simpa using hsafe)] at haction
    cases haction
  simp [progressAction,hstop,haction]

/-- Every builder gives the session the status of the action it was built for. -/
theorem builtFor_buildProgressRecords (hcheck : ctx.checkProgress=.ok ())
    (h : ctx.buildProgressRecords=.ok session) : BuiltFor ctx.progressAction session := by
  simp only [buildProgressRecords] at h
  split at h
  · rename_i hfreeze
    rw [hfreeze]
    exact builtFor_buildFrozenProgress h
  · split at h
    · rename_i hworker
      exact builtFor_buildLaminatsiyaWorkerTransition hworker h
    · split at h
      · rename_i haction
        rw [haction]
        exact builtFor_of_running rfl (status_buildStartedProgress h)
      · rename_i haction
        simp only [bind_eq_ok] at h
        obtain ⟨resumed,hresumed,h⟩ := h
        rw [haction]
        exact builtFor_of_running rfl
          ((status_resumeWipClock h).trans (status_buildResumedProgress hresumed))
      · rename_i haction
        rw [haction]
        exact builtFor_of_running rfl (status_buildMergedProgress h)
      · exact builtFor_buildOutputProgress (progressAction_of_recording hcheck) h

/- The marks put on the built session. -/

theorem notMem_protocolFields : "requeued_at_tail" ∉ ctx.protocolFields.map Prod.fst := by
  unfold protocolFields
  rw [map_cons,map_append,mem_cons,mem_append]
  rintro (hprotocol | hclosing | hrevision)
  · revert hprotocol
    decide
  · split at hclosing <;> simp at hclosing
  · split at hrevision
    · simp at hrevision
    · simp only at hrevision
      split at hrevision <;> simp at hrevision

theorem markFreezeRequestSafeStop_eq (h : ctx.markFreezeRequestSafeStop old=.ok session) :
    ctx.freezeRequestSafeStop=true ∧ session.status=.frozen ∨
      ctx.freezeRequestSafeStop=false ∧ session=old := by
  unfold markFreezeRequestSafeStop at h
  split at h
  · rename_i hsafe
    simp only [bind_eq_ok] at h
    obtain ⟨_,-,payload,-,h⟩ := h
    rw [← Except.ok.inj h]
    exact .inl ⟨hsafe,rfl⟩
  · rename_i hsafe
    exact .inr ⟨by simpa using hsafe,(Except.ok.inj h).symm⟩

theorem builtFor_preserveFreezeWorkOwner (h : ctx.preserveFreezeWorkOwner old=.ok session)
    (hold : BuiltFor action old) : BuiltFor action session := by
  unfold preserveFreezeWorkOwner at h
  split at h
  · simp only [bind_eq_ok,assigned_eq_ok] at h
    obtain ⟨original,-,payload,hpayload,h⟩ := h
    rw [← Except.ok.inj h]
    refine ⟨hold.status,fun hpaused => ?_⟩
    have hbase : Unrequeued old.payloadJson.asObject :=
      (Json.get_asObject _ _).trans (hold.unrequeued hpaused)
    exact hbase.extend hpayload (by simp)
  · rw [← Except.ok.inj h]
    exact hold

theorem builtFor_attachCheckpoint (h : ctx.attachCheckpoint old=.ok session)
    (hold : BuiltFor action old) : BuiltFor action session := by
  unfold attachCheckpoint at h
  split at h
  · rename_i hactive
    simp only [Bool.and_eq_true,decide_eq_true_eq] at hactive
    simp only [bind_eq_ok] at h
    obtain ⟨_,-,payload,-,h⟩ := h
    rw [← Except.ok.inj h]
    exact ⟨hold.status,fun hpaused => by simp [hactive.2] at hpaused⟩
  · rw [← Except.ok.inj h]
    exact hold

theorem builtFor_buildSession {stored : StoredStates} {written : Option OrderRunSession}
    (hcheck : ctx.checkProgress=.ok ()) (h : ctx.buildSession stored=.ok written) :
    ctx.printPreflightFreeze stored=true ∧ written=none ∨
      ∃ session, written=some session ∧ BuiltFor ctx.queueAction session := by
  unfold buildSession at h
  split at h
  · rename_i hpreflight
    exact .inl ⟨hpreflight,(Except.ok.inj h).symm⟩
  · simp only [bind_eq_ok,assigned_eq_ok] at h
    obtain ⟨built,hbuilt,payload,hpayload,marked,hmarked,owned,howned,kept,hkept,-,-,h⟩ := h
    refine .inr ⟨kept,(Except.ok.inj h).symm,?_⟩
    apply builtFor_attachCheckpoint hkept
    apply builtFor_preserveFreezeWorkOwner howned
    have hrecords := builtFor_buildProgressRecords hcheck hbuilt
    rcases markFreezeRequestSafeStop_eq hmarked with ⟨hsafe,hfrozen⟩ | ⟨hsafe,rfl⟩
    · rw [queueAction_of_safeStop hsafe]
      exact ⟨hfrozen,fun hpaused => by simp [hfrozen] at hpaused⟩
    · have haction : ctx.progressAction=ctx.queueAction := by simp [progressAction,hsafe]
      rw [haction] at hrecords
      exact ⟨hrecords.status,fun hpaused =>
        (hrecords.unrequeued hpaused).extend hpayload notMem_protocolFields⟩

end ProgressContext

end MiniErp.Queue
