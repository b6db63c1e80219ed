import MiniErp.Queue.SequenceMove
import MiniErp.Transfer.Store

/-! Moving started work to another machine. A transfer of printing work keeps the output made so
far where it is and takes the mounted rolls along; every other transfer takes the paused output
batch along. -/
namespace MiniErp.Transfer
open Text Run Queue Chain Wip Stage Compiler Catalog Std
open Materials (RawMaterialAssignment)

structure ProductionMapApparatusTransferRequest where
  orderId : String
  fromApparatus : String
  toApparatus : String
  reason : String
  idempotencyKey : String

structure TransferIntent where
  orderId : String
  source : ApparatusId
  target : ApparatusId
  reason : String
  idempotencyKey : String

/-- What the service reads beside the store. The last three are what a configuration says about
the name of a machine, its molds and its materials. -/
structure TransferContext where
  rules : CompilerRules
  digest : ProductionMapDefinition → String
  resolver : ApparatusResolver
  now : Int
  displayName : RuntimeApparatusConfiguration → String
  requiresQolipScan : RuntimeApparatusConfiguration → Bool
  requiresMaterial : RuntimeApparatusConfiguration → Bool

def canonicalTransferId (value : String) : Option ApparatusId := ApparatusId.new (trim value)

def transferIntent (input : ProductionMapApparatusTransferRequest) :
    Except ProductionMapError TransferIntent := do
  let orderId := toAsciiLowercase (trim input.orderId)
  let source ← required (canonicalTransferId input.fromApparatus) .moveNotAllowed
  let target ← required (canonicalTransferId input.toApparatus) .moveNotAllowed
  ensure (orderId != "" && source != target) .moveNotAllowed
  ensure (!isBlank input.reason) .apparatusTransferReasonRequired
  ensure (!isBlank input.idempotencyKey && (trim input.idempotencyKey).utf8ByteSize≤200)
    .apparatusTransferIdempotencyRequired
  return {
    orderId
    source
    target
    reason := trim input.reason
    idempotencyKey := trim input.idempotencyKey }

section Reassign
variable (map : ProductionMapDefinition) (source target : ApparatusId) (display : String)

def effectiveTransferApparatusId (node : ProductionMapNode) : String :=
  let assigned := trim node.alternativeAssignedApparatusId
  if assigned = "" then trim node.apparatusId else assigned

def transferRunsOn (apparatus : ApparatusId) (node : ProductionMapNode) : Bool :=
  node.kind == .apparatus && effectiveTransferApparatusId node == apparatus.value

def transferGroups : List String :=
  ((map.nodes.filter (transferRunsOn source)).map fun node => trim node.alternativeGroupId).filter
    (· != "")

/-- The machines of the source's groups; without groups every machine may take over. -/
def transferMoveAllowedById : Bool :=
  let groups := transferGroups map source
  source != target && map.nodes.any (transferRunsOn source) &&
    (groups.isEmpty || map.nodes.any fun node =>
      transferRunsOn target node && groups.contains (trim node.alternativeGroupId))

def inTransferGroup (groups : List String) (node : ProductionMapNode) : Bool :=
  node.kind == .apparatus && groups.contains (trim node.alternativeGroupId)

def assignToTarget (groups : List String) (node : ProductionMapNode) : ProductionMapNode :=
  if inTransferGroup groups node then
    { node with
      alternativeAssignedApparatusId := target.value
      alternativeAssignedTitle := display }
  else node

/-- `none`: no group of the source has the target. -/
def reassignAlternativeAssignment : Option ProductionMapDefinition :=
  let groups := transferGroups map source
  if groups.isEmpty || !map.nodes.any fun node =>
      inTransferGroup groups node && trim node.apparatusId == target.value then none
  else some { map with nodes := map.nodes.map (assignToTarget target display groups) }

/-- A machine outside every group that runs on the source. -/
def plainOnSource (node : ProductionMapNode) : Bool :=
  transferRunsOn source node && isBlank node.alternativeGroupId

def renameToTarget (node : ProductionMapNode) : ProductionMapNode :=
  if plainOnSource source node then { node with apparatusId := target.value, title := display }
  else node

/-- `none`: no machine outside the groups runs on the source. -/
def reassignNodes : Option ProductionMapDefinition :=
  if map.nodes.any (plainOnSource source) then
    some { map with nodes := map.nodes.map (renameToTarget source target display) }
  else none

def reassignedMap : Except ProductionMapError ProductionMapDefinition :=
  required ((reassignAlternativeAssignment map source target display).or
    (reassignNodes map source target display)) .moveNotAllowed

end Reassign

structure PausedWork where
  map : ProductionMapDefinition
  source : RuntimeApparatusConfiguration
  target : RuntimeApparatusConfiguration
  session : OrderRunSession
  requeued : Bool

def PausedWork.preserveOutputHistory (work : PausedWork) : Bool :=
  Pechat.isPechatApparatus work.source

def PausedWork.targetState (work : PausedWork) : ApparatusQueueOrderState :=
  if work.requeued then .pending else .paused

def checkSourceState (state : Option ApparatusQueueOrderState) : Except ProductionMapError Unit :=
  match state with
  | some .paused | some .pending => .ok ()
  | some .frozen => .error .orderFrozen
  | some .completed => .error .orderAlreadyCompleted
  | _ => .error .apparatusTransferOrderNotPaused

section Service
variable (ctx : TransferContext) (store : TransferStore) (intent : TransferIntent)

/-- A hold on the source stage keeps the work where it is. -/
def checkStageHold : Except ProductionMapError Unit :=
  match store.stageOrderControls.find? fun control => control.orderId == intent.orderId &&
      control.state != .active && control.freezeTarget == some intent.source.value with
  | none => .ok ()
  | some control => .error (if control.state=.frozen then .orderFrozen else .orderFreezeRequested)

def checkMachines (map : ProductionMapDefinition) (source target : RuntimeApparatusConfiguration) :
    Except ProductionMapError Unit := do
  ensure (Pechat.rerouteOrderCompatible map.rollCount (printCompatibilityWidthMm map) source target)
    .moveNotAllowed
  ensure (Pechat.isPechatApparatus source ||
      transferMoveAllowedById map intent.source intent.target)
    .moveNotAllowed

def sourceStates : StoredStates := store.queueStates.getD intent.source ∅

def targetStates : StoredStates := store.queueStates.getD intent.target ∅

/-- The session that is moved. A pending order must have been requeued. -/
def movableSession (printing requeued : Bool) : Except ProductionMapError OrderRunSession := do
  let session ← required (store.activeOrderRunSession intent.source intent.orderId)
    .apparatusTransferSessionNotFound
  ensure ((session.status == .paused || (printing && session.status == .rollDetached)) &&
      trim session.orderId == intent.orderId && trim session.apparatus == intent.source.value)
    .apparatusTransferSessionMismatch
  ensure (!(requeued && !isRequeuedAtTail session)) .apparatusTransferOrderNotPaused
  return session

def pausedWork : Except ProductionMapError PausedWork := do
  let map ← required (store.maps.values.find? fun map => trim map.id == intent.orderId) .mapNotFound
  checkOrderControl store.orderControls intent.orderId
  checkStageHold store intent
  let source ← ctx.resolver.resolveCanonicalApparatus intent.source
  let target ← ctx.resolver.resolveCanonicalApparatus intent.target
  checkMachines intent map source target
  let state := (sourceStates store intent)[intent.orderId]?.bind ApparatusQueueOrderState.parse
  checkSourceState state
  ensure (!(targetStates store intent).contains intent.orderId) .apparatusTransferTargetConflict
  ensure (store.activeOrderRunSession intent.target intent.orderId).isNone
    .apparatusTransferTargetConflict
  let requeued := state == some .pending
  let session ← movableSession store intent (Pechat.isPechatApparatus source) requeued
  return { map, source, target, session, requeued }

section
variable (session : OrderRunSession)

def pausedBatches : List StoredBatch :=
  (store.progressBatchesForOrder intent.orderId).filter fun batch =>
    trim batch.sessionId == trim session.sessionId && batch.action == .pause &&
      batch.status == .paused && trim batch.apparatus == intent.source.value

def actorJson (actor : MiniErp.QueueActionActor) : Json :=
  Json.ofFields [("role", .string actor.role),("ref", .string actor.ref),
    ("display_name", .string actor.displayName)]

def transferId : String := "apparatus-transfer:" ++ intent.idempotencyKey

def transferPayload (actor : MiniErp.QueueActionActor) (display : String) : Json :=
  Json.ofFields [("transfer_id", .string (transferId intent)),
    ("from_apparatus", .string intent.source.value),("to_apparatus", .string intent.target.value),
    ("to_apparatus_display", .string display),("reason", .string intent.reason),
    ("actor", actorJson actor),("created_at_unix", .number (.int ctx.now))]

def movedSession (payload : Json) : Except ProductionMapError OrderRunSession := do
  let payload ← assigned (session.payloadJson.asObject.set "last_apparatus_transfer" payload)
  return { session with
    apparatus := intent.target.value
    updatedAtUnix := ctx.now
    payloadJson := payload }

def printTransferFields (work : PausedWork) (stageNodeId : String) : List (String × Json) :=
  [("_print_transfer", Json.ofFields [("session_id", .string work.session.sessionId),
      ("apparatus", .string intent.target.value),("stage_node_id", .string stageNodeId),
      ("transfer_id", .string (transferId intent))]),
    ("print_transfer_setup_required", .bool (ctx.requiresQolipScan work.target)),
    ("print_transfer_materials_required", .bool (ctx.requiresMaterial work.target))]

/-- The session of printing work continues at the selected node. -/
def printingSession (work : PausedWork) (payload : Json) (stageNodeId : String) :
    Except ProductionMapError OrderRunSession := do
  let session ← movedSession ctx intent work.session payload
  let payload ← assigned (session.payloadJson.extend (printTransferFields ctx intent work stageNodeId))
  return { session with
    status := .paused
    stageNodeId
    payloadJson := payload.remove "_resume_pause" }

def transferredOwner (apparatus : String) : String :=
  if apparatusIdsMatch apparatus intent.source.value then intent.target.value else apparatus

def movedBatch (display : String) (payload : Json) (batch : StoredBatch) :
    Except ProductionMapError StoredBatch := do
  let payload ← assigned (batch.payloadJson.asObject.set "last_apparatus_transfer" payload)
  return StoredBatch.refreshStatusDetail { batch with
    apparatus := intent.target.value
    currentApparatus := intent.target.value
    currentLocation := if display = "" then "" else display ++ " chiqim"
    usedByApparatus := transferredOwner intent batch.usedByApparatus
    processedByApparatus := transferredOwner intent batch.processedByApparatus
    payloadJson := payload }

def mountedBatches : List StoredBatch :=
  (store.progressBatchesForOrder intent.orderId).filter fun batch =>
    batch.wipStatus == .inUse && batch.usedBySessionId == session.sessionId

/-- A mounted roll of printing work, bound to the selected node. -/
def movedInput (map : ProductionMapDefinition) (stageNodeId display : String)
    (input : StoredBatch) : Except ProductionMapError StoredBatch := do
  ensure (input.usedByApparatus == intent.source.value) .progressBatchNotResumable
  let route ← resolveWipInputRoute ctx.digest map input.toOrderProgressBatch
  ensure (stageNodeIdsMatchForMap map route.stageNodeId stageNodeId) .wipRouteChanged
  let payload ← assigned (input.payloadJson.set "wip_route_binding"
    ({ route with stageNodeId } : WipInputRoute).toJson)
  let update := StoredBatch.refreshStatusDetail { input with
    payloadJson := payload
    usedByApparatus := intent.target.value
    currentApparatus := intent.target.value
    currentLocation := display ++ " kirim" }
  let _ ← resolveWipInputRoute ctx.digest map update.toOrderProgressBatch
  return update

def mountedOpening : List OpeningWipBatch :=
  (store.openingWipBatchesForOrder intent.orderId).filter fun batch =>
    batch.wipStatus == .inUse && batch.usedBySessionId == session.sessionId

end

def movedOpening (batch : OpeningWipBatch) : Except ProductionMapError OpeningWipBatch := do
  ensure (batch.usedByApparatus == intent.source.value) .progressBatchNotResumable
  return { batch with usedByApparatus := intent.target.value, updatedAtUnix := ctx.now }

/-- The roll the paused output was made of names the target as its next machine. -/
def parentUpdate (batch : Option StoredBatch) : Except ProductionMapError (List StoredBatch) :=
  match batch.filter fun batch => !isBlank batch.parentBatchId with
  | none => .ok []
  | some batch => do
    let parent ← required ((store.progressBatchesForOrder intent.orderId).find? fun candidate =>
      trim candidate.batchId == trim batch.parentBatchId) .apparatusTransferProgressMismatch
    ensure (trim parent.orderId == intent.orderId) .apparatusTransferProgressMismatch
    return [StoredBatch.refreshStatusDetail { parent with nextApparatus := intent.target.value }]

structure MovedWork where
  map : ProductionMapDefinition
  session : OrderRunSession
  progressBatch : Option StoredBatch
  progressBatchUpdates : List StoredBatch
  expectedInputBatches : List StoredBatch
  openingWipBatchUpdates : List OpeningWipBatch

section
variable (work : PausedWork) (payload : Json) (display : String)

def movedPrintingWork : Except ProductionMapError MovedWork := do
  let (map, stageNodeId) ← selectTarget work.map work.session intent.source intent.target display
    ctx.rules
  let session ← printingSession ctx intent work payload stageNodeId
  let mounted := mountedBatches store intent work.session
  let updates ← mounted.mapM (movedInput ctx intent map stageNodeId display)
  let opening ← (mountedOpening store intent work.session).mapM (movedOpening ctx intent)
  return {
    map
    session
    progressBatch := none
    progressBatchUpdates := updates
    expectedInputBatches := mounted
    openingWipBatchUpdates := opening }

def movedOtherWork : Except ProductionMapError MovedWork := do
  let paused := pausedBatches store intent work.session
  ensure (paused.length≤1 && (!paused.isEmpty || work.requeued)) .apparatusTransferProgressMismatch
  let session ← movedSession ctx intent work.session payload
  let progressBatch ← paused.head?.mapM (movedBatch intent display payload)
  let parent ← parentUpdate store intent progressBatch
  let map ← reassignedMap work.map intent.source intent.target display
  return {
    map
    session
    progressBatch
    progressBatchUpdates := parent
    expectedInputBatches := []
    openingWipBatchUpdates := [] }

end

def visibleOrderIdsForApparatus (maps : List ProductionMapDefinition) (apparatus : String) :
    List String :=
  if ApparatusId.isValid (trim apparatus) then
    ((maps.filter fun map => !isTemplateMap map &&
      (linearWorkStages map).any fun stage => stage.identity == trim apparatus).map
        fun map => trim map.id).filter (· != "")
  else []

def selectedOrderIdsForApparatus (maps : List ProductionMapDefinition)
    (apparatus : RuntimeApparatusConfiguration) : List String :=
  retainSelectedPrintOrders maps apparatus
    (visibleOrderIdsForApparatus maps apparatus.runtime.apparatusId)

def withoutOrder (orderId : String) (sequence : List String) : List String :=
  sequence.filter fun id => trim id != orderId

def targetSequence (work : PausedWork) (states : StoredStates) : List String :=
  let stored := store.sequences.getD intent.target []
  if work.preserveOutputHistory then
    (SequenceMoveState.fromVisible work.target.runtime.apparatusId
      (selectedOrderIdsForApparatus store.maps.values work.target) stored states ∅ ∅).orderIds
  else stored

def movedAssignments (display : String) : List RawMaterialAssignment :=
  (store.materialAssignments.values.filter fun assignment =>
    trim assignment.orderId == intent.orderId && assignment.apparatusId == intent.source).map
      fun assignment => { assignment with apparatusId := intent.target, apparatus := display }

section
variable (actor : MiniErp.QueueActionActor) (work : PausedWork)

def transferWrite (moved : MovedWork) : ProductionMapApparatusTransferWrite :=
  let printing := work.preserveOutputHistory
  let toStates := (targetStates store intent).insert intent.orderId work.targetState.asStr
  let assignments := movedAssignments store intent (ctx.displayName work.target)
  { record :=
      { transferId := transferId intent
        idempotencyKey := intent.idempotencyKey
        orderId := intent.orderId
        fromApparatus := intent.source.value
        toApparatus := intent.target.value
        reason := intent.reason
        actor
        sessionId := moved.session.sessionId
        progressBatchId := (moved.progressBatch.map (·.batchId)).getD ""
        queueState := work.targetState
        materialBarcodes :=
          (assignments.map fun assignment => trim assignment.barcode).filter (· != "")
        map := moved.map
        session := moved.session
        progressBatch := moved.progressBatch
        progressBatchUpdates := moved.progressBatchUpdates
        preservesOutputHistory := printing
        createdAtUnix := ctx.now }
    expectedMap := if printing then some work.map else none
    expectedSession := if printing then some work.session else none
    expectedInputBatches := moved.expectedInputBatches
    openingWipBatchUpdates := moved.openingWipBatchUpdates
    updatedMap := moved.map
    fromSequence := withoutOrder intent.orderId (store.sequences.getD intent.source [])
    toSequence := withoutOrder intent.orderId (targetSequence store intent work toStates) ++
      [intent.orderId]
    fromStates := (sourceStates store intent).erase intent.orderId
    toStates
    targetApparatusId := intent.target.value
    session := moved.session
    progressBatch := moved.progressBatch
    progressBatchUpdates := moved.progressBatchUpdates
    rawMaterialAssignments := assignments }

def movedWork : Except ProductionMapError MovedWork :=
  let display := ctx.displayName work.target
  let payload := transferPayload ctx intent actor display
  if work.preserveOutputHistory then movedPrintingWork ctx store intent work payload display
  else movedOtherWork ctx store intent work payload display

end

/-- The answer of a transfer, which compiles the map of its record. -/
def transferResult (record : ProductionMapApparatusTransferRecord) :
    Except ProductionMapError ProductionMapApparatusTransferRecord := do
  let _ ← compileMap ctx.rules record.map
  return record

/-- The record a request ends with and the store it leaves. -/
def transferIntended (actor : MiniErp.QueueActionActor) :
    Except ProductionMapError (ProductionMapApparatusTransferRecord × TransferStore) :=
  match store.apparatusTransfers.get? intent.idempotencyKey with
  | some record => .ok (record, store)
  | none => do
    let work ← pausedWork ctx store intent
    let moved ← movedWork ctx store intent actor work
    commitApparatusTransfer ctx.digest store (transferWrite ctx store intent actor work moved)

/-- `transfer_apparatus_order`: the answer, and the store it leaves. A known key is answered with
its record; the answer may fail after the commit. -/
def transferApparatusOrder (input : ProductionMapApparatusTransferRequest)
    (actor : MiniErp.QueueActionActor) :
    Except ProductionMapError ProductionMapApparatusTransferRecord × TransferStore :=
  match transferIntent input with
  | .error error => (.error error, store)
  | .ok intent =>
    match transferIntended ctx store intent actor with
    | .error error => (.error error, store)
    | .ok (record, next) =>
      if transferRecordMatches record intent.orderId intent.source.value intent.target.value then
        (transferResult ctx record, next)
      else (.error .apparatusTransferIdempotencyConflict, next)

end Service

theorem ApparatusId.new_trim_value (id : ApparatusId) : ApparatusId.new (trim id.value)=some id := by
  rw [ApparatusId.trim_eq id.valid,ApparatusId.new,dif_pos id.valid]

section Accepted
variable {ctx : TransferContext} {store next : TransferStore} {intent : TransferIntent}
  {input : ProductionMapApparatusTransferRequest} {actor : MiniErp.QueueActionActor}
  {record answer : ProductionMapApparatusTransferRecord}

theorem transferIntent_ok (h : transferIntent input=.ok intent) :
    intent.orderId=toAsciiLowercase (trim input.orderId) ∧
      intent.idempotencyKey=trim input.idempotencyKey ∧ intent.source≠intent.target := by
  simp only [transferIntent,bind_eq_ok,ensure_eq_ok,Bool.and_eq_true,bne_iff_ne] at h
  obtain ⟨source,-,target,-,-,⟨-,hne⟩,-,-,-,-,h⟩ := h
  rw [← Except.ok.inj h]
  exact ⟨rfl,rfl,hne⟩

theorem trim_orderId (h : transferIntent input=.ok intent) :
    trim intent.orderId=intent.orderId := by
  rw [(transferIntent_ok h).1,← toAsciiLowercase_trim,trim_trim]

theorem commit_transferWrite {work : PausedWork} {moved : MovedWork}
    (horder : trim intent.orderId=intent.orderId)
    (hnew : store.apparatusTransfers.get? (trim intent.idempotencyKey)=none)
    (h : commitApparatusTransfer ctx.digest store (transferWrite ctx store intent actor work moved) =
      .ok (record, next)) :
    record=(transferWrite ctx store intent actor work moved).record ∧
      commitNewTransfer ctx.digest store (transferWrite ctx store intent actor work moved)
        intent.source intent.target intent.orderId=.ok next := by
  have hrecord : (transferWrite ctx store intent actor work moved).record.idempotencyKey =
    intent.idempotencyKey := rfl
  have horderId : (transferWrite ctx store intent actor work moved).record.orderId =
    intent.orderId := rfl
  have hsource : (transferWrite ctx store intent actor work moved).record.fromApparatus =
    intent.source.value := rfl
  have htarget : (transferWrite ctx store intent actor work moved).targetApparatusId =
    intent.target.value := rfl
  simp only [commitApparatusTransfer,hrecord,hnew,hsource,htarget,
    ApparatusId.new_trim_value,bind_eq_ok,horderId,horder] at h
  obtain ⟨_,-,committed,hcommit,h⟩ := h
  have hnext : committed=next := congrArg Prod.snd (Except.ok.inj h)
  rw [← hnext]
  exact ⟨(congrArg Prod.fst (Except.ok.inj h)).symm,hcommit⟩

theorem committed_of_commit {write : ProductionMapApparatusTransferWrite}
    {digest : ProductionMapDefinition → String} {source target : ApparatusId} {orderId : String}
    (h : commitNewTransfer digest store write source target orderId=.ok next) :
    next=committed store write source target orderId := by
  simp only [commitNewTransfer,bind_eq_ok] at h
  obtain ⟨-,-,-,-,-,-,-,-,-,-,-,-,-,-,-,-,-,-,-,-,-,-,-,-,-,-,h⟩ := h
  exact (Except.ok.inj h).symm

theorem pausedWork_session {work : PausedWork} (h : pausedWork ctx store intent=.ok work) :
    work.session∈store.orderRunSessions.values ∧
      trim work.session.apparatus=intent.source.value := by
  simp only [pausedWork,bind_eq_ok] at h
  obtain ⟨map,-,-,-,-,-,source,-,target,-,-,-,-,-,-,-,-,-,session,hsession,h⟩ := h
  rw [← Except.ok.inj h]
  simp only [movableSession,bind_eq_ok,ensure_eq_ok,required_eq_ok,Bool.and_eq_true,
    beq_iff_eq] at hsession
  obtain ⟨found,hfound,-,⟨-,hon⟩,-,-,hsession⟩ := hsession
  rw [← Except.ok.inj hsession]
  exact ⟨List.mem_of_find?_eq_some hfound,hon⟩

theorem eq_of_accepted {α : Type} {answer : Except ProductionMapError α × TransferStore} {a : α}
    (h : answer.1.toOption=some a) : answer=(.ok a, answer.2) :=
  Prod.ext (toOption_eq_some.mp h) rfl

theorem transferResult_ok (h : transferResult ctx record=.ok answer) : answer=record := by
  simp only [transferResult,bind_eq_ok] at h
  obtain ⟨-,-,h⟩ := h
  exact (Except.ok.inj h).symm

theorem transferApparatusOrder_ok
    (hnew : store.apparatusTransfers.get? (trim input.idempotencyKey)=none)
    (h : transferApparatusOrder ctx store input actor=(.ok record, next)) :
    ∃ intent work moved, transferIntent input=.ok intent ∧
      pausedWork ctx store intent=.ok work ∧ movedWork ctx store intent actor work=.ok moved ∧
      record=(transferWrite ctx store intent actor work moved).record ∧
      commitNewTransfer ctx.digest store (transferWrite ctx store intent actor work moved)
        intent.source intent.target intent.orderId=.ok next := by
  unfold transferApparatusOrder at h
  cases hintent : transferIntent input with
  | error e => simp [hintent] at h
  | ok intent =>
    have hkey : store.apparatusTransfers.get? intent.idempotencyKey=none := by
      rw [(transferIntent_ok hintent).2.1,hnew]
    have hkey' : store.apparatusTransfers.get? (trim intent.idempotencyKey)=none := by
      rw [(transferIntent_ok hintent).2.1,trim_trim,hnew]
    simp only [hintent] at h
    cases hdone : transferIntended ctx store intent actor with
    | error e => simp [hdone] at h
    | ok done =>
      obtain ⟨written,after⟩ := done
      have hresult : transferResult ctx written=.ok record ∧ after=next := by
        simp only [hdone] at h
        split at h
        · exact Prod.mk.inj h
        · cases (Prod.mk.inj h).1
      rw [transferResult_ok hresult.1,← hresult.2]
      simp only [transferIntended,hkey,bind_eq_ok] at hdone
      obtain ⟨work,hwork,moved,hmoved,hcommit⟩ := hdone
      exact ⟨intent,work,moved,rfl,hwork,hmoved,
        commit_transferWrite (trim_orderId hintent) hkey' hcommit⟩

end Accepted

end MiniErp.Transfer
