import MiniErp.Capacity.Reservations
import MiniErp.Lib.Table
import MiniErp.Materials.Requirements
import MiniErp.Queue.SessionWrite
import MiniErp.Stage.Inputs
import MiniErp.Transfer.Printing

/-! The tables of the memory store that a transfer to another machine reads and writes, and the
commit of a prepared transfer. Tables by machine are keyed by canonical identities, so that their
read side returns them as they are. The batches of an opening stock record are rows that name
their record. -/
namespace MiniErp.Transfer
open Text Run Queue Wip Stage Catalog Capacity Materials Std

instance : Ord ApparatusId where
  compare a b := compare a.value b.value

instance : TransOrd ApparatusId := inferInstanceAs (TransCmp (compareOn ApparatusId.value))

instance : LawfulEqOrd ApparatusId where
  eq_of_compare {a b} h := by
    have hvalue : a.value=b.value := LawfulEqOrd.eq_of_compare (a := a.value) h
    cases a
    cases b
    simp_all

deriving instance DecidableEq for OrderRunSession

deriving instance DecidableEq for OrderProgressBatch

structure StoredBatch extends OrderProgressBatch where
  batchId : String
  parentBatchId : String
  deriving DecidableEq

def StoredBatch.refreshStatusDetail (batch : StoredBatch) : StoredBatch :=
  { batch with toOrderProgressBatch := batch.toOrderProgressBatch.refreshStatusDetail }

structure OpeningWipBatch where
  batchId : String
  intakeId : String
  wipStatus : OpeningWipBatchStatus
  usedBySessionId : String
  usedByApparatus : String
  updatedAtUnix : Int
  deriving DecidableEq

structure OpeningWipIntake where
  intakeId : String
  orderId : String
  createdAtUnix : Int

structure ProductionMapApparatusTransferRecord where
  transferId : String
  idempotencyKey : String
  orderId : String
  fromApparatus : String
  toApparatus : String
  reason : String
  actor : MiniErp.QueueActionActor
  sessionId : String
  progressBatchId : String
  queueState : ApparatusQueueOrderState
  materialBarcodes : List String
  map : ProductionMapDefinition
  session : OrderRunSession
  progressBatch : Option StoredBatch
  progressBatchUpdates : List StoredBatch
  preservesOutputHistory : Bool
  createdAtUnix : Int

structure TransferStore where
  maps : Table fun map : ProductionMapDefinition => trim map.id
  sequences : TreeMap ApparatusId (List String)
  queueStates : TreeMap ApparatusId StoredStates
  orderControls : List OrderControlRecord
  stageOrderControls : List OrderControlRecord
  orderRunSessions : Table fun session : OrderRunSession => trim session.sessionId
  orderProgressBatches : Table fun batch : StoredBatch => trim batch.batchId
  openingWipIntakes : Table OpeningWipIntake.intakeId
  openingWipBatches : Table OpeningWipBatch.batchId
  materialAssignments : Table fun assignment : RawMaterialAssignment =>
    toAsciiUppercase (trim assignment.barcode)
  apparatusScheduleReservations : Table ApparatusScheduleReservation.reservationId
  apparatusTransfers : Table fun record : ProductionMapApparatusTransferRecord =>
    trim record.idempotencyKey

structure ProductionMapApparatusTransferWrite where
  record : ProductionMapApparatusTransferRecord
  expectedMap : Option ProductionMapDefinition
  expectedSession : Option OrderRunSession
  expectedInputBatches : List StoredBatch
  openingWipBatchUpdates : List OpeningWipBatch
  updatedMap : ProductionMapDefinition
  fromSequence : List String
  toSequence : List String
  fromStates : StoredStates
  toStates : StoredStates
  targetApparatusId : String
  session : OrderRunSession
  progressBatch : Option StoredBatch
  progressBatchUpdates : List StoredBatch
  rawMaterialAssignments : List RawMaterialAssignment

def isRequeuedAtTail (session : OrderRunSession) : Bool :=
  session.status == .paused && payloadFlag session.payloadJson "requeued_at_tail"

def isPrintTransferContinuation (session : OrderRunSession) : Bool :=
  (session.payloadJson.get "_print_transfer").any fun marker =>
    (marker.get "session_id").bind Json.asStr == some session.sessionId &&
      (marker.get "apparatus").bind Json.asStr == some session.apparatus &&
      (marker.get "stage_node_id").bind Json.asStr == some session.stageNodeId &&
      ((marker.get "transfer_id").bind Json.asStr).any (· != "")

/-- The mold codes a payload lists after its main one; `none` when the list is malformed. -/
def listedQolipCodes (payload : Json) : Option (List String) :=
  match payload.get "qolip_codes" with
  | none => some []
  | some (.array items) => items.mapM fun item => (item.asStr.map trim).filter (· != "")
  | some _ => none

def addQolipCode (codes : List String) (code : String) : List String :=
  if codes.any fun existing => eqIgnoreAsciiCase existing code then codes else codes++[code]

def sessionQolipCodes (session : OrderRunSession) : List String :=
  let payload := session.payloadJson
  if !payloadFlag payload "qolip_lock_owner" then []
  else
    let main := (((payload.get "qolip_code").bind Json.asStr).map trim).filter (· != "")
    ((listedQolipCodes payload).map fun codes => (main.toList++codes).foldl addQolipCode []).getD []

/-- The float fields of a map. -/
def mapNumbers (map : ProductionMapDefinition) : List F64 :=
  map.widthMm.toList++map.printValSizeMm.toList++map.orderKg.toList ++
    map.baseLength.toList++map.products.map (·.frameProductSizeMm) ++
    map.nodes.flatMap fun node => node.rezkaLabelLength.toList++[node.x,node.y]

/-- `==` on maps; a map with a NaN is equal to no map. -/
def mapsEqual (a b : ProductionMapDefinition) : Bool := a == b && !(mapNumbers a).contains .nan

def checkOrderControl (controls : List OrderControlRecord) (orderId : String) :
    Except ProductionMapError Unit :=
  match controls.find? fun control => eqIgnoreAsciiCase (trim control.orderId) orderId with
  | none => .ok ()
  | some control =>
    match control.state with
    | .active => .ok ()
    | .freezeRequested => .error .orderFreezeRequested
    | .frozen => .error .orderFrozen

namespace TransferStore
variable (store : TransferStore)

def activeOrderRunSession (apparatus : ApparatusId) (orderId : String) : Option OrderRunSession :=
  store.orderRunSessions.values.find? fun session =>
    apparatusIdsMatch session.apparatus apparatus.value &&
      trim session.orderId == trim orderId && session.status.isOpen

def progressBatchesForOrder (orderId : String) : List StoredBatch :=
  if isBlank orderId then []
  else
    (store.orderProgressBatches.values.filter fun batch =>
      trim batch.orderId == trim orderId).insertionSort fun a b => b.batchId≤a.batchId

/-- The records are listed newest first; the query returns at most 100000 of all orders. -/
def openingWipRecordsForOrder (orderId : String) : List OpeningWipIntake :=
  ((store.openingWipIntakes.values.insertionSort fun a b =>
      b.createdAtUnix<a.createdAtUnix ∨
        b.createdAtUnix=a.createdAtUnix ∧ b.intakeId≤a.intakeId).take 100000).filter
    fun intake => trim intake.orderId == orderId

def openingWipBatchesForOrder (orderId : String) : List OpeningWipBatch :=
  (store.openingWipRecordsForOrder orderId).flatMap fun intake =>
    store.openingWipBatches.values.filter fun batch => batch.intakeId == intake.intakeId

end TransferStore

def transferRecordMatches (record : ProductionMapApparatusTransferRecord)
    (orderId source target : String) : Bool :=
  trim record.orderId == orderId && trim record.fromApparatus == source &&
    trim record.toApparatus == target

section Commit
variable (digest : ProductionMapDefinition → String) (store : TransferStore)
  (write : ProductionMapApparatusTransferWrite)

section
variable (source : ApparatusId) (orderId : String)

/-- The stored state of the order on the source machine, without surrounding blanks. -/
def storedSourceState : Option String :=
  ((store.queueStates[source]?).bind fun states => states[orderId]?).map trim

def checkStoredState (state : Option String) : Except ProductionMapError Unit :=
  if state=some "paused" ∨ state=some "pending" then .ok ()
  else if state=some "frozen" then .error .orderFrozen
  else if state=some "completed" then .error .orderAlreadyCompleted
  else .error .apparatusTransferOrderNotPaused

def checkCommitSession (current : OrderRunSession) (source : ApparatusId) (orderId : String)
    (state : Option String) : Except ProductionMapError Unit := do
  ensure (trim current.orderId == orderId && apparatusIdsMatch current.apparatus source.value &&
      (current.status == .paused ||
        (write.record.preservesOutputHistory && current.status == .rollDetached)))
    .apparatusTransferSessionMismatch
  ensure (!(state == some "pending" && !isRequeuedAtTail current) &&
      state == some write.record.queueState.asStr)
    .apparatusTransferOrderNotPaused
  ensure (write.expectedSession.all fun expected => expected == current)
    .apparatusTransferSessionMismatch

def checkPausedBatch (batch : StoredBatch) (source : ApparatusId) (orderId : String) :
    Except ProductionMapError Unit := do
  let current ← required (store.orderProgressBatches.get? (trim write.record.progressBatchId))
    .apparatusTransferProgressNotFound
  ensure (trim current.orderId == orderId &&
      trim current.sessionId == trim write.record.sessionId &&
      apparatusIdsMatch current.apparatus source.value && current.action == .pause &&
      current.status == .paused && batch.batchId == current.batchId)
    .apparatusTransferProgressMismatch

def checkPrintingWrite (orderId : String) : Except ProductionMapError Unit := do
  ensure (isPrintTransferContinuation write.session && write.progressBatch.isNone &&
      write.record.progressBatchId == "")
    .apparatusTransferProgressMismatch
  let expected ← required write.expectedMap .wipRouteChanged
  validateMapWipRoutes digest expected write.updatedMap
    ((store.orderProgressBatches.values.filter fun batch => trim batch.orderId == orderId).map
      (·.toOrderProgressBatch))

def checkCommitProgress (current : OrderRunSession) (source : ApparatusId) (orderId : String)
    (state : Option String) : Except ProductionMapError Unit :=
  if write.record.preservesOutputHistory then checkPrintingWrite digest store write orderId
  else
    match write.progressBatch with
    | some batch => checkPausedBatch store write batch source orderId
    | none =>
      ensure (state == some "pending" && isRequeuedAtTail current &&
          write.record.progressBatchId == "" && !store.orderProgressBatches.values.any fun batch =>
            batch.sessionId == current.sessionId && batch.apparatus == source.value &&
              batch.action == .pause && batch.status == .paused)
        .apparatusTransferProgressMismatch

def checkProgressUpdate (update : StoredBatch) : Except ProductionMapError Unit := do
  let current ← required (store.orderProgressBatches.get? (trim update.batchId))
    .apparatusTransferProgressMismatch
  ensure (trim current.orderId == orderId) .apparatusTransferProgressMismatch
  ensure (!write.record.preservesOutputHistory ||
      (write.expectedInputBatches.contains current && current.wipStatus == .inUse &&
        current.usedBySessionId == write.session.sessionId &&
        current.usedByApparatus == source.value))
    .wipRouteChanged

def checkOpeningUpdate (source : ApparatusId) (update : OpeningWipBatch) :
    Except ProductionMapError Unit := do
  let current ← required (store.openingWipBatches.get? update.batchId) .progressBatchNotResumable
  ensure (current.wipStatus == .inUse && current.usedBySessionId == write.session.sessionId &&
      current.usedByApparatus == source.value)
    .progressBatchNotResumable

def checkAssignment (assignment : RawMaterialAssignment) : Except ProductionMapError Unit := do
  let current ← required
    (store.materialAssignments.get? (toAsciiUppercase (trim assignment.barcode)))
    .rawMaterialAssignmentNotFound
  ensure (trim current.orderId == orderId && current.apparatusId == source)
    .rawMaterialAssignmentNotFound

end

def checkQolips : Except ProductionMapError Unit :=
  let codes := sessionQolipCodes write.session
  ensure (codes.isEmpty || !store.orderRunSessions.values.any fun session =>
      session.sessionId != write.session.sessionId && session.status.isOpen &&
        codes.any fun code => (sessionQolipCodes session).any fun existing =>
          eqIgnoreAsciiCase existing code)
    .qolipAlreadyInUse

section
variable (source target : ApparatusId) (orderId : String)

/-- The paused reservation of the order follows it to the target. -/
def movedReservations : Table ApparatusScheduleReservation.reservationId :=
  match store.apparatusScheduleReservations.values.find? fun reservation =>
      trim reservation.orderId == orderId && reservation.status == .paused &&
        reservation.apparatusId == source with
  | none => store.apparatusScheduleReservations
  | some reservation => store.apparatusScheduleReservations.insert
      { reservation with
        apparatusId := target
        apparatus := target.value
        actor := write.record.actor }

def committed : TransferStore :=
  { store with
    maps := store.maps.insert write.updatedMap
    sequences := (store.sequences.insert source write.fromSequence).insert target write.toSequence
    queueStates := (store.queueStates.insert source write.fromStates).insert target write.toStates
    orderRunSessions := store.orderRunSessions.insert write.session
    orderProgressBatches := (store.orderProgressBatches.insertAll write.progressBatch.toList).insertAll
      write.progressBatchUpdates
    openingWipBatches := store.openingWipBatches.insertAll write.openingWipBatchUpdates
    materialAssignments := store.materialAssignments.insertAll write.rawMaterialAssignments
    apparatusScheduleReservations := movedReservations store write source target orderId
    apparatusTransfers := store.apparatusTransfers.insert write.record }

def commitNewTransfer : Except ProductionMapError TransferStore := do
  let state := storedSourceState store source orderId
  checkStoredState state
  ensure (!(store.queueStates[target]?).any fun states => states.contains orderId)
    .apparatusTransferTargetConflict
  ensure (store.activeOrderRunSession target orderId).isNone .apparatusTransferTargetConflict
  checkOrderControl store.orderControls orderId
  let current ← required (store.orderRunSessions.get? (trim write.record.sessionId))
    .apparatusTransferSessionNotFound
  checkCommitSession write current source orderId state
  ensure (write.expectedMap.all fun expected =>
      (store.maps.get? orderId).any fun stored => mapsEqual stored expected)
    .wipRouteChanged
  checkCommitProgress digest store write current source orderId state
  write.progressBatchUpdates.forM (checkProgressUpdate store write source orderId)
  write.openingWipBatchUpdates.forM (checkOpeningUpdate store write source)
  write.rawMaterialAssignments.forM (checkAssignment store source orderId)
  ensure (store.maps.get? orderId).isSome .mapNotFound
  checkQolips store write
  return committed store write source target orderId

end

def commitApparatusTransfer :
    Except ProductionMapError (ProductionMapApparatusTransferRecord × TransferStore) :=
  let record := write.record
  let orderId := trim record.orderId
  match store.apparatusTransfers.get? (trim record.idempotencyKey) with
  | some existing => do
    ensure (transferRecordMatches existing orderId (trim record.fromApparatus)
        (trim record.toApparatus))
      .apparatusTransferIdempotencyConflict
    return (existing, store)
  | none =>
    match ApparatusId.new (trim record.fromApparatus),
        ApparatusId.new (trim write.targetApparatusId) with
    | some source, some target => do
      ensure (target.value == trim record.toApparatus) .moveNotAllowed
      return (record, ← commitNewTransfer digest store write source target orderId)
    | _, _ => .error .moveNotAllowed

end Commit

end MiniErp.Transfer
