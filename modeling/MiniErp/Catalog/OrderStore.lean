import MiniErp.Catalog.PrepareMap

/-! The stored orders with their queues, and the save of moved maps together with the two queues
of a move. -/
namespace MiniErp.Catalog
open Text Run Queue Chain Wip Std

inductive PrintPreflightStatus where
  | held
  | running
  | passed
  | failed
  | cancelled
  | consumed
  deriving DecidableEq, Repr

def PrintPreflightStatus.reservesApparatus : PrintPreflightStatus → Bool
  | .held | .running | .passed => true
  | _ => false

structure PrintPreflightHold where
  orderId : String
  apparatus : String
  status : PrintPreflightStatus
  deriving DecidableEq, Repr

abbrev Sequences := TreeMap String (List String)

/-- The memory store, as far as a move reads it. Batches are listed newest first. -/
structure OrderStore where
  maps : TreeMap String ProductionMapDefinition
  sequences : Sequences
  orderControls : TreeMap String OrderControlState
  stageOrderControls : List OrderControlRecord
  queueStates : TreeMap String StoredStates
  orderRunSessions : List OrderRunSession
  orderProgressBatches : List OrderProgressBatch
  printPreflightHolds : List PrintPreflightHold

namespace OrderStore
variable (store : OrderStore)

def mapList : List ProductionMapDefinition := store.maps.toList.map Prod.snd

def orderRunSessionsForOrder (orderId : String) : List OrderRunSession :=
  if isBlank orderId then []
  else store.orderRunSessions.filter fun session => trim session.orderId == trim orderId

def progressBatchesForOrder (orderId : String) : List OrderProgressBatch :=
  if isBlank orderId then []
  else store.orderProgressBatches.filter fun batch => trim batch.orderId == trim orderId

/-- What the checks of a save read. -/
def catalog : CatalogStore where
  maps := store.mapList
  stageOrderControlStates := store.stageOrderControls
  apparatusQueueStates := store.queueStates
  orderRunSessionsForOrder := store.orderRunSessionsForOrder
  progressBatchesForOrder := store.progressBatchesForOrder

theorem progressBatchesForOrder_catalog :
    store.catalog.progressBatchesForOrder=store.progressBatchesForOrder :=
  rfl

def activeOrderRunSession (apparatus : ApparatusId) (orderId : String) : Option OrderRunSession :=
  store.orderRunSessions.find? fun session =>
    apparatusIdsMatch session.apparatus apparatus.value &&
      trim session.orderId == trim orderId && session.status.isOpen

def addSequence (result : Sequences) (entry : String × List String) :
    Except ProductionMapError Sequences :=
  match ApparatusId.new (trim entry.1) with
  | none => .ok result
  | some id => do
    ensure (!result.contains id.value) .storeFailed
    return result.insert id.value entry.2

def apparatusSequences : Except ProductionMapError Sequences :=
  store.sequences.toList.foldlM addSequence ∅

end OrderStore

section
variable (map : ProductionMapDefinition)

def isTemplateMap : Bool := "template-".toList.isPrefixOf (trim map.id).toList

def isVisibleQueueOrder : Bool :=
  let orderId := trim map.id
  orderId != "" && !isTemplateMap map && (!isBlank map.code || !isBlank map.orderNumber ||
      "zakaz-".toList.isPrefixOf orderId.toList)

def stageApparatuses : List String :=
  ((linearWorkStages map).filterMap fun stage =>
    stage.apparatusId.map trim).eraseDups.filter ApparatusId.isValid

end

def addVisibleOrder (visible : Sequences) (map : ProductionMapDefinition) : Sequences :=
  if isVisibleQueueOrder map then
    (stageApparatuses map).foldl
      (fun visible apparatus =>
        visible.insert apparatus (visible.getD apparatus []++[trim map.id])) visible
  else visible

section
variable (maps : List ProductionMapDefinition)

def visibleOrderIdsByApparatus : Sequences := maps.foldl addVisibleOrder ∅

def effectiveSequence (visible sequences : Sequences) (frozenOrderIds : TreeSet String)
    (apparatus : String) : List String :=
  let stored := sequences.getD apparatus []
  let visibleOrderIds := visible.getD apparatus []
  if visibleOrderIds.isEmpty then stored
  else effectiveApparatusSequenceExcluding stored visibleOrderIds frozenOrderIds

def effectiveApparatusSequencesForMaps
    (sequences : Sequences) (frozenOrderIds : TreeSet String) : Sequences :=
  let visible := visibleOrderIdsByApparatus maps
  let apparatuses := (sequences.keys++visible.keys).filter isCanonicalApparatusId
  TreeMap.ofList (apparatuses.map fun apparatus =>
    (apparatus, effectiveSequence visible sequences frozenOrderIds apparatus))

/-- Among print alternatives an order belongs to the machine it is assigned to. -/
def printAssignmentAllowsOrder (map : ProductionMapDefinition)
    (apparatus : RuntimeApparatusConfiguration) : Bool :=
  let id := apparatus.runtime.apparatusId
  apparatus.runtime.executionProfile.operation != .print || map.nodes.any fun node =>
      node.kind == .apparatus && trim node.apparatusId == id &&
        (let group := trim node.alternativeGroupId
         let candidates := map.nodes.filter fun candidate =>
           candidate.kind == .apparatus && trim candidate.alternativeGroupId == group
         group == "" || (candidates.length == 1 && isBlank node.alternativeAssignedApparatusId) ||
           candidates.all fun candidate => trim candidate.alternativeAssignedApparatusId == id)

/-- The maps are collected by identity, where the last one of an identity stays. -/
def retainSelectedPrintOrders
    (apparatus : RuntimeApparatusConfiguration) (orders : List String) : List String :=
  if apparatus.runtime.executionProfile.operation != .print then orders
  else orders.filter fun id =>
    (maps.reverse.find? fun map => trim map.id == trim id).any fun map =>
      printAssignmentAllowsOrder map apparatus

def filterUnselectedPrintOrders
    (apparatuses : List RuntimeApparatusConfiguration) (orders : Sequences) : Sequences :=
  apparatuses.foldl
    (fun orders apparatus =>
      match orders[apparatus.runtime.apparatusId]? with
      | none => orders
      | some ids =>
        orders.insert apparatus.runtime.apparatusId (retainSelectedPrintOrders maps apparatus ids))
    orders

end

def rejectOrderNumberImmutable (maps : TreeMap String ProductionMapDefinition)
    (next : ProductionMapDefinition) : Except ProductionMapError Unit :=
  let id := trim next.id
  let orderNumber := trim next.orderNumber
  ensure (!"zakaz-".toList.isPrefixOf id.toList || orderNumber == "" ||
      maps[id]?.all fun existing =>
        isBlank existing.orderNumber || trim existing.orderNumber == orderNumber)
    .orderNumberImmutable

def putMap (maps : TreeMap String ProductionMapDefinition) (map : ProductionMapDefinition) :
    Except ProductionMapError (TreeMap String ProductionMapDefinition) := do
  rejectOrderNumberImmutable maps map
  ensure (isBlank map.orderNumber || !(maps.toList.any fun entry =>
      trim entry.2.orderNumber == trim map.orderNumber && entry.2.id != map.id))
    .duplicateOrderNumber
  return maps.insert map.id map

def putMapsWithSequences (store : OrderStore) (maps : List ProductionMapDefinition)
    (expectedSequences sequences : Sequences) : Except ProductionMapError OrderStore := do
  ensure (sequences.keys.all ApparatusId.isValid) .storeFailed
  ensure (expectedSequences.toList.all fun entry => store.sequences.getD entry.1 [] == entry.2)
    .queueReorderConflict
  let maps ← maps.foldlM putMap store.maps
  return { store with
    maps
    sequences := sequences.toList.foldl (fun all entry => all.insert entry.1 entry.2)
      store.sequences }

/-- The queue of one of the two machines of a move: the moved orders leave it and, on the target,
are appended. -/
def movedSequence (effective : Sequences) (updated : List ProductionMapDefinition)
    (target apparatus : String) : List String :=
  let moved := updated.map (·.id)
  let kept := (effective.getD apparatus []).filter fun id => !moved.contains id
  if apparatus == target then kept++moved else kept

def persistPendingMoveMaps (resolver : ApparatusResolver) (store : OrderStore)
    (updated : List ProductionMapDefinition) (source target : String) :
    Except ProductionMapError OrderStore := do
  let stored ← store.apparatusSequences
  let frozen := TreeSet.ofList
    ((store.orderControls.toList.filter fun entry => entry.2 == .frozen).map Prod.fst)
  let apparatuses ← resolver.activeCanonicalApparatuses
  let effective := filterUnselectedPrintOrders store.mapList apparatuses
    (effectiveApparatusSequencesForMaps store.mapList stored frozen)
  let both := [source,target]
  putMapsWithSequences store updated
    (TreeMap.ofList (both.map fun apparatus => (apparatus, stored.getD apparatus [])))
    (TreeMap.ofList (both.map fun apparatus =>
      (apparatus, movedSequence effective updated target apparatus)))

end MiniErp.Catalog
