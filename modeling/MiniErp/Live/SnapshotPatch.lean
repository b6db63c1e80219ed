import MiniErp.Lib.TableDiff
import MiniErp.Live.SequenceEdit

/-! The patch from one live snapshot to the next, in the full and the compact protocol, and the
client that applies it to the snapshot it holds. -/
namespace MiniErp.Live
open Std TableDiff

/-- The records that a snapshot carries as values: their equality, their JSON and the ids they are
kept under. -/
structure SnapshotTypes where
  Saved : Type
  Policy : Type
  Control : Type
  Status : Type
  OrderControl : Type
  Frozen : Type
  savedEq : DecidableEq Saved
  policyEq : DecidableEq Policy
  controlEq : DecidableEq Control
  statusEq : DecidableEq Status
  orderControlEq : DecidableEq OrderControl
  frozenEq : DecidableEq Frozen
  mapId : Saved → String
  apparatusId : Policy → String
  savedJson : Saved → Json
  policyJson : Policy → Json
  controlJson : Control → Json
  statusJson : Status → Json
  orderControlJson : OrderControl → Json
  frozenJson : Frozen → Json

attribute [instance] SnapshotTypes.savedEq SnapshotTypes.policyEq SnapshotTypes.controlEq
  SnapshotTypes.statusEq SnapshotTypes.orderControlEq SnapshotTypes.frozenEq

structure ProductionMapLiveSnapshot (T : SnapshotTypes) where
  sequenceVersions : TreeMap String String
  sequenceRevisions : TreeMap String Int
  maps : List T.Saved
  sequences : TreeMap String (List String)
  visibleOrderIds : TreeMap String (List String)
  sequencePositionsByApparatus : TreeMap String (TreeMap String Nat)
  queueStates : TreeMap String (TreeMap String String)
  stageStates : TreeMap String (TreeMap String String)
  queuePolicies : List T.Policy
  queueActionControls : TreeMap String (TreeMap String T.Control)
  orderStatuses : TreeMap String T.Status
  orderControls : TreeMap String T.OrderControl
  stageOrderControls : List T.OrderControl
  frozenOrdersByApparatus : TreeMap String (List T.Frozen)

section Patches
variable {β : Type} [DecidableEq β]

def changeJson (upsert : List (String × Json)) (remove : List String) : Json :=
  Json.ofFields [("upsert", .object upsert),("remove", idsJson remove)]

def mapPatch (toJson : β → Json) (before after : TreeMap String β) : Option Json :=
  let upsert := upserts before after
  let remove := removals before after
  if upsert=[] ∧ remove=[] then none
  else some (changeJson (upsert.map fun entry => (entry.1, toJson entry.2)) remove)

/-- The change of one scope; a new scope is sent even where it is empty. -/
def scopePatch (toJson : β → Json) (before : TreeMap String (TreeMap String β)) (scope : String)
    (values : TreeMap String β) : Option Json :=
  (mapPatch toJson (before[scope]?.getD ∅) values).or
    (if before.contains scope then none else some (changeJson [] []))

def nestedPatch (toJson : β → Json) (before after : TreeMap String (TreeMap String β)) :
    Option Json :=
  let scopes := after.toList.filterMap fun entry =>
    (scopePatch toJson before entry.1 entry.2).map fun patch => (entry.1, patch)
  let remove := removals before after
  if scopes.isEmpty ∧ remove=[] then none
  else some (Json.ofFields [("scopes", .object scopes),("remove", idsJson remove)])

end Patches

def listEdit (before : TreeMap String (List String)) (entry : String × List String) : Option Json :=
  before[entry.1]?.bind fun previous => sequenceEdit previous entry.2

def sequenceMapPatch (before after : TreeMap String (List String)) : Option Json :=
  let changed := upserts before after
  let upsert := changed.filter fun entry => (listEdit before entry).isNone
  let edit := changed.filterMap fun entry => (listEdit before entry).map fun edit => (entry.1, edit)
  let remove := removals before after
  if upsert=[] ∧ edit.isEmpty ∧ remove=[] then none
  else some (Json.ofFields
    [("upsert", .object (upsert.map fun entry => (entry.1, idsJson entry.2))),
      ("remove", idsJson remove),("edit", .object edit)])

/-- Records by their id; of records with one id the last is kept. -/
def byId {α : Type} (key : α → String) (items : List α) : TreeMap String α :=
  TreeMap.ofList (items.map fun item => (key item, item))

section Snapshot
variable {T : SnapshotTypes}

def listPatch (compact : Bool) (before after : TreeMap String (List String)) : Option Json :=
  if compact then sequenceMapPatch before after else mapPatch idsJson before after

def mapOrderEdit (compact : Bool) (before after : List String) : Option Json :=
  if before=after ∨ !compact then none else sequenceEdit before after

def mapOrder (compact : Bool) (before after : List String) : Option Json :=
  if before=after ∨ (mapOrderEdit compact before after).isSome then none
  else some (idsJson after)

/-- The fields of the patch with what each changes, in the order they are inserted. -/
def patchFields (old new : ProductionMapLiveSnapshot T) (compact : Bool) :
    List (String × Option Json) :=
  [("sequences", listPatch compact old.sequences new.sequences),
    ("visible_order_ids", listPatch compact old.visibleOrderIds new.visibleOrderIds),
    ("sequence_versions", mapPatch .string old.sequenceVersions new.sequenceVersions),
    ("sequence_revisions", mapPatch (fun revision => .number (.int revision))
      old.sequenceRevisions new.sequenceRevisions),
    ("order_statuses", mapPatch T.statusJson old.orderStatuses new.orderStatuses),
    ("order_controls", mapPatch T.orderControlJson old.orderControls new.orderControls),
    ("stage_order_controls",
      if old.stageOrderControls≠new.stageOrderControls
      then some (.array (new.stageOrderControls.map T.orderControlJson)) else none),
    ("frozen_orders_by_apparatus", mapPatch (fun orders => .array (orders.map T.frozenJson))
      old.frozenOrdersByApparatus new.frozenOrdersByApparatus),
    ("sequence_positions_by_apparatus", nestedPatch natJson old.sequencePositionsByApparatus
      new.sequencePositionsByApparatus),
    ("queue_states", nestedPatch .string old.queueStates new.queueStates),
    ("stage_states", nestedPatch .string old.stageStates new.stageStates),("queue_action_controls",
      nestedPatch T.controlJson old.queueActionControls new.queueActionControls),
    ("maps", mapPatch T.savedJson (byId T.mapId old.maps) (byId T.mapId new.maps)),
    ("map_order_edit", mapOrderEdit compact (old.maps.map T.mapId) (new.maps.map T.mapId)),
    ("map_order", mapOrder compact (old.maps.map T.mapId) (new.maps.map T.mapId)),
    ("queue_policies", mapPatch T.policyJson (byId T.apparatusId old.queuePolicies)
        (byId T.apparatusId new.queuePolicies))]

def presentFields (fields : List (String × Option Json)) : List (String × Json) :=
  fields.filterMap fun field => field.2.map fun value => (field.1, value)

def snapshotPatchForProtocol (old new : ProductionMapLiveSnapshot T) (compact : Bool) :
    List (String × Json) :=
  (presentFields (patchFields old new compact)).foldl
    (fun patch field => Json.setField field.1 field.2 patch) []

end Snapshot

structure ClientState where
  keyed : List (String × TreeMap String Json)
  nested : List (String × TreeMap String (TreeMap String Json))
  stageOrderControls : Json
  maps : TreeMap String Json
  mapOrder : List String

/-- One edit, replayed on the list held before the patch. -/
def replayEdit (before result : TreeMap String Json) (edit : String × Json) :
    Option (TreeMap String Json) := do
  let previous ← before[edit.1]?.bind Json.asStrings
  let next ← applySequenceEdit previous edit.2
  return result.insert edit.1 (idsJson next)

def fieldPatch (before : TreeMap String Json) (patch : Json) : Option (TreeMap String Json) := do
  let remove ← (patch.get "remove").bind Json.asStrings
  let .object upsert ← patch.get "upsert" | none
  let written := writeAll upsert (dropKeys remove before)
  match patch.get "edit" with
  | none => some written
  | some (.object edits) => edits.foldlM (replayEdit before) written
  | some _ => none

def applyScope (nested : TreeMap String (TreeMap String Json)) (change : String × Json) :
    Option (TreeMap String (TreeMap String Json)) := do
  let values ← fieldPatch (nested[change.1]?.getD ∅) change.2
  return nested.insert change.1 values

def nestedFieldPatch (before : TreeMap String (TreeMap String Json)) (patch : Json) :
    Option (TreeMap String (TreeMap String Json)) := do
  let remove ← (patch.get "remove").bind Json.asStrings
  let .object scopes ← patch.get "scopes" | none
  scopes.foldlM applyScope (dropKeys remove before)

/-- A field that the patch does not name stays as it is. -/
def applyField {σ : Type} (apply : σ → Json → Option σ) (patch : List (String × Json))
    (name : String) (held : σ) : Option σ :=
  match patch.lookup name with
  | none => some held
  | some change => apply held change

def applyMapOrder (patch : List (String × Json)) (held : List String) : Option (List String) :=
  match patch.lookup "map_order", patch.lookup "map_order_edit" with
  | some order, _ => order.asStrings
  | none, some edit => applySequenceEdit held edit
  | none, none => some held

def applyPatch (patch : List (String × Json)) (state : ClientState) : Option ClientState := do
  let keyed ← state.keyed.mapM fun field =>
    (applyField fieldPatch patch field.1 field.2).map fun values => (field.1, values)
  let nested ← state.nested.mapM fun field =>
    (applyField nestedFieldPatch patch field.1 field.2).map fun values => (field.1, values)
  let maps ← applyField fieldPatch patch "maps" state.maps
  let mapOrder ← applyMapOrder patch state.mapOrder
  return {
    keyed, nested, maps, mapOrder
    stageOrderControls := (patch.lookup "stage_order_controls").getD state.stageOrderControls }

section Client
variable {T : SnapshotTypes}

def jsonTable {β : Type} (toJson : β → Json) (table : TreeMap String β) : TreeMap String Json :=
  table.map fun _ value => toJson value

/-- A client right after it has read the whole snapshot. -/
def clientState (snapshot : ProductionMapLiveSnapshot T) : ClientState where
  keyed :=
    [("sequences", jsonTable idsJson snapshot.sequences),
      ("visible_order_ids", jsonTable idsJson snapshot.visibleOrderIds),
      ("sequence_versions", jsonTable .string snapshot.sequenceVersions),("sequence_revisions",
        jsonTable (fun revision => .number (.int revision)) snapshot.sequenceRevisions),
      ("order_statuses", jsonTable T.statusJson snapshot.orderStatuses),
      ("order_controls", jsonTable T.orderControlJson snapshot.orderControls),
      ("frozen_orders_by_apparatus", jsonTable (fun orders => .array (orders.map T.frozenJson))
        snapshot.frozenOrdersByApparatus),
      ("queue_policies", jsonTable T.policyJson (byId T.apparatusId snapshot.queuePolicies))]
  nested :=
    [("sequence_positions_by_apparatus",
        snapshot.sequencePositionsByApparatus.map fun _ => jsonTable natJson),
      ("queue_states", snapshot.queueStates.map fun _ => jsonTable .string),
      ("stage_states", snapshot.stageStates.map fun _ => jsonTable .string),
      ("queue_action_controls", snapshot.queueActionControls.map fun _ => jsonTable T.controlJson)]
  stageOrderControls := .array (snapshot.stageOrderControls.map T.orderControlJson)
  maps := jsonTable T.savedJson (byId T.mapId snapshot.maps)
  mapOrder := snapshot.maps.map T.mapId

structure ClientView where
  keyed : List (String × List (String × Json))
  nested : List (String × List (String × List (String × Json)))
  stageOrderControls : Json
  maps : List Json

def scopeLists {β : Type} (table : TreeMap String (TreeMap String β)) :
    List (String × List (String × β)) :=
  (table.map fun _ values => values.toList).toList

def ClientState.view (state : ClientState) : ClientView where
  keyed := state.keyed.map fun field => (field.1, field.2.toList)
  nested := state.nested.map fun field => (field.1, scopeLists field.2)
  stageOrderControls := state.stageOrderControls
  maps := state.mapOrder.filterMap fun id => state.maps[id]?

/-- Equal snapshots: the same content in every field, the policies as a table by apparatus. -/
structure ProductionMapLiveSnapshot.Same (old new : ProductionMapLiveSnapshot T) : Prop where
  sequenceVersions : old.sequenceVersions.toList=new.sequenceVersions.toList
  sequenceRevisions : old.sequenceRevisions.toList=new.sequenceRevisions.toList
  maps : old.maps=new.maps
  sequences : old.sequences.toList=new.sequences.toList
  visibleOrderIds : old.visibleOrderIds.toList=new.visibleOrderIds.toList
  sequencePositionsByApparatus :
    scopeLists old.sequencePositionsByApparatus=scopeLists new.sequencePositionsByApparatus
  queueStates : scopeLists old.queueStates=scopeLists new.queueStates
  stageStates : scopeLists old.stageStates=scopeLists new.stageStates
  queuePolicies : (byId T.apparatusId old.queuePolicies).toList =
    (byId T.apparatusId new.queuePolicies).toList
  queueActionControls : scopeLists old.queueActionControls=scopeLists new.queueActionControls
  orderStatuses : old.orderStatuses.toList=new.orderStatuses.toList
  orderControls : old.orderControls.toList=new.orderControls.toList
  stageOrderControls : old.stageOrderControls=new.stageOrderControls
  frozenOrdersByApparatus : old.frozenOrdersByApparatus.toList=new.frozenOrdersByApparatus.toList

end Client

end MiniErp.Live
